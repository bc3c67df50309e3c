/-!
# Splitting text at a character

## Main definitions

- `Text.split` — the pieces of a text between the occurrences of a separator
- `Text.cut?` — the parts before and after the first occurrence of a separator

## Main statements

- `Text.split_append` — text joined by a separator splits into the pieces of both sides
- `Text.cut?_eq_some_iff` — a cut is the text with a first part free of the separator
-/

namespace TriggerWatch.Text

/-- The pieces of a text between the occurrences of `sep`: one more than there are separators. -/
def split (sep : Char) : List Char → List (List Char)
  | [] => [[]]
  | c :: rest =>
    if c = sep then [] :: split sep rest
    else
      match split sep rest with
      | [] => [[c]]
      | piece :: pieces => (c :: piece) :: pieces

/-- The parts before and after the first `sep`, if there is one. -/
def cut? (sep : Char) : List Char → Option (List Char × List Char)
  | [] => none
  | c :: rest =>
    if c = sep then some ([], rest)
    else (cut? sep rest).map fun p => (c :: p.1, p.2)

/-- The pieces of a string between the occurrences of `sep`. -/
def pieces (sep : Char) (s : String) : List String := (split sep s.toList).map String.ofList

theorem split_ne_nil (sep : Char) (cs : List Char) : split sep cs ≠ [] := by
  cases cs with
  | nil => simp [split]
  | cons c rest =>
    unfold split
    split
    · simp
    · split <;> simp

/-- Text joined by a separator splits into the pieces of both sides. -/
theorem split_append (sep : Char) (a b : List Char) :
    split sep (a ++ sep :: b) = split sep a ++ split sep b := by
  induction a with
  | nil => simp [split]
  | cons c rest ih =>
    rw [List.cons_append]
    by_cases h : c = sep
    · simp [split, h, ih]
    · have := split_ne_nil sep rest
      simp only [split, h, if_false, ih]
      cases hs : split sep rest with
      | nil => exact absurd hs this
      | cons p ps => simp

/-- A cut is the text with a first part free of the separator. -/
theorem cut?_eq_some_iff (sep : Char) (cs before after : List Char) :
    cut? sep cs = some (before, after) ↔ cs = before ++ sep :: after ∧ sep ∉ before := by
  induction cs generalizing before with
  | nil => simp [cut?]
  | cons c rest ih =>
    unfold cut?
    by_cases h : c = sep
    · subst h
      cases before with
      | nil => simp
      | cons d ds =>
        simp only [if_true, Option.some.injEq, Prod.mk.injEq, reduceCtorEq, false_and,
          List.cons_append, List.cons.injEq, List.mem_cons, not_or, false_iff]
        rintro ⟨⟨rfl, _⟩, hne, _⟩
        exact hne rfl
    · cases before with
      | nil => simp [h]
      | cons d ds =>
        simp only [h, if_false, Option.map_eq_some_iff, Prod.mk.injEq, List.cons.injEq,
          List.cons_append, List.mem_cons, not_or, Prod.exists]
        constructor
        · rintro ⟨x, y, hxy, ⟨rfl, rfl⟩, rfl⟩
          obtain ⟨hr, hn⟩ := (ih x).1 hxy
          exact ⟨⟨rfl, hr⟩, fun e => h e.symm, hn⟩
        · rintro ⟨⟨rfl, hr⟩, _, hn⟩
          exact ⟨ds, after, (ih ds).2 ⟨hr, hn⟩, ⟨rfl, rfl⟩, rfl⟩

end TriggerWatch.Text
