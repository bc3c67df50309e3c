/-!
# Finite maps keyed by text

A `Dict α` is an association list whose keys are kept in ascending order of their code points, so
that two dictionaries built from the same bindings in any order are the same list.

## Main definitions

- `Dict.get?` — the value bound to a key
- `Dict.insert` — bind a key, replacing an older binding
- `Dict.extend` — bind every key of a second dictionary, which wins where both bind one
- `Dict.erase` — remove a key
- `Dict.ofList` — bind pairs from left to right, so the last pair of a key wins

## Main statements

- `Dict.get?_insert` — an insertion is seen at its own key and nowhere else
- `Dict.get?_extend` — an extension is the right-biased union
- `Dict.get?_erase` — a removal is seen at its own key and nowhere else
-/

namespace TriggerWatch

/-- A finite map from text to `α`, as bindings in ascending order of keys. -/
abbrev Dict (α : Type) := List (String × α)

namespace Dict

variable {α : Type}

/-- The value bound to `key`. -/
def get? : Dict α → String → Option α
  | [], _ => none
  | (k, v) :: rest, key => if k = key then some v else get? rest key

/-- Whether `key` is bound. -/
def has (d : Dict α) (key : String) : Bool := (d.get? key).isSome

/-- Bind `key` to `value`. The new binding stands before the first larger key. -/
def insert : Dict α → String → α → Dict α
  | [], key, value => [(key, value)]
  | (k, v) :: rest, key, value =>
    if k = key then (key, value) :: rest
    else if key < k then (key, value) :: (k, v) :: rest
    else (k, v) :: insert rest key value

/-- Bind the pairs of a list from left to right on top of `d`. -/
def insertAll (d : Dict α) (pairs : List (String × α)) : Dict α :=
  pairs.foldl (fun acc p => acc.insert p.1 p.2) d

/-- The dictionary of a list of pairs; the last pair of a key wins. -/
def ofList (pairs : List (String × α)) : Dict α := insertAll [] pairs

/-- Bind every key of `e` on top of `d`; where both bind a key, `e` wins. -/
def extend (d e : Dict α) : Dict α := d.insertAll e

/-- Remove every binding of `key`. -/
def erase (d : Dict α) (key : String) : Dict α := d.filter fun p => p.1 ≠ key

/-- The bound keys in ascending order. -/
def keys (d : Dict α) : List String := d.map Prod.fst

/-- Apply `f` to every value. -/
def mapValues {β : Type} (f : α → β) (d : Dict α) : Dict β := d.map fun p => (p.1, f p.2)

@[simp] theorem get?_nil (key : String) : get? ([] : Dict α) key = none := rfl

theorem get?_cons (k : String) (v : α) (rest : Dict α) (key : String) :
    get? ((k, v) :: rest) key = if k = key then some v else get? rest key := rfl

/-- An insertion is seen at its own key and nowhere else. -/
theorem get?_insert (d : Dict α) (key : String) (value : α) (other : String) :
    (d.insert key value).get? other = if key = other then some value else d.get? other := by
  induction d with
  | nil => rfl
  | cons p rest ih =>
    obtain ⟨k, v⟩ := p
    unfold insert
    split
    · next h => subst h; simp only [get?_cons]; split <;> rfl
    · next h =>
      split
      · simp only [get?_cons]
      · simp only [get?_cons, ih]
        by_cases hk : k = other
        · have : key ≠ other := fun e => h (hk.trans e.symm)
          simp [hk, this]
        · simp [hk]

@[simp] theorem get?_insert_self (d : Dict α) (key : String) (value : α) :
    (d.insert key value).get? key = some value := by
  simp [get?_insert]

theorem get?_insert_of_ne (d : Dict α) {key other : String} (value : α) (h : key ≠ other) :
    (d.insert key value).get? other = d.get? other := by
  simp [get?_insert, h]

/-- A removal is seen at its own key and nowhere else. -/
theorem get?_erase (d : Dict α) (key other : String) :
    (d.erase key).get? other = if key = other then none else d.get? other := by
  induction d with
  | nil => simp [erase]
  | cons p rest ih =>
    obtain ⟨k, v⟩ := p
    unfold erase at ih ⊢
    by_cases hk : k = key
    · subst hk
      simp only [ne_eq, not_true_eq_false, decide_false, Bool.false_eq_true, not_false_eq_true,
        List.filter_cons_of_neg, ih, get?_cons]
      split <;> rfl
    · rw [List.filter_cons_of_pos (by simpa using hk)]
      simp only [get?_cons, ih]
      by_cases ho : k = other
      · have : key ≠ other := fun e => hk (ho.trans e.symm)
        simp [ho, this]
      · simp [ho]

/-- Binding a list of pairs answers with the last pair of the key, else as before. -/
theorem get?_insertAll (pairs : List (String × α)) (d : Dict α) (key : String) :
    (d.insertAll pairs).get? key = (get? pairs.reverse key).or (d.get? key) := by
  induction pairs generalizing d with
  | nil => rfl
  | cons p rest ih =>
    have append : ∀ (xs ys : Dict α), get? (xs ++ ys) key = (get? xs key).or (get? ys key) := by
      intro xs ys
      induction xs with
      | nil => simp
      | cons q qs ihq =>
        obtain ⟨k, v⟩ := q
        simp only [List.cons_append, get?_cons, ihq]
        split <;> simp
    have step := ih (d.insert p.1 p.2)
    simp only [insertAll, List.foldl_cons] at step ⊢
    obtain ⟨k, v⟩ := p
    rw [step, List.reverse_cons, append, get?_insert]
    cases get? rest.reverse key <;> by_cases h : k = key <;> simp [get?_cons, h]

/-- An extension is the right-biased union, where the later dictionary binds each key once. -/
theorem get?_extend (d e : Dict α) (key : String) :
    (d.extend e).get? key = (get? e.reverse key).or (d.get? key) :=
  get?_insertAll e d key

end Dict

end TriggerWatch
