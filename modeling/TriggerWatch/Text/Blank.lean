/-!
# Blank text

The characters with the Unicode property White_Space, and trimming of text by that class.

## Main definitions

- `Text.isBlank` — the class of blank characters
- `Text.trimStart`, `Text.trimEnd`, `Text.trim` — drop blanks at the ends of a list of characters
- `Text.trimmed` — the same on a string
- `Text.isAllBlank` — whether a string holds nothing but blanks

## Main statements

- `Text.trim_eq_nil_iff` — only text of blanks alone is trimmed to nothing
-/

namespace TriggerWatch.Text

/-- Unicode characters with the property White_Space. -/
def isBlank (c : Char) : Bool :=
  let n := c.toNat
  (0x9 ≤ n && n ≤ 0xD) || n == 0x20 || n == 0x85 || n == 0xA0 || n == 0x1680 ||
    (0x2000 ≤ n && n ≤ 0x200A) || n == 0x2028 || n == 0x2029 || n == 0x202F || n == 0x205F ||
    n == 0x3000

/-- The text without its leading blanks. -/
def trimStart (cs : List Char) : List Char := cs.dropWhile isBlank

/-- The text without its trailing blanks. -/
def trimEnd : List Char → List Char
  | [] => []
  | c :: rest =>
    match trimEnd rest with
    | [] => if isBlank c then [] else [c]
    | kept => c :: kept

/-- The text without the blanks at either end. -/
def trim (cs : List Char) : List Char := trimEnd (trimStart cs)

/-- `trim` on strings. -/
def trimmed (s : String) : String := String.ofList (trim s.toList)

/-- Whether the text is empty or holds blanks only. -/
def isAllBlank (s : String) : Bool := s.toList.all isBlank

theorem trimEnd_eq_nil_iff (cs : List Char) : trimEnd cs = [] ↔ cs.all isBlank = true := by
  induction cs with
  | nil => simp [trimEnd]
  | cons c rest ih =>
    unfold trimEnd
    split
    · next h => simp [ih.1 h]
    · next h =>
      have : ¬ rest.all isBlank = true := fun e => h (ih.2 e)
      simp only [reduceCtorEq, List.all_cons, Bool.and_eq_true, false_iff, not_and]
      exact fun _ => this

theorem all_isBlank_trimStart (cs : List Char) :
    (trimStart cs).all isBlank = cs.all isBlank := by
  induction cs with
  | nil => rfl
  | cons c rest ih =>
    unfold trimStart at ih ⊢
    rw [List.dropWhile_cons]
    split
    · next h => simp [ih, h]
    · rfl

/-- Only text of blanks alone is trimmed to nothing. -/
theorem trim_eq_nil_iff (cs : List Char) : trim cs = [] ↔ cs.all isBlank = true := by
  rw [trim, trimEnd_eq_nil_iff, all_isBlank_trimStart]

end TriggerWatch.Text
