/-!
# Text in bytes

Text is kept as bytes in UTF-8. Bytes that are no text can still be shown: the longest beginnings of
characters that are not completed are each replaced by one replacement character.

## Main definitions

- `Text.ofBytes?` — the text of bytes, if they are one
- `Text.followers` — how many bytes go with the first byte of a character
- `Text.shown` — the text of any bytes, with replacement characters
-/

namespace TriggerWatch.Text

/-- The text of bytes, if they are one. -/
def ofBytes? (bytes : List UInt8) : Option String := String.fromUTF8? ⟨bytes.toArray⟩

/-- What a first byte announces: the number of bytes after it and the range of the next one. -/
def announced? (first : UInt8) : Option (Nat × UInt8 × UInt8) :=
  if 0xc2 ≤ first ∧ first ≤ 0xdf then some (1, 0x80, 0xbf)
  else if first = 0xe0 then some (2, 0xa0, 0xbf)
  else if first = 0xed then some (2, 0x80, 0x9f)
  else if 0xe1 ≤ first ∧ first ≤ 0xef then some (2, 0x80, 0xbf)
  else if first = 0xf0 then some (3, 0x90, 0xbf)
  else if first = 0xf4 then some (3, 0x80, 0x8f)
  else if 0xf1 ≤ first ∧ first ≤ 0xf3 then some (3, 0x80, 0xbf)
  else none

/-- How many of the next bytes go with a first byte. -/
def followers (first : UInt8) (rest : List UInt8) : Nat :=
  match announced? first, rest with
  | some (count, low, high), second :: more =>
    if low ≤ second && second ≤ high then
      1 + ((more.take (count - 1)).takeWhile fun b => 0x80 ≤ b && b ≤ 0xbf).length
    else 0
  | _, _ => 0

/-- The text of any bytes. -/
def shown : List UInt8 → String
  | [] => ""
  | first :: rest =>
    let count := followers first rest
    (ofBytes? (first :: rest.take count)).getD "\ufffd" ++ shown (rest.drop count)
termination_by bytes => bytes.length
decreasing_by simp only [List.length_drop, List.length_cons]; omega

end TriggerWatch.Text
