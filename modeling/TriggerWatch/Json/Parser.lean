import TriggerWatch.Json.Literal
import TriggerWatch.Json.Tree

/-!
# Reading JSON text

A reader of JSON text over lists of characters. Each step returns what it read and the rest of the
text. The reader is total: containers recurse on a fuel that the length of the text bounds.

## Main definitions

- `Json.Tree.ofText?` — the tree of a text
- `Json.ofText?` — the value of a text

## Design notes

A container nested inside 127 others is checked but not kept; its tree is `Tree.unreadable`. So are
number literals beyond the largest finite number and strings with half of a surrogate pair.
-/

namespace TriggerWatch.Json

namespace Parser

/-- Characters between the parts of a text. -/
def isGap (c : Char) : Bool := c = ' ' || c = '\t' || c = '\n' || c = '\r'

/-- The text from its first part on. -/
def skipGap (cs : List Char) : List Char := cs.dropWhile isGap

/-- The value of a hexadecimal digit. -/
def hexDigit? (c : Char) : Option Nat :=
  if c.isDigit then some (c.toNat - '0'.toNat)
  else if 'a' ≤ c && c ≤ 'f' then some (c.toNat - 'a'.toNat + 10)
  else if 'A' ≤ c && c ≤ 'F' then some (c.toNat - 'A'.toNat + 10)
  else none

/-- The number written by four hexadecimal digits. -/
def hexUnit? (a b c d : Char) : Option Nat :=
  (hexDigit? a).bind fun a => (hexDigit? b).bind fun b => (hexDigit? c).bind fun c =>
    (hexDigit? d).map fun d => ((a * 16 + b) * 16 + c) * 16 + d

/-- A part of a string: a character, or a 16-bit unit given by its number. -/
inductive Piece where
  /-- A character that stands for itself or follows a backslash. -/
  | char (c : Char)
  /-- A unit written as four hexadecimal digits. -/
  | unit (n : Nat)
deriving DecidableEq, Repr

/-- The character that stands after a backslash, for escapes of one letter. -/
def escaped? : Char → Option Char
  | '"' => some '"'
  | '\\' => some '\\'
  | '/' => some '/'
  | 'b' => some '\x08'
  | 'f' => some '\x0c'
  | 'n' => some '\n'
  | 'r' => some '\r'
  | 't' => some '\t'
  | _ => none

/-- The pieces of a string up to its closing quote, and the text after the quote. -/
def pieces? : List Char → Option (List Piece × List Char)
  | [] => none
  | '"' :: rest => some ([], rest)
  | '\\' :: 'u' :: a :: b :: c :: d :: rest =>
    (hexUnit? a b c d).bind fun n => (pieces? rest).map fun p => (.unit n :: p.1, p.2)
  | '\\' :: c :: rest =>
    (escaped? c).bind fun e => (pieces? rest).map fun p => (.char e :: p.1, p.2)
  | c :: rest =>
    if c.toNat < 0x20 || c = '\\' then none
    else (pieces? rest).map fun p => (.char c :: p.1, p.2)

/-- The characters of a list of pieces. A unit in the range of leading surrogates needs a trailing
surrogate right after it, and a trailing surrogate stands nowhere else. -/
def characters? : List Piece → Option (List Char)
  | [] => some []
  | .char c :: rest => (characters? rest).map (c :: ·)
  | .unit n :: rest =>
    if n < 0xD800 || 0xDFFF < n then (characters? rest).map (Char.ofNat n :: ·)
    else if 0xDC00 ≤ n then none
    else
      match rest with
      | .unit m :: rest =>
        if 0xDC00 ≤ m && m ≤ 0xDFFF then
          (characters? rest).map
            (Char.ofNat (0x10000 + (n - 0xD800) * 0x400 + (m - 0xDC00)) :: ·)
        else none
      | _ => none

/-- A string after its opening quote: its text, if it has one, and the text behind it. -/
def string? (cs : List Char) : Option (Option String × List Char) :=
  (pieces? cs).map fun p => ((characters? p.1).map String.ofList, p.2)

/-- The digits before a point: a zero alone, or digits that do not start with zero. -/
def whole? (cs : List Char) : Option (List Char × List Char) :=
  let digits := cs.takeWhile Char.isDigit
  let rest := cs.dropWhile Char.isDigit
  match digits with
  | [] => none
  | ['0'] => some (digits, rest)
  | '0' :: _ => none
  | _ => some (digits, rest)

/-- A run of one or more digits. -/
def digits? (cs : List Char) : Option (List Char × List Char) :=
  match cs.takeWhile Char.isDigit with
  | [] => none
  | digits => some (digits, cs.dropWhile Char.isDigit)

/-- The digits after a point, if a point comes next. -/
def part? : List Char → Option (Option (List Char) × List Char)
  | '.' :: rest => (digits? rest).map fun p => (some p.1, p.2)
  | rest => some (none, rest)

/-- The exponent, if one comes next. -/
def power? : List Char → Option (Option (Bool × List Char) × List Char)
  | c :: rest =>
    if c = 'e' || c = 'E' then
      match rest with
      | '-' :: rest => (digits? rest).map fun p => (some (true, p.1), p.2)
      | '+' :: rest => (digits? rest).map fun p => (some (false, p.1), p.2)
      | rest => (digits? rest).map fun p => (some (false, p.1), p.2)
    else some (none, c :: rest)
  | [] => some (none, [])

/-- A number literal. -/
def literal? (cs : List Char) : Option (Literal × List Char) :=
  let (negative, cs) := match cs with
    | '-' :: rest => (true, rest)
    | rest => (false, rest)
  (whole? cs).bind fun (whole, cs) => (part? cs).bind fun (part, cs) =>
    (power? cs).map fun (power, cs) => ({ negative, whole, part, power }, cs)

/-- The text behind a word. -/
def word? (word cs : List Char) : Option (List Char) :=
  if word.isPrefixOf cs then some (cs.drop word.length) else none

/-- How many containers may stand around a container whose contents are kept. -/
def maxDepth : Nat := 126

mutual

/-- A value inside `depth` containers. -/
def value? : Nat → Nat → List Char → Option (Tree × List Char)
  | 0, _, _ => none
  | fuel + 1, depth, cs =>
    let keep (t : Tree) : Tree := if depth ≤ maxDepth then t else .unreadable
    match skipGap cs with
    | [] => none
    | '"' :: rest =>
      (string? rest).map fun (text, rest) => ((text.map Tree.string).getD .unreadable, rest)
    | '[' :: rest =>
      match skipGap rest with
      | ']' :: rest => some (keep (.array []), rest)
      | rest => (items? fuel (depth + 1) rest).map fun (items, rest) => (keep (.array items), rest)
    | '{' :: rest =>
      match skipGap rest with
      | '}' :: rest => some (keep (.object []), rest)
      | rest =>
        (members? fuel (depth + 1) rest).map fun (members, rest) => (keep (.object members), rest)
    | 'n' :: rest => (word? ['u', 'l', 'l'] rest).map fun rest => (.null, rest)
    | 't' :: rest => (word? ['r', 'u', 'e'] rest).map fun rest => (.bool true, rest)
    | 'f' :: rest => (word? ['a', 'l', 's', 'e'] rest).map fun rest => (.bool false, rest)
    | rest =>
      (literal? rest).map fun (literal, rest) =>
        ((literal.number?.map Tree.number).getD .unreadable, rest)

/-- The items of an array up to its closing bracket. -/
def items? : Nat → Nat → List Char → Option (List Tree × List Char)
  | 0, _, _ => none
  | fuel + 1, depth, cs =>
    (value? fuel depth cs).bind fun (item, rest) =>
      match skipGap rest with
      | ']' :: rest => some ([item], rest)
      | ',' :: rest => (items? fuel depth rest).map fun (items, rest) => (item :: items, rest)
      | _ => none

/-- The members of an object up to its closing brace. -/
def members? : Nat → Nat → List Char → Option (List (Option String × Tree) × List Char)
  | 0, _, _ => none
  | fuel + 1, depth, cs =>
    match skipGap cs with
    | '"' :: rest =>
      (string? rest).bind fun (key, rest) =>
        match skipGap rest with
        | ':' :: rest =>
          (value? fuel depth rest).bind fun (value, rest) =>
            match skipGap rest with
            | '}' :: rest => some ([(key, value)], rest)
            | ',' :: rest =>
              (members? fuel depth rest).map fun (members, rest) => ((key, value) :: members, rest)
            | _ => none
        | _ => none
    | _ => none

end

end Parser

/-- The tree of a text that holds one value and nothing else. -/
def Tree.ofText? (text : String) : Option Tree :=
  let cs := text.toList
  (Parser.value? (2 * cs.length + 2) 0 cs).bind fun (tree, rest) =>
    if (Parser.skipGap rest).isEmpty then some tree else none

/-- The value of a text that holds one value and nothing else. -/
def ofText? (text : String) : Option Json := (Tree.ofText? text).bind Tree.value?

end TriggerWatch.Json
