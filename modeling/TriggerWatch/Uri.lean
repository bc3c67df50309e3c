import TriggerWatch.Text.Split
import TriggerWatch.Text.Utf8

/-!
# Addresses of servers

A server is named by a scheme, a host with a port, a path, and settings after a question mark.

## Main definitions

- `Uri` — the parts of an address
- `Uri.ofText?` — the parts of a written address
- `Uri.resolved` — a path without pieces that stand for folders
- `Uri.settings` — the settings after the question mark
- `Uri.unescape?` — the text of a part with escapes

## Design notes

Only the rules for schemes without defaults of their own are here: the host is any text without
delimiters or a literal in brackets, a port has at most 16 bits, and an address without a host may
have any path. Apart from folders in a path, all parts are kept as they are written: nothing is
escaped or brought into another form.
-/

namespace TriggerWatch

/-- The parts of an address. -/
structure Uri where
  /-- The scheme in small letters. -/
  scheme : String
  /-- The user before the host, with escapes. -/
  user : List Char
  /-- The password after the user, with escapes. -/
  password : List Char
  /-- The host, unless it is empty. -/
  host : Option String
  /-- The port, if one is given. -/
  port : Option Nat
  /-- The path, with escapes. -/
  path : List Char
  /-- What stands between the question mark and the number sign. -/
  query : List Char
deriving DecidableEq, Repr

namespace Uri

/-- The value of a hexadecimal digit. -/
def hexDigit? (c : Char) : Option Nat :=
  if c.isDigit then some (c.toNat - '0'.toNat)
  else if 'a' ≤ c ∧ c ≤ 'f' then some (c.toNat - 'a'.toNat + 10)
  else if 'A' ≤ c ∧ c ≤ 'F' then some (c.toNat - 'A'.toNat + 10)
  else none

/-- The bytes of a part: an escape is a percent sign and two hexadecimal digits. -/
def bytes : List Char → List UInt8
  | [] => []
  | [c] => String.utf8EncodeChar c
  | [c, d] => String.utf8EncodeChar c ++ String.utf8EncodeChar d
  | c :: a :: b :: rest =>
    match c == '%', hexDigit? a, hexDigit? b with
    | true, some high, some low => UInt8.ofNat (16 * high + low) :: bytes rest
    | _, _, _ => String.utf8EncodeChar c ++ bytes (a :: b :: rest)

/-- The text of a part with escapes, if its bytes are one. -/
def unescape? (part : List Char) : Option String := Text.ofBytes? (bytes part)

/-- Read a number of at most 16 bits; nothing stands for no number. -/
def port? (digits : List Char) : Option (Option Nat) :=
  if digits.isEmpty then some none
  else if !digits.all Char.isDigit then none
  else
    let n := digits.foldl (fun n c => 10 * n + (c.toNat - '0'.toNat)) 0
    if n ≤ 0xffff then some (some n) else none

/-! ### Hosts -/

/-- The characters that no host without brackets contains. -/
def hostDelimiters : List Char :=
  ['\x00', '\t', '\n', '\x0d', ' ', '#', '/', ':', '<', '>', '?', '@', '[', '\\', ']', '^', '|']

/-- Whether a text is a group of up to four hexadecimal digits. -/
def isHexGroup (group : List Char) : Bool :=
  !group.isEmpty && group.length ≤ 4 && group.all fun c => (hexDigit? c).isSome

/-- Whether a text is a number from 0 to 255 without leading zeros. -/
def isOctet (group : List Char) : Bool :=
  group.all Char.isDigit &&
  match group with
  | [_] => true
  | [a, _] => a != '0'
  | [a, b, c] => a == '1' || a == '2' && (b < '5' || b == '5' && c ≤ '5')
  | _ => false

/-- The length in groups of a list of groups; four octets at its end stand for two groups. -/
def groupCount? : List (List Char) → Option Nat
  | [] => some 0
  | group :: rest =>
    if isHexGroup group then (groupCount? rest).map (· + 1)
    else if rest.isEmpty && (Text.split '.' group).length == 4
      && (Text.split '.' group).all isOctet then some 2
    else none

/-- The text before and after the first two colons in a row. -/
def cutGap? : List Char → Option (List Char × List Char)
  | ':' :: ':' :: rest => some ([], rest)
  | c :: rest => (cutGap? rest).map fun p => (c :: p.1, p.2)
  | [] => none

/-- Whether a text is an address of eight groups. One gap may stand for any number of groups. -/
def isGroupedAddress (text : List Char) : Bool :=
  let groups (part : List Char) := if part.isEmpty then [] else Text.split ':' part
  match cutGap? text with
  | none => groupCount? (groups text) == some 8
  | some (before, after) =>
    ((groups before).all isHexGroup) &&
    (groupCount? (groups after)).any fun n => (groups before).length + n < 8

/-- Whether a text may stand as a host. -/
def isHost (host : List Char) : Bool :=
  match host with
  | '[' :: rest => rest.getLast? == some ']' && isGroupedAddress rest.dropLast
  | host => !host.any fun c => hostDelimiters.contains c

/-- Split a host from the port after it. A colon inside brackets belongs to the host. -/
def splitHost (inBrackets : Bool) : List Char → List Char × List Char
  | [] => ([], [])
  | c :: rest =>
    if c == ':' && !inBrackets then ([], rest)
    else
      let inBrackets := c == '[' || inBrackets && c != ']'
      let (host, port) := splitHost inBrackets rest
      (c :: host, port)

/-! ### Paths -/

/-- The ways to write a dot. -/
def dots : List (List Char) := [['.'], ['%', '2', 'e'], ['%', '2', 'E']]

/-- Whether a piece of a path stands for the folder above, that is two dots. -/
def isAbove (piece : List Char) : Bool :=
  dots.any fun dot => dots.any fun next => piece == dot ++ next

/-- Whether a piece of a path stands for a folder: this one or the one above. -/
def isFolder (piece : List Char) : Bool := dots.contains piece || isAbove piece

/-- The pieces of a path without those that stand for folders, after the last pieces so far. A
folder at the end leaves an empty piece. -/
def resolve (past : List (List Char)) : List (List Char) → List (List Char)
  | [] => past.reverse
  | piece :: rest =>
    if isFolder piece then
      let past := if isAbove piece then past.tail else past
      resolve (if rest.isEmpty then [] :: past else past) rest
    else resolve (piece :: past) rest

/-- A path from the top with its folders resolved. -/
def resolved : List Char → List Char
  | '/' :: path => '/' :: ['/'].intercalate (resolve [] (Text.split '/' path))
  | path => path

/-! ### Addresses -/

/-- Split the user and the password from the host: they stand before the last at sign. -/
def splitUser (authority : List Char) : List Char × List Char :=
  match Text.cut? '@' authority.reverse with
  | none => ([], authority)
  | some (host, user) => (user.reverse, host.reverse)

/-- The parts before a character and after it, all of the text if the character is missing. -/
def upTo (c : Char) (text : List Char) : List Char × List Char :=
  (Text.cut? c text).getD (text, [])

/-- The address with a host and a port, given the rest of its parts. -/
def withAuthority? (scheme : String) (authority path query : List Char) : Option Uri :=
  let (credentials, place) := splitUser authority
  let (user, password) := upTo ':' credentials
  let (host, port) := splitHost false place
  if !isHost host then none
  else if host.isEmpty && (!port.isEmpty || authority.contains '@' || place.contains ':') then none
  else
    (port? port).map fun port => {
      scheme, user, password
      host := if host.isEmpty then none else some (String.ofList host)
      port, path, query }

/-- Whether a text is a scheme. -/
def isScheme : List Char → Bool
  | [] => false
  | c :: rest => c.isAlpha && rest.all fun c => c.isAlphanum || ['+', '-', '.'].contains c

/-- Whether a character is a control character or a space. -/
def isControl (c : Char) : Bool := c.toNat ≤ 0x20

/-- The text without control characters and spaces around it, and without tabs and line ends. -/
def cleaned (text : List Char) : List Char :=
  let text := ((text.dropWhile isControl).reverse.dropWhile isControl).reverse
  text.filter fun c => c != '\t' && c != '\n' && c != '\x0d'

/-- The address of a scheme with what stands after the colon. -/
def ofRest? (scheme : String) (rest : List Char) : Option Uri :=
  let parts := upTo '?' (upTo '#' rest).1
  match parts.1 with
  | '/' :: '/' :: place =>
    let path := resolved (place.dropWhile (· != '/'))
    withAuthority? scheme (place.takeWhile (· != '/')) path parts.2
  | path =>
    some {
      scheme, user := [], password := [], host := none, port := none
      path := resolved path, query := parts.2 }

/-- The parts of a written address. -/
def ofText? (text : String) : Option Uri :=
  (Text.cut? ':' (cleaned text.toList)).bind fun parts =>
    if isScheme parts.1 then ofRest? (String.ofList (parts.1.map Char.toLower)) parts.2 else none

/-- The text of a setting: a plus sign stands for a space. -/
def settingText (part : List Char) : String :=
  Text.shown (bytes (part.map fun c => if c == '+' then ' ' else c))

/-- The settings after the question mark in their order. -/
def settings (u : Uri) : List (String × String) :=
  ((Text.split '&' u.query).filter fun entry => !entry.isEmpty).map fun entry =>
    let (name, value) := upTo '=' entry
    (settingText name, settingText value)

/-- The last value of a setting. -/
def setting? (u : Uri) (name : String) : Option String :=
  ((u.settings.filter fun entry => entry.1 == name).getLast?).map Prod.snd

end Uri

end TriggerWatch
