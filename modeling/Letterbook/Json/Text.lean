import Letterbook.Json
import Letterbook.Number.Decimal

/-! JSON text of a value: compact, or laid out with one member or item a line. -/
namespace Letterbook

/-- A digit of base sixteen, in lower case. -/
def hexDigit (n : Nat) : Char :=
  if n < 10 then Char.ofNat ('0'.toNat + n) else Char.ofNat ('a'.toNat + n - 10)

namespace Number

def text : Number → String
  | .int i => toString i
  | .float x => x.jsonText

end Number

namespace Json

/-- One character inside a quoted string. -/
def escapeChar (c : Char) : List Char :=
  match c with
  | '"' => ['\\', '"']
  | '\\' => ['\\', '\\']
  | '\n' => ['\\', 'n']
  | '\r' => ['\\', 'r']
  | '\t' => ['\\', 't']
  | '\x08' => ['\\', 'b']
  | '\x0c' => ['\\', 'f']
  | c =>
    if c.toNat < 0x20 then ['\\', 'u', '0', '0', hexDigit (c.toNat / 16), hexDigit (c.toNat % 16)]
    else [c]

/-- The quoted form of a string. -/
def quote (s : String) : String :=
  String.ofList ('"' :: s.toList.flatMap escapeChar ++ ['"'])

mutual

/-- The text without white space. -/
def compact : Json → String
  | .null => "null"
  | .bool b => if b then "true" else "false"
  | .num n => n.text
  | .str s => quote s
  | .arr items => "[" ++ String.intercalate "," (compactItems items) ++ "]"
  | .obj members => "\x7b" ++ String.intercalate "," (compactMembers members) ++ "\x7d"

def compactItems : List Json → List String
  | [] => []
  | item :: rest => compact item :: compactItems rest

def compactMembers : List (String × Json) → List String
  | [] => []
  | (key, value) :: rest => (quote key ++ ":" ++ compact value) :: compactMembers rest

end

/-- A line break and two blanks a level. -/
def newLine (level : Nat) : String := "\n" ++ "".pushn ' ' (2 * level)

/-- A bracketed sequence, one part a line; an empty one stays on its line. -/
def block (level : Nat) (opening closing : String) (parts : List String) : String :=
  if parts.isEmpty then opening ++ closing
  else opening ++ newLine (level + 1) ++ String.intercalate ("," ++ newLine (level + 1)) parts ++
    newLine level ++ closing

mutual

/-- The text laid out on lines, for a value that stands at this level. -/
def prettyAt (level : Nat) : Json → String
  | .arr items => block level "[" "]" (prettyItems (level + 1) items)
  | .obj members => block level "\x7b" "\x7d" (prettyMembers (level + 1) members)
  | .null => "null"
  | .bool b => if b then "true" else "false"
  | .num n => n.text
  | .str s => quote s

def prettyItems (level : Nat) : List Json → List String
  | [] => []
  | item :: rest => prettyAt level item :: prettyItems level rest

def prettyMembers (level : Nat) : List (String × Json) → List String
  | [] => []
  | (key, value) :: rest =>
    (quote key ++ ": " ++ prettyAt level value) :: prettyMembers level rest

end

def pretty (j : Json) : String := prettyAt 0 j

end Json
end Letterbook
