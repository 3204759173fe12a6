import Letterbook.Json
import Letterbook.Number.Decimal
import Letterbook.Number.Word
import Letterbook.Text.Case
import Letterbook.Text.Split

/-! Layers of settings. A layer sets values at places in a tree; a later layer overrides an earlier
one place by place, and a table is merged into what is there member by member. The names of members
are taken in lower case. -/
namespace Letterbook.Settings

/-- A step to a place: a member of a table, or an item of a list, where minus one is the last. -/
inductive Step
  | member (name : String)
  | item (index : Int)
  deriving DecidableEq, Repr

/-- The members of a table; anything else gives way to an empty one. -/
def membersOf : Json → List (String × Json)
  | .obj members => members
  | _ => []

/-- A list that has the item at an index, and the position of that item. A list that is too short
grows by nulls on the side that the index counts towards; anything else gives way to an empty
list. -/
def itemsWith (index : Int) (j : Json) : List Json × Nat :=
  let items := match j with
    | .arr items => items
    | _ => []
  let position := if index < 0 then items.length + index else index
  if position < 0 then (List.replicate position.natAbs .null ++ items, 0)
  else (items ++ List.replicate (position.toNat + 1 - items.length) .null, position.toNat)

mutual

/-- Sets a member. A table is merged into what is there; any other value replaces it. -/
def setMember (name : String) (incoming : Json) (root : Json) : Json :=
  let members := membersOf root
  let name := Text.lower name.toList
  match incoming with
  | .obj more =>
    let there := (Table.lookup name members).getD (.obj [])
    .obj (Table.put name (setMembers more there) members)
  | value => .obj (Table.put name value members)

def setMembers (more : List (String × Json)) (root : Json) : Json :=
  match more with
  | [] => root
  | (name, value) :: rest => setMembers rest (setMember name value root)

end

/-- Sets the value at a place. What is on the way and leads nowhere gives way. -/
def setAt (value : Json) : List Step → Json → Json
  | [], root => root
  | [.member name], root => setMember name value root
  | [.item index], root =>
    let (items, position) := itemsWith index root
    .arr (items.set position value)
  | .member name :: rest, root =>
    let members := membersOf root
    let name := Text.lower name.toList
    let there := (Table.lookup name members).getD .null
    .obj (Table.put name (setAt value rest there) members)
  | .item index :: rest, root =>
    let (items, position) := itemsWith index root
    .arr (items.set position (setAt value rest (items[position]?.getD .null)))

/-- A character of a name in a spelled place. -/
def isNameChar (c : Char) : Bool := c.isAlphanum || c == ' ' || c == '_' || c == '-'

/-- The number in brackets at the front of a text, behind the opening one: digits, with a minus sign
in front if wanted and blanks around, in 64 bits. -/
def bracketed? (s : List Char) : Option (Int × List Char) :=
  let s := s.dropWhile Text.isBlank
  let unsigned := (Text.strip? ['-'] s).getD s
  let digits := unsigned.takeWhile Char.isDigit
  let size : Int := Decimal.natOfDigits digits
  let index := if s.head? == some '-' then -size else size
  match (unsigned.dropWhile Char.isDigit).dropWhile Text.isBlank with
  | ']' :: rest => if !digits.isEmpty && isInt64 index then some (index, rest) else none
  | _ => none

/-- The steps behind the first name of a place: a dot and a name, or a number in brackets. Each
takes a character. -/
def stepsOf? (fuel : Nat) (s : List Char) : Option (List Step) :=
  match fuel, s with
  | _, [] => some []
  | 0, _ => none
  | fuel + 1, '.' :: rest =>
    let name := rest.takeWhile isNameChar
    if name.isEmpty then none
    else (stepsOf? fuel (rest.dropWhile isNameChar)).map (.member (String.ofList name) :: ·)
  | fuel + 1, '[' :: rest => do
    let (index, rest) ← bracketed? rest
    let steps ← stepsOf? fuel rest
    some (.item index :: steps)
  | _ + 1, _ => none

/-- The place that a key spells; a key that spells none is the name of a member. -/
def placeOf (key : String) : List Step :=
  let s := key.toList
  let name := s.takeWhile isNameChar
  let steps := if name.isEmpty then none
    else (stepsOf? s.length (s.dropWhile isNameChar)).map (.member (String.ofList name) :: ·)
  steps.getD [.member key]

/-- One source of settings: values by spelled places. -/
abbrev Layer := List (String × Json)

/-- The tree of settings with one more layer. -/
def overlay (root : Json) (layer : Layer) : Json :=
  layer.foldl (fun root (key, value) => setAt value (placeOf key) root) root

end Letterbook.Settings
