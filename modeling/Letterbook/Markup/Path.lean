import Letterbook.Text.Split

/-! Paths, as they are written in tags: an optional mark of the current context, an optional mark
of the root, an optional `@` for block data, steps to parents, then items. A path holds its own
spelling piece by piece, so its text and its meaning come from one value. -/
namespace Letterbook.Markup

/-- Letters, digits and a few signs of ASCII, and every character beyond ASCII. -/
def isNameChar (c : Char) : Bool :=
  c.isAlphanum || c == '-' || c == '_' || c == '$' || c == ':' || 0x80 ≤ c.toNat

/-- What may stand between items. -/
inductive Separator
  | dot
  | slash
  deriving DecidableEq, Repr

/-- The spellings of the current context in front of items. -/
inductive Current
  | thisDot
  | thisSlash
  | dotSlash
  deriving DecidableEq, Repr

/-- One item: a plain name, or any text without a closing bracket in brackets. -/
inductive Item
  | name (s : List Char)
  | bracketed (s : List Char)
  deriving DecidableEq, Repr

/-- A path by its pieces. -/
structure Path where
  current : Option Current
  root : Option Separator
  data : Bool
  parents : List Separator
  first : Item
  others : List (Separator × Item)
  deriving DecidableEq, Repr

namespace Separator

def spelling : Separator → List Char
  | .dot => ['.']
  | .slash => ['/']

def read? : List Char → Option (Separator × List Char)
  | '.' :: rest => some (.dot, rest)
  | '/' :: rest => some (.slash, rest)
  | _ => none

end Separator

namespace Current

def spelling : Current → List Char
  | .thisDot => ['t', 'h', 'i', 's', '.']
  | .thisSlash => ['t', 'h', 'i', 's', '/']
  | .dotSlash => ['.', '/']

def read? : List Char → Option (Current × List Char)
  | 't' :: 'h' :: 'i' :: 's' :: '.' :: rest => some (.thisDot, rest)
  | 't' :: 'h' :: 'i' :: 's' :: '/' :: rest => some (.thisSlash, rest)
  | '.' :: '/' :: rest => some (.dotSlash, rest)
  | _ => none

end Current

namespace Item

def spelling : Item → List Char
  | .name s => s
  | .bracketed s => '[' :: s ++ [']']

/-- The key looked up, without brackets. -/
def key : Item → String
  | .name s => String.ofList s
  | .bracketed s => String.ofList s

def read? (s : List Char) : Option (Item × List Char) :=
  match s with
  | '[' :: rest =>
    match rest.dropWhile (· != ']') with
    | _ :: after => some (.bracketed (rest.takeWhile (· != ']')), after)
    | [] => none
  | s =>
    if (s.takeWhile isNameChar).isEmpty then none
    else some (.name (s.takeWhile isNameChar), s.dropWhile isNameChar)

end Item

/-- A step of a path when it is followed. -/
inductive Step
  | root
  | data
  | parent
  | key (k : String)
  deriving DecidableEq, Repr

namespace Path

/-- The word that marks the root. -/
def rootWord : List Char := ['@', 'r', 'o', 'o', 't']

/-- The path that is one plain name. -/
def ofName (s : List Char) : Path := ⟨none, none, false, [], .name s, []⟩

/-- The mark of the root and the separator behind it. -/
def readRoot? (s : List Char) : Option (Separator × List Char) :=
  (Text.strip? rootWord s).bind Separator.read?

/-- Steps to parents, each `..` with a separator behind it. -/
def readParents : List Char → List Separator × List Char
  | '.' :: '.' :: '.' :: rest => let (ps, rest) := readParents rest; (.dot :: ps, rest)
  | '.' :: '.' :: '/' :: rest => let (ps, rest) := readParents rest; (.slash :: ps, rest)
  | s => ([], s)

/-- Further items; a separator without an item behind it is not taken. The text bounds them. -/
def readOthers (fuel : Nat) (s : List Char) : List (Separator × Item) × List Char :=
  match fuel with
  | 0 => ([], s)
  | fuel + 1 =>
    match Separator.read? s with
    | none => ([], s)
    | some (sep, rest) =>
      match Item.read? rest with
      | none => ([], s)
      | some (item, rest) =>
        let (others, rest) := readOthers fuel rest
        ((sep, item) :: others, rest)

/-- The path at the front of a text. A piece that can be read is taken, even if the path then
fails to go on. -/
def read? (s : List Char) : Option (Path × List Char) :=
  let (current, s) := match Current.read? s with
    | some (c, rest) => (some c, rest)
    | none => (none, s)
  let (root, s) := match readRoot? s with
    | some (sep, rest) => (some sep, rest)
    | none => (none, s)
  let (data, s) := match s with
    | '@' :: rest => (true, rest)
    | s => (false, s)
  let (parents, s) := readParents s
  match Item.read? s with
  | none => none
  | some (first, s) =>
    let (others, s) := readOthers s.length s
    some (⟨current, root, data, parents, first, others⟩, s)

/-- The characters of the path as written. -/
def chars (p : Path) : List Char :=
  (p.current.map Current.spelling).getD [] ++
    (p.root.map fun sep => rootWord ++ sep.spelling).getD [] ++
    (if p.data then ['@'] else []) ++
    p.parents.flatMap (fun sep => ['.', '.'] ++ sep.spelling) ++
    p.first.spelling ++
    p.others.flatMap fun (sep, item) => sep.spelling ++ item.spelling

/-- The path as written. -/
def spelling (p : Path) : String := String.ofList p.chars

/-- The keys of the items; `this` is no key wherever it stands. -/
def keys (p : Path) : List String :=
  ((p.first :: p.others.map Prod.snd).map Item.key).filter (· != "this")

/-- The steps in order. The mark of the current context is no step. -/
def steps (p : Path) : List Step :=
  (if p.root.isSome then [Step.root] else []) ++ (if p.data then [Step.data] else []) ++
    p.parents.map (fun _ => Step.parent) ++ p.keys.map Step.key

end Path
end Letterbook.Markup
