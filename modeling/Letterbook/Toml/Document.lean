import Letterbook.Toml.Assembly
import Letterbook.Toml.Quoted

/-! Reading TOML documents: keys, values, and lines of pairs, headers and comments. A text is
either a document or not; nothing tells where it fails. -/
namespace Letterbook.Toml

/-- Keys have fewer parts than this, and values are nested less deep. -/
def nestingLimit : Nat := 80

def skipBlanks (s : List Char) : List Char := s.dropWhile Text.isBlank

/-- A character of a key without quotes. -/
def isKeyChar (c : Char) : Bool := c.isAlphanum || c == '-' || c == '_'

/-- One part of a key. -/
def readKeyPart : Reader String := fun s =>
  match s with
  | '"' :: _ | '\'' :: _ => readLine s
  | s =>
    let name := s.takeWhile isKeyChar
    if name.isEmpty then none else some (String.ofList name, s.dropWhile isKeyChar)

/-- The parts of a key between dots, with blanks around each. -/
def readKeyParts (fuel : Nat) : Reader (List String) := fun s =>
  match fuel with
  | 0 => none
  | fuel + 1 => do
    let (part, s) ← readKeyPart (skipBlanks s)
    match skipBlanks s with
    | '.' :: rest =>
      let (parts, s) ← readKeyParts fuel rest
      some (part :: parts, s)
    | s => some ([part], s)

def readKey : Reader Key := fun s => do
  let (parts, s) ← readKeyParts (s.length + 1) s
  let name ← parts.getLast?
  if parts.length < nestingLimit then some (⟨parts.dropLast, name⟩, s) else none

/-- Skips a comment up to the end of its line. -/
def skipComment : List Char → List Char
  | '#' :: rest => rest.dropWhile isPlain
  | s => s

/-- Skips blanks, line breaks and comments between the items of a list. Each takes a character. -/
def skipFiller (fuel : Nat) (s : List Char) : List Char :=
  match fuel with
  | 0 => s
  | fuel + 1 =>
    match newline? s, s with
    | some rest, _ => skipFiller fuel rest
    | none, c :: rest =>
      if Text.isBlank c then skipFiller fuel rest
      else if c == '#' then skipFiller fuel (skipComment s)
      else s
    | none, [] => []

mutual

/-- A value that may hold values nested `depth` deep. -/
def readValue (fuel depth : Nat) (s : List Char) : Option (Value × List Char) :=
  match fuel with
  | 0 => none
  | fuel + 1 =>
    match s with
    | '"' :: _ | '\'' :: _ => (readString s).map fun (text, s) => (.str text, s)
    | '[' :: rest =>
      match depth with
      | 0 => none
      | depth + 1 => (readItems fuel depth rest).map fun (items, s) => (.arr items, s)
    | '\x7b' :: rest =>
      match depth with
      | 0 => none
      | depth + 1 =>
        match skipBlanks rest with
        | '\x7d' :: rest => some (.table [], rest)
        | _ => do
          let (pairs, s) ← readInlinePairs fuel depth rest
          let table ← inlineTable pairs
          some (table, s)
    | 't' :: _ => (Text.strip? "true".toList s).map fun s => (.bool true, s)
    | 'f' :: _ => (Text.strip? "false".toList s).map fun s => (.bool false, s)
    | s => readScalar s

/-- The items of a list and its closing bracket. A comma may follow the last item. -/
def readItems (fuel depth : Nat) (s : List Char) : Option (List Value × List Char) :=
  match fuel with
  | 0 => none
  | fuel + 1 =>
    match skipFiller s.length s with
    | ']' :: rest => some ([], rest)
    | s => do
      let (item, s) ← readValue fuel depth s
      match skipFiller s.length s with
      | ']' :: rest => some ([item], rest)
      | ',' :: rest =>
        let (items, s) ← readItems fuel depth rest
        some (item :: items, s)
      | _ => none

/-- The pairs of a table in braces and its closing brace, all on one line. -/
def readInlinePairs (fuel depth : Nat) (s : List Char) :
    Option (List (Key × Value) × List Char) :=
  match fuel with
  | 0 => none
  | fuel + 1 => do
    let (key, s) ← readKey s
    let s ← Text.strip? ['='] s
    let (v, s) ← readValue fuel depth (skipBlanks s)
    match skipBlanks s with
    | '\x7d' :: rest => some ([(key, v)], rest)
    | ',' :: rest =>
      let (pairs, s) ← readInlinePairs fuel depth rest
      some ((key, v) :: pairs, s)
    | _ => none

end

/-- The end of a line: blanks, perhaps a comment, then a line break or the end of the text. -/
def endLine? (s : List Char) : Option (List Char) :=
  match skipComment (skipBlanks s) with
  | [] => some []
  | s => newline? s

def readHeader : Reader Header
  | '[' :: '[' :: rest => do
    let (key, s) ← readKey rest
    let s ← Text.strip? [']', ']'] s
    some (⟨key, true⟩, s)
  | '[' :: rest => do
    let (key, s) ← readKey rest
    let s ← Text.strip? [']'] s
    some (⟨key, false⟩, s)
  | _ => none

def readPair : Reader (Key × Value) := fun s => do
  let (key, s) ← readKey s
  let s ← Text.strip? ['='] s
  let (v, s) ← readValue (s.length + 1) (nestingLimit - 1) (skipBlanks s)
  some ((key, v), s)

/-- What stands on a line. -/
inductive Line
  | blank
  | header (h : Header)
  | pair (key : Key) (v : Value)

def readLineContent : Reader Line := fun s =>
  match skipBlanks s with
  | '[' :: rest => (readHeader ('[' :: rest)).map fun (h, s) => (.header h, s)
  | [] => some (.blank, [])
  | c :: rest =>
    if c == '#' || c == '\n' || c == '\r' then some (.blank, c :: rest)
    else (readPair (c :: rest)).map fun ((key, v), s) => (.pair key v, s)

/-- The lines of a text. Each but the last takes a line break. -/
def readLines (fuel : Nat) (s : List Char) : Option (List Line) :=
  match fuel with
  | 0 => none
  | fuel + 1 => do
    let (line, s) ← readLineContent s
    let s ← endLine? s
    if s.isEmpty then some [line]
    else
      let lines ← readLines fuel s
      some (line :: lines)

/-- The pairs in front of the first header, and the sections. -/
def sections : List Line → List (Key × Value) × List Section
  | [] => ([], [])
  | .blank :: rest => sections rest
  | .pair key v :: rest =>
    let (pairs, more) := sections rest
    ((key, v) :: pairs, more)
  | .header h :: rest =>
    let (pairs, more) := sections rest
    ([], ⟨h, pairs⟩ :: more)

/-- The members of a document. A byte order mark in front is skipped. -/
def parse? (text : String) : Option (List (String × Value)) := do
  let s := match text.toList with
    | '\ufeff' :: rest => rest
    | s => s
  let lines ← readLines (s.length + 1) s
  let (pairs, sections) := sections lines
  assemble pairs sections

end Letterbook.Toml
