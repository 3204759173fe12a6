import Letterbook.Toml.Value

/-! Putting a document together. Keys and headers name tables by paths, and what a table was made
by decides who may add to it: a header may go on with a table that only a longer header implied,
dotted keys only with tables that dotted keys made, and nobody with a value. -/
namespace Letterbook.Toml

/-- What a table was made by: a longer header, dotted keys, or a header or value of its own. -/
inductive Origin
  | implied
  | dotted
  | defined
  deriving DecidableEq, Repr

/-- A part of an unfinished document: a value, a table, or a list of tables. -/
inductive Part
  | value (v : Value)
  | table (origin : Origin) (members : List (String × Part))
  | tables (items : List (List (String × Part)))

abbrev Members := List (String × Part)

/-- A table under construction. -/
structure Open where
  origin : Origin
  members : Members

namespace Members

def find? (ms : Members) (key : String) : Option Part :=
  (List.find? (·.1 == key) ms).map Prod.snd

/-- Puts a part at a key; what was there is replaced. -/
def put (key : String) (part : Part) : Members → Members
  | [] => [(key, part)]
  | (k, p) :: rest => if k == key then (key, part) :: rest else (k, p) :: put key part rest

/-- Puts a part behind all others; what was at its key is gone. -/
def putLast (key : String) (part : Part) (ms : Members) : Members :=
  ms.filter (·.1 != key) ++ [(key, part)]

end Members

/-- Changes the table at the end of a path, making the tables on the way that are not there. By
dotted keys only tables may be entered that have no definition of their own; of a list of tables
the last is entered. -/
def alter (byDots : Bool) (change : Open → Option Members) :
    List String → Open → Option Members
  | [], t => change t
  | key :: rest, t =>
    match t.members.find? key with
    | none => do
      let origin := if byDots then Origin.dotted else .implied
      let members ← alter byDots change rest ⟨origin, []⟩
      some (t.members.put key (.table origin members))
    | some (.value _) => none
    | some (.table origin members) =>
      if byDots && origin == .defined then none
      else do
        let members ← alter byDots change rest ⟨origin, members⟩
        some (t.members.put key (.table origin members))
    | some (.tables items) =>
      match items.getLast? with
      | none => none
      | some last => do
        let last ← alter byDots change rest ⟨.defined, last⟩
        some (t.members.put key (.tables (items.dropLast ++ [last])))

/-- A key with the path to its table. -/
structure Key where
  path : List String
  name : String
  deriving DecidableEq, Repr

/-- Adds a value under a key that has none. The last table on a dotted path has to be one that
dotted keys made. -/
def addPair (key : Key) (v : Value) (ms : Members) : Option Members :=
  alter true (fun t =>
    if (t.origin == .dotted) == key.path.isEmpty then none
    else match t.members.find? key.name with
      | some _ => none
      | none => some (t.members.put key.name (.value v)))
    key.path ⟨.defined, ms⟩

def addPairs (pairs : List (Key × Value)) (ms : Members) : Option Members :=
  pairs.foldlM (fun ms (key, v) => addPair key v ms) ms

/-- A header: the key of a table, or of a list that it adds a table to. -/
structure Header where
  key : Key
  listed : Bool
  deriving DecidableEq, Repr

/-- A header with the pairs that follow it. -/
structure Section where
  header : Header
  pairs : List (Key × Value)

/-- Adds a section. A header may define a table that so far was only implied; the table then moves
behind its neighbours. A list of tables stays where its first table put it. -/
def addSection (ms : Members) (s : Section) : Option Members :=
  let key := s.header.key
  alter false (fun t => do
    let part ← match s.header.listed, t.members.find? key.name with
      | false, none => (addPairs s.pairs []).map (.table .defined)
      | false, some (.table .implied members) => (addPairs s.pairs members).map (.table .defined)
      | true, none => (addPairs s.pairs []).map fun t => .tables [t]
      | true, some (.tables items) => (addPairs s.pairs []).map fun t => .tables (items ++ [t])
      | _, some _ => none
    some (if s.header.listed then t.members.put key.name part
      else t.members.putLast key.name part))
    key.path ⟨.defined, ms⟩

mutual

/-- The value of a finished part. -/
def Part.finish : Part → Value
  | .value v => v
  | .table _ members => .table (finishMembers members)
  | .tables items => .arr (finishTables items)

def finishMembers : List (String × Part) → List (String × Value)
  | [] => []
  | (key, part) :: rest => (key, part.finish) :: finishMembers rest

def finishTables : List (List (String × Part)) → List Value
  | [] => []
  | members :: rest => .table (finishMembers members) :: finishTables rest

end

/-- The members of the document whose first pairs stand before every header. -/
def assemble (pairs : List (Key × Value)) (sections : List Section) :
    Option (List (String × Value)) := do
  let ms ← addPairs pairs []
  let ms ← sections.foldlM addSection ms
  some (finishMembers ms)

/-- The table of pairs in braces. -/
def inlineTable (pairs : List (Key × Value)) : Option Value :=
  (addPairs pairs []).map fun ms => .table (finishMembers ms)

end Letterbook.Toml
