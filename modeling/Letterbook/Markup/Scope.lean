import Letterbook.Number.Decimal
import Letterbook.Number.Word
import Letterbook.Markup.Tree

/-! Where a path leads. Blocks and partials open frames over the root data: a frame stands at a
place in it or on a value of its own, and may carry names and block data. A path found in the root
data keeps its place, so that blocks can be opened there. -/
namespace Letterbook.Markup

/-- What goes wrong while a template is filled. -/
inductive RenderFault
  | missing (spelling : Option String)
  | badIndex (key : String)
  | noHelper (name : String)
  | noPartial (name : String)
  | noPartialBlock
  | noDecorator (name : String)
  | noArgument (helper : String) (index : Nat)
  | noNamedArgument (helper name : String)
  | badLogLevel (level : String)
  | notText
  | noBody
  | tooDeep
  deriving DecidableEq, Repr

/-- What a block name means: what its frame stands on, or a value. -/
inductive Meaning
  | here
  | value (v : Json)
  deriving Repr

/-- What a block or a partial opens. A value of its own hides its place. -/
structure Frame where
  place : List String
  own : Option Json
  names : List (String × Meaning)
  locals : List (String × Json)
  deriving Repr

/-- The value a path leads to: none, one without a place, or one at a place of the root data. -/
inductive Found
  | missing
  | value (v : Json)
  | at (place : List String) (v : Json)
  deriving Repr

/-- The frames over the root data, the innermost first; what the body of the partial call around
has printed, if it has one; and the indentation in force. -/
structure Scope where
  root : Json
  frames : List Frame
  body : Option String
  indent : String
  deriving Repr

namespace Found

/-- The value; a missing one is null. -/
def json : Found → Json
  | .missing => .null
  | .value v | .at _ v => v

def place? : Found → Option (List String)
  | .at place _ => some place
  | .missing | .value _ => none

def isMissing : Found → Bool
  | .missing => true
  | .value _ | .at .. => false

end Found

namespace Frame

/-- The frame at the root. -/
def top : Frame := ⟨[], none, [], []⟩

/-- A frame on what an argument led to. -/
def on (found : Found) : Frame :=
  match found.place? with
  | some place => ⟨place, none, [], []⟩
  | none => ⟨[], some found.json, [], []⟩

/-- A frame on the members with these values put over them; the values have their names too. -/
def merged (members values : List (String × Json)) : Frame where
  place := []
  own := some (.obj (values.foldl (fun done (name, v) => Table.put name v done) members))
  names := values.map fun (name, v) => (name, .value v)
  locals := []

end Frame

/-- A position in an array: digits, with a plus sign in front if wanted, in 64 bits. -/
def arrayIndex? (key : String) : Option Nat :=
  let digits := (Text.strip? ['+'] key.toList).getD key.toList
  if !digits.isEmpty && digits.all Char.isDigit then
    let n := Decimal.natOfDigits digits
    if isNat64 n then some n else none
  else none

/-- One key further. Only in an array can a key be wrong rather than absent. -/
def lookupKey (key : String) : Json → Except RenderFault (Option Json)
  | .arr items =>
    match arrayIndex? key with
    | some i => .ok items[i]?
    | none => .error (.badIndex key)
  | .obj members => .ok (Table.lookup key members)
  | _ => .ok none

/-- The value at the end of the keys, if each leads on. -/
def follow (v : Json) : List String → Except RenderFault (Option Json)
  | [] => .ok (some v)
  | key :: rest => do
    match ← lookupKey key v with
    | some next => follow next rest
    | none => .ok none

namespace Scope

def ofRoot (root : Json) : Scope := ⟨root, [.top], none, ""⟩

def push (s : Scope) (f : Frame) : Scope := { s with frames := f :: s.frames }

/-- The innermost frame. -/
def front (s : Scope) : Frame := s.frames.headD .top

/-- The frame so many levels out; beyond the last one it is the innermost. -/
def ancestor (s : Scope) (levels : Nat) : Frame := (s.frames[levels]?).getD s.front

/-- Keys from a place in the root data. -/
def atPlace (s : Scope) (place keys : List String) : Except RenderFault Found := do
  match ← follow s.root (place ++ keys) with
  | some v => .ok (.at (place ++ keys) v)
  | none => .ok .missing

/-- Keys from a value without a place. -/
def inside (v : Json) (keys : List String) : Except RenderFault Found := do
  match ← follow v keys with
  | some v => .ok (.value v)
  | none => .ok .missing

/-- Keys from what a frame stands on. -/
def fromFrame (s : Scope) (f : Frame) (keys : List String) : Except RenderFault Found :=
  match f.own with
  | some v => inside v keys
  | none => s.atPlace f.place keys

/-- The innermost frame that gives a name, and its meaning there. -/
def named? (s : Scope) (name : String) : Option (Frame × Meaning) :=
  s.frames.findSome? fun f => (f.names.lookup name).map fun m => (f, m)

/-- Block data: a name in the frame so many levels out. -/
def blockData (s : Scope) (levels : Nat) (name : String) : Found :=
  ((s.frames[levels]?.bind (·.locals.lookup name)).map Found.value).getD .missing

/-- What the innermost frame stands on. -/
def this (s : Scope) : Except RenderFault Found := s.fromFrame s.front []

/-- Where a path leads. Names given by blocks come before keys, whatever parents the path asks
for; a path from the root passes both by. Block data without a name is the current context. -/
def resolve (s : Scope) (p : Path) : Except RenderFault Found :=
  let keys := p.keys
  if p.root.isSome then s.atPlace [] keys
  else if p.data then
    match keys.head? with
    | some name => .ok (s.blockData p.parents.length name)
    | none => s.this
  else
    match keys.head?.bind s.named? with
    | some (_, .value v) => inside v (keys.drop 1)
    | some (f, .here) => s.atPlace f.place (keys.drop 1)
    | none => s.fromFrame (s.ancestor p.parents.length) keys

end Scope
end Letterbook.Markup
