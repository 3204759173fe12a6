import Letterbook.Json.Reading

/-! Decoders: from a reading to a value of a given shape. They meet the reading in text order, so
that of two misfits the first in the text is the one reported. A record is an object of its
fields, or a list of them in their order. -/
namespace Letterbook.Json

/-- Why a reading is no value of the wanted shape: it is one of another shape, a list goes on
after the last field of a record, or the text itself is flawed. -/
inductive Misfit
  | shape
  | surplus
  | text (flaw : Flaw)
  deriving DecidableEq, Repr, Inhabited

abbrev Decoder (α : Type u) := Reading → Except Misfit α

namespace Decoder

/-- What is wrong with a reading where another shape is wanted. A scalar is read to its end
first; an array or object is refused at its first character. -/
def refuse : Reading → Misfit
  | .num none | .str none => .text .malformed
  | .broken flaw => .text flaw
  | _ => .shape

/-- The end of a sequence. -/
def ended : Option Flaw → Except Misfit Unit
  | none => .ok ()
  | some flaw => .error (.text flaw)

def string : Decoder String
  | .str (some s) => .ok s
  | r => .error (refuse r)

def bool : Decoder Bool
  | .bool b => .ok b
  | r => .error (refuse r)

/-- A value, or null for none. -/
def optional (d : Decoder α) : Decoder (Option α)
  | .null => .ok none
  | r => (d r).map some

/-- A string that stands for a value; one that stands for none is of another shape. -/
def spelled (read? : String → Option α) : Decoder α := fun r =>
  match string r with
  | .error e => .error e
  | .ok s => match read? s with
    | some a => .ok a
    | none => .error .shape

def items (d : Decoder α) : List Reading → Option Flaw → Except Misfit (List α)
  | [], tail => (ended tail).map fun _ => []
  | r :: rest, tail => do
    let value ← d r
    let values ← items d rest tail
    .ok (value :: values)

def list (d : Decoder α) : Decoder (List α)
  | .arr rs tail => items d rs tail
  | r => .error (refuse r)

/-- A list of names of which order and repetition do not matter. -/
def nameSet : Decoder NameSet := fun r => (list string r).map NameSet.ofList

def members (d : Decoder α) :
    List (Option String × Reading) → Option Flaw → Except Misfit (List (String × α))
  | [], tail => (ended tail).map fun _ => []
  | (none, _) :: _, _ => .error (.text .malformed)
  | (some key, r) :: rest, tail => do
    let value ← d r
    let values ← members d rest tail
    .ok ((key, value) :: values)

/-- An object of values; of several values for one key the last stays. -/
def table (d : Decoder α) : Decoder (Table String α)
  | .obj ms tail => (members d ms tail).map Table.ofList
  | r => .error (refuse r)

mutual

/-- Passes over a value that nobody wants. Only its form has to be right. -/
def skip : Reading → Except Misfit Unit
  | .arr rs tail => skipItems rs tail
  | .obj ms tail => skipMembers ms tail
  | .broken flaw => .error (.text flaw.skipped)
  | _ => .ok ()

def skipItems (rs : List Reading) (tail : Option Flaw) : Except Misfit Unit :=
  match rs with
  | [] => ended (tail.map Flaw.skipped)
  | r :: rest => do
    skip r
    skipItems rest tail

def skipMembers (ms : List (Option String × Reading)) (tail : Option Flaw) :
    Except Misfit Unit :=
  match ms with
  | [] => ended (tail.map Flaw.skipped)
  | (_, r) :: rest => do
    skip r
    skipMembers rest tail

end

/-- One field of a record whose fields come to be known one after the other. -/
structure Slot (σ : Type u) where
  name : String
  known : σ → Bool
  learn : σ → Reading → Except Misfit σ

/-- The slot of a field with its place in what is known. -/
def Slot.ofField (name : String) (d : Decoder α) (get : σ → Option α) (set : σ → Option α → σ) :
    Slot σ :=
  ⟨name, fun s => (get s).isSome, fun s r => (d r).map fun a => set s (some a)⟩

/-- One member of a record: a field that is not known yet, or something that nobody wants. -/
def learnMember (slots : List (Slot σ)) (s : σ) (key : String) (r : Reading) : Except Misfit σ :=
  match slots.find? (·.name == key) with
  | none => (skip r).map fun _ => s
  | some slot => if slot.known s then .error .shape else slot.learn s r

def learnMembers (slots : List (Slot σ)) (s : σ) :
    List (Option String × Reading) → Option Flaw → Except Misfit σ
  | [], tail => (ended tail).map fun _ => s
  | (none, _) :: _, _ => .error (.text .malformed)
  | (some key, r) :: rest, tail => do
    let s ← learnMember slots s key r
    learnMembers slots s rest tail

/-- The fields in the order of their slots. A list that goes on is a misfit unless `extensible`. -/
def learnItems (extensible : Bool) :
    List (Slot σ) → σ → List Reading → Option Flaw → Except Misfit σ
  | _, s, [], tail => (ended tail).map fun _ => s
  | [], s, _ :: _, _ => if extensible then .ok s else .error .surplus
  | slot :: slots, s, r :: rest, tail => do
    let s ← slot.learn s r
    learnItems extensible slots s rest tail

/-- A record from what is known of its fields in the end; what it lacks is a misfit. -/
def record (extensible : Bool) (slots : List (Slot σ)) (start : σ) (finish? : σ → Option α) :
    Decoder α := fun r => do
  let known ← match r with
    | .obj ms tail => learnMembers slots start ms tail
    | .arr rs tail => learnItems extensible slots start rs tail
    | r => .error (refuse r)
  match finish? known with
  | some a => .ok a
  | none => .error .shape

end Decoder

/-- Decodes a whole text. After the value nothing may follow. -/
def decodeText (d : Decoder α) (s : String) : Except Misfit α := do
  let (r, after) := readText s
  let a ← d r
  match after with
  | none => .ok a
  | some flaw => .error (.text flaw)

/-- Decodes a value. -/
def decode (d : Decoder α) (j : Json) : Except Misfit α := d j.reading

end Letterbook.Json
