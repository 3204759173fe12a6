import Letterbook.Number.Binary64
import Letterbook.Table

/-! JSON values. A number keeps its kind: an integer of 64 bits, signed or not, or a binary64
number. The members of an object stand in ascending order of their keys, each key once; only a record
that is about to be written may have them in the order of its declaration. -/
namespace Letterbook

inductive Number
  | int (i : Int)
  | float (x : Binary64)
  deriving DecidableEq, Repr, Inhabited

inductive Json
  | null
  | bool (b : Bool)
  | num (n : Number)
  | str (s : String)
  | arr (items : List Json)
  | obj (members : List (String × Json))
  deriving Repr, Inhabited

namespace Number

/-- The nearest binary64 number. -/
def toBinary64 : Number → Binary64
  | .int i => .ofInt i
  | .float x => x

/-- Equality within one kind; an integer never equals a binary64 number. -/
def same : Number → Number → Bool
  | .int i, .int j => i == j
  | .float x, .float y => x.compare? y == some .eq
  | _, _ => false

/-- An integer as an exact ratio of powers: every integer of 64 bits is one mantissa. -/
def exact : Number → Binary64
  | .int i => .finite (i < 0) i.natAbs 0
  | .float x => x

/-- The order by exact value, across both kinds. -/
def compare? (m n : Number) : Option Ordering := m.exact.compare? n.exact

end Number

namespace Json

/-- The object of a list of members; of several values for one key the last stays. -/
def object (members : List (String × Json)) : Json :=
  .obj (members.foldl (fun done m => Table.put m.1 m.2 done) [])

/-- The order in which a record has its members: by their names, or as they are declared. -/
inductive MemberOrder
  | byName
  | declared
  deriving DecidableEq, Repr

/-- A record of these members, which have different names and stand as they are declared. -/
def record (order : MemberOrder) (members : List (String × Json)) : Json :=
  match order with
  | .byName => object members
  | .declared => .obj members

/-- The member of an object; nothing else has members. -/
def member? (key : String) : Json → Option Json
  | .obj members => Table.lookup key members
  | _ => none

mutual

/-- Equality of values, with numbers compared by `Number.same`. -/
def same : Json → Json → Bool
  | .null, .null => true
  | .bool a, .bool b => a == b
  | .num m, .num n => m.same n
  | .str s, .str t => s == t
  | .arr xs, .arr ys => sameItems xs ys
  | .obj xs, .obj ys => sameMembers xs ys
  | _, _ => false

def sameItems : List Json → List Json → Bool
  | [], [] => true
  | x :: xs, y :: ys => same x y && sameItems xs ys
  | _, _ => false

def sameMembers : List (String × Json) → List (String × Json) → Bool
  | [], [] => true
  | (k, x) :: xs, (l, y) :: ys => k == l && same x y && sameMembers xs ys
  | _, _ => false

end

end Json
end Letterbook
