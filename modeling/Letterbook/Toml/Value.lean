import Letterbook.Number.Binary64

/-! TOML values. A date, a time or both is kept as its normal spelling. The members of a table
have different keys. -/
namespace Letterbook.Toml

inductive Value
  | str (s : String)
  | int (i : Int)
  | float (x : Binary64)
  | bool (b : Bool)
  | moment (spelling : String)
  | arr (items : List Value)
  | table (members : List (String × Value))
  deriving Repr, Inhabited

end Letterbook.Toml
