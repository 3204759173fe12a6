import Letterbook.Json.Reading
import Letterbook.Toml.Document

/-! TOML values as readings, so that the decoders of JSON apply to them. A moment is a scalar that
no decoder takes, and so is a number where the wanted shape has none. -/
namespace Letterbook.Toml

mutual

def Value.reading : Value → Json.Reading
  | .str s => .str (some s)
  | .int i => .num (some (.int i))
  | .float x => .num (some (.float x))
  | .bool b => .bool b
  | .moment _ => .num none
  | .arr items => .arr (readings items) none
  | .table members => .obj (memberReadings members) none

def readings : List Value → List Json.Reading
  | [] => []
  | v :: rest => v.reading :: readings rest

def memberReadings : List (String × Value) → List (Option String × Json.Reading)
  | [] => []
  | (key, v) :: rest => (some key, v.reading) :: memberReadings rest

end

/-- The reading of a document. -/
def reading? (text : String) : Option Json.Reading :=
  (parse? text).map fun members => (Value.table members).reading

end Letterbook.Toml
