import Letterbook.Json.Text
import Letterbook.Text.Debug

/-! Values as diagnostics show them: every value under the name of its kind. -/
namespace Letterbook.Json

mutual

/-- A value in a diagnostic. -/
def debug : Json → String
  | .null => "Null"
  | .bool b => "Bool(" ++ (if b then "true" else "false") ++ ")"
  | .num n => "Number(" ++ n.text ++ ")"
  | .str s => "String(" ++ Text.debug s ++ ")"
  | .arr items => "Array [" ++ String.intercalate ", " (debugItems items) ++ "]"
  | .obj members => "Object \x7b" ++ String.intercalate ", " (debugMembers members) ++ "\x7d"

def debugItems : List Json → List String
  | [] => []
  | item :: rest => debug item :: debugItems rest

def debugMembers : List (String × Json) → List String
  | [] => []
  | (key, value) :: rest => (Text.debug key ++ ": " ++ debug value) :: debugMembers rest

end

end Letterbook.Json
