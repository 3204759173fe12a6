import Letterbook.Json
import Letterbook.Text.Split

/-! Engines for template text. A registry uses any engine: a function from text to something that
knows its variables and can be filled from a JSON value. -/
namespace Letterbook

/-- A compiled text, with the names of its variables. -/
structure Executable where
  names : NameSet
  execute : Json → Except String String

/-- A compiler of template text. It either compiles a text or says what is wrong with it. -/
structure Engine where
  compile : String → Except String Executable

/-- The part of a variable before its first dot. Only this part is looked up in a schema. -/
def rootKey (variableName : String) : String :=
  String.ofList (variableName.toList.takeWhile (· != '.'))

end Letterbook
