import Letterbook.Engine
import Letterbook.Markup.Tree

/-! The variables of a template: the paths that are read while the context is the one the
template was given, spelled with dots. -/
namespace Letterbook.Markup

/-- The variable that a spelled path stands for. Marks of the root and of the current context are
dropped; block data, parents and the context itself are no variables. -/
def variableOf (spelling : List Char) : Option String :=
  let s := Text.stripAny [Path.rootWord ++ ['.'], Path.rootWord ++ ['/']] (Text.trim spelling)
  if s.head? == some '@' || ['.', '.'].isPrefixOf s then none
  else
    let s := Text.stripAny (Current.spelling <$> [.thisDot, .thisSlash, .dotSlash]) s
    if s.isEmpty || s == ['t', 'h', 'i', 's'] || s == ['.'] then none
    else some (String.ofList (s.map fun c => if c == '/' then '.' else c))

def Path.variables (p : Path) : List String := (variableOf p.chars).toList

mutual

/-- The variables of an argument. A call reads its name only if it has no arguments. -/
def Arg.variables : Arg → List String
  | .path p => p.variables
  | .literal _ => []
  | .call name args hash =>
    if args.isEmpty && hash.isEmpty then name.variables
    else Arg.listVariables args ++ Arg.hashVariables hash

def Arg.listVariables : List Arg → List String
  | [] => []
  | arg :: rest => arg.variables ++ Arg.listVariables rest

def Arg.hashVariables : List (String × Arg) → List String
  | [] => []
  | (_, arg) :: rest => arg.variables ++ Arg.hashVariables rest

end

/-- The blocks whose body keeps the context. -/
def keepsContext (name : String) : Bool := name == "if" || name == "unless"

mutual

/-- The variables of an element. The inverse of a block always keeps the context. -/
def Element.variables : Element → List String
  | .output _ name args hash _ =>
    if args.isEmpty && hash.isEmpty then name.variables
    else Arg.listVariables args ++ Arg.hashVariables hash
  | .block _ name args hash _ body inverse _ =>
    Arg.listVariables args ++ Arg.hashVariables hash ++
      (if keepsContext name then Element.listVariables body else []) ++
      Element.inverseVariables inverse
  | .text _ | .comment | .decorator .. | .partialCall .. => []

def Element.listVariables : List Element → List String
  | [] => []
  | e :: rest => e.variables ++ Element.listVariables rest

def Element.inverseVariables : Option (List Element) → List String
  | none => []
  | some body => Element.listVariables body

end

/-- The variables of a template, each once, in order. -/
def Template.variables (t : Template) : NameSet := NameSet.ofList (Element.listVariables t)

end Letterbook.Markup
