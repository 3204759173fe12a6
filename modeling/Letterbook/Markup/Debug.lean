import Letterbook.Json.Debug
import Letterbook.Markup.Tree

/-! Arguments as diagnostics show them: by their parts, not as they were written. A path also keeps
its spelling. -/
namespace Letterbook.Markup

def Step.debug : Step → String
  | .root => "Ruled(path_root)"
  | .data => "Ruled(path_local)"
  | .parent => "Ruled(path_up)"
  | .key k => "Named(" ++ Text.debug k ++ ")"

namespace Path

/-- The name of block data and the parents in front of it, where the steps begin with these. What
follows the name does not show. -/
def localName? : List Step → Option (Nat × String)
  | .data :: rest =>
    match rest.dropWhile (· == .parent) with
    | .key name :: _ => some ((rest.takeWhile (· == .parent)).length, name)
    | _ => none
  | _ => none

/-- A path in a diagnostic. -/
def debug (p : Path) : String :=
  let written := Text.debug p.spelling
  match localName? p.steps with
  | some (levels, name) =>
    "Path(Local((" ++ toString levels ++ ", " ++ Text.debug name ++ ", " ++ written ++ ")))"
  | none =>
    "Path(Relative(([" ++ String.intercalate ", " (p.steps.map Step.debug) ++ "], " ++ written ++ ")))"

end Path

mutual

/-- An argument in a diagnostic. A call has the parts of any tag, most of which it leaves empty. -/
def Arg.debug : Arg → String
  | .path p => p.debug
  | .literal value => "Literal(" ++ value.debug ++ ")"
  | .call name args hash =>
    let name := if args.isEmpty && hash.isEmpty then name.debug
      else "Name(" ++ Text.debug name.spelling ++ ")"
    "Subexpression(Subexpression \x7b element: Expression(HelperTemplate \x7b name: " ++ name ++
      ", params: [" ++ String.intercalate ", " (Arg.debugList args) ++
      "], hash: \x7b" ++ String.intercalate ", " (Arg.debugHash hash) ++
      "\x7d, block_param: None, template: None, inverse: None, block: false, chain: false, " ++
      "indent_before_write: false \x7d) \x7d)"

def Arg.debugList : List Arg → List String
  | [] => []
  | arg :: rest => arg.debug :: Arg.debugList rest

def Arg.debugHash : List (String × Arg) → List String
  | [] => []
  | (name, arg) :: rest => (Text.debug name ++ ": " ++ arg.debug) :: Arg.debugHash rest

end

/-- The name of a partial in a diagnostic; a given one shows as it is. -/
def PartialName.debug : PartialName → String
  | .fixed name => name
  | .computed call => call.debug

end Letterbook.Markup
