import Letterbook.Engine
import Letterbook.Locale

/-! What can be wrong with a form. A problem names the record schema and the locale of the form,
and one defect; each kind of defect has a stable code and one wording. -/
namespace Letterbook

inductive Defect
  /-- The text of a field does not compile. -/
  | uncompiled (field message : String)
  /-- The root of a variable is not a field of the record. -/
  | unknownName (field name : String)
  /-- A target is not an installed document. -/
  | uninstalled (target : String)
  /-- A field is declared by none of the targets. -/
  | undeclared (field : String) (targets : List String)
  /-- A field that the only target needs is left out. -/
  | missing (target field : String)
  /-- An earlier form has the same record, target and locale. -/
  | repeated (target : String)
  /-- There is no target. -/
  | untargeted
  deriving DecidableEq, Repr

structure Problem where
  source : String
  locale : Locale
  defect : Defect
  deriving DecidableEq, Repr

namespace Defect

/-- The stable name of a kind of defect. -/
def code : Defect → String
  | uncompiled .. => "compile"
  | unknownName .. => "field-not-found"
  | uninstalled _ => "target-not-installed"
  | undeclared .. => "unknown-target-field"
  | missing .. => "missing-target-field"
  | repeated _ => "duplicate-template"
  | untargeted => "no-targets"

end Defect

namespace Problem

def code (p : Problem) : String := p.defect.code

/-- The wording of a problem. What an engine says about a text is put on one line. -/
def message (p : Problem) : String :=
  let locale := p.locale.tag
  match p.defect with
  | .uncompiled field message =>
    "Failed to compile DocumentTemplate field [" ++ field ++ "] with source=[" ++ p.source ++
      "] locale=" ++ locale ++ ": " ++ String.ofList (Text.oneLine message.toList)
  | .unknownName field name =>
    let root := rootKey name
    "Missing variable [" ++ root ++ "]" ++
      (if root = name then "" else " referenced as [" ++ name ++ "]") ++
      " in DocumentData [" ++ p.source ++ "] for DocumentTemplate field [" ++ field ++
      "] locale=" ++ locale
  | .uninstalled target =>
    "Attempted to install DocumentTemplate with a non-installed Document [" ++ target ++
      "] (source=[" ++ p.source ++ "] locale=" ++ locale ++ ")"
  | .undeclared field targets =>
    "DocumentTemplate field [" ++ field ++ "] (source=[" ++ p.source ++ "] locale=" ++ locale ++
      ") is not declared by any target Document [" ++ String.intercalate ", " targets ++ "]"
  | .missing target field =>
    "DocumentTemplate (source=[" ++ p.source ++ "] locale=" ++ locale ++
      ") is missing field [" ++ field ++ "] required by Document [" ++ target ++ "]"
  | .repeated target =>
    "Duplicate DocumentTemplate with source=[" ++ p.source ++ "] target=[" ++ target ++
      "] locale=" ++ locale
  | .untargeted =>
    "DocumentTemplate with source=[" ++ p.source ++ "] locale=" ++ locale ++
      " does not declare any target Document"

end Problem
end Letterbook
