import Letterbook.Problem
import Letterbook.Schema

/-! Forms: the texts that fill the fields of a document from the data of a record, for one locale.
A prepared form holds the same texts compiled by an engine. -/
namespace Letterbook

/-- A form as written. A field without text is left blank on purpose; a form may fill several
documents. -/
structure Form where
  fields : Table String (Option String)
  source : Schema
  targets : NameSet
  locale : Locale
  deriving DecidableEq, Repr

structure PreparedForm where
  fields : Table String (Option Executable)
  source : Schema
  targets : NameSet
  locale : Locale

namespace Form

/-- The form without fields and targets. -/
def blank (source : Schema) (locale : Locale) : Form := ⟨.empty, source, .empty, locale⟩

/-- The form with the text of a field. -/
def field (f : Form) (name text : String) : Form :=
  { f with fields := f.fields.insert name (some text) }

/-- The form with a field that it leaves blank. -/
def blankField (f : Form) (name : String) : Form := { f with fields := f.fields.insert name none }

/-- The form with one more target. -/
def target (f : Form) (name : String) : Form := { f with targets := f.targets.insert name () }

def problem (f : Form) (defect : Defect) : Problem := ⟨f.source.name, f.locale, defect⟩

/-- What the engine makes of each field. -/
def compiled (engine : Engine) (f : Form) : Table String (Option (Except String Executable)) :=
  f.fields.mapValues (·.map engine.compile)

/-- The defect of a compiled field, if the engine refused it. -/
def refusal? (field : String) : Option (Except String Executable) → Option Defect
  | some (.error message) => some (.uncompiled field message)
  | _ => none

/-- Compiles every field. All texts that the engine refuses are reported, in the order of the
fields; schema and targets do not matter here. -/
def prepare (engine : Engine) (f : Form) : Except (List Problem) PreparedForm :=
  let compiled := f.compiled engine
  match compiled.entries.filterMap fun e => (refusal? e.1 e.2).map f.problem with
  | [] => .ok ⟨compiled.mapValues (·.bind Except.toOption), f.source, f.targets, f.locale⟩
  | problems => .error problems

end Form

namespace PreparedForm

/-- Each field with each of its variables. -/
def references (f : PreparedForm) : List (String × String) :=
  f.fields.entries.flatMap fun (field, text) =>
    (text.map fun e => e.names.toList.map fun name => (field, name)).getD []

def problem (f : PreparedForm) (defect : Defect) : Problem := ⟨f.source.name, f.locale, defect⟩

end PreparedForm
end Letterbook
