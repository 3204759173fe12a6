import Letterbook.Binding
import Letterbook.Markup.Engine
import Letterbook.Report
import Letterbook.Review

/-! The registry of forms. Documents and forms are collected in a draft, which is checked as a
whole: it becomes a registry if nothing is wrong with any form, and a report of every problem
otherwise. -/
namespace Letterbook

/-- What has been installed so far. Nothing of it has been checked. -/
structure Draft where
  documents : Table String Schema
  forms : List Form
  engine : Engine
  fallback : Locale

/-- Prepared forms by pair and locale, with the documents that they fill. -/
structure Registry where
  documents : Table String Schema
  index : Table Pair LocaleIndex
  fallback : Locale

/-- Forms looked over one after the other: the problems of all of them, and the prepared forms of
those that compile. -/
structure Survey where
  problems : List Problem
  forms : List PreparedForm

namespace Survey

/-- A form that does not compile is reported for that alone and takes no place. -/
def ofForms (engine : Engine) (review : Review) : List Form → Survey
  | [] => ⟨[], []⟩
  | form :: rest =>
    match form.prepare engine with
    | .error problems =>
      let later := ofForms engine review rest
      ⟨problems ++ later.problems, later.forms⟩
    | .ok prepared =>
      let (problems, review) := review.check prepared
      let later := ofForms engine review rest
      ⟨problems ++ later.problems, prepared :: later.forms⟩

end Survey

namespace PreparedForm

/-- Enters a form under each of its targets. -/
def enter (index : Table Pair LocaleIndex) (f : PreparedForm) : Table Pair LocaleIndex :=
  f.targets.toList.foldl
    (fun index target => index.update ⟨f.source.name, target⟩ .empty (·.insert f.locale f)) index

end PreparedForm

namespace Draft

/-- Nothing installed, with markup as the language of the texts. -/
def empty : Draft := ⟨.empty, [], Markup.defaultEngine, .standard⟩

def withEngine (d : Draft) (engine : Engine) : Draft := { d with engine := engine }

/-- The locale of last resort. -/
def withFallback (d : Draft) (locale : Locale) : Draft := { d with fallback := locale }

/-- Installs a document; a document of the same name is replaced. -/
def installDocument (d : Draft) (document : Schema) : Draft :=
  { d with documents := d.documents.insert document.name document }

def installForm (d : Draft) (form : Form) : Draft := { d with forms := d.forms ++ [form] }

def survey (d : Draft) : Survey := .ofForms d.engine (.start d.documents) d.forms

/-- The registry of a draft without problems, or the report of all problems, form by form. -/
def build (d : Draft) : Except Report Registry :=
  let survey := d.survey
  if survey.problems.isEmpty then
    .ok ⟨d.documents, survey.forms.foldl PreparedForm.enter .empty, d.fallback⟩
  else .error ⟨survey.problems.map Problem.message⟩

end Draft

namespace Registry

/-- Whether some form reads this schema. -/
def hasSource (r : Registry) (source : String) : Bool :=
  r.index.keys.any (·.source == source)

/-- Why there is no binding for a pair. -/
def explainMissing (r : Registry) (pair : Pair) : Report :=
  let reason :=
    if r.documents.contains pair.target then
      "Requested Document [" ++ pair.target ++ "] is installed\n" ++
        "Requested DocumentData [" ++ pair.source ++ "] " ++
        (if r.hasSource pair.source then "is installed" else "is not installed") ++ "\n" ++
        "DocumentTemplate with source=[" ++ pair.source ++ "] does not have target=[" ++
        pair.target ++ "]"
    else "Document [" ++ pair.target ++ "] is not installed in Barbershop"
  ⟨["Failed to get " ++ pair.text ++ "\n" ++ reason]⟩

/-- The binding of a pair whose document is installed. -/
def bind? (r : Registry) (pair : Pair) (forms : LocaleIndex) : Option Binding :=
  (r.documents.find? pair.target).map fun document => ⟨pair, document, forms, r.fallback⟩

def binding (r : Registry) (pair : Pair) : Except Report Binding :=
  match (r.index.find? pair).bind (r.bind? pair) with
  | some binding => .ok binding
  | none => .error (r.explainMissing pair)

/-- The binding between two kinds of records of the host program. -/
def bindingOf (r : Registry) (α β : Type) [DataRecord α] [DocumentRecord β] :
    Except Report Binding :=
  r.binding ⟨(DataRecord.schema α).name, (DocumentRecord.schema β).name⟩

/-- One binding for every pair, in the order of the pairs, whatever its locales. -/
def bindings (r : Registry) : List Binding :=
  r.index.entries.filterMap fun (pair, forms) => r.bind? pair forms

/-- The documents that can be filled from a record schema, in ascending order. -/
def targets (r : Registry) (source : String) : List String :=
  (r.index.keys.filter (·.source == source)).map Pair.target

/-- The locales that have a form for a pair, in ascending order. -/
def locales (r : Registry) (pair : Pair) : List Locale :=
  ((r.index.find? pair).map Table.keys).getD []

end Registry
end Letterbook
