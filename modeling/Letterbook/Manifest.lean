import Letterbook.Registry

/-! Manifests: documents, record schemas and forms as they are declared in files. A form names
its schema, which may be declared anywhere in what is installed together. -/
namespace Letterbook

/-- A form whose schema is named. -/
structure FormEntry where
  source : String
  targets : NameSet
  locale : Locale
  fields : Table String (Option String)
  deriving DecidableEq, Repr

structure Manifest where
  documents : List Schema
  sources : List Schema
  forms : List FormEntry
  deriving DecidableEq, Repr

/-- A form names a schema that is not declared. -/
structure Undeclared where
  source : String
  deriving DecidableEq, Repr

namespace Undeclared

def reason (u : Undeclared) : String := "DocumentData [" ++ u.source ++ "] is not declared"

end Undeclared

namespace FormEntry

def form (e : FormEntry) (source : Schema) : Form := ⟨e.fields, source, e.targets, e.locale⟩

end FormEntry

namespace Manifest

def empty : Manifest := ⟨[], [], []⟩

/-- The message for something wrong at a place in a manifest. -/
def invalidMessage (place reason : String) : String :=
  "Invalid manifest " ++ place ++ ": " ++ reason

/-- The place of the forms in a manifest. -/
def formsPlace : String := "[[templates]]"

/-- The declarations of one manifest, then those of another. -/
def merge (a b : Manifest) : Manifest :=
  ⟨a.documents ++ b.documents, a.sources ++ b.sources, a.forms ++ b.forms⟩

/-- The schemas by name; of several declarations the last counts. -/
def schemas (m : Manifest) : Table String Schema :=
  Table.ofList (m.sources.map fun s => (s.name, s))

/-- Gives every form its schema, up to the first that names none. -/
def resolve (schemas : Table String Schema) : List FormEntry → Except Undeclared (List Form)
  | [] => .ok []
  | e :: rest =>
    match schemas.find? e.source with
    | none => .error ⟨e.source⟩
    | some source => do
      let forms ← resolve schemas rest
      .ok (e.form source :: forms)

/-- Installs all documents, then all forms. -/
def install (m : Manifest) (d : Draft) : Except Undeclared Draft :=
  (resolve m.schemas m.forms).map fun forms =>
    forms.foldl Draft.installForm (m.documents.foldl Draft.installDocument d)

end Manifest

namespace Undeclared

def message (u : Undeclared) : String := Manifest.invalidMessage Manifest.formsPlace u.reason

end Undeclared
end Letterbook
