import Letterbook.Form
import Letterbook.Pair
import Letterbook.Record

/-! Bindings: the forms that fill one document from one record schema, by locale. A binding picks
a form for a requested locale and fills the fields of the document with it. -/
namespace Letterbook

/-- The prepared forms of one pair. -/
abbrev LocaleIndex := Table Locale PreparedForm

structure Binding where
  pair : Pair
  document : Schema
  forms : LocaleIndex
  fallback : Locale

/-- The fields of a document, filled; a blank field has no text. -/
structure Filled where
  locale : Locale
  fields : Table String (Option String)
  deriving DecidableEq, Repr

/-- No form of the pair suits the locale or its substitutes. -/
structure Unresolved where
  pair : Pair
  requested : Locale
  tried : List Locale
  deriving DecidableEq, Repr

/-- Why no document is filled. -/
inductive FillError
  | unresolved (u : Unresolved)
  | field (name message : String)
  deriving DecidableEq, Repr

namespace Unresolved

def message (u : Unresolved) : String :=
  "No DocumentTemplate for " ++ u.pair.text ++ " matches locale " ++ u.requested.tag ++
    " (tried " ++ String.intercalate ", " (u.tried.map Locale.tag) ++ ")"

end Unresolved

namespace FillError

def message : FillError → String
  | unresolved u => u.message
  | field name message => "Failed to render field [" ++ name ++ "]: " ++ message

end FillError

namespace Filled

/-- The text of a field; a blank field has none, nor has one that the document lacks. -/
def text? (f : Filled) (name : String) : Option String := (f.fields.find? name).join

/-- The filled fields as a record of the host program. -/
def toRecord? [DocumentRecord α] (f : Filled) : Option α := DocumentRecord.ofFields? f.fields

end Filled

namespace PreparedForm

/-- The text of a field filled with data. A blank field has none, nor has one left out. -/
def fillField (f : PreparedForm) (data : Json) (name : String) :
    Except FillError (Option String) :=
  match (f.fields.find? name).join with
  | none => .ok none
  | some e =>
    match e.execute data with
    | .ok text => .ok (some text)
    | .error message => .error (.field name message)

/-- Fills fields one after the other, up to the first that fails. -/
def fillFields (f : PreparedForm) (data : Json) : List String →
    Except FillError (List (String × Option String))
  | [] => .ok []
  | name :: rest => do
    let text ← f.fillField data name
    let texts ← f.fillFields data rest
    .ok ((name, text) :: texts)

end PreparedForm

namespace Binding

/-- The form for a requested locale: the first that there is along its fallback chain. -/
def resolve (b : Binding) (requested : Locale) : Except Unresolved PreparedForm :=
  let chain := requested.fallbackChain b.fallback
  match chain.findSome? b.forms.find? with
  | some form => .ok form
  | none => .error ⟨b.pair, requested, chain⟩

/-- Fills every field that the document declares, in its order. -/
def fill (b : Binding) (data : Json) (requested : Locale) : Except FillError Filled :=
  match b.resolve requested with
  | .error u => .error (.unresolved u)
  | .ok form =>
    (form.fillFields data b.document.fieldNames).map fun texts =>
      ⟨form.locale, Table.ofList texts⟩

/-- Fills the document from a record of the host program. -/
def fillRecord [DataRecord α] (b : Binding) (record : α) (requested : Locale) :
    Except FillError Filled :=
  b.fill (DataRecord.json record) requested

end Binding
end Letterbook
