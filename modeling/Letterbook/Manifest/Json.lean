import Letterbook.Form.Json
import Letterbook.Json.Text
import Letterbook.Manifest

/-! Manifests as JSON. All members of a manifest may be left out, and so may the fields of a form;
the other members of a form are required. -/
namespace Letterbook

open Json.Decoder (Slot)

namespace FormEntry

def toJsonIn (order : Json.MemberOrder) (e : FormEntry) : Json :=
  .record order [("source", .str e.source), ("targets", e.targets.toJson),
    ("locale", e.locale.toJson), ("fields", textsToJson e.fields)]

/-- The members of a form as far as they are known. -/
structure Members where
  source : Option String
  targets : Option NameSet
  locale : Option Locale
  fields : Option (Table String (Option String))

def Members.held? (m : Members) : Option FormEntry := do
  return ⟨← m.source, ← m.targets, ← m.locale, m.fields.getD .empty⟩

def decoder (extensible : Bool) : Json.Decoder FormEntry :=
  .record extensible
    [Slot.ofField "source" .string Members.source fun s a => { s with source := a },
      Slot.ofField "targets" .nameSet Members.targets fun s a => { s with targets := a },
      Slot.ofField "locale" Locale.decoder Members.locale fun s a => { s with locale := a },
      Slot.ofField "fields" (.table (.optional .string)) Members.fields
        fun s a => { s with fields := a }]
    ⟨none, none, none, none⟩ Members.held?

end FormEntry

namespace Manifest

def toJsonIn (order : Json.MemberOrder) (m : Manifest) : Json :=
  .record order [("documents", .arr (m.documents.map (Schema.toJsonIn order))),
    ("sources", .arr (m.sources.map (Schema.toJsonIn order))),
    ("templates", .arr (m.forms.map (FormEntry.toJsonIn order)))]

def toJson (m : Manifest) : Json := m.toJsonIn .byName

/-- The members of a manifest as far as they are known. -/
structure Members where
  documents : Option (List Schema)
  sources : Option (List Schema)
  forms : Option (List FormEntry)

def Members.manifest (m : Members) : Manifest :=
  ⟨m.documents.getD [], m.sources.getD [], m.forms.getD []⟩

def decoder (extensible : Bool) : Json.Decoder Manifest :=
  .record extensible
    [Slot.ofField "documents" (.list (Schema.decoder extensible)) Members.documents
        fun s a => { s with documents := a },
      Slot.ofField "sources" (.list (Schema.decoder extensible)) Members.sources
        fun s a => { s with sources := a },
      Slot.ofField "templates" (.list (FormEntry.decoder extensible)) Members.forms
        fun s a => { s with forms := a }]
    ⟨none, none, none⟩ (some ∘ Members.manifest)

/-- The manifest of a JSON text. -/
def ofJsonText (text : String) : Except Json.Misfit Manifest :=
  Json.decodeText (decoder false) text

/-- The JSON text of a manifest, its records as they are declared. -/
def jsonText (m : Manifest) : String := (m.toJsonIn .declared).compact

end Manifest
end Letterbook
