import Letterbook.Form
import Letterbook.Schema.Json

/-! Forms as JSON. A blank field is null. All four members are required. -/
namespace Letterbook

open Json.Decoder (Slot)

namespace Locale

def toJson (l : Locale) : Json := .str l.tag

def decoder : Json.Decoder Locale := .spelled parse?

end Locale

namespace NameSet

def toJson (names : NameSet) : Json := .arr (names.toList.map .str)

end NameSet

/-- Texts by name; a name without text has null. -/
def textsToJson (texts : Table String (Option String)) : Json :=
  .object (texts.entries.map fun (name, text) => (name, (text.map Json.str).getD .null))

namespace Form

def toJson (f : Form) : Json :=
  .object [("fields", textsToJson f.fields), ("source", f.source.toJson),
    ("targets", f.targets.toJson), ("locale", f.locale.toJson)]

/-- The members of a form as far as they are known. -/
structure Members where
  fields : Option (Table String (Option String))
  source : Option Schema
  targets : Option NameSet
  locale : Option Locale

def Members.form? (m : Members) : Option Form := do
  return ⟨← m.fields, ← m.source, ← m.targets, ← m.locale⟩

def decoder (extensible : Bool) : Json.Decoder Form :=
  .record extensible
    [Slot.ofField "fields" (.table (.optional .string)) Members.fields
        fun s a => { s with fields := a },
      Slot.ofField "source" (Schema.decoder extensible) Members.source
        fun s a => { s with source := a },
      Slot.ofField "targets" .nameSet Members.targets fun s a => { s with targets := a },
      Slot.ofField "locale" Locale.decoder Members.locale fun s a => { s with locale := a }]
    ⟨none, none, none, none⟩ Members.form?

end Form
end Letterbook
