import Letterbook.Json.Decoder
import Letterbook.Schema

/-! Schemas as JSON: an object with the name and the fields. A schema without fields may leave
them out, and a field that is not nullable may leave that out. -/
namespace Letterbook

open Json.Decoder (Slot)

namespace FieldSpec

def toJsonIn (order : Json.MemberOrder) (f : FieldSpec) : Json :=
  .record order [("name", .str f.name), ("nullable", .bool f.nullable)]

def toJson (f : FieldSpec) : Json := f.toJsonIn .byName

def decoder (extensible : Bool) : Json.Decoder FieldSpec :=
  .record extensible
    [Slot.ofField "name" .string Prod.fst fun s a => (a, s.2),
      Slot.ofField "nullable" .bool Prod.snd fun s a => (s.1, a)]
    (none, none)
    fun (name, nullable) => name.map fun name => ⟨name, nullable.getD false⟩

end FieldSpec

namespace Schema

def toJsonIn (order : Json.MemberOrder) (s : Schema) : Json :=
  .record order
    [("name", .str s.name), ("fields", .arr (s.fields.map (FieldSpec.toJsonIn order)))]

def toJson (s : Schema) : Json := s.toJsonIn .byName

def decoder (extensible : Bool) : Json.Decoder Schema :=
  .record extensible
    [Slot.ofField "name" .string Prod.fst fun s a => (a, s.2),
      Slot.ofField "fields" (.list (FieldSpec.decoder extensible)) Prod.snd fun s a => (s.1, a)]
    (none, none)
    fun (name, fields) => name.map fun name => ⟨name, fields.getD []⟩

end Schema
end Letterbook
