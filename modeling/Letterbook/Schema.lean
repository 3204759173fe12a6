/-! Schemas: the stable name of a kind of record and the fields it declares, in their order.
The same notion describes the records that forms read and the documents that they fill. -/
namespace Letterbook

/-- A declared field; a nullable one may be absent or left blank. -/
structure FieldSpec where
  name : String
  nullable : Bool
  deriving DecidableEq, Repr, Inhabited

structure Schema where
  name : String
  fields : List FieldSpec
  deriving DecidableEq, Repr, Inhabited

namespace Schema

/-- The schema without fields. -/
def named (name : String) : Schema := ⟨name, []⟩

/-- The schema with one more field that must have a value. -/
def field (s : Schema) (name : String) : Schema := { s with fields := s.fields ++ [⟨name, false⟩] }

/-- The schema with one more field that may be absent. -/
def nullableField (s : Schema) (name : String) : Schema :=
  { s with fields := s.fields ++ [⟨name, true⟩] }

/-- The first field of a name. -/
def field? (s : Schema) (name : String) : Option FieldSpec := s.fields.find? (·.name == name)

def hasField (s : Schema) (name : String) : Bool := (s.field? name).isSome

def fieldNames (s : Schema) : List String := s.fields.map FieldSpec.name

/-- The fields that a form for this document has to supply. -/
def requiredFields (s : Schema) : List FieldSpec := s.fields.filter fun f => !f.nullable

theorem hasField_iff {s : Schema} {name : String} : s.hasField name ↔ name ∈ s.fieldNames := by
  simp [hasField, field?, fieldNames]

theorem name_mem_of_required {s : Schema} {spec : FieldSpec} (required : spec ∈ s.requiredFields) :
    spec.name ∈ s.fieldNames :=
  List.mem_map_of_mem (List.mem_filter.mp required).1

end Schema
end Letterbook
