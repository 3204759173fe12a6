import Letterbook.Proofs.Manifest

/-! Manifests that are merged. Names are looked up in the whole merge, where the last declaration of a
name counts for every form, those in front of it included. Manifests that declare no source in common
can as well be installed one after the other. -/
namespace Letterbook

/-- The last of these schemas that has this name. -/
def Schema.IsLast (schemas : List Schema) (name : String) (s : Schema) : Prop :=
  ∃ before after, schemas = before ++ s :: after ∧ s.name = name ∧ ∀ t ∈ after, t.name ≠ name

namespace Manifest

variable {a b m : Manifest} {parts : List Manifest} {schemas : Table String Schema}
  {entries : List FormEntry} {forms forms' : List Form} {d d₁ d₂ : Draft} {name : String}
  {source : Schema} {u : Undeclared}

/-- The merge of manifests in their order. -/
def mergeAll (parts : List Manifest) : Manifest := parts.foldl merge empty

theorem part_mergeAll {part : Manifest → List α} (nothing : part empty = [])
    (joined : ∀ a b, part (a.merge b) = part a ++ part b) (parts : List Manifest) :
    part (mergeAll parts) = parts.flatMap part := by
  have behind (done : Manifest) :
      part (parts.foldl merge done) = part done ++ parts.flatMap part := by
    induction parts generalizing done with
    | nil => simp
    | cons m rest ih => rw [List.foldl_cons, ih, joined, List.flatMap_cons, List.append_assoc]
  rw [mergeAll, behind, nothing, List.nil_append]

section Sources

/-- Some source of the manifest has this name. -/
def Declares (m : Manifest) (name : String) : Prop := ∃ s ∈ m.sources, s.name = name

theorem find?_schemas_eq (m : Manifest) (name : String) :
    m.schemas.find? name = (m.sources.filter (·.name = name)).getLast? := by
  rw [Manifest.schemas, Table.find?_ofList, List.filter_map, List.getLast?_map, Option.map_map]
  exact Option.map_id'

theorem find?_schemas_eq_none_iff : m.schemas.find? name = none ↔ ¬ m.Declares name := by
  simp [find?_schemas_eq, Declares]

theorem find?_schemas_merge (a b : Manifest) (name : String) :
    (a.merge b).schemas.find? name = (b.schemas.find? name).or (a.schemas.find? name) := by
  simp only [find?_schemas_eq, merge, List.filter_append, List.getLast?_append]

end Sources

section Installing

/-- No source is declared in both. -/
def Apart (a b : Manifest) : Prop := ∀ s ∈ a.sources, ∀ t ∈ b.sources, s.name ≠ t.name

instance (a b : Manifest) : Decidable (Apart a b) :=
  inferInstanceAs (Decidable (∀ s ∈ a.sources, ∀ t ∈ b.sources, s.name ≠ t.name))

theorem Apart.find?_schemas (apart : Apart a b) (found : a.schemas.find? name = some source) :
    (a.merge b).schemas.find? name = some source := by
  obtain ⟨member, rfl⟩ := Manifest.find?_schemas found
  have absent : b.schemas.find? source.name = none := by
    rw [find?_schemas_eq_none_iff]
    rintro ⟨t, declared, same⟩
    exact apart source member t declared same.symm
  rw [find?_schemas_merge, absent, found]
  rfl

end Installing

/-- What the parts add to a draft: every document as it is declared last, and every form in the order
of the parts, with its source as that is declared last. -/
structure Adds (parts : List Manifest) (d d' : Draft) : Prop where
  documents : ∀ name document, document.IsLast (parts.flatMap Manifest.documents) name →
    d'.documents.find? name = some document
  others : ∀ name, (∀ document ∈ parts.flatMap Manifest.documents, document.name ≠ name) →
    d'.documents.find? name = d.documents.find? name
  forms : ∃ forms, d'.forms = d.forms ++ forms ∧ List.Forall₂
    (fun e f => ∃ source : Schema, source.IsLast (parts.flatMap Manifest.sources) e.source ∧
      f = e.form source) (parts.flatMap Manifest.forms) forms
  engine : d'.engine = d.engine
  fallback : d'.fallback = d.fallback

section Parts

theorem sources_mergeAll (parts : List Manifest) :
    (mergeAll parts).sources = parts.flatMap Manifest.sources :=
  part_mergeAll rfl (fun _ _ => rfl) parts

theorem documents_mergeAll (parts : List Manifest) :
    (mergeAll parts).documents = parts.flatMap Manifest.documents :=
  part_mergeAll rfl (fun _ _ => rfl) parts

theorem forms_mergeAll (parts : List Manifest) :
    (mergeAll parts).forms = parts.flatMap Manifest.forms :=
  part_mergeAll rfl (fun _ _ => rfl) parts

end Parts

end Manifest
end Letterbook
