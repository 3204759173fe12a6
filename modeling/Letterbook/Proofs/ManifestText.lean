import Letterbook.Manifest.Files
import Letterbook.Proofs.LocaleTag
import Letterbook.Proofs.Manifest
import Letterbook.Proofs.WrittenText

/-! Manifests that are written as JSON and read again. Each record is decoded from what is written
for it, in either order of its members. Only a locale need not be: one that no tag spells would come
back as another, but a manifest that was read holds no such locale. -/
namespace Letterbook

open Json (MemberOrder)
open Json.Reading (toJson? toMembers?)
open Json.Decoder (record_obj learnMembers_field list_arr table_obj)

namespace FieldSpec

theorem decoder_toJsonIn (order : MemberOrder) (f : FieldSpec) :
    decoder false (f.toJsonIn order).reading = .ok f := by
  have declared : decoder false (f.toJsonIn .declared).reading = .ok f :=
    record_obj (learnMembers_field rfl rfl rfl (learnMembers_field rfl rfl rfl rfl)) rfl
  cases order with
  | declared => exact declared
  | byName =>
    have sorted : f.toJsonIn .byName = f.toJsonIn .declared := by cbv
    rw [sorted]
    exact declared

theorem numberless_toJsonIn (order : MemberOrder) (f : FieldSpec) :
    (f.toJsonIn order).numberless = true := by
  apply Json.numberless_record
  simp

end FieldSpec

namespace Schema

theorem decoder_toJsonIn (order : MemberOrder) (s : Schema) :
    decoder false (s.toJsonIn order).reading = .ok s := by
  have fields : (Json.Decoder.list (FieldSpec.decoder false))
      (Json.arr (s.fields.map (FieldSpec.toJsonIn order))).reading = .ok s.fields :=
    list_arr fun f _ => FieldSpec.decoder_toJsonIn order f
  cases order with
  | declared =>
    exact record_obj (learnMembers_field rfl rfl rfl (learnMembers_field rfl rfl fields rfl)) rfl
  | byName =>
    have sorted : s.toJsonIn .byName =
        .obj [("fields", .arr (s.fields.map (FieldSpec.toJsonIn .byName))),
          ("name", .str s.name)] := by
      rw [toJsonIn, Json.record, Json.object]
      cbv
    rw [sorted]
    exact record_obj (learnMembers_field rfl rfl fields (learnMembers_field rfl rfl rfl rfl)) rfl

theorem numberless_toJsonIn (order : MemberOrder) (s : Schema) :
    (s.toJsonIn order).numberless = true := by
  have fields : (Json.arr (s.fields.map (FieldSpec.toJsonIn order))).numberless = true :=
    Json.numberless_arr fun f _ => FieldSpec.numberless_toJsonIn order f
  apply Json.numberless_record
  simp [fields]

end Schema

section Parts

theorem Locale.decoder_toJson {l : Locale} (read : ∃ tag, parse? tag = some l) :
    Locale.decoder l.toJson.reading = .ok l := by
  obtain ⟨tag, parsed⟩ := read
  have again : parse? l.tag = some l := parse?_tag parsed
  simp [decoder, toJson, Json.reading, Json.Decoder.spelled, Json.Decoder.string, again]

theorem NameSet.decoder_toJson (names : NameSet) :
    Json.Decoder.nameSet names.toJson.reading = .ok names := by
  have listed : (Json.Decoder.list Json.Decoder.string) names.toJson.reading = .ok names.toList :=
    list_arr fun name _ => rfl
  rw [Json.Decoder.nameSet, listed]
  exact congrArg Except.ok (ofList_toList names)

/-- The texts stand in the order of the table. -/
theorem textsToJson_eq (texts : Table String (Option String)) :
    textsToJson texts =
      .obj (texts.entries.map fun e => (e.1, (e.2.map Json.str).getD .null)) := by
  have ascending : (([] : List (String × Json)) ++ texts.entries.map fun e =>
      (e.1, (e.2.map Json.str).getD .null)).Pairwise fun a b => compare a.1 b.1 = .lt :=
    List.pairwise_map.mpr texts.ascending
  exact congrArg Json.obj (Table.foldl_put_of_ascending ascending)

theorem decoder_textsToJson (texts : Table String (Option String)) :
    Json.Decoder.table (.optional .string) (textsToJson texts).reading = .ok texts := by
  rw [textsToJson_eq]
  refine table_obj (w := fun text => (text.map Json.str).getD .null) texts ?_
  rintro ⟨name, text⟩ -
  cases text with
  | none => rfl
  | some text => rfl

/-- The texts of fields are read as they are written. -/
theorem toJson?_textsToJson (texts : Table String (Option String)) (depth : Nat) :
    (textsToJson texts).reading.toJson? (depth + 2) = .ok (textsToJson texts) := by
  have members (entries : List (String × Option String)) :
      toMembers? (depth + 1) (Json.readingMembers
        (entries.map fun e => (e.1, (e.2.map Json.str).getD .null))) none =
          .ok (entries.map fun e => (e.1, (e.2.map Json.str).getD .null)) := by
    induction entries with
    | nil => rfl
    | cons e rest ih =>
      obtain ⟨name, text⟩ := e
      cases text <;> simp [Json.readingMembers, Json.reading, toMembers?,
        toJson?, ih, bind, Except.bind]
  have object : toJson? (depth + 2) (textsToJson texts).reading =
      (toMembers? (depth + 1) (Json.readingMembers
        (texts.entries.map fun e => (e.1, (e.2.map Json.str).getD .null))) none).map Json.object := by
    rw [textsToJson_eq]
    rfl
  rw [object, members texts.entries]
  rfl

theorem numberless_textsToJson (texts : Table String (Option String)) :
    (textsToJson texts).numberless = true := by
  rw [textsToJson_eq]
  apply Json.numberlessMembers_iff.mpr
  intro m member
  obtain ⟨⟨name, text⟩, -, rfl⟩ := List.mem_map.mp member
  cases text with
  | none => rfl
  | some text => rfl

end Parts

namespace FormEntry

theorem decoder_toJsonIn (order : MemberOrder) {e : FormEntry} (read : e.HasReadLocale) :
    decoder false (e.toJsonIn order).reading = .ok e := by
  have targets := NameSet.decoder_toJson e.targets
  have locale := Locale.decoder_toJson read
  have fields := decoder_textsToJson e.fields
  cases order with
  | declared =>
    exact record_obj (learnMembers_field rfl rfl rfl (learnMembers_field rfl rfl targets
      (learnMembers_field rfl rfl locale (learnMembers_field rfl rfl fields rfl)))) rfl
  | byName =>
    have sorted : e.toJsonIn .byName =
        .obj [("fields", textsToJson e.fields), ("locale", e.locale.toJson),
          ("source", .str e.source), ("targets", e.targets.toJson)] := by
      rw [toJsonIn, Json.record, Json.object]
      cbv
    rw [sorted]
    exact record_obj (learnMembers_field rfl rfl fields (learnMembers_field rfl rfl locale
      (learnMembers_field rfl rfl rfl (learnMembers_field rfl rfl targets rfl)))) rfl

theorem numberless_toJsonIn (order : MemberOrder) (e : FormEntry) :
    (e.toJsonIn order).numberless = true := by
  have targets : e.targets.toJson.numberless = true := Json.numberless_arr fun name _ => rfl
  apply Json.numberless_record
  simp [Locale.toJson, targets, numberless_textsToJson]

end FormEntry

namespace Manifest

variable {m : Manifest}

theorem decoder_toJsonIn (order : MemberOrder) (read : m.HasReadLocales) :
    decoder false (m.toJsonIn order).reading = .ok m := by
  have schemas (schemas : List Schema) : (Json.Decoder.list (Schema.decoder false))
      (Json.arr (schemas.map (Schema.toJsonIn order))).reading = .ok schemas :=
    list_arr fun s _ => Schema.decoder_toJsonIn order s
  have forms : (Json.Decoder.list (FormEntry.decoder false))
      (Json.arr (m.forms.map (FormEntry.toJsonIn order))).reading = .ok m.forms :=
    list_arr fun e member => FormEntry.decoder_toJsonIn order (read e member)
  -- The parts of a manifest are declared in the order of their names.
  have sorted : m.toJsonIn order =
      .obj [("documents", .arr (m.documents.map (Schema.toJsonIn order))),
        ("sources", .arr (m.sources.map (Schema.toJsonIn order))),
        ("templates", .arr (m.forms.map (FormEntry.toJsonIn order)))] := by
    cases order with
    | declared => rfl
    | byName =>
      rw [toJsonIn, Json.record, Json.object]
      cbv
  rw [sorted]
  exact record_obj (learnMembers_field rfl rfl (schemas m.documents)
    (learnMembers_field rfl rfl (schemas m.sources) (learnMembers_field rfl rfl forms rfl))) rfl

theorem numberless_toJsonIn (order : MemberOrder) (m : Manifest) :
    (m.toJsonIn order).numberless = true := by
  have schemas (schemas : List Schema) :
      (Json.arr (schemas.map (Schema.toJsonIn order))).numberless = true :=
    Json.numberless_arr fun s _ => s.numberless_toJsonIn order
  have forms : (Json.arr (m.forms.map (FormEntry.toJsonIn order))).numberless = true :=
    Json.numberless_arr fun e _ => e.numberless_toJsonIn order
  apply Json.numberless_record
  simp [schemas, forms]

theorem ofJsonText_compact (order : MemberOrder) (read : m.HasReadLocales) :
    ofJsonText (m.toJsonIn order).compact = .ok m := by
  have text := Json.readText_compact (numberless_toJsonIn order m)
  have decoded := decoder_toJsonIn order read
  simp only [ofJsonText, Json.decodeText, text, decoded, bind, Except.bind]

/-- The manifests that there are: read from a text, or merged from others. -/
inductive Obtained : Manifest → Prop
  | toml {text : String} {m : Manifest} (read : ofTomlText? text = some m) : Obtained m
  | json {text : String} {m : Manifest} (read : ofJsonText text = .ok m) : Obtained m
  | merge {a b : Manifest} (first : Obtained a) (second : Obtained b) : Obtained (a.merge b)

theorem Obtained.hasReadLocales (obtained : m.Obtained) : m.HasReadLocales := by
  induction obtained with
  | @toml text m read =>
    have file : ofText (some "toml") text = .ok m := by rw [ofText, read]
    exact hasReadLocales_of_ofText file
  | @json text m read =>
    have file : ofText (some "json") text = .ok m := by
      rw [ofText, read]
      rfl
    exact hasReadLocales_of_ofText file
  | merge first second ih₁ ih₂ => exact ih₁.merge ih₂

/-- Both JSON texts of a manifest, with the members of each record as they are declared or by their
names, are read as the same manifest. -/
theorem ofJsonText_jsonText (obtained : m.Obtained) :
    ofJsonText m.jsonText = .ok m ∧ ofJsonText m.toJson.compact = .ok m := by
  have read := obtained.hasReadLocales
  constructor
  · exact ofJsonText_compact .declared read
  · exact ofJsonText_compact .byName read

/-- A document whose fields are written as lists, and a form for a schema declared elsewhere. -/
def letterText : String :=
  "[[documents]]\nname = \"Letter\"\nfields = [[\"body\", true], [\"motto\"]]\n" ++
    "[[templates]]\nsource = \"Visit\"\ntargets = []\nlocale = \"de\"\n"

def letter : Manifest :=
  ⟨[⟨"Letter", [⟨"body", true⟩, ⟨"motto", false⟩]⟩], [],
    [⟨"Visit", .empty, ⟨"de", none, none⟩, .empty⟩]⟩

/-- A form that repeats its target, has a tag to be normalised, an escape and a blank field. -/
def visitText : String :=
  "\x7b\"sources\": [[\"Visit\", []]], \"templates\": [[\"Visit\", [\"Letter\", \"Letter\"], " ++
    "\" EN_us\", \x7b\"motto\": \"\\u00e9\\n\", \"body\": null\x7d]]\x7d"

def visit : Manifest :=
  ⟨[], [.named "Visit"], [⟨"Visit", .ofList ["Letter"], ⟨"en", some "US", none⟩,
    .ofList [("body", none), ("motto", some "é\n")]⟩]⟩

theorem ofJsonText_jsonText_visit : ofTomlText? letterText = some letter ∧
    ofJsonText visitText = .ok visit ∧ (letter.merge visit).Obtained ∧
    ofJsonText (letter.merge visit).jsonText = .ok (letter.merge visit) ∧
    ofJsonText (letter.merge visit).toJson.compact = .ok (letter.merge visit) := by
  have first : ofTomlText? letterText = some letter := by decide +kernel
  have second : ofJsonText visitText = .ok visit := by decide +kernel
  have merged := (Obtained.toml first).merge (Obtained.json second)
  exact ⟨first, second, merged, ofJsonText_jsonText merged⟩

end Manifest
end Letterbook
