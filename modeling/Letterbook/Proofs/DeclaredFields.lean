import Mathlib.Data.List.Forall2
import Letterbook.Proofs.Filling
import Letterbook.Proofs.Parts

/-! Filling reads the fields that the document declares, in their order, and no others. It succeeds
exactly if each of their texts does, and otherwise it reports the first that fails; what a form says
of fields that only its other documents declare is never executed. -/
namespace Letterbook

namespace PreparedForm

variable {p : PreparedForm} {data : Json} {name : String} {names : List String} {err : FillError}

/-- The texts among these fields can be filled with the data. -/
def Executes (p : PreparedForm) (data : Json) (names : List String) : Prop :=
  ∀ name ∈ names, ∀ e, p.fields.find? name = some (some e) → ∃ text, e.execute data = .ok text

/-- One of the fields fails with this error, and none before it does. -/
def FailsFirst (p : PreparedForm) (data : Json) (names : List String) (err : FillError) : Prop :=
  ∃ before name after e message, names = before ++ name :: after ∧ p.Executes data before ∧
    p.fields.find? name = some (some e) ∧ e.execute data = .error message ∧
      err = .field name message

theorem FailsFirst.exists_field (fails : p.FailsFirst data names err) :
    ∃ name message, err = .field name message := by
  obtain ⟨-, name, -, -, message, -, -, -, -, given⟩ := fails
  exact ⟨name, message, given⟩

theorem fillField_eq_some_iff {text : String} : p.fillField data name = .ok (some text) ↔
    ∃ e, p.fields.find? name = some (some e) ∧ e.execute data = .ok text := by
  rw [fillField]
  cases found : (p.fields.find? name).join with
  | none =>
    simp only [Except.ok.injEq, reduceCtorEq, false_iff]
    rintro ⟨e, present, -⟩
    simp [present] at found
  | some e =>
    have present := Option.join_eq_some_iff.mp found
    cases executed : e.execute data <;> simp [present, executed]

theorem fillField_eq_error_iff : p.fillField data name = .error err ↔
    ∃ e message, p.fields.find? name = some (some e) ∧ e.execute data = .error message ∧
      err = .field name message := by
  rw [fillField]
  cases found : (p.fields.find? name).join with
  | none =>
    simp only [reduceCtorEq, false_iff]
    rintro ⟨e, message, present, -⟩
    simp [present] at found
  | some e =>
    have present := Option.join_eq_some_iff.mp found
    cases executed : e.execute data <;> simp [present, executed, eq_comm]

theorem exists_fillField_iff : (∃ text, p.fillField data name = .ok text) ↔
    ∀ e, p.fields.find? name = some (some e) → ∃ text, e.execute data = .ok text := by
  constructor
  · rintro ⟨text, filled⟩ e found
    cases executed : e.execute data with
    | ok text => exact ⟨text, rfl⟩
    | error message =>
      have failed := fillField_eq_error_iff.mpr ⟨e, message, found, executed, rfl⟩
      rw [filled] at failed
      contradiction
  · exact fillField_ok

/-- All fields are filled exactly if each text among them can be. -/
theorem exists_fillFields_iff :
    (∃ texts, p.fillFields data names = .ok texts) ↔ p.Executes data names := by
  simp only [exists_fillFields_iff_fillField, exists_fillField_iff]
  rfl

/-- Filling stops at the first field that fails, and its error is the one of that field. -/
theorem fillFields_eq_error_iff :
    p.fillFields data names = .error err ↔ p.FailsFirst data names err := by
  rw [fillFields_eq_mapM, Result.mapM_eq_error_iff]
  constructor
  · rintro ⟨before, name, after, split, filled, failed⟩
    obtain ⟨e, message, found, executed, rfl⟩ :=
      fillField_eq_error_iff.mp (Result.map_eq_error.mp failed)
    refine ⟨before, name, after, e, message, split, ?_, found, executed, rfl⟩
    rw [← exists_fillFields_iff, fillFields_eq_mapM, Result.exists_mapM_iff]
    exact filled
  · rintro ⟨before, name, after, e, message, split, executes, found, executed, rfl⟩
    rw [← exists_fillFields_iff, fillFields_eq_mapM, Result.exists_mapM_iff] at executes
    refine ⟨before, name, after, split, executes, Result.map_eq_error.mpr ?_⟩
    exact fillField_eq_error_iff.mpr ⟨e, message, found, executed, rfl⟩

end PreparedForm

/-- The filled document has just the declared fields: with the text that was executed where the form
has one, and without a text where it has none. -/
structure Filled.Shows (x : Filled) (p : PreparedForm) (document : Schema) (data : Json) :
    Prop where
  locale : x.locale = p.locale
  names : ∀ name, name ∈ x.fields.keys ↔ name ∈ document.fieldNames
  text : ∀ name ∈ document.fieldNames, ∀ e, p.fields.find? name = some (some e) →
    ∃ text, e.execute data = .ok text ∧ x.fields.find? name = some (some text)
  blank : ∀ name ∈ document.fieldNames,
    p.fields.find? name = some none ∨ p.fields.find? name = none → x.fields.find? name = some none

theorem Filled.ComesFrom.shows {x : Filled} {p : PreparedForm} {document : Schema} {data : Json}
    (comes : x.ComesFrom p document data) : x.Shows p document data := by
  constructor
  case locale => exact comes.locale
  case names => exact comes.names
  case text =>
    intro name declared e present
    obtain ⟨value, found, filled⟩ := comes.find?_of_mem declared
    cases value with
    | none =>
      have absent := PreparedForm.fillField_eq_none_iff.mp filled e
      contradiction
    | some text =>
      obtain ⟨e', present', executed⟩ := PreparedForm.fillField_eq_some_iff.mp filled
      obtain rfl : e' = e := by simpa [present'] using present
      exact ⟨text, executed, found⟩
  case blank =>
    intro name declared textless
    obtain ⟨value, found, filled⟩ := comes.find?_of_mem declared
    have none : p.fillField data name = .ok none := by
      apply PreparedForm.fillField_eq_none_iff.mpr
      intro e present
      rcases textless with blank | absent
      · simp [blank] at present
      · simp [absent] at present
    rw [none, Except.ok.injEq] at filled
    rw [found, filled]

namespace Binding

variable {b : Binding} {requested : Locale} {p : PreparedForm} {data : Json}

/-- Filling a document with a form: when it succeeds, what comes out, and how it fails. -/
structure FillsBy (b : Binding) (p : PreparedForm) (data : Json) (requested : Locale) : Prop where
  succeeds_iff : (∃ x, b.fill data requested = .ok x) ↔ p.Executes data b.document.fieldNames
  filled : ∀ x, b.fill data requested = .ok x → x.Shows p b.document data
  fails_iff : ∀ err, b.fill data requested = .error err ↔
    p.FailsFirst data b.document.fieldNames err

theorem fill_of_resolve (resolved : b.resolve requested = .ok p) (data : Json) :
    b.fill data requested = (p.fillFields data b.document.fieldNames).map fun texts =>
      ⟨p.locale, Table.ofList texts⟩ := by
  rw [fill, resolved]

theorem fillsBy_of_resolve (resolved : b.resolve requested = .ok p) (data : Json) :
    b.FillsBy p data requested := by
  have fill := fill_of_resolve resolved data
  constructor
  case succeeds_iff =>
    rw [fill, ← PreparedForm.exists_fillFields_iff]
    simp only [Result.map_eq_ok]
    constructor
    · rintro ⟨-, texts, filled, -⟩
      exact ⟨texts, filled⟩
    · rintro ⟨texts, filled⟩
      exact ⟨_, texts, filled, rfl⟩
  case filled =>
    intro x filled
    exact (comesFrom_of_fill resolved filled).shows
  case fails_iff =>
    intro err
    rw [fill, ← PreparedForm.fillFields_eq_error_iff]
    cases p.fillFields data b.document.fieldNames <;> simp [Except.map]

end Binding

namespace Form

/-- Forms for the same places with the same texts and blanks for these fields, whatever they say of
others. -/
structure AlikeOn (names : List String) (f g : Form) : Prop where
  source : g.source = f.source
  targets : g.targets = f.targets
  locale : g.locale = f.locale
  field : ∀ name ∈ names, g.fields.find? name = f.fields.find? name

theorem AlikeOn.places {names : List String} {f g : Form} (alike : f.AlikeOn names g) :
    g.places = f.places := by
  rw [Form.places, Form.places, alike.source, alike.targets, alike.locale]

theorem AlikeOn.symm {names : List String} {f g : Form} (alike : f.AlikeOn names g) :
    g.AlikeOn names f where
  source := alike.source.symm
  targets := alike.targets.symm
  locale := alike.locale.symm
  field name member := (alike.field name member).symm

end Form

namespace Draft

/-- Two drafts that differ at most in what their forms say of fields that the document of this name
lacks. -/
structure AlikeFor (target : String) (d d' : Draft) : Prop where
  documents : d'.documents = d.documents
  engine : d'.engine = d.engine
  fallback : d'.fallback = d.fallback
  forms : List.Forall₂
    (Form.AlikeOn (((d.documents.find? target).map Schema.fieldNames).getD [])) d.forms d'.forms

theorem AlikeFor.symm {target : String} {d d' : Draft} (alike : d.AlikeFor target d') :
    d'.AlikeFor target d where
  documents := alike.documents.symm
  engine := alike.engine.symm
  fallback := alike.fallback.symm
  forms := by
    rw [alike.documents]
    exact (alike.forms.imp fun f g same => same.symm).flip

end Draft

theorem exists_mem_of_forall₂ {related : α → β → Prop} {xs : List α} {ys : List β}
    (pairwise : List.Forall₂ related xs ys) {x : α} (member : x ∈ xs) :
    ∃ y ∈ ys, related x y := by
  induction pairwise with
  | nil => contradiction
  | cons first others ih =>
    rcases List.mem_cons.mp member with rfl | later
    · exact ⟨_, List.mem_cons_self, first⟩
    · obtain ⟨y, listed, rel⟩ := ih later
      exact ⟨y, List.mem_cons_of_mem _ listed, rel⟩

namespace Registry

variable {d d' : Draft} {r r' : Registry} {target : String}

theorem exists_held?_of_alikeFor (alike : d.AlikeFor target d') (built : d.build = .ok r)
    (built' : d'.build = .ok r') {place : Place} {p : PreparedForm}
    (held : place.held? r.index = some p) :
    ∃ q, place.held? r'.index = some q ∧ p.FillsAs (d.documents.find? target) q := by
  obtain ⟨f, installed, asked, prepared⟩ := (held?_eq_some_iff_exists built).mp held
  obtain ⟨g, installed', same⟩ := exists_mem_of_forall₂ alike.forms installed
  rw [← same.places] at asked
  obtain ⟨q, held', prepared'⟩ := held?_of_installed built' installed' asked
  -- One engine prepares both forms, and their texts for the declared fields are the same.
  rw [alike.engine] at prepared'
  refine ⟨q, held', ?_, ?_⟩
  · rw [prepared'.locale, same.locale, prepared.locale]
  · intro document declared name member
    apply PreparedForm.find?_congr prepared prepared'
    apply same.field
    rw [Option.mem_def.mp declared]
    exact member

theorem rel_held?_of_alikeFor (alike : d.AlikeFor target d') (built : d.build = .ok r)
    (built' : d'.build = .ok r') (place : Place) :
    Option.Rel (·.FillsAs (d.documents.find? target)) (place.held? r.index)
      (place.held? r'.index) := by
  cases held : place.held? r.index with
  | some p =>
    obtain ⟨q, held', fills⟩ := exists_held?_of_alikeFor alike built built' held
    rw [held']
    exact .some fills
  | none =>
    cases held' : place.held? r'.index with
    | none => exact .none
    | some q =>
      obtain ⟨p, there, -⟩ := exists_held?_of_alikeFor alike.symm built' built held'
      simp [held] at there

/-- Whether a pair with this document is bound, and everything that its binding answers, does not
depend on what forms say of fields that the document lacks. -/
theorem binding_of_alikeFor (alike : d.AlikeFor target d') (built : d.build = .ok r)
    (built' : d'.build = .ok r') (source : String) :
    (∀ b, r.binding ⟨source, target⟩ = .ok b →
      ∃ b', r'.binding ⟨source, target⟩ = .ok b' ∧ b.AnswersAs b') ∧
    ∀ report, r.binding ⟨source, target⟩ = .error report →
      r'.binding ⟨source, target⟩ = .error report := by
  have related := rel_held?_of_alikeFor alike built built'
  have keys : r'.index.keys = r.index.keys :=
    keys_congr built built' fun place => exists_held?_iff_of_rel (related place)
  have documents : r'.documents = r.documents := by
    rw [(holds_of_build built).documents, (holds_of_build built').documents, alike.documents]
  constructor
  · intro b bound
    apply exists_binding_of_rel built built' alike.documents alike.fallback bound
    intro locale
    exact related _
  · intro report failed
    exact binding_eq_error_congr built built' documents keys failed

/-- Whenever a request is resolved, the document is filled by the form it is resolved to: field by
field as it declares them, or not at all because of the first field that fails. What forms say of
fields that the document lacks makes no difference. -/
theorem fillsBy_of_build (built : d.build = .ok r) :
    (∀ pair b, r.binding pair = .ok b → ∀ requested p, b.resolve requested = .ok p →
      ∀ data, b.FillsBy p data requested) ∧
    ∀ target d' r', d.AlikeFor target d' → d'.build = .ok r' → ∀ source,
      (∀ b, r.binding ⟨source, target⟩ = .ok b →
        ∃ b', r'.binding ⟨source, target⟩ = .ok b' ∧ b.AnswersAs b') ∧
      ∀ report, r.binding ⟨source, target⟩ = .error report →
        r'.binding ⟨source, target⟩ = .error report := by
  constructor
  · intro pair b bound requested p resolved data
    exact Binding.fillsBy_of_resolve resolved data
  · intro target d' r' alike built' source
    exact binding_of_alikeFor alike built built' source

end Registry

/-- An invitation for a letter and a note, with this motto in the note. -/
def Draft.withMotto (motto : String) : Draft :=
  ((Draft.empty.installDocument Invitation.letter).installDocument Invitation.note).installForm
    ((((Invitation.form .standard "Dear {{name}}").field "motto" motto).target "Letter").target
      "Note")

/-- A motto that calls an unknown helper fails for every guest, but only in the note. -/
theorem Draft.alikeFor_withMotto :
    (Draft.withMotto "With love").AlikeFor "Letter" (Draft.withMotto "{{shout name}}") where
  documents := rfl
  engine := rfl
  fallback := rfl
  forms := by
    have declared : (((Draft.withMotto "With love").documents.find? "Letter").map
        Schema.fieldNames).getD [] = ["body"] := by decide +kernel
    rw [declared]
    refine .cons ⟨rfl, rfl, rfl, ?_⟩ .nil
    intro name member
    obtain rfl := List.mem_singleton.mp member
    decide +kernel

theorem Registry.fillsBy_withMotto : ∃ r r',
    (Draft.withMotto "With love").build = .ok r ∧
    (Draft.withMotto "{{shout name}}").build = .ok r' ∧
    (∀ pair b, r.binding pair = .ok b → ∀ requested p, b.resolve requested = .ok p →
      ∀ data, b.FillsBy p data requested) ∧
    ∃ b b', r.binding ⟨"Guest", "Letter"⟩ = .ok b ∧ r'.binding ⟨"Guest", "Letter"⟩ = .ok b' ∧
      b.AnswersAs b' := by
  obtain ⟨r, built⟩ := exists_of_toBool_build (d := Draft.withMotto "With love") (by cbv)
  obtain ⟨r', built'⟩ := exists_of_toBool_build (d := Draft.withMotto "{{shout name}}") (by cbv)
  obtain ⟨fills, apart⟩ := fillsBy_of_build built
  have filled : ∃ f ∈ (Draft.withMotto "With love").forms, f.Fills ⟨"Guest", "Letter"⟩ := by
    decide +kernel
  obtain ⟨b, bound⟩ := (exists_binding_iff built).mpr filled
  have alike := apart "Letter" _ r' Draft.alikeFor_withMotto built' "Guest"
  obtain ⟨b', bound', answers⟩ := alike.1 b bound
  exact ⟨r, r', built, built', fills, b, b', bound, bound', answers⟩

end Letterbook
