import Letterbook.Proofs.Results
import Letterbook.Proofs.Supplied

/-! Filled documents. Filling visits the declared fields in their order, so a filled document has
just these fields, each with the text or the blank of the form. A form with a single target has to
name the fields that its document requires, but it may name them only to leave them blank. -/
namespace Letterbook

namespace PreparedForm

variable {p : PreparedForm} {data : Json} {name : String}

theorem fillField_eq_none_iff :
    p.fillField data name = .ok none ↔ ∀ e, p.fields.find? name ≠ some (some e) := by
  rw [fillField]
  cases found : (p.fields.find? name).join with
  | none =>
    simp only [true_iff]
    intro e present
    simp [present] at found
  | some e =>
    have present := Option.join_eq_some_iff.mp found
    cases executed : e.execute data <;> simp [present, executed]

theorem fillFields_eq_ok {names : List String} {texts : List (String × Option String)}
    (filled : p.fillFields data names = .ok texts) :
    texts.map Prod.fst = names ∧ ∀ e ∈ texts, p.fillField data e.1 = .ok e.2 := by
  rw [fillFields_eq_mapM, Result.mapM_eq_ok_iff] at filled
  induction filled with
  | nil => simp
  | cons first _ ih =>
    obtain ⟨text, filled, rfl⟩ := Result.map_eq_ok.mp first
    obtain ⟨names, each⟩ := ih
    exact ⟨by rw [List.map_cons, names], List.forall_mem_cons.mpr ⟨filled, each⟩⟩

end PreparedForm

/-- The document filled by a prepared form: each declared field as the form fills it, and no other
field. -/
structure Filled.ComesFrom (x : Filled) (p : PreparedForm) (document : Schema) (data : Json) :
    Prop where
  locale : x.locale = p.locale
  names : ∀ name, name ∈ x.fields.keys ↔ name ∈ document.fieldNames
  field : ∀ name text, x.fields.find? name = some text → p.fillField data name = .ok text

namespace Filled

variable {x : Filled} {p : PreparedForm} {document : Schema} {data : Json} {name : String}

theorem comesFrom_of_fillFields {texts : List (String × Option String)}
    (filled : p.fillFields data document.fieldNames = .ok texts) :
    Filled.ComesFrom ⟨p.locale, Table.ofList texts⟩ p document data := by
  obtain ⟨names, each⟩ := PreparedForm.fillFields_eq_ok filled
  constructor
  case locale => rfl
  case names =>
    intro name
    rw [Table.mem_keys_ofList, names]
  case field =>
    intro name text found
    exact each (name, text) (Table.mem_of_find?_ofList found)

theorem ComesFrom.find?_of_mem (h : x.ComesFrom p document data)
    (declared : name ∈ document.fieldNames) :
    ∃ text, x.fields.find? name = some text ∧ p.fillField data name = .ok text := by
  obtain ⟨text, found⟩ := Table.mem_keys.mp ((h.names name).mpr declared)
  exact ⟨text, found, h.field name text found⟩

/-- A declared field has no text exactly if the form has none for it. -/
theorem ComesFrom.text?_eq_none_iff (h : x.ComesFrom p document data)
    (declared : name ∈ document.fieldNames) :
    x.text? name = none ↔ ∀ e, p.fields.find? name ≠ some (some e) := by
  obtain ⟨text, found, filled⟩ := h.find?_of_mem declared
  have none_iff : p.fillField data name = .ok none ↔ ∀ e, p.fields.find? name ≠ some (some e) :=
    PreparedForm.fillField_eq_none_iff
  rw [← none_iff, filled, text?, found]
  simp

end Filled

namespace Binding

variable {b : Binding} {data : Json} {requested : Locale} {p : PreparedForm} {x : Filled}

/-- What is filled comes from the form that the request is resolved to. -/
theorem comesFrom_of_fill (resolved : b.resolve requested = .ok p)
    (filled : b.fill data requested = .ok x) : x.ComesFrom p b.document data := by
  rw [fill, resolved] at filled
  dsimp only at filled
  cases texts : p.fillFields data b.document.fieldNames with
  | error e => simp [texts, Except.map] at filled
  | ok fields =>
    simp only [texts, Except.map, Except.ok.injEq] at filled
    exact filled ▸ Filled.comesFrom_of_fillFields texts

end Binding

namespace Registry

variable {d : Draft} {r : Registry} {pair : Pair} {b : Binding} {requested : Locale}
  {p : PreparedForm}

/-- The only target of an installed form gets an entry for each field that it requires. -/
theorem required_mem_keys (built : d.build = .ok r) {f : Form} (installed : f ∈ d.forms)
    (single : f.targets.toList = [pair.target]) (bound : r.binding pair = .ok b)
    {spec : FieldSpec} (required : spec ∈ b.document.requiredFields) :
    spec.name ∈ f.fields.keys := by
  have fits := (Draft.build_eq_ok_iff.mp built).1.fits f installed
  have document := document_of_binding built bound
  obtain ⟨declared, notNull⟩ := List.mem_filter.mp required
  exact fits.complete pair.target single b.document document spec declared (by simpa using notNull)

/-- A form with a single target gives a text to every field that the document requires, except to
those that it names as blank. So all required fields have texts exactly if none is left blank. -/
theorem required_filled_iff (built : d.build = .ok r) (bound : r.binding pair = .ok b)
    (resolved : b.resolve requested = .ok p) (single : p.targets.toList = [pair.target])
    {data : Json} {x : Filled} (filled : b.fill data requested = .ok x) :
    ∃ f ∈ d.forms, f.Fills pair ∧ f.PreparedAs d.engine p ∧
      (∀ spec ∈ b.document.requiredFields,
        x.text? spec.name = none ↔ f.fields.find? spec.name = some none) ∧
      ((∀ spec ∈ b.document.requiredFields, ∃ text, x.text? spec.name = some text) ↔
        ∀ spec ∈ b.document.requiredFields, f.fields.find? spec.name ≠ some none) := by
  obtain ⟨f, installed, fills, prepared⟩ := exists_form_of_resolve built bound resolved
  have comes := Binding.comesFrom_of_fill resolved filled
  have blank : ∀ spec ∈ b.document.requiredFields,
      (x.text? spec.name = none ↔ f.fields.find? spec.name = some none) := by
    intro spec required
    have key : spec.name ∈ p.fields.keys := by
      rw [prepared.keys]
      exact required_mem_keys built installed (prepared.targets ▸ single) bound required
    obtain ⟨entry, found⟩ := Table.mem_keys.mp key
    rw [comes.text?_eq_none_iff (Schema.name_mem_of_required required), ← prepared.blank, found]
    cases entry <;> simp
  refine ⟨f, installed, fills, prepared, blank, ?_⟩
  constructor
  · intro texts spec required named
    obtain ⟨text, found⟩ := texts spec required
    have none := (blank spec required).mpr named
    simp [found] at none
  · intro notBlank spec required
    apply Option.ne_none_iff_exists'.mp
    intro none
    exact notBlank spec required ((blank spec required).mp none)

end Registry

/-- An invitation that fills the one required field of its document and leaves the other blank. -/
def Draft.withoutMotto : Draft :=
  (Draft.empty.installDocument Invitation.note).installForm
    (((Invitation.form .standard "Dear {{name}}").blankField "motto").target "Note")

theorem Registry.required_filled_withoutMotto : ∃ r b p x,
    Draft.withoutMotto.build = .ok r ∧ r.binding ⟨"Guest", "Note"⟩ = .ok b ∧
    b.resolve (.ofLanguage "en") = .ok p ∧ p.targets.toList = ["Note"] ∧
    b.fill (.obj [("name", .str "Ann")]) (.ofLanguage "en") = .ok x ∧
    ∃ f ∈ Draft.withoutMotto.forms, f.Fills ⟨"Guest", "Note"⟩ ∧
      f.PreparedAs Draft.withoutMotto.engine p ∧
      (∀ spec ∈ b.document.requiredFields,
        x.text? spec.name = none ↔ f.fields.find? spec.name = some none) ∧
      ((∀ spec ∈ b.document.requiredFields, ∃ text, x.text? spec.name = some text) ↔
        ∀ spec ∈ b.document.requiredFields, f.fields.find? spec.name ≠ some none) := by
  have answer : (Draft.withoutMotto.resolved? ⟨"Guest", "Note"⟩ (.ofLanguage "en")).map
      (fun found => (found.2.2.targets.toList,
        (found.2.1.fill (.obj [("name", .str "Ann")]) (.ofLanguage "en")).toBool)) =
      some (["Note"], true) := by
    decide +kernel
  obtain ⟨⟨r, b, p⟩, resolved, same⟩ := Option.map_eq_some_iff.mp answer
  obtain ⟨built, bound, found⟩ := Draft.resolved?_eq_some resolved
  obtain ⟨single, fills⟩ := Prod.mk.inj same
  cases filled : b.fill (.obj [("name", .str "Ann")]) (.ofLanguage "en") with
  | error e => simp [filled, Except.toBool] at fills
  | ok x =>
    exact ⟨r, b, p, x, built, bound, found, single, filled,
      required_filled_iff built bound found single filled⟩

/-- An invitation that leaves the required field of its only document blank. -/
def Draft.blankBody : Draft :=
  (Draft.empty.installDocument Invitation.letter).installForm
    (((Form.blank ((Schema.named "Guest").field "name") .standard).blankField "body").target
      "Letter")

theorem Registry.blankBody_filled_without_text : ∃ r b p x,
    Draft.blankBody.build = .ok r ∧ r.binding ⟨"Guest", "Letter"⟩ = .ok b ∧
    b.resolve .standard = .ok p ∧ p.targets.toList = ["Letter"] ∧
    b.fill (.obj []) .standard = .ok x ∧
    ∃ spec ∈ b.document.requiredFields, x.text? spec.name = none := by
  have answer : (Draft.blankBody.resolved? ⟨"Guest", "Letter"⟩ .standard).map
      (fun found => (found.2.2.targets.toList, found.2.1.document.requiredFields,
        found.2.1.fill (.obj []) .standard)) =
      some (["Letter"], [⟨"body", false⟩],
        .ok ⟨.standard, Table.ofList [("body", none)]⟩) := by
    decide +kernel
  obtain ⟨⟨r, b, p⟩, resolved, same⟩ := Option.map_eq_some_iff.mp answer
  obtain ⟨built, bound, found⟩ := Draft.resolved?_eq_some resolved
  obtain ⟨single, same⟩ := Prod.mk.inj same
  obtain ⟨required, filled⟩ := Prod.mk.inj same
  refine ⟨r, b, p, _, built, bound, found, single, filled, ⟨"body", false⟩, ?_, rfl⟩
  rw [required]
  exact List.mem_singleton_self _

end Letterbook
