import Letterbook.Proofs.Lookup
import Letterbook.Proofs.Results

/-! Data that suffices. If the texts of a registry's forms ask for nothing but the roots of their
variables, then an object with all the fields of a record fills every document from it: the roots are
declared fields, since the registry was built. -/
namespace Letterbook

/-- The value has a member of each of these names, null or not. -/
def Json.Has (x : Json) (names : List String) : Prop := ∀ name ∈ names, ∃ v, x.member? name = some v

instance (x : Json) (names : List String) : Decidable (x.Has names) :=
  decidable_of_iff (∀ name ∈ names, (x.member? name).isSome) <| by
    simp only [Json.Has, Option.isSome_iff_exists]

/-- Every object with members at the roots of the variables fills the text. -/
def Executable.NeedsOnlyNames (e : Executable) : Prop :=
  ∀ members, (Json.obj members).Has (e.names.toList.map rootKey) →
    ∃ text, e.execute (.obj members) = .ok text

theorem Json.Has.mono {x : Json} {names names' : List String} (has : x.Has names)
    (fewer : names' ⊆ names) : x.Has names' := by
  intro name member
  exact has name (fewer member)

namespace PreparedForm

variable {p : PreparedForm} {data : Json}

theorem fillFields_eq_mapM (p : PreparedForm) (data : Json) (names : List String) :
    p.fillFields data names = names.mapM fun name => (p.fillField data name).map (name, ·) := by
  induction names with
  | nil => rfl
  | cons name rest ih =>
    rw [fillFields, List.mapM_cons, ih]
    cases p.fillField data name <;> rfl

theorem exists_fillFields_iff_fillField {names : List String} :
    (∃ texts, p.fillFields data names = .ok texts) ↔
      ∀ name ∈ names, ∃ text, p.fillField data name = .ok text := by
  simp only [fillFields_eq_mapM, Result.exists_mapM_iff, Result.map_eq_ok]
  refine forall₂_congr fun name member => ⟨?_, ?_⟩
  · rintro ⟨_, text, filled, -⟩
    exact ⟨text, filled⟩
  · rintro ⟨text, filled⟩
    exact ⟨_, text, filled, rfl⟩

theorem fillField_ok {name : String}
    (executes : ∀ e, p.fields.find? name = some (some e) → ∃ text, e.execute data = .ok text) :
    ∃ text, p.fillField data name = .ok text := by
  rw [fillField]
  cases found : (p.fields.find? name).join with
  | none => exact ⟨none, rfl⟩
  | some e =>
    obtain ⟨text, executed⟩ := executes e (Option.join_eq_some_iff.mp found)
    refine ⟨some text, ?_⟩
    dsimp only
    rw [executed]

end PreparedForm

namespace Registry

variable {d : Draft} {r : Registry} {pair : Pair} {b : Binding} {requested : Locale}
  {p : PreparedForm}

/-- What a binding resolves to is an installed form for its pair, prepared. -/
theorem exists_form_of_resolve (built : d.build = .ok r) (bound : r.binding pair = .ok b)
    (resolved : b.resolve requested = .ok p) :
    ∃ f ∈ d.forms, f.Fills pair ∧ f.PreparedAs d.engine p := by
  have found := (resolve_eq_ok_iff_held? bound).mp resolved
  obtain ⟨locale, -, held⟩ := List.exists_of_findSome?_eq_some found
  obtain ⟨f, installed, asked, prepared⟩ := (held?_eq_some_iff_exists built).mp held
  exact ⟨f, installed, (Form.mem_places_place.mp asked).1, prepared⟩

/-- The variables of an installed form have roots that its source declares. -/
theorem roots_declared (built : d.build = .ok r) {f : Form} (installed : f ∈ d.forms)
    (prepared : f.PreparedAs d.engine p) {field : String} {e : Executable}
    (found : p.fields.find? field = some (some e)) :
    e.names.toList.map rootKey ⊆ p.source.fieldNames := by
  have fits := (Draft.build_eq_ok_iff.mp built).1.fits f installed
  obtain ⟨text, written, compiled⟩ := (prepared.text field e).mp found
  intro root listed
  obtain ⟨name, named, rfl⟩ := List.mem_map.mp listed
  rw [prepared.source]
  exact fits.known field text e written compiled name named

theorem fill_ok_of_has (built : d.build = .ok r)
    (needs : ∀ f ∈ d.forms, ∀ field text e, f.fields.find? field = some (some text) →
      d.engine.compile text = .ok e → e.NeedsOnlyNames)
    (bound : r.binding pair = .ok b) (resolved : b.resolve requested = .ok p)
    {members : List (String × Json)} (has : (Json.obj members).Has p.source.fieldNames) :
    ∃ filled, b.fill (.obj members) requested = .ok filled := by
  obtain ⟨f, installed, -, prepared⟩ := exists_form_of_resolve built bound resolved
  -- The registry was built, so the data has a member at the root of every variable.
  have executes (field : String) (e : Executable) (found : p.fields.find? field = some (some e)) :
      ∃ text, e.execute (.obj members) = .ok text := by
    obtain ⟨text, written, compiled⟩ := (prepared.text field e).mp found
    apply needs f installed field text e written compiled
    exact has.mono (roots_declared built installed prepared found)
  obtain ⟨texts, filled⟩ : ∃ texts, p.fillFields (.obj members) b.document.fieldNames = .ok texts :=
    PreparedForm.exists_fillFields_iff_fillField.mpr fun field _ =>
      PreparedForm.fillField_ok (executes field)
  refine ⟨⟨p.locale, Table.ofList texts⟩, ?_⟩
  rw [Binding.fill, resolved]
  dsimp only
  rw [filled]
  rfl

end Registry
end Letterbook
