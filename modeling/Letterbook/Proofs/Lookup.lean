import Letterbook.Proofs.Index

/-! Looking up pairs. A registry that was built binds the pairs that installed forms fill, and what a
binding resolves to is an installed form, prepared, for that pair and the locale it was found under. -/
namespace Letterbook

/-- The place of a pair in a locale. -/
def Pair.place (pair : Pair) (locale : Locale) : Place := ⟨pair.source, pair.target, locale⟩

/-- The form reads the source of the pair and has its target among its own. -/
def Form.Fills (f : Form) (pair : Pair) : Prop :=
  f.source.name = pair.source ∧ pair.target ∈ f.targets.toList

instance (f : Form) (pair : Pair) : Decidable (f.Fills pair) :=
  inferInstanceAs (Decidable (_ ∧ _))

theorem Form.mem_places_place {f : Form} {pair : Pair} {locale : Locale} :
    pair.place locale ∈ f.places ↔ f.Fills pair ∧ f.locale = locale := by
  rw [Form.mem_places, Form.Fills, and_assoc]
  rfl

theorem Pair.held?_place (pair : Pair) (locale : Locale) (index : Table Pair LocaleIndex) :
    (pair.place locale).held? index = (index.find? pair).bind (·.find? locale) := rfl

namespace Binding

variable {b b' : Binding} {requested : Locale} {p : PreparedForm}

theorem resolve_eq_ok_iff : b.resolve requested = .ok p ↔
    (requested.fallbackChain b.fallback).findSome? b.forms.find? = some p := by
  rw [resolve]
  split
  · next form found => rw [found, Except.ok.injEq, Option.some.injEq]
  · next none => simp [none]

/-- A form for just the requested locale is found before any other. -/
theorem resolve_of_find? (found : b.forms.find? requested = some p) :
    b.resolve requested = .ok p := by
  obtain ⟨rest, chain⟩ := requested.exists_fallbackChain_cons b.fallback
  rw [resolve_eq_ok_iff, chain, List.findSome?_cons, found]

theorem resolve_congr (pair : b'.pair = b.pair) (fallback : b'.fallback = b.fallback)
    (found : (requested.fallbackChain b.fallback).findSome? b'.forms.find? =
      (requested.fallbackChain b.fallback).findSome? b.forms.find?) :
    b'.resolve requested = b.resolve requested := by
  simp only [resolve, pair, fallback, found]

end Binding

namespace Registry

variable {d : Draft} {r : Registry} {pair : Pair} {b : Binding} {p : PreparedForm}

section Index

variable {index index' : Table Pair LocaleIndex}

theorem Occupied.exists_held? (occupied : Occupied index) {locales : LocaleIndex}
    (found : index.find? pair = some locales) :
    ∃ locale p, (pair.place locale).held? index = some p := by
  obtain ⟨e, first⟩ := List.exists_mem_of_length_pos (occupied pair locales found)
  refine ⟨e.1, e.2, ?_⟩
  rw [Pair.held?_place, found, Option.bind_some]
  exact Table.find?_eq_some_iff.mpr first

theorem Occupied.mem_keys_iff (occupied : Occupied index) :
    pair ∈ index.keys ↔ ∃ locale p, (pair.place locale).held? index = some p := by
  rw [Table.mem_keys]
  constructor
  · rintro ⟨locales, found⟩
    exact occupied.exists_held? found
  · rintro ⟨locale, p, held⟩
    obtain ⟨locales, found, -⟩ := Option.bind_eq_some_iff.mp held
    exact ⟨locales, found⟩

theorem find?_index_le (occupied : Occupied index)
    (same : ∀ locale, (pair.place locale).held? index = (pair.place locale).held? index')
    {locales : LocaleIndex} (found : index.find? pair = some locales) :
    index'.find? pair = some locales := by
  have here (locale : Locale) : locales.find? locale =
      (index'.find? pair).bind (·.find? locale) := by
    rw [← Pair.held?_place, ← same, Pair.held?_place, found, Option.bind_some]
  cases found' : index'.find? pair with
  | none =>
    obtain ⟨locale, p, held⟩ := occupied.exists_held? found
    rw [same, Pair.held?_place, found'] at held
    contradiction
  | some locales' =>
    refine congrArg some (Table.ext_find? fun locale => ?_)
    rw [here, found', Option.bind_some]

/-- Indexes with a form for every pair hold the same for a pair if they do at each of its places. -/
theorem find?_index_congr (occupied : Occupied index) (occupied' : Occupied index')
    (same : ∀ locale, (pair.place locale).held? index = (pair.place locale).held? index') :
    index.find? pair = index'.find? pair := by
  apply Option.ext
  intro locales
  constructor
  · exact find?_index_le occupied same
  · exact find?_index_le occupied' fun locale => (same locale).symm

end Index

theorem exists_of_toBool_build (accepted : d.build.toBool = true) : ∃ r, d.build = .ok r := by
  cases built : d.build with
  | ok r => exact ⟨r, rfl⟩
  | error report => simp [built, Except.toBool] at accepted

theorem fallback_of_build (built : d.build = .ok r) : r.fallback = d.fallback := by
  obtain ⟨-, rfl⟩ := Draft.build_eq_ok_iff.mp built
  rfl

/-- What a registry holds at a place is some installed form that asks for it, prepared. -/
theorem held?_eq_some_iff_exists (built : d.build = .ok r) {place : Place} :
    place.held? r.index = some p ↔
      ∃ f ∈ d.forms, place ∈ f.places ∧ f.PreparedAs d.engine p := by
  have acceptable := (Draft.build_eq_ok_iff.mp built).1
  rw [held?_eq_some_iff built]
  constructor
  · rintro ⟨f, one, prepared⟩
    obtain ⟨installed, asked⟩ := Draft.mem_of_filter_eq_singleton one
    exact ⟨f, installed, asked, prepared⟩
  · rintro ⟨f, installed, asked, prepared⟩
    exact ⟨f, acceptable.filter_eq_singleton installed asked, prepared⟩

/-- Two registries hold the same at a place for which the same forms were installed. -/
theorem held?_congr {d' : Draft} {r' : Registry} (built : d.build = .ok r)
    (built' : d'.build = .ok r') (engine : d'.engine = d.engine) {place : Place}
    (same : ∀ f, place ∈ f.places → (f ∈ d'.forms ↔ f ∈ d.forms)) :
    place.held? r'.index = place.held? r.index := by
  apply Option.ext
  intro p
  rw [held?_eq_some_iff_exists built, held?_eq_some_iff_exists built', engine]
  constructor
  · rintro ⟨f, installed, asked, prepared⟩
    exact ⟨f, (same f asked).mp installed, asked, prepared⟩
  · rintro ⟨f, installed, asked, prepared⟩
    exact ⟨f, (same f asked).mpr installed, asked, prepared⟩

theorem locale_of_held? (built : d.build = .ok r) {place : Place}
    (held : place.held? r.index = some p) : p.locale = place.locale := by
  obtain ⟨f, -, asked, prepared⟩ := (held?_eq_some_iff_exists built).mp held
  rw [prepared.locale]
  exact (Form.mem_places.mp asked).2.2

theorem binding_eq_ok_iff : r.binding pair = .ok b ↔ b.pair = pair ∧
    r.documents.find? pair.target = some b.document ∧ r.index.find? pair = some b.forms ∧
      b.fallback = r.fallback := by
  rw [binding]
  constructor
  · intro bound
    split at bound
    · next found =>
      cases bound
      obtain ⟨forms, indexed, bound⟩ := Option.bind_eq_some_iff.mp found
      obtain ⟨document, installed, rfl⟩ := Option.map_eq_some_iff.mp bound
      exact ⟨rfl, installed, indexed, rfl⟩
    · contradiction
  · rintro ⟨rfl, installed, indexed, fallback⟩
    rw [indexed, Option.bind_some, bind?, installed, ← fallback]
    rfl

theorem fallback_of_binding (built : d.build = .ok r) (bound : r.binding pair = .ok b) :
    b.fallback = d.fallback := by
  rw [(binding_eq_ok_iff.mp bound).2.2.2, fallback_of_build built]

theorem document_of_binding (built : d.build = .ok r) (bound : r.binding pair = .ok b) :
    d.documents.find? pair.target = some b.document := by
  rw [← (holds_of_build built).documents]
  exact (binding_eq_ok_iff.mp bound).2.1

/-- The document of every pair in the index is installed. -/
theorem exists_binding_iff_mem_keys (built : d.build = .ok r) :
    (∃ b, r.binding pair = .ok b) ↔ pair ∈ r.index.keys := by
  constructor
  · rintro ⟨b, bound⟩
    exact Table.mem_keys.mpr ⟨_, (binding_eq_ok_iff.mp bound).2.2.1⟩
  · intro key
    have target := target_installed_of_mem_keys built key
    rw [← (holds_of_build built).documents] at target
    obtain ⟨document, installed⟩ := Table.contains_iff.mp target
    obtain ⟨forms, indexed⟩ := Table.mem_keys.mp key
    exact ⟨⟨pair, document, forms, r.fallback⟩,
      binding_eq_ok_iff.mpr ⟨rfl, installed, indexed, rfl⟩⟩

/-- A registry that was built binds a pair exactly if an installed form fills it. -/
theorem exists_binding_iff (built : d.build = .ok r) :
    (∃ b, r.binding pair = .ok b) ↔ ∃ f ∈ d.forms, f.Fills pair := by
  rw [exists_binding_iff_mem_keys built, (occupied_index built).mem_keys_iff]
  constructor
  · rintro ⟨locale, p, held⟩
    obtain ⟨f, installed, asked, -⟩ := (held?_eq_some_iff_exists built).mp held
    exact ⟨f, installed, (Form.mem_places_place.mp asked).1⟩
  · rintro ⟨f, installed, fills⟩
    have asked : pair.place f.locale ∈ f.places := Form.mem_places_place.mpr ⟨fills, rfl⟩
    obtain ⟨p, held, -⟩ := held?_of_installed built installed asked
    exact ⟨f.locale, p, held⟩

theorem binding_eq_error (unbound : ¬ ∃ b, r.binding pair = .ok b) :
    r.binding pair = .error (r.explainMissing pair) := by
  rw [binding] at unbound ⊢
  split
  · next b found => exact absurd ⟨b, by rw [found]⟩ unbound
  · rfl

theorem find?_forms (bound : r.binding pair = .ok b) (locale : Locale) :
    b.forms.find? locale = (pair.place locale).held? r.index := by
  obtain ⟨-, -, indexed, -⟩ := binding_eq_ok_iff.mp bound
  rw [Pair.held?_place, indexed, Option.bind_some]

/-- A request is resolved to the first form that is held along its fallback chain. -/
theorem resolve_eq_ok_iff_held? (bound : r.binding pair = .ok b) {requested : Locale} :
    b.resolve requested = .ok p ↔ (requested.fallbackChain r.fallback).findSome?
      (fun locale => (pair.place locale).held? r.index) = some p := by
  rw [Binding.resolve_eq_ok_iff, funext (find?_forms bound), (binding_eq_ok_iff.mp bound).2.2.2]

theorem locales_eq (r : Registry) (pair : Pair) :
    r.locales pair = ((r.index.find? pair).getD .empty).keys := by
  rw [locales]
  cases r.index.find? pair <;> rfl

theorem mem_locales {locale : Locale} :
    locale ∈ r.locales pair ↔ ∃ p, (pair.place locale).held? r.index = some p := by
  rw [locales_eq, Table.mem_keys, Pair.held?_place]
  cases r.index.find? pair <;> rfl

end Registry

/-- The registry of a draft, a binding of it and the form that a request is resolved to. -/
def Draft.resolved? (d : Draft) (pair : Pair) (requested : Locale) :
    Option (Registry × Binding × PreparedForm) :=
  d.build.toOption.bind fun r =>
    (r.binding pair).toOption.bind fun b =>
      (b.resolve requested).toOption.map fun p => (r, b, p)

theorem Draft.resolved?_eq_some {d : Draft} {pair : Pair} {requested : Locale} {r : Registry}
    {b : Binding} {p : PreparedForm} (resolved : d.resolved? pair requested = some (r, b, p)) :
    d.build = .ok r ∧ r.binding pair = .ok b ∧ b.resolve requested = .ok p := by
  have ok_of_toOption {ε α : Type} {x : Except ε α} {a : α} (some : x.toOption = some a) :
      x = .ok a := by
    cases x with
    | ok => exact congrArg Except.ok (Option.some.inj some)
    | error => contradiction
  obtain ⟨r', built, resolved⟩ := Option.bind_eq_some_iff.mp resolved
  obtain ⟨b', bound, resolved⟩ := Option.bind_eq_some_iff.mp resolved
  obtain ⟨p', found, same⟩ := Option.map_eq_some_iff.mp resolved
  cases same
  exact ⟨ok_of_toOption built, ok_of_toOption bound, ok_of_toOption found⟩

end Letterbook
