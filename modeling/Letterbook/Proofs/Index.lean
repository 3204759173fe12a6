import Mathlib
import Letterbook.Proofs.Acceptance

/-! What a registry has in its index. Entering a form replaces what is already at one of its places;
that nothing is ever replaced follows from the survey, which has found all places different. So the
index holds each installed form under each of its targets, and nothing else. -/
namespace Letterbook

namespace Place

/-- The form of an index at a place. -/
def held? (place : Place) (index : Table Pair LocaleIndex) : Option PreparedForm :=
  (index.find? ⟨place.source, place.target⟩).bind (·.find? place.locale)

variable {index : Table Pair LocaleIndex} {p : PreparedForm}

@[simp] theorem held?_empty (place : Place) : place.held? .empty = none := rfl

theorem held?_update (place : Place) (source target : String) (locale : Locale) :
    place.held? (index.update ⟨source, target⟩ .empty (·.insert locale p)) =
      if place = ⟨source, target, locale⟩ then some p else place.held? index := by
  obtain ⟨source', target', locale'⟩ := place
  simp only [held?]
  by_cases pair : (⟨source', target'⟩ : Pair) = ⟨source, target⟩
  · rw [pair, Table.find?_update_self, Option.bind_some]
    obtain ⟨rfl, rfl⟩ := Pair.mk.inj pair
    by_cases same : locale' = locale
    · simp [same]
    · rw [Table.find?_insert_of_ne same, if_neg fun h => same (Place.mk.inj h).2.2]
      cases index.find? ⟨source', target'⟩ <;> rfl
  · rw [Table.find?_update_of_ne pair, if_neg]
    rintro ⟨⟩
    exact pair rfl

theorem held?_enter (place : Place) (index : Table Pair LocaleIndex) (p : PreparedForm) :
    place.held? (p.enter index) = if place ∈ p.places then some p else place.held? index := by
  rw [PreparedForm.enter, PreparedForm.places]
  induction p.targets.toList generalizing index with
  | nil => simp
  | cons target rest ih =>
    rw [List.foldl_cons, ih, held?_update, List.map_cons]
    by_cases later : place ∈ rest.map fun target => ⟨p.source.name, target, p.locale⟩
    · rw [if_pos later, if_pos (List.mem_cons_of_mem _ later)]
    · rw [if_neg later]
      simp only [List.mem_cons, later, or_false]

/-- Of several forms with one place the last one entered stays. -/
theorem held?_foldl_enter (place : Place) (forms : List PreparedForm)
    (index : Table Pair LocaleIndex) :
    place.held? (forms.foldl PreparedForm.enter index) =
      ((forms.filter (place ∈ ·.places)).getLast?).or (place.held? index) := by
  induction forms generalizing index with
  | nil => rfl
  | cons p rest ih =>
    rw [List.foldl_cons, ih, held?_enter]
    by_cases here : place ∈ p.places
    · rw [List.filter_cons_of_pos (by simpa using here), if_pos here, List.getLast?_cons]
      cases (rest.filter (place ∈ ·.places)).getLast? <;> rfl
    · rw [List.filter_cons_of_neg (by simpa using here), if_neg here]

end Place

namespace Draft

/-- Prepared forms that have a place are those that the installed forms with it become. -/
theorem filter_survey_forms (d : Draft) (place : Place) :
    d.survey.forms.filter (place ∈ ·.places) =
      (d.forms.filter (place ∈ ·.places)).filterMap fun f => (f.prepare d.engine).toOption := by
  rw [survey, Survey.forms_eq, List.filter_filterMap, List.filterMap_filter]
  congr
  funext f
  cases prepared : f.prepare d.engine with
  | error problems => simp [Except.toOption]
  | ok p =>
    rw [← (Form.prepare_eq_ok_iff.mp prepared).places]
    simp [Except.toOption, Option.filter]

/-- Acceptable drafts have at most one form for a place. -/
theorem Acceptable.filter_places {d : Draft} (h : d.Acceptable) (place : Place) :
    d.forms.filter (place ∈ ·.places) = [] ∨ ∃ f, d.forms.filter (place ∈ ·.places) = [f] := by
  have distinct := h.distinct.filter (fun f => decide (place ∈ f.places))
  match forms : d.forms.filter (place ∈ ·.places) with
  | [] => exact .inl forms
  | [f] => exact .inr ⟨f, forms⟩
  | f :: g :: rest =>
    have mem (e : Form) (he : e ∈ f :: g :: rest) : place ∈ e.places := by
      rw [← forms] at he
      simpa using (List.mem_filter.mp he).2
    rw [forms, List.pairwise_cons] at distinct
    exact absurd (mem g (by simp)) (distinct.1 g (by simp) place (mem f (by simp)))

theorem mem_of_filter_eq_singleton {d : Draft} {f : Form} {place : Place}
    (one : d.forms.filter (place ∈ ·.places) = [f]) : f ∈ d.forms ∧ place ∈ f.places := by
  have member : f ∈ d.forms.filter (place ∈ ·.places) := one ▸ List.mem_singleton_self f
  simpa using List.mem_filter.mp member

/-- An installed form that has a place is the one form for it. -/
theorem Acceptable.filter_eq_singleton {d : Draft} (h : d.Acceptable) {f : Form} {place : Place}
    (installed : f ∈ d.forms) (asked : place ∈ f.places) :
    d.forms.filter (place ∈ ·.places) = [f] := by
  have member : f ∈ d.forms.filter (place ∈ ·.places) :=
    List.mem_filter.mpr ⟨installed, by simpa using asked⟩
  rcases h.filter_places place with none | ⟨g, one⟩
  · simp [none] at member
  · rw [one] at member ⊢
    rw [List.mem_singleton.mp member]

theorem build_eq_ok_iff {d : Draft} {r : Registry} : d.build = .ok r ↔ d.Acceptable ∧
    r = ⟨d.documents, d.survey.forms.foldl PreparedForm.enter .empty, d.fallback⟩ := by
  by_cases h : d.Acceptable
  · rw [build_of_acceptable h, Except.ok.injEq, eq_comm]
    exact ⟨fun same => ⟨h, same⟩, And.right⟩
  · rw [build_of_not_acceptable h]
    exact ⟨fun same => by contradiction, fun same => absurd same.1 h⟩

end Draft

namespace Registry

variable {d : Draft} {r : Registry}

/-- The entry of a registry at a place is the one installed form that asks for it, prepared. -/
theorem held?_eq_some_iff (built : d.build = .ok r) {place : Place} {p : PreparedForm} :
    place.held? r.index = some p ↔
      ∃ f, d.forms.filter (place ∈ ·.places) = [f] ∧ f.PreparedAs d.engine p := by
  obtain ⟨acceptable, rfl⟩ := Draft.build_eq_ok_iff.mp built
  rw [Place.held?_foldl_enter, Draft.filter_survey_forms, Place.held?_empty, Option.or_none]
  rcases acceptable.filter_places place with none | ⟨f, one⟩
  · simp [none]
  · obtain ⟨q, prepared⟩ := Form.exists_preparedAs_iff.mpr
      (acceptable.fits f (Draft.mem_of_filter_eq_singleton one).1).compiles
    rw [one, List.filterMap_cons, Form.prepare_eq_ok_iff.mpr prepared]
    simp only [Except.toOption, List.filterMap_nil, List.getLast?_singleton, Option.some.injEq,
      List.cons.injEq, and_true]
    constructor
    · rintro rfl
      exact ⟨f, rfl, prepared⟩
    · rintro ⟨_, rfl, again⟩
      exact prepared.unique again

theorem held?_of_installed (built : d.build = .ok r) {f : Form} (installed : f ∈ d.forms)
    {place : Place} (asked : place ∈ f.places) :
    ∃ p, place.held? r.index = some p ∧ f.PreparedAs d.engine p := by
  have acceptable := (Draft.build_eq_ok_iff.mp built).1
  obtain ⟨p, prepared⟩ := Form.exists_preparedAs_iff.mpr (acceptable.fits f installed).compiles
  have one := acceptable.filter_eq_singleton installed asked
  exact ⟨p, (held?_eq_some_iff built).mpr ⟨f, one, prepared⟩, prepared⟩

/-- Every pair of an index has a form. -/
def Occupied (index : Table Pair LocaleIndex) : Prop :=
  ∀ pair locales, index.find? pair = some locales → 0 < locales.size

theorem occupied_update {index : Table Pair LocaleIndex} (occupied : Occupied index) (pair : Pair)
    (locale : Locale) (p : PreparedForm) :
    Occupied (index.update pair .empty (·.insert locale p)) := by
  intro other locales found
  by_cases same : other = pair
  · rw [same, Table.find?_update_self] at found
    exact Option.some.inj found ▸ Table.size_pos_of_find? Table.find?_insert_self
  · rw [Table.find?_update_of_ne same] at found
    exact occupied other locales found

theorem occupied_enter {index : Table Pair LocaleIndex} (occupied : Occupied index)
    (p : PreparedForm) : Occupied (p.enter index) := by
  refine List.foldlRecOn p.targets.toList _ occupied fun index occupied target _ => ?_
  exact occupied_update occupied _ _ _

theorem occupied_index (built : d.build = .ok r) : Occupied r.index := by
  obtain ⟨-, rfl⟩ := Draft.build_eq_ok_iff.mp built
  refine List.foldlRecOn d.survey.forms PreparedForm.enter ?_ fun index occupied p _ => ?_
  · intro pair locales found
    simp at found
  · exact occupied_enter occupied p

/-- The places of an index in the order of its pairs and their locales. -/
def places (r : Registry) : List Place :=
  r.index.entries.flatMap fun (pair, locales) =>
    locales.keys.map fun locale => ⟨pair.source, pair.target, locale⟩

theorem mem_places {place : Place} : place ∈ r.places ↔ ∃ p, place.held? r.index = some p := by
  obtain ⟨source, target, locale⟩ := place
  simp only [places, List.mem_flatMap, Prod.exists, List.mem_map, Place.mk.injEq, Place.held?,
    Option.bind_eq_some_iff, ← Table.find?_eq_some_iff, Table.mem_keys]
  constructor
  · rintro ⟨_, locales, found, _, ⟨p, entry⟩, rfl, rfl, rfl⟩
    exact ⟨p, locales, found, entry⟩
  · rintro ⟨p, locales, found, entry⟩
    exact ⟨_, locales, found, locale, ⟨p, entry⟩, rfl, rfl, rfl⟩

theorem places_nodup (r : Registry) : r.places.Nodup := by
  refine List.pairwise_flatMap.mpr ⟨fun e _ => ?_, ?_⟩
  · exact List.pairwise_map.mpr ((Table.keys_nodup e.2).imp fun different same =>
      different (Place.mk.inj same).2.2)
  · refine (List.pairwise_map.mp (Table.keys_nodup r.index)).imp ?_
    rintro e e' different _ here _ there rfl
    obtain ⟨_, -, rfl⟩ := List.mem_map.mp here
    obtain ⟨_, -, same⟩ := List.mem_map.mp there
    obtain ⟨source, target, -⟩ := Place.mk.inj same
    exact different (Pair.mk.injEq .. ▸ ⟨source.symm, target.symm⟩)

@[simp] theorem length_places (r : Registry) :
    r.places.length = (r.index.values.map Table.size).sum := by
  simp [places, Table.values, Table.size, Table.keys, List.length_flatMap, Function.comp_def]

/-- Nothing is lost and nothing is made up: the places of a registry are those that the installed
forms ask for. -/
theorem places_perm (built : d.build = .ok r) : r.places.Perm (d.forms.flatMap Form.places) := by
  have acceptable := (Draft.build_eq_ok_iff.mp built).1
  have nodup : (d.forms.flatMap Form.places).Nodup := by
    refine List.pairwise_flatMap.mpr ⟨fun f _ => f.places_nodup, acceptable.distinct.imp ?_⟩
    rintro f g distinct place asked _ again rfl
    exact distinct place asked again
  refine (List.perm_ext_iff_of_nodup r.places_nodup nodup).mpr fun place => ?_
  rw [mem_places, List.mem_flatMap]
  constructor
  · rintro ⟨p, entry⟩
    obtain ⟨f, one, -⟩ := (held?_eq_some_iff built).mp entry
    exact ⟨f, Draft.mem_of_filter_eq_singleton one⟩
  · rintro ⟨f, installed, asked⟩
    obtain ⟨p, entry, -⟩ := held?_of_installed built installed asked
    exact ⟨p, entry⟩

/-- A registry holds each installed form under each of its targets, and nothing else. -/
structure Holds (r : Registry) (d : Draft) : Prop where
  documents : r.documents = d.documents
  /-- An entry is the one form that is installed for its place, prepared. -/
  entry : ∀ place p, place.held? r.index = some p ↔
    ∃ f, d.forms.filter (place ∈ ·.places) = [f] ∧ f.PreparedAs d.engine p
  present : ∀ place, (∃ p, place.held? r.index = some p) ↔
    (d.forms.filter (place ∈ ·.places)).length = 1
  reachable : ∀ f ∈ d.forms, ∀ target ∈ f.targets.toList,
    ∃ p, (⟨f.source.name, target, f.locale⟩ : Place).held? r.index = some p ∧
      f.PreparedAs d.engine p
  count : (r.index.values.map Table.size).sum = (d.forms.map fun f => f.targets.size).sum
  occupied : ∀ pair locales, r.index.find? pair = some locales → 0 < locales.size
  installed : ∀ pair ∈ r.index.keys, d.documents.contains pair.target

theorem length_filter_places_eq_one_iff (built : d.build = .ok r) (place : Place) :
    (∃ p, place.held? r.index = some p) ↔ (d.forms.filter (place ∈ ·.places)).length = 1 := by
  have acceptable := (Draft.build_eq_ok_iff.mp built).1
  constructor
  · rintro ⟨p, entry⟩
    obtain ⟨f, one, -⟩ := (held?_eq_some_iff built).mp entry
    rw [one, List.length_singleton]
  · intro one
    obtain ⟨f, one⟩ := List.length_eq_one_iff.mp one
    obtain ⟨installed, asked⟩ := Draft.mem_of_filter_eq_singleton one
    obtain ⟨p, entry, -⟩ := held?_of_installed built installed asked
    exact ⟨p, entry⟩

theorem target_installed_of_mem_keys (built : d.build = .ok r) {pair : Pair}
    (key : pair ∈ r.index.keys) : d.documents.contains pair.target := by
  obtain ⟨locales, found⟩ := Table.mem_keys.mp key
  obtain ⟨e, first⟩ := List.exists_mem_of_length_pos (occupied_index built pair locales found)
  obtain ⟨locale, p⟩ := e
  have entry : (⟨pair.source, pair.target, locale⟩ : Place).held? r.index = some p :=
    Option.bind_eq_some_iff.mpr ⟨locales, found, Table.find?_eq_some_iff.mpr first⟩
  obtain ⟨f, one, -⟩ := (held?_eq_some_iff built).mp entry
  obtain ⟨installed, asked⟩ := Draft.mem_of_filter_eq_singleton one
  have fits := (Draft.build_eq_ok_iff.mp built).1.fits f installed
  exact fits.installed pair.target (Form.mem_places.mp asked).2.1

theorem holds_of_build (built : d.build = .ok r) : r.Holds d where
  documents := (Draft.build_eq_ok_iff.mp built).2 ▸ rfl
  entry _ _ := held?_eq_some_iff built
  present := length_filter_places_eq_one_iff built
  reachable f installed target asked :=
    held?_of_installed built installed (Form.mem_places.mpr ⟨rfl, asked, rfl⟩)
  count := by
    have count := (places_perm built).length_eq
    simpa [List.length_flatMap] using count
  occupied := occupied_index built
  installed _ := target_installed_of_mem_keys built

end Registry

namespace Invitation

def letter : Schema := (Schema.named "Letter").field "body"

def card : Schema := (Schema.named "Card").field "body"

def note : Schema := ((Schema.named "Note").field "body").nullableField "motto"

/-- An invitation in a locale, read from the name of a guest. -/
def form (locale : Locale) (text : String) : Form :=
  (Form.blank ((Schema.named "Guest").field "name") locale).field "body" text

def english : Form := ((form .standard "Dear {{name}}").target "Letter").target "Card"

def german : Form := (form (.ofRegion "de" "DE") "Hallo {{name}}").target "Card"

end Invitation

/-- Invitations in two locales, one of them for two documents. -/
def Draft.invitations : Draft :=
  (((Draft.empty.installDocument Invitation.letter).installDocument Invitation.card).installForm
    Invitation.english).installForm Invitation.german

theorem Registry.holds_invitations :
    ∃ r, Draft.invitations.build = .ok r ∧ r.Holds Draft.invitations := by
  have accepted : Draft.invitations.build.toBool = true := by cbv
  cases built : Draft.invitations.build with
  | ok r => exact ⟨r, rfl, holds_of_build built⟩
  | error report => simp [built, Except.toBool] at accepted

end Letterbook
