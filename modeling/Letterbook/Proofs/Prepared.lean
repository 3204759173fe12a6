import Letterbook.Proofs.Table
import Letterbook.Review

/-! What preparing a form comes to. `PreparedAs` says field by field what the prepared form is,
without the compiler's table of outcomes; a form can be prepared exactly if all its texts compile,
and then in one way. -/
namespace Letterbook.Form

/-- The places that a form asks for, one for each target. -/
def places (f : Form) : List Place :=
  f.targets.toList.map fun target => ⟨f.source.name, target, f.locale⟩

theorem mem_places {f : Form} {place : Place} : place ∈ f.places ↔
    f.source.name = place.source ∧ place.target ∈ f.targets.toList ∧ f.locale = place.locale := by
  obtain ⟨source, target, locale⟩ := place
  simp only [places, List.mem_map, Place.mk.injEq]
  constructor
  · rintro ⟨_, member, rfl, rfl, rfl⟩
    exact ⟨rfl, member, rfl⟩
  · rintro ⟨rfl, member, rfl⟩
    exact ⟨target, member, rfl, rfl, rfl⟩

theorem places_nodup (f : Form) : f.places.Nodup := by
  refine List.pairwise_map.mpr ((Table.keys_nodup f.targets).imp fun different same => ?_)
  exact different (Place.mk.inj same).2.1

@[simp] theorem length_places (f : Form) : f.places.length = f.targets.size := by
  simp [places, NameSet.toList, Table.keys, Table.size]

/-- The engine takes every text of the form. -/
def Compiles (engine : Engine) (f : Form) : Prop :=
  ∀ name text, f.fields.find? name = some (some text) → ∃ e, engine.compile text = .ok e

/-- The prepared form has the same fields, the same of them blank, and each text compiled. -/
structure PreparedAs (engine : Engine) (f : Form) (p : PreparedForm) : Prop where
  source : p.source = f.source
  targets : p.targets = f.targets
  locale : p.locale = f.locale
  keys : p.fields.keys = f.fields.keys
  blank : ∀ name, p.fields.find? name = some none ↔ f.fields.find? name = some none
  text : ∀ name e, p.fields.find? name = some (some e) ↔
    ∃ text, f.fields.find? name = some (some text) ∧ engine.compile text = .ok e

variable {engine : Engine} {f : Form} {p q : PreparedForm}

namespace PreparedAs

theorem places (h : f.PreparedAs engine p) : p.places = f.places := by
  rw [PreparedForm.places, Form.places, h.source, h.targets, h.locale]

theorem compiles (h : f.PreparedAs engine p) : f.Compiles engine := by
  intro name text written
  have key : name ∈ p.fields.keys := h.keys ▸ Table.mem_keys.mpr ⟨_, written⟩
  obtain ⟨compiled, found⟩ := Table.mem_keys.mp key
  cases compiled with
  | none =>
    have blank := (h.blank name).mp found
    simp [written] at blank
  | some e =>
    obtain ⟨text', written', compiled⟩ := (h.text name e).mp found
    obtain rfl : text = text' := by simpa [written] using written'
    exact ⟨e, compiled⟩

theorem unique (hp : f.PreparedAs engine p) (hq : f.PreparedAs engine q) : p = q := by
  have fields : p.fields = q.fields := by
    refine Table.ext_find? fun name => Option.ext fun compiled => ?_
    cases compiled with
    | none => exact (hp.blank name).trans (hq.blank name).symm
    | some e => exact (hp.text name e).trans (hq.text name e).symm
  have source := hp.source.trans hq.source.symm
  have targets := hp.targets.trans hq.targets.symm
  have locale := hp.locale.trans hq.locale.symm
  cases p
  cases q
  exact PreparedForm.mk.injEq .. ▸ ⟨fields, source, targets, locale⟩

end PreparedAs

/-- The problems of the texts that the engine refuses, in the order of the fields. -/
def refusals (engine : Engine) (f : Form) : List Problem :=
  (f.compiled engine).entries.filterMap fun e => (refusal? e.1 e.2).map f.problem

/-- The form with each text replaced by what the engine makes of it. -/
def outcome (engine : Engine) (f : Form) : PreparedForm :=
  ⟨(f.compiled engine).mapValues (·.bind Except.toOption), f.source, f.targets, f.locale⟩

theorem prepare_eq (engine : Engine) (f : Form) : f.prepare engine =
    match f.refusals engine with
    | [] => .ok (f.outcome engine)
    | problems => .error problems := rfl

theorem find?_compiled (engine : Engine) (f : Form) (name : String) :
    (f.compiled engine).find? name = (f.fields.find? name).map (·.map engine.compile) :=
  Table.find?_mapValues ..

theorem refusals_eq_nil_iff : f.refusals engine = [] ↔ f.Compiles engine := by
  simp only [refusals, List.filterMap_eq_nil_iff, Option.map_eq_none_iff, Prod.forall,
    ← Table.find?_eq_some_iff, find?_compiled, Option.map_eq_some_iff]
  constructor
  · intro accepted name text written
    have := accepted name _ ⟨_, written, rfl⟩
    cases compiled : engine.compile text with
    | error message => simp [refusal?, compiled] at this
    | ok e => exact ⟨e, rfl⟩
  · rintro compiles name _ ⟨text, written, rfl⟩
    cases text with
    | none => rfl
    | some text =>
      obtain ⟨e, compiled⟩ := compiles name text written
      simp [refusal?, compiled]

theorem outcome_preparedAs (compiles : f.Compiles engine) :
    f.PreparedAs engine (f.outcome engine) := by
  have found (name : String) : (f.outcome engine).fields.find? name =
      (f.fields.find? name).map fun text => (text.map engine.compile).bind Except.toOption := by
    simp only [outcome, Table.find?_mapValues, find?_compiled, Option.map_map]
    rfl
  refine ⟨rfl, rfl, rfl, by simp [outcome, compiled], fun name => ?_, fun name e => ?_⟩
  · rw [found]
    match written : f.fields.find? name with
    | none | some none => simp
    | some (some text) =>
      obtain ⟨e, compiled⟩ := compiles name text written
      simp [compiled, Except.toOption]
  · rw [found]
    match written : f.fields.find? name with
    | none | some none => simp
    | some (some text) =>
      obtain ⟨e', compiled⟩ := compiles name text written
      simp [compiled, Except.toOption]

theorem prepare_eq_ok_iff : f.prepare engine = .ok p ↔ f.PreparedAs engine p := by
  rw [prepare_eq]
  constructor
  · intro prepared
    split at prepared
    · next accepted =>
      cases prepared
      exact outcome_preparedAs (refusals_eq_nil_iff.mp accepted)
    · contradiction
  · intro h
    rw [refusals_eq_nil_iff.mpr h.compiles]
    exact congrArg _ ((outcome_preparedAs h.compiles).unique h)

theorem exists_preparedAs_iff : (∃ p, f.PreparedAs engine p) ↔ f.Compiles engine :=
  ⟨fun ⟨_, h⟩ => h.compiles, fun h => ⟨_, outcome_preparedAs h⟩⟩

/-- The texts that do not compile are all that preparing reports, and they are at least one. -/
theorem prepare_eq_error_iff {problems : List Problem} :
    f.prepare engine = .error problems ↔ ¬ f.Compiles engine ∧ problems = f.refusals engine := by
  rw [prepare_eq, ← refusals_eq_nil_iff]
  cases f.refusals engine with
  | nil => simp
  | cons problem rest => simp [eq_comm]

end Letterbook.Form

namespace Letterbook.PreparedForm

theorem mem_references {p : PreparedForm} {field name : String} : (field, name) ∈ p.references ↔
    ∃ e, p.fields.find? field = some (some e) ∧ name ∈ e.names.toList := by
  simp only [PreparedForm.references, List.mem_flatMap, Prod.exists, ← Table.find?_eq_some_iff]
  constructor
  · rintro ⟨field', text, found, member⟩
    cases text with
    | none => contradiction
    | some e =>
      obtain ⟨name', named, same⟩ := List.mem_map.mp member
      cases same
      exact ⟨e, found, named⟩
  · rintro ⟨e, found, named⟩
    exact ⟨field, some e, found, List.mem_map.mpr ⟨name, named, rfl⟩⟩

end Letterbook.PreparedForm
