import Letterbook.Proofs.Lookup

/-! The views of a registry. A pair can be looked up, met among all bindings, found among the targets
of its source or asked for its locales. The views read the index in different ways and agree because a
registry that was built has no pair without a document and no pair without a form. -/
namespace Letterbook

/-- What a pair without a binding lacks: its document, or a form for it, where some form may still
read its source. -/
inductive Absence where
  | document
  | form (sourceKnown : Bool)
  deriving DecidableEq

namespace Absence

/-- The document is there, but no form fills it from this source. -/
def unfilled (pair : Pair) (state : String) : String :=
  "Requested Document [" ++ pair.target ++ "] is installed\n" ++
    "Requested DocumentData [" ++ pair.source ++ "] " ++ state ++ "\n" ++
    "DocumentTemplate with source=[" ++ pair.source ++ "] does not have target=[" ++
    pair.target ++ "]"

def reason (pair : Pair) : Absence → String
  | document => "Document [" ++ pair.target ++ "] is not installed in Barbershop"
  | form sourceKnown => unfilled pair (if sourceKnown then "is installed" else "is not installed")

def message (pair : Pair) (absence : Absence) : String :=
  "Failed to get " ++ pair.text ++ "\n" ++ absence.reason pair

theorem head?_append {s t : String} {c : Char} (first : s.toList.head? = some c) :
    (s ++ t).toList.head? = some c := by
  rw [String.toList_append, List.head?_append, first]
  rfl

theorem head?_unfilled (pair : Pair) (state : String) :
    (unfilled pair state).toList.head? = some 'R' := by
  unfold unfilled
  iterate 12 apply head?_append
  rfl

theorem unfilled_inj {pair : Pair} {state state' : String}
    (same : unfilled pair state = unfilled pair state') : state = state' := by
  unfold unfilled at same
  simp only [String.append_left_inj] at same
  exact (String.append_right_inj _).mp same

/-- The reasons begin differently, or tell two states of the source behind the same words. -/
theorem reason_injective (pair : Pair) : Function.Injective (reason pair) := by
  have differ (known : Bool) : reason pair document ≠ reason pair (form known) := by
    intro same
    have first : (reason pair document).toList.head? = some 'D' := head?_append (head?_append rfl)
    rw [same, reason, head?_unfilled] at first
    contradiction
  intro a b same
  cases a with
  | document =>
    cases b with
    | document => rfl
    | form known => exact absurd same (differ known)
  | form known =>
    cases b with
    | document => exact absurd same.symm (differ known)
    | form known' =>
      -- What stands before and behind the state of the source is the same.
      have states := unfilled_inj same
      cases known <;> cases known' <;> first | rfl | simp at states

theorem message_inj {pair : Pair} {a b : Absence} : a.message pair = b.message pair ↔ a = b := by
  rw [← (reason_injective pair).eq_iff]
  exact String.append_right_inj _

end Absence

namespace Registry

variable {d : Draft} {r : Registry} {pair : Pair} {b : Binding}

/-- What a registry lacks for a pair that it does not bind. -/
def absence (r : Registry) (pair : Pair) : Absence :=
  if r.documents.contains pair.target then .form (r.hasSource pair.source) else .document

theorem explainMissing_eq (r : Registry) (pair : Pair) :
    r.explainMissing pair = ⟨[(r.absence pair).message pair]⟩ := by
  rw [explainMissing, absence]
  split <;> rfl

theorem mem_bindings : b ∈ r.bindings ↔ r.binding b.pair = .ok b := by
  simp only [bindings, List.mem_filterMap, Prod.exists, ← Table.find?_eq_some_iff, bind?,
    Option.map_eq_some_iff, binding_eq_ok_iff]
  constructor
  · rintro ⟨pair, forms, indexed, document, installed, rfl⟩
    exact ⟨trivial, installed, indexed, rfl⟩
  · rintro ⟨-, installed, indexed, fallback⟩
    refine ⟨b.pair, b.forms, indexed, b.document, installed, ?_⟩
    rw [← fallback]

/-- The join with the documents drops no pair of the index. -/
theorem map_pair_bindings (built : d.build = .ok r) :
    r.bindings.map Binding.pair = r.index.keys := by
  have bound : ∀ e ∈ r.index.entries, (r.bind? e.1 e.2).map Binding.pair = some e.1 := by
    rintro ⟨pair, forms⟩ entry
    have key : pair ∈ r.index.keys := List.mem_map_of_mem entry
    obtain ⟨b, bound⟩ := (exists_binding_iff_mem_keys built).mpr key
    have installed := (binding_eq_ok_iff.mp bound).2.1
    simp only [bind?, installed, Option.map_some]
  rw [bindings, List.map_filterMap, Table.keys, ← List.filterMap_eq_map]
  exact List.filterMap_congr bound

theorem mem_targets {source target : String} :
    target ∈ r.targets source ↔ ⟨source, target⟩ ∈ r.index.keys := by
  simp only [targets, List.mem_map, List.mem_filter, beq_iff_eq]
  constructor
  · rintro ⟨pair, ⟨key, rfl⟩, rfl⟩
    exact key
  · intro key
    exact ⟨_, ⟨key, rfl⟩, rfl⟩

/-- The sources that a registry knows are those of the installed forms, since each form has a
target. -/
theorem hasSource_iff (built : d.build = .ok r) {source : String} :
    r.hasSource source ↔ ∃ f ∈ d.forms, f.source.name = source := by
  simp only [hasSource, List.any_eq_true, beq_iff_eq, ← exists_binding_iff_mem_keys built,
    exists_binding_iff built]
  constructor
  · rintro ⟨pair, ⟨f, installed, reads, -⟩, rfl⟩
    exact ⟨f, installed, reads⟩
  · rintro ⟨f, installed, rfl⟩
    have fits := (Draft.build_eq_ok_iff.mp built).1.fits f installed
    obtain ⟨target, member⟩ := List.exists_mem_of_ne_nil _ fits.targeted
    exact ⟨⟨f.source.name, target⟩, ⟨f, installed, rfl, member⟩, rfl⟩

theorem locales_ascending (r : Registry) (pair : Pair) :
    (r.locales pair).Pairwise fun l m => compare l m = .lt := by
  rw [locales_eq]
  exact List.pairwise_map.mpr (Table.ascending _)

theorem mem_locales_iff (built : d.build = .ok r) {locale : Locale} :
    locale ∈ r.locales pair ↔ ∃ f ∈ d.forms, f.Fills pair ∧ f.locale = locale := by
  rw [mem_locales]
  constructor
  · rintro ⟨p, held⟩
    obtain ⟨f, installed, asked, -⟩ := (held?_eq_some_iff_exists built).mp held
    exact ⟨f, installed, Form.mem_places_place.mp asked⟩
  · rintro ⟨f, installed, asked⟩
    obtain ⟨p, held, -⟩ := held?_of_installed built installed (Form.mem_places_place.mpr asked)
    exact ⟨p, held⟩

/-- What the views of a registry tell about a pair. -/
structure ViewsAgree (r : Registry) (d : Draft) (pair : Pair) : Prop where
  views : List.TFAE [
    ∃ b, r.binding pair = .ok b,
    pair ∈ r.bindings.map Binding.pair,
    pair.target ∈ r.targets pair.source,
    r.locales pair ≠ [],
    ∃ f ∈ d.forms, f.Fills pair]
  bound : ∀ b, r.binding pair = .ok b → b.pair = pair ∧ b ∈ r.bindings ∧
    r.documents.find? pair.target = some b.document ∧
    d.documents.find? pair.target = some b.document
  ascending : (r.locales pair).Pairwise fun l m => compare l m = .lt
  locales : ∀ locale, locale ∈ r.locales pair ↔
    ∃ f ∈ d.forms, f.Fills pair ∧ f.locale = locale
  unbound : (∀ f ∈ d.forms, ¬ f.Fills pair) → ∃ message,
    r.binding pair = .error ⟨[message]⟩ ∧
    (message = Absence.document.message pair ↔ ¬ d.documents.contains pair.target) ∧
    (d.documents.contains pair.target →
      (message = (Absence.form true).message pair ↔
        ∃ f ∈ d.forms, f.source.name = pair.source) ∧
      (message = (Absence.form false).message pair ↔
        ¬ ∃ f ∈ d.forms, f.source.name = pair.source))

theorem views_tfae (built : d.build = .ok r) (pair : Pair) : List.TFAE [
    ∃ b, r.binding pair = .ok b,
    pair ∈ r.bindings.map Binding.pair,
    pair.target ∈ r.targets pair.source,
    r.locales pair ≠ [],
    ∃ f ∈ d.forms, f.Fills pair] := by
  tfae_have 1 ↔ 2 := by
    rw [map_pair_bindings built]
    exact exists_binding_iff_mem_keys built
  tfae_have 2 ↔ 3 := by
    rw [map_pair_bindings built]
    exact mem_targets.symm
  -- A pair without locales would be a pair without forms.
  tfae_have 4 ↔ 5 := by
    constructor
    · intro some
      obtain ⟨locale, member⟩ := List.exists_mem_of_ne_nil _ some
      obtain ⟨f, installed, fills, -⟩ := (mem_locales_iff built).mp member
      exact ⟨f, installed, fills⟩
    · rintro ⟨f, installed, fills⟩
      exact List.ne_nil_of_mem ((mem_locales_iff built).mpr ⟨f, installed, fills, rfl⟩)
  tfae_have 1 ↔ 5 := exists_binding_iff built
  tfae_finish

/-- The message of a failed lookup tells what is missing, and nothing else is. -/
theorem absence_of_unbound (built : d.build = .ok r) (pair : Pair) :
    (r.absence pair = .document ↔ ¬ d.documents.contains pair.target) ∧
      (d.documents.contains pair.target → ∀ known, r.absence pair = .form known ↔
        (known = true ↔ ∃ f ∈ d.forms, f.source.name = pair.source)) := by
  rw [absence, (holds_of_build built).documents]
  constructor
  · split <;> simp [*]
  · intro installed known
    rw [if_pos installed, Absence.form.injEq, ← hasSource_iff built]
    cases known <;> simp

theorem viewsAgree_of_build (built : d.build = .ok r) (pair : Pair) : r.ViewsAgree d pair := by
  constructor
  case views => exact views_tfae built pair
  case bound =>
    intro b bound
    obtain ⟨rfl, installed, -, -⟩ := binding_eq_ok_iff.mp bound
    exact ⟨rfl, mem_bindings.mpr bound, installed, document_of_binding built bound⟩
  case ascending => exact locales_ascending r pair
  case locales =>
    intro locale
    exact mem_locales_iff built
  case unbound =>
    intro unfilled
    have unbound : ¬ ∃ b, r.binding pair = .ok b := by
      rw [exists_binding_iff built]
      rintro ⟨f, installed, fills⟩
      exact unfilled f installed fills
    obtain ⟨document, form⟩ := absence_of_unbound built pair
    refine ⟨(r.absence pair).message pair, ?_, ?_, ?_⟩
    · rw [binding_eq_error unbound, explainMissing_eq]
    · rw [Absence.message_inj, document]
    · intro installed
      rw [Absence.message_inj, Absence.message_inj, form installed, form installed]
      simp

theorem viewsAgree_invitations : ∃ r, Draft.invitations.build = .ok r ∧
    r.ViewsAgree Draft.invitations ⟨"Guest", "Letter"⟩ ∧
    r.ViewsAgree Draft.invitations ⟨"Host", "Letter"⟩ ∧
    r.ViewsAgree Draft.invitations ⟨"Guest", "Note"⟩ := by
  have accepted : Draft.invitations.build.toBool = true := by cbv
  obtain ⟨r, built⟩ := exists_of_toBool_build accepted
  exact ⟨r, built, viewsAgree_of_build built _, viewsAgree_of_build built _,
    viewsAgree_of_build built _⟩

end Registry
end Letterbook
