import Letterbook.Proofs.Lookup

/-! Registries that grow. One more form gives its own pairs one more locale, and new documents stand
beside the old ones. A request is answered by the new form only if its locale comes earlier among
those that are tried than the one that was found before; all other requests are answered as they
were. -/
namespace Letterbook

namespace Draft

/-- The draft with one more form at some position, and with further documents under names that were
free. -/
structure Grows (d : Draft) (x : Form) (d' : Draft) : Prop where
  engine : d'.engine = d.engine
  fallback : d'.fallback = d.fallback
  documents : ∀ name document, d.documents.find? name = some document →
    d'.documents.find? name = some document
  forms : ∃ before after, d.forms = before ++ after ∧ d'.forms = before ++ x :: after

variable {d d' : Draft} {x : Form}

/-- No other form of an acceptable draft asks for a place of this one. -/
theorem Acceptable.apart (acceptable : d.Acceptable) {before after : List Form}
    (forms : d.forms = before ++ x :: after) {f : Form} (other : f ∈ before ++ after) {place : Place}
    (asked : place ∈ f.places) : place ∉ x.places := by
  have distinct := acceptable.distinct
  rw [forms, List.pairwise_append, List.pairwise_cons] at distinct
  obtain ⟨-, ⟨later, -⟩, earlier⟩ := distinct
  intro again
  rcases List.mem_append.mp other with other | other
  · exact earlier f other x List.mem_cons_self place asked again
  · exact later f other place again asked

theorem Grows.mem_forms (grows : d.Grows x d') {f : Form} :
    f ∈ d'.forms ↔ f = x ∨ f ∈ d.forms := by
  obtain ⟨before, after, forms, forms'⟩ := grows.forms
  rw [forms, forms']
  simp only [List.mem_append, List.mem_cons]
  exact or_left_comm

theorem Grows.apart (grows : d.Grows x d') (acceptable : d'.Acceptable) {f : Form}
    (installed : f ∈ d.forms) {place : Place} (asked : place ∈ f.places) : place ∉ x.places := by
  obtain ⟨before, after, forms, forms'⟩ := grows.forms
  exact acceptable.apart forms' (forms ▸ installed) asked

end Draft

/-- What is found by locale, before and after a form is added to it. -/
structure Adds (held held' : Locale → Option PreparedForm) (p : PreparedForm) : Prop where
  fresh : held p.locale = none
  added : held' p.locale = some p
  others : ∀ locale, locale ≠ p.locale → held' locale = held locale
  own : ∀ locale q, held locale = some q → q.locale = locale

namespace Adds

variable {held held' : Locale → Option PreparedForm} {p : PreparedForm}

theorem ne_of_held (adds : Adds held held' p) {locale : Locale} {q : PreparedForm}
    (found : held locale = some q) : locale ≠ p.locale := by
  rintro rfl
  rw [adds.fresh] at found
  contradiction

/-- The added form is found first exactly if its locale is tried before that of the form which was
found first without it. -/
theorem findSome?_eq_some_iff (adds : Adds held held' p) (chain : List Locale) :
    chain.findSome? held' = some p ↔ p.locale ∈ chain ∧
      ∀ q, chain.findSome? held = some q → chain.idxOf p.locale < chain.idxOf q.locale := by
  induction chain with
  | nil => simp
  | cons locale rest ih =>
    by_cases here : locale = p.locale
    · subst here
      rw [List.findSome?_cons, adds.added]
      simp only [true_iff]
      refine ⟨List.mem_cons_self, ?_⟩
      intro q found
      obtain ⟨under, -, held⟩ := List.exists_of_findSome?_eq_some found
      have other : p.locale ≠ q.locale := by
        rw [adds.own under q held]
        exact (adds.ne_of_held held).symm
      rw [List.idxOf_cons_self, List.idxOf_cons_ne _ other]
      exact Nat.succ_pos _
    · rw [List.findSome?_cons, List.findSome?_cons, adds.others locale here]
      cases found : held locale with
      | some q =>
        -- What was found here before is still found here, and no locale is tried earlier.
        have own := adds.own locale q found
        simp only [Option.some.injEq]
        constructor
        · rintro rfl
          exact absurd own.symm here
        · rintro ⟨-, earlier⟩
          have first := earlier q rfl
          rw [own, List.idxOf_cons_self] at first
          exact absurd first (Nat.not_lt_zero _)
      | none =>
        simp only [ih, List.mem_cons, Ne.symm here, false_or]
        rw [List.idxOf_cons_ne _ here]
        have shifted (q : PreparedForm) (later : rest.findSome? held = some q) :
            (locale :: rest).idxOf q.locale = (rest.idxOf q.locale) + 1 := by
          obtain ⟨under, -, held⟩ := List.exists_of_findSome?_eq_some later
          apply List.idxOf_cons_ne
          rintro rfl
          rw [← adds.own under q held, found] at held
          contradiction
        constructor
        · rintro ⟨member, earlier⟩
          refine ⟨member, fun q later => ?_⟩
          have first := earlier q later
          rw [shifted q later]
          omega
        · rintro ⟨member, earlier⟩
          refine ⟨member, fun q later => ?_⟩
          have first := earlier q later
          rw [shifted q later] at first
          omega

/-- Where the added form is not found, what is found is what was found without it. -/
theorem findSome?_eq_of_ne (adds : Adds held held' p) {chain : List Locale}
    (other : chain.findSome? held' ≠ some p) : chain.findSome? held' = chain.findSome? held := by
  induction chain with
  | nil => rfl
  | cons locale rest ih =>
    rw [List.findSome?_cons] at other ⊢
    rw [List.findSome?_cons]
    by_cases here : locale = p.locale
    · rw [here, adds.added] at other
      exact absurd rfl other
    · rw [adds.others locale here] at other ⊢
      cases found : held locale with
      | some q => rfl
      | none =>
        rw [found] at other
        exact ih other

end Adds

namespace Registry

/-- What a registry gains by a form, which is prepared as `p`. -/
structure Gains (r : Registry) (x : Form) (p : PreparedForm) (r' : Registry) : Prop where
  /-- A pair that the form does not fill has the same binding as before, or still none. -/
  elsewhere : ∀ pair, ¬ x.Fills pair →
    (∃ b, r.binding pair = .ok b ∧ r'.binding pair = .ok b) ∨
      ∃ report report', r.binding pair = .error report ∧ r'.binding pair = .error report'
  bound : ∀ pair, x.Fills pair → ∃ b', r'.binding pair = .ok b'
  /-- The form answers a request if its locale is tried, and is tried before the one that was found
  without it. -/
  answers : ∀ pair b', x.Fills pair → r'.binding pair = .ok b' → ∀ requested,
    b'.resolve requested = .ok p ↔ x.locale ∈ requested.fallbackChain r.fallback ∧
      ∀ b q, r.binding pair = .ok b → b.resolve requested = .ok q →
        (requested.fallbackChain r.fallback).idxOf x.locale <
          (requested.fallbackChain r.fallback).idxOf q.locale
  /-- Any other request is answered as before, with the same text or the same error. -/
  kept : ∀ pair b b', x.Fills pair → r.binding pair = .ok b → r'.binding pair = .ok b' →
    ∀ requested, b'.resolve requested ≠ .ok p → ∀ data, b'.fill data requested = b.fill data requested

variable {d d' : Draft} {x : Form} {r r' : Registry} {pair : Pair} {p : PreparedForm}

theorem held?_grown (grows : d.Grows x d') (built : d.build = .ok r) (built' : d'.build = .ok r')
    {place : Place} (other : place ∉ x.places) : place.held? r'.index = place.held? r.index := by
  apply held?_congr built built' grows.engine
  intro f asked
  have different : f ≠ x := by
    rintro rfl
    contradiction
  rw [grows.mem_forms, or_iff_right different]

theorem held?_before (grows : d.Grows x d') (built : d.build = .ok r) (built' : d'.build = .ok r')
    {place : Place} (asked : place ∈ x.places) : place.held? r.index = none := by
  apply Option.eq_none_iff_forall_ne_some.mpr
  intro q held
  obtain ⟨f, installed, again, -⟩ := (held?_eq_some_iff_exists built).mp held
  exact grows.apart (Draft.build_eq_ok_iff.mp built').1 installed again asked

theorem adds_grown (grows : d.Grows x d') (built : d.build = .ok r) (built' : d'.build = .ok r')
    (prepared : x.PreparedAs d.engine p) (fills : x.Fills pair) :
    Adds (fun locale => (pair.place locale).held? r.index)
      (fun locale => (pair.place locale).held? r'.index) p where
  fresh := by
    rw [prepared.locale]
    exact held?_before grows built built' (Form.mem_places_place.mpr ⟨fills, rfl⟩)
  added := by
    refine (held?_eq_some_iff_exists built').mpr ⟨x, grows.mem_forms.mpr (.inl rfl), ?_, ?_⟩
    · exact Form.mem_places_place.mpr ⟨fills, prepared.locale.symm⟩
    · rw [grows.engine]
      exact prepared
  others locale different := by
    refine held?_grown grows built built' fun asked => different ?_
    rw [prepared.locale]
    exact (Form.mem_places_place.mp asked).2.symm
  own locale q held := locale_of_held? built held

theorem binding_grown (grows : d.Grows x d') (built : d.build = .ok r) (built' : d'.build = .ok r')
    (other : ¬ x.Fills pair) {b : Binding} (bound : r.binding pair = .ok b) :
    r'.binding pair = .ok b := by
  obtain ⟨same, -, indexed, fallback⟩ := binding_eq_ok_iff.mp bound
  have forms : r.index.find? pair = r'.index.find? pair := by
    refine find?_index_congr (occupied_index built) (occupied_index built') fun locale => ?_
    refine (held?_grown grows built built' fun asked => ?_).symm
    exact other (Form.mem_places_place.mp asked).1
  refine binding_eq_ok_iff.mpr ⟨same, ?_, forms ▸ indexed, ?_⟩
  · rw [(holds_of_build built').documents]
    exact grows.documents _ _ (document_of_binding built bound)
  · rw [fallback, fallback_of_build built, fallback_of_build built', grows.fallback]

theorem elsewhere_grown (grows : d.Grows x d') (built : d.build = .ok r)
    (built' : d'.build = .ok r') (other : ¬ x.Fills pair) :
    (∃ b, r.binding pair = .ok b ∧ r'.binding pair = .ok b) ∨
      ∃ report report', r.binding pair = .error report ∧ r'.binding pair = .error report' := by
  by_cases bound : ∃ b, r.binding pair = .ok b
  · obtain ⟨b, bound⟩ := bound
    exact .inl ⟨b, bound, binding_grown grows built built' other bound⟩
  · have unbound : ¬ ∃ b', r'.binding pair = .ok b' := by
      rw [exists_binding_iff built']
      rintro ⟨f, installed, fills⟩
      rcases grows.mem_forms.mp installed with rfl | installed
      · exact other fills
      · exact bound ((exists_binding_iff built).mpr ⟨f, installed, fills⟩)
    exact .inr ⟨_, _, binding_eq_error bound, binding_eq_error unbound⟩

theorem resolve_grown_iff (grows : d.Grows x d') (built : d.build = .ok r)
    (built' : d'.build = .ok r') (prepared : x.PreparedAs d.engine p) (fills : x.Fills pair)
    {b' : Binding} (bound' : r'.binding pair = .ok b') (requested : Locale) :
    b'.resolve requested = .ok p ↔ x.locale ∈ requested.fallbackChain r.fallback ∧
      ∀ b q, r.binding pair = .ok b → b.resolve requested = .ok q →
        (requested.fallbackChain r.fallback).idxOf x.locale <
          (requested.fallbackChain r.fallback).idxOf q.locale := by
  have adds := adds_grown grows built built' prepared fills
  have fallback : r'.fallback = r.fallback := by
    rw [fallback_of_build built', fallback_of_build built, grows.fallback]
  rw [resolve_eq_ok_iff_held? bound', fallback, adds.findSome?_eq_some_iff, prepared.locale]
  refine and_congr_right fun _ => ?_
  constructor
  · intro earlier b q bound resolved
    exact earlier q ((resolve_eq_ok_iff_held? bound).mp resolved)
  · intro earlier q found
    -- Something was found without the form, so there was a binding.
    obtain ⟨locale, -, held⟩ := List.exists_of_findSome?_eq_some found
    obtain ⟨f, installed, asked, -⟩ := (held?_eq_some_iff_exists built).mp held
    obtain ⟨b, bound⟩ := (exists_binding_iff built).mpr
      ⟨f, installed, (Form.mem_places_place.mp asked).1⟩
    exact earlier b q bound ((resolve_eq_ok_iff_held? bound).mpr found)

theorem fill_grown (grows : d.Grows x d') (built : d.build = .ok r) (built' : d'.build = .ok r')
    (prepared : x.PreparedAs d.engine p) (fills : x.Fills pair) {b b' : Binding}
    (bound : r.binding pair = .ok b) (bound' : r'.binding pair = .ok b') {requested : Locale}
    (other : b'.resolve requested ≠ .ok p) (data : Json) :
    b'.fill data requested = b.fill data requested := by
  have same := (binding_eq_ok_iff.mp bound).1
  have same' := (binding_eq_ok_iff.mp bound').1
  have document : b'.document = b.document := by
    have installed := grows.documents _ _ (document_of_binding built bound)
    rw [document_of_binding built' bound'] at installed
    exact Option.some.inj installed
  have last : b'.fallback = b.fallback := by
    rw [fallback_of_binding built bound, fallback_of_binding built' bound', grows.fallback]
  have resolved : b'.resolve requested = b.resolve requested := by
    apply Binding.resolve_congr (same'.trans same.symm) last
    have adds := adds_grown grows built built' prepared fills
    rw [ne_eq, Binding.resolve_eq_ok_iff, last, funext (find?_forms bound')] at other
    rw [funext (find?_forms bound), funext (find?_forms bound')]
    exact adds.findSome?_eq_of_ne other
  rw [Binding.fill, Binding.fill, resolved, document]

/-- A registry whose draft grows by a form gains that form, and changes in nothing else. -/
theorem gains_of_grows (grows : d.Grows x d') (built : d.build = .ok r)
    (built' : d'.build = .ok r') : ∃ p, x.PreparedAs d.engine p ∧ r.Gains x p r' := by
  have installed : x ∈ d'.forms := grows.mem_forms.mpr (.inl rfl)
  have fits := (Draft.build_eq_ok_iff.mp built').1.fits x installed
  obtain ⟨p, prepared⟩ := Form.exists_preparedAs_iff.mpr (grows.engine ▸ fits.compiles)
  refine ⟨p, prepared, ?_⟩
  constructor
  case elsewhere =>
    intro pair other
    exact elsewhere_grown grows built built' other
  case bound =>
    intro pair fills
    exact (exists_binding_iff built').mpr ⟨x, installed, fills⟩
  case answers =>
    intro pair b' fills bound' requested
    exact resolve_grown_iff grows built built' prepared fills bound' requested
  case kept =>
    intro pair b b' fills bound bound' requested other data
    exact fill_grown grows built built' prepared fills bound bound' other data

end Registry

/-- An invitation in one locale. -/
def Draft.inEnglish : Draft :=
  ((Draft.empty.installDocument Invitation.letter).installDocument Invitation.card).installForm
    Invitation.english

/-- The invitation in one more locale, for a card and for a note. -/
def Invitation.furtherGerman : Form := Invitation.german.target "Note"

/-- The invitation in two locales, with the further one installed in front, and with one more
document. -/
def Draft.inEnglishAndGerman : Draft where
  documents := Draft.inEnglish.documents.insert "Note" Invitation.note
  forms := [Invitation.furtherGerman, Invitation.english]
  engine := Draft.inEnglish.engine
  fallback := Draft.inEnglish.fallback

theorem Draft.grows_inEnglish :
    Draft.inEnglish.Grows Invitation.furtherGerman Draft.inEnglishAndGerman where
  engine := rfl
  fallback := rfl
  documents name document found := by
    have free : Draft.inEnglish.documents.find? "Note" = none := by cbv
    have other : name ≠ "Note" := by
      rintro rfl
      rw [free] at found
      contradiction
    rw [Draft.inEnglishAndGerman, Table.find?_insert_of_ne other]
    exact found
  forms := ⟨[], [Invitation.english], rfl, rfl⟩

theorem Registry.gains_german : ∃ r r' p, Draft.inEnglish.build = .ok r ∧
    Draft.inEnglishAndGerman.build = .ok r' ∧
    Draft.inEnglish.Grows Invitation.furtherGerman Draft.inEnglishAndGerman ∧
    Invitation.furtherGerman.PreparedAs Draft.inEnglish.engine p ∧
    r.Gains Invitation.furtherGerman p r' := by
  obtain ⟨r, built⟩ := exists_of_toBool_build (d := Draft.inEnglish) (by cbv)
  obtain ⟨r', built'⟩ := exists_of_toBool_build (d := Draft.inEnglishAndGerman) (by cbv)
  obtain ⟨p, prepared, gains⟩ := gains_of_grows Draft.grows_inEnglish built built'
  exact ⟨r, r', p, built, built', Draft.grows_inEnglish, prepared, gains⟩

end Letterbook
