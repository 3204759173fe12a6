import Letterbook.Proofs.Lookup

/-! Forms with several targets. Such a form stands for one form per target, each with the fields that
its document declares: if it supplies what every target requires, the parts can be installed in its
place, and nothing that is looked up or filled comes out otherwise. -/
namespace Letterbook

namespace Form

/-- The part of a form for one target: the same texts and blanks for the fields that the document of
that name declares. -/
def part (documents : Table String Schema) (f : Form) (target : String) : Form where
  fields := f.fields.filterMap fun name text =>
    if (documents.find? target).any (·.hasField name) then some text else none
  source := f.source
  targets := NameSet.ofList [target]
  locale := f.locale

/-- Every target gets all the fields that it requires, blank or not. -/
def SuppliesAll (documents : Table String Schema) (f : Form) : Prop :=
  ∀ target ∈ f.targets.toList, ∀ document ∈ documents.find? target,
    ∀ spec ∈ document.fields, spec.nullable = false → spec.name ∈ f.fields.keys

variable {engine : Engine} {documents : Table String Schema} {f : Form} {target : String}
  {document : Schema}

@[simp] theorem places_part (documents : Table String Schema) (f : Form) (target : String) :
    (f.part documents target).places = [⟨f.source.name, target, f.locale⟩] := rfl

theorem mem_places_part {place : Place} (asked : target ∈ f.targets.toList)
    (member : place ∈ (f.part documents target).places) : place ∈ f.places := by
  rw [places_part, List.mem_singleton] at member
  subst place
  exact mem_places.mpr ⟨rfl, asked, rfl⟩

theorem find?_part (installed : documents.find? target = some document) (name : String) :
    (f.part documents target).fields.find? name =
      if name ∈ document.fieldNames then f.fields.find? name else none := by
  rw [part, Table.find?_filterMap]
  simp only [installed, Option.any_some, Schema.hasField_iff]
  by_cases declared : name ∈ document.fieldNames
  · simp [declared]
  · simp [declared]

theorem find?_of_find?_part {name : String} {text : Option String}
    (found : (f.part documents target).fields.find? name = some text) :
    f.fields.find? name = some text := by
  rw [part, Table.find?_filterMap, Option.bind_eq_some_iff] at found
  obtain ⟨written, found, kept⟩ := found
  split at kept
  · rw [found, kept]
  · contradiction

theorem Compiles.part (compiles : f.Compiles engine) : (f.part documents target).Compiles engine := by
  intro name text written
  exact compiles name text (find?_of_find?_part written)

theorem mem_keys_part (installed : documents.find? target = some document) {name : String} :
    name ∈ (f.part documents target).fields.keys ↔
      name ∈ f.fields.keys ∧ name ∈ document.fieldNames := by
  rw [Table.mem_keys, Table.mem_keys, find?_part installed]
  by_cases declared : name ∈ document.fieldNames
  · simp [declared]
  · simp [declared]

/-- A part fits if the form does and the target gets all that it requires. -/
theorem Fits.part (fits : f.Fits engine documents) (supplies : f.SuppliesAll documents)
    (asked : target ∈ f.targets.toList) : (f.part documents target).Fits engine documents := by
  have target_eq {name : String} (member : name ∈ (f.part documents target).targets.toList) :
      name = target := List.mem_singleton.mp member
  obtain ⟨document, installed⟩ := Table.contains_iff.mp (fits.installed target asked)
  constructor
  case compiles => exact fits.compiles.part
  case targeted => exact List.cons_ne_nil _ _
  case installed =>
    intro name member
    rw [target_eq member]
    exact fits.installed target asked
  case known =>
    intro field text e written compiled
    exact fits.known field text e (find?_of_find?_part written) compiled
  case declared =>
    intro field key
    exact ⟨target, List.mem_singleton_self _, document, installed,
      ((mem_keys_part installed).mp key).2⟩
  case complete =>
    -- Of a part this is asked for its one target; of the whole form it may not have been asked.
    intro name single document' found spec required notNull
    obtain rfl : name = target := target_eq (single ▸ List.mem_singleton_self _)
    obtain rfl : document' = document := Option.some.inj (found.symm.trans installed)
    refine (mem_keys_part installed).mpr ⟨?_, List.mem_map_of_mem required⟩
    exact supplies name asked document' found spec required notNull

theorem flatMap_places_part (documents : Table String Schema) (f : Form) :
    (f.targets.toList.map (f.part documents)).flatMap places = f.places := by
  rw [List.flatMap_map, places, List.map_eq_flatMap]
  rfl

theorem nodup_flatMap_places_iff {forms : List Form} : (forms.flatMap places).Nodup ↔
    forms.Pairwise fun f g => ∀ place ∈ f.places, place ∉ g.places := by
  rw [List.nodup_flatMap]
  constructor
  · rintro ⟨-, apart⟩
    exact apart.imp fun disjoint place asked again => disjoint asked again
  · intro distinct
    refine ⟨fun f _ => f.places_nodup, distinct.imp fun apart => ?_⟩
    intro place asked again
    exact apart place asked again

end Form

namespace PreparedForm

/-- Where the document is the one given, the second form fills it as the first does. -/
structure FillsAs (p : PreparedForm) (document? : Option Schema) (q : PreparedForm) : Prop where
  locale : q.locale = p.locale
  fields : ∀ document ∈ document?, ∀ name ∈ document.fieldNames,
    q.fields.find? name = p.fields.find? name

theorem FillsAs.refl (p : PreparedForm) (document? : Option Schema) : p.FillsAs document? p :=
  ⟨rfl, fun _ _ _ _ => rfl⟩

variable {p q : PreparedForm} {engine : Engine} {f g : Form}

/-- What a prepared form has for a field depends on the text of that field alone. -/
theorem find?_congr (hp : f.PreparedAs engine p) (hq : g.PreparedAs engine q) {name : String}
    (same : g.fields.find? name = f.fields.find? name) :
    q.fields.find? name = p.fields.find? name := by
  apply Option.ext
  intro compiled
  cases compiled with
  | none => rw [hp.blank, hq.blank, same]
  | some e => rw [hp.text, hq.text, same]

theorem fillFields_congr {names : List String}
    (same : ∀ name ∈ names, q.fields.find? name = p.fields.find? name) (data : Json) :
    q.fillFields data names = p.fillFields data names := by
  induction names with
  | nil => rfl
  | cons name rest ih =>
    have first : q.fillField data name = p.fillField data name := by
      rw [fillField, fillField, same name List.mem_cons_self]
    have others := ih fun name member => same name (List.mem_cons_of_mem _ member)
    rw [fillFields, fillFields, first, others]

end PreparedForm

namespace Draft

/-- The draft with the parts of a form in its place, in any order. -/
structure Splits (d : Draft) (x : Form) (d' : Draft) : Prop where
  documents : d'.documents = d.documents
  engine : d'.engine = d.engine
  fallback : d'.fallback = d.fallback
  forms : ∃ before after parts, d.forms = before ++ x :: after ∧
    parts.Perm (x.targets.toList.map (x.part d.documents)) ∧ d'.forms = before ++ parts ++ after

variable {d d' : Draft} {x : Form}

/-- Apart from the form and its parts the two drafts have the same forms. -/
theorem Splits.mem_forms (split : d.Splits x d') : ∃ rest : List Form,
    (∀ f, f ∈ d.forms ↔ f = x ∨ f ∈ rest) ∧ ∀ f, f ∈ d'.forms ↔
      (∃ target ∈ x.targets.toList, f = x.part d.documents target) ∨ f ∈ rest := by
  obtain ⟨before, after, parts, forms, perm, forms'⟩ := split.forms
  refine ⟨before ++ after, fun f => ?_, fun f => ?_⟩
  · rw [forms]
    simp only [List.mem_append, List.mem_cons]
    exact or_left_comm
  · rw [forms', List.append_assoc]
    simp only [List.mem_append, perm.mem_iff, List.mem_map, eq_comm]
    exact or_left_comm

theorem Splits.places_perm (split : d.Splits x d') :
    (d'.forms.flatMap Form.places).Perm (d.forms.flatMap Form.places) := by
  obtain ⟨before, after, parts, forms, perm, forms'⟩ := split.forms
  have places : (parts.flatMap Form.places).Perm x.places := by
    rw [← Form.flatMap_places_part d.documents x]
    exact perm.flatMap_right Form.places
  rw [forms, forms']
  simp only [List.flatMap_append, List.flatMap_cons, List.append_assoc]
  exact (places.append_right _).append_left _

theorem Splits.acceptable (split : d.Splits x d') (acceptable : d.Acceptable)
    (supplies : x.SuppliesAll d.documents) : d'.Acceptable := by
  obtain ⟨rest, member, member'⟩ := split.mem_forms
  constructor
  case fits =>
    intro f installed
    rw [split.engine, split.documents]
    rcases (member' f).mp installed with ⟨target, asked, rfl⟩ | other
    · exact (acceptable.fits x ((member x).mpr (.inl rfl))).part supplies asked
    · exact acceptable.fits f ((member f).mpr (.inr other))
  case distinct =>
    have distinct := Form.nodup_flatMap_places_iff.mpr acceptable.distinct
    exact Form.nodup_flatMap_places_iff.mp (split.places_perm.nodup_iff.mpr distinct)

end Draft

/-- The second binding fills the same document, chooses the same locale for every request, and fills
the document alike, or fails with the same error. -/
structure Binding.AnswersAs (b b' : Binding) : Prop where
  document : b'.document = b.document
  locale : ∀ requested, (b'.resolve requested).map PreparedForm.locale =
    (b.resolve requested).map PreparedForm.locale
  fill : ∀ data requested, b'.fill data requested = b.fill data requested

namespace Registry

/-- The second registry answers as the first does: it has the same keys and locales, and the same
pairs are bound, to bindings that answer alike. -/
structure AnswersAs (r r' : Registry) : Prop where
  documents : r'.documents = r.documents
  fallback : r'.fallback = r.fallback
  keys : r'.index.keys = r.index.keys
  locales : ∀ pair, r'.locales pair = r.locales pair
  bound : ∀ pair b, r.binding pair = .ok b → ∃ b', r'.binding pair = .ok b' ∧ b.AnswersAs b'
  unbound : ∀ pair report, r.binding pair = .error report → r'.binding pair = .error report

/-- Two registries that hold, place by place, forms that fill the document of the place alike. -/
def HoldAlike (r r' : Registry) : Prop :=
  ∀ place : Place, Option.Rel (·.FillsAs (r.documents.find? place.target))
    (place.held? r.index) (place.held? r'.index)

variable {d d' : Draft} {x : Form} {r r' : Registry} {pair : Pair}

theorem held?_split (built : d.build = .ok r) (built' : d'.build = .ok r')
    (split : d.Splits x d') {place : Place} (other : place ∉ x.places) :
    place.held? r'.index = place.held? r.index := by
  obtain ⟨rest, member, member'⟩ := split.mem_forms
  apply held?_congr built built' split.engine
  intro f asked
  have whole : f ≠ x := by
    rintro rfl
    contradiction
  have part : ¬ ∃ target ∈ x.targets.toList, f = x.part d.documents target := by
    rintro ⟨target, among, rfl⟩
    exact other (Form.mem_places_part among asked)
  rw [member, member', or_iff_right whole, or_iff_right part]

theorem holdAlike_of_splits (built : d.build = .ok r) (built' : d'.build = .ok r')
    (split : d.Splits x d') : r.HoldAlike r' := by
  obtain ⟨rest, member, member'⟩ := split.mem_forms
  intro place
  by_cases asked : place ∈ x.places
  · -- The part for the target of this place has taken it over from the whole form.
    obtain ⟨source, among, locale⟩ := Form.mem_places.mp asked
    have whole : x ∈ d.forms := (member x).mpr (.inl rfl)
    have part : x.part d.documents place.target ∈ d'.forms :=
      (member' _).mpr (.inl ⟨place.target, among, rfl⟩)
    have partAsked : place ∈ (x.part d.documents place.target).places := by
      rw [Form.places_part, source, locale]
      exact List.mem_singleton_self place
    obtain ⟨p, held, prepared⟩ := held?_of_installed built whole asked
    obtain ⟨q, held', prepared'⟩ := held?_of_installed built' part partAsked
    rw [split.engine] at prepared'
    rw [held, held']
    refine .some ⟨?_, fun document installed name declared => ?_⟩
    · rw [prepared.locale, prepared'.locale]
      rfl
    · rw [(holds_of_build built).documents] at installed
      refine PreparedForm.find?_congr prepared prepared' ?_
      rw [Form.find?_part installed, if_pos declared]
  · rw [held?_split built built' split asked]
    cases place.held? r.index with
    | none => exact .none
    | some p => exact .some (PreparedForm.FillsAs.refl p _)

theorem exists_held?_iff_of_rel {related : PreparedForm → PreparedForm → Prop} {place : Place}
    (alike : Option.Rel related (place.held? r.index) (place.held? r'.index)) :
    (∃ p, place.held? r'.index = some p) ↔ ∃ p, place.held? r.index = some p := by
  revert alike
  generalize place.held? r.index = held, place.held? r'.index = held'
  rintro (fills | _)
  · simp
  · simp

theorem HoldAlike.exists_held?_iff (alike : r.HoldAlike r') (place : Place) :
    (∃ p, place.held? r'.index = some p) ↔ ∃ p, place.held? r.index = some p :=
  exists_held?_iff_of_rel (alike place)

/-- Registries that hold some form at the same places have the same pairs. -/
theorem keys_congr (built : d.build = .ok r) (built' : d'.build = .ok r')
    (same : ∀ place : Place, (∃ p, place.held? r'.index = some p) ↔
      ∃ p, place.held? r.index = some p) : r'.index.keys = r.index.keys := by
  apply Table.keys_congr
  intro pair
  rw [(occupied_index built).mem_keys_iff, (occupied_index built').mem_keys_iff]
  exact exists_congr fun locale => same (pair.place locale)

theorem HoldAlike.locales (alike : r.HoldAlike r') (pair : Pair) :
    r'.locales pair = r.locales pair := by
  rw [locales_eq, locales_eq]
  apply Table.keys_congr
  intro locale
  rw [← locales_eq, ← locales_eq, mem_locales, mem_locales]
  exact alike.exists_held?_iff (pair.place locale)

end Registry

theorem findSome?_rel {related : β → γ → Prop} {f : α → Option β} {g : α → Option γ}
    (pointwise : ∀ a, Option.Rel related (f a) (g a)) (chain : List α) :
    Option.Rel related (chain.findSome? f) (chain.findSome? g) := by
  induction chain with
  | nil => exact .none
  | cons a rest ih =>
    rw [List.findSome?_cons, List.findSome?_cons]
    have here := pointwise a
    revert here
    generalize f a = found, g a = found'
    rintro (same | _)
    · exact .some same
    · exact ih

namespace Binding

variable {b b' : Binding}

/-- Bindings of one document answer alike if their forms fill it alike, locale by locale. -/
theorem answersAs_of_rel (pair : b'.pair = b.pair) (document : b'.document = b.document)
    (fallback : b'.fallback = b.fallback)
    (related : ∀ locale, Option.Rel (·.FillsAs (some b.document)) (b.forms.find? locale)
      (b'.forms.find? locale)) : b.AnswersAs b' := by
  have resolved (requested : Locale) :
      (∃ p q, b.resolve requested = .ok p ∧ b'.resolve requested = .ok q ∧
        p.FillsAs (some b.document) q) ∨
      ∃ u, b.resolve requested = .error u ∧ b'.resolve requested = .error u := by
    have found := findSome?_rel related (requested.fallbackChain b.fallback)
    rw [resolve, resolve, pair, fallback]
    revert found
    generalize (requested.fallbackChain b.fallback).findSome? b.forms.find? = first,
      (requested.fallbackChain b.fallback).findSome? b'.forms.find? = first'
    rintro (fills | _)
    · exact .inl ⟨_, _, rfl, rfl, fills⟩
    · exact .inr ⟨_, rfl, rfl⟩
  constructor
  case document => exact document
  case locale =>
    intro requested
    obtain ⟨p, q, first, second, fills⟩ | ⟨u, first, second⟩ := resolved requested
    · rw [first, second]
      exact congrArg Except.ok fills.locale
    · rw [first, second]
  case fill =>
    intro data requested
    rw [fill, fill, document]
    obtain ⟨p, q, first, second, fills⟩ | ⟨u, first, second⟩ := resolved requested
    · rw [first, second]
      dsimp only
      rw [PreparedForm.fillFields_congr (fills.fields b.document rfl) data, fills.locale]
    · rw [first, second]

end Binding

namespace Registry

variable {d d' : Draft} {x : Form} {r r' : Registry} {pair : Pair}

/-- A pair that is bound in one registry is bound in another that holds forms for it which fill its
document alike, locale by locale. -/
theorem exists_binding_of_rel (built : d.build = .ok r) (built' : d'.build = .ok r')
    (documents : d'.documents = d.documents) (fallback : d'.fallback = d.fallback) {b : Binding}
    (bound : r.binding pair = .ok b)
    (related : ∀ locale, Option.Rel (·.FillsAs (d.documents.find? pair.target))
      ((pair.place locale).held? r.index) ((pair.place locale).held? r'.index)) :
    ∃ b', r'.binding pair = .ok b' ∧ b.AnswersAs b' := by
  have key : pair ∈ r'.index.keys := by
    have key := (exists_binding_iff_mem_keys built).mp ⟨b, bound⟩
    rw [(occupied_index built).mem_keys_iff] at key
    rw [(occupied_index built').mem_keys_iff]
    exact (exists_congr fun locale => exists_held?_iff_of_rel (related locale)).mpr key
  obtain ⟨b', bound'⟩ := (exists_binding_iff_mem_keys built').mpr key
  refine ⟨b', bound', ?_⟩
  have document := document_of_binding built bound
  apply Binding.answersAs_of_rel
  · rw [(binding_eq_ok_iff.mp bound).1, (binding_eq_ok_iff.mp bound').1]
  · have document' := document_of_binding built' bound'
    rw [documents, document] at document'
    exact (Option.some.inj document').symm
  · rw [fallback_of_binding built bound, fallback_of_binding built' bound', fallback]
  · intro locale
    rw [find?_forms bound, find?_forms bound', ← document]
    exact related locale

theorem binding_alike (built : d.build = .ok r) (built' : d'.build = .ok r')
    (split : d.Splits x d') {b : Binding} (bound : r.binding pair = .ok b) :
    ∃ b', r'.binding pair = .ok b' ∧ b.AnswersAs b' := by
  have alike := holdAlike_of_splits built built' split
  apply exists_binding_of_rel built built' split.documents split.fallback bound
  intro locale
  rw [← (holds_of_build built).documents]
  exact alike (pair.place locale)

/-- Why a pair is missing depends on the documents and the pairs that there are. -/
theorem explainMissing_congr (documents : r'.documents = r.documents)
    (keys : r'.index.keys = r.index.keys) : r'.explainMissing pair = r.explainMissing pair := by
  have source : r'.hasSource pair.source = r.hasSource pair.source := by
    rw [hasSource, hasSource, keys]
  rw [explainMissing, explainMissing, documents, source]

theorem binding_eq_error_congr (built : d.build = .ok r) (built' : d'.build = .ok r')
    (documents : r'.documents = r.documents) (keys : r'.index.keys = r.index.keys)
    {report : Report} (failed : r.binding pair = .error report) :
    r'.binding pair = .error report := by
  have none : ¬ ∃ b, r.binding pair = .ok b := by simp [failed]
  have none' : ¬ ∃ b', r'.binding pair = .ok b' := by
    rwa [exists_binding_iff_mem_keys built', keys, ← exists_binding_iff_mem_keys built]
  rw [binding_eq_error none] at failed
  rw [binding_eq_error none', explainMissing_congr documents keys]
  exact failed

theorem answersAs_of_splits (built : d.build = .ok r) (built' : d'.build = .ok r')
    (split : d.Splits x d') : r.AnswersAs r' := by
  have alike := holdAlike_of_splits built built' split
  have keys := keys_congr built built' alike.exists_held?_iff
  have documents : r'.documents = r.documents := by
    rw [(holds_of_build built).documents, (holds_of_build built').documents, split.documents]
  constructor
  case documents => exact documents
  case fallback => rw [fallback_of_build built, fallback_of_build built', split.fallback]
  case keys => exact keys
  case locales => exact alike.locales
  case bound =>
    intro pair b bound
    exact binding_alike built built' split bound
  case unbound =>
    intro pair report failed
    exact binding_eq_error_congr built built' documents keys failed

end Registry

/-- A form that supplies what all its targets require may be split into one form for each target:
the draft still becomes a registry, and that registry answers as the first does. -/
theorem Draft.build_splits {d d' : Draft} {x : Form} {r : Registry} (built : d.build = .ok r)
    (split : d.Splits x d') (supplies : x.SuppliesAll d.documents) :
    ∃ r', d'.build = .ok r' ∧ r.AnswersAs r' := by
  have acceptable := split.acceptable (build_eq_ok_iff.mp built).1 supplies
  have built' := build_of_acceptable acceptable
  exact ⟨_, built', Registry.answersAs_of_splits built built' split⟩

/-- An invitation for a letter and a note, of which only the note has a motto. -/
def Invitation.letterAndNote : Form :=
  (((Invitation.form .standard "Dear {{name}}").field "motto" "With love").target "Letter").target
    "Note"

/-- Two invitations, the later of them for two documents. -/
def Draft.joined : Draft :=
  ((((Draft.empty.installDocument Invitation.letter).installDocument
    Invitation.card).installDocument Invitation.note).installForm Invitation.german).installForm
    Invitation.letterAndNote

/-- The same with one form for the letter and one for the note. -/
def Draft.parted : Draft where
  documents := Draft.joined.documents
  forms := [Invitation.german, Invitation.letterAndNote.part Draft.joined.documents "Note",
    Invitation.letterAndNote.part Draft.joined.documents "Letter"]
  engine := Draft.joined.engine
  fallback := Draft.joined.fallback

theorem Draft.splits_joined : Draft.joined.Splits Invitation.letterAndNote Draft.parted where
  documents := rfl
  engine := rfl
  fallback := rfl
  forms := by
    have targets : Invitation.letterAndNote.targets.toList = ["Letter", "Note"] := by cbv
    refine ⟨[Invitation.german], [],
      [Invitation.letterAndNote.part Draft.joined.documents "Note",
        Invitation.letterAndNote.part Draft.joined.documents "Letter"], rfl, ?_, rfl⟩
    rw [targets]
    exact .swap _ _ []

theorem Draft.build_joined : ∃ r, Draft.joined.build = .ok r ∧
    Draft.joined.Splits Invitation.letterAndNote Draft.parted ∧
    Invitation.letterAndNote.SuppliesAll Draft.joined.documents ∧
    ∃ r', Draft.parted.build = .ok r' ∧ r.AnswersAs r' := by
  obtain ⟨r, built⟩ := Registry.exists_of_toBool_build (d := Draft.joined) (by cbv)
  have supplies : Invitation.letterAndNote.SuppliesAll Draft.joined.documents := by
    unfold Form.SuppliesAll
    decide +kernel
  exact ⟨r, built, Draft.splits_joined, supplies, build_splits built Draft.splits_joined supplies⟩

end Letterbook
