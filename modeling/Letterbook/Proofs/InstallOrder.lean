import Letterbook.Proofs.Lookup

/-! The order of installing. What comes of a draft depends on the order of calls only where the last
of several counts: for engines, for locales of last resort, and for documents of one name. Which of
two forms is reported for a place that both ask for does depend on the order, but the two reports
say the same, and forms that do not compile ask for nothing. -/
namespace Letterbook

/-- A call that changes a draft. -/
inductive Install
  | engine (e : Engine)
  | fallback (locale : Locale)
  | document (schema : Schema)
  | form (f : Form)

namespace Install

def engine? : Install → Option Engine
  | .engine e => some e
  | _ => none

def fallback? : Install → Option Locale
  | .fallback locale => some locale
  | _ => none

/-- The document that a call installs under a name. -/
def document? (name : String) : Install → Option Schema
  | .document schema => if schema.name = name then some schema else none
  | _ => none

def form? : Install → Option Form
  | .form f => some f
  | _ => none

end Install

/-- The same calls, with those in order among themselves of which only the last one counts. Forms
may stand anywhere. -/
structure Reordered (xs ys : List Install) : Prop where
  perm : xs.Perm ys
  engines : xs.filterMap Install.engine? = ys.filterMap Install.engine?
  fallbacks : xs.filterMap Install.fallback? = ys.filterMap Install.fallback?
  documents : ∀ name, xs.filterMap (Install.document? name) = ys.filterMap (Install.document? name)

/-- The problem of a form that asks for a place already taken. -/
def Place.repetition (place : Place) : Problem :=
  ⟨place.source, place.locale, .repeated place.target⟩

namespace Draft

def install (d : Draft) : Install → Draft
  | .engine e => d.withEngine e
  | .fallback locale => d.withFallback locale
  | .document schema => d.installDocument schema
  | .form f => d.installForm f

def installAll (d : Draft) (installs : List Install) : Draft := installs.foldl install d

/-- A part of a draft that each call either sets or leaves is what the last call set. -/
theorem installAll_last (part : Draft → α) {set? : Install → Option α}
    (step : ∀ d i, part (install d i) = (set? i).getD (part d)) (d : Draft) (xs : List Install) :
    part (d.installAll xs) = ((xs.filterMap set?).getLast?).getD (part d) := by
  induction xs generalizing d with
  | nil => rfl
  | cons i rest ih =>
    change part ((d.install i).installAll rest) = _
    rw [ih, step, List.filterMap_cons]
    cases set? i with
    | none => rfl
    | some a => simp [List.getLast?_cons]

theorem engine_installAll (d : Draft) (xs : List Install) : (d.installAll xs).engine =
    ((xs.filterMap Install.engine?).getLast?).getD d.engine :=
  installAll_last engine (fun d i => by cases i <;> rfl) d xs

theorem fallback_installAll (d : Draft) (xs : List Install) : (d.installAll xs).fallback =
    ((xs.filterMap Install.fallback?).getLast?).getD d.fallback :=
  installAll_last fallback (fun d i => by cases i <;> rfl) d xs

theorem find?_documents_install (d : Draft) (name : String) (i : Install) :
    (d.install i).documents.find? name =
      ((i.document? name).map some).getD (d.documents.find? name) := by
  cases i with
  | document schema =>
    by_cases same : schema.name = name
    · subst name
      simp [install, installDocument, Install.document?]
    · simp only [install, installDocument, Install.document?, if_neg same]
      exact Table.find?_insert_of_ne (Ne.symm same)
  | engine | fallback | form => rfl

theorem find?_documents_installAll (d : Draft) (xs : List Install) (name : String) :
    (d.installAll xs).documents.find? name =
      (((xs.filterMap (Install.document? name)).map some).getLast?).getD
        (d.documents.find? name) := by
  rw [installAll_last (·.documents.find? name) (fun d i => find?_documents_install d name i),
    List.map_filterMap]

theorem forms_installAll (d : Draft) (xs : List Install) :
    (d.installAll xs).forms = d.forms ++ xs.filterMap Install.form? := by
  induction xs generalizing d with
  | nil => simp [installAll]
  | cons i rest ih =>
    change ((d.install i).installAll rest).forms = _
    rw [ih, List.filterMap_cons]
    cases i with
    | form f => simp [install, installForm, Install.form?]
    | engine | fallback | document => rfl

end Draft

/-- That places are taken shows among the problems of a form only at the places it asks for, and
apart from everything else. -/
theorem PreparedForm.problems_perm (documents : Table String Schema) (taken : List Place)
    (p : PreparedForm) : (p.problems documents taken).Perm
      ((p.places.filter (· ∈ taken)).map Place.repetition ++ p.problems documents []) := by
  have repeated : (p.repeated taken).map p.problem =
      (p.places.filter (· ∈ taken)).map Place.repetition := by
    rw [PreparedForm.repeated, List.map_map]
    refine List.map_congr_left fun place member => ?_
    obtain ⟨target, -, rfl⟩ := List.mem_map.mp (List.mem_filter.mp member).1
    rfl
  have none : p.repeated [] = [] := by simp [PreparedForm.repeated]
  simp only [problems, none, List.append_nil, List.map_append, repeated, ← List.append_assoc]
  exact ((List.perm_append_comm.append_right _).append_right _).append_right _

/-- Of two lists of places, those of the first that are taken with those of the second that are
taken by then are the same as with the lists exchanged. -/
theorem Place.filter_taken_swap {xs ys : List Place} (hx : xs.Nodup) (hy : ys.Nodup)
    (taken : List Place) :
    (xs.filter (· ∈ taken) ++ ys.filter (· ∈ taken ++ xs)).Perm
      (ys.filter (· ∈ taken) ++ xs.filter (· ∈ taken ++ ys)) := by
  refine List.perm_iff_count.mpr fun place => ?_
  have counted {zs : List Place} (hz : zs.Nodup) (p : Place → Bool) :
      (zs.filter p).count place = if place ∈ zs ∧ p place then 1 else 0 := by
    rw [List.Nodup.count (hz.filter p)]
    simp only [List.mem_filter]
  simp only [List.count_append, counted hx, counted hy, List.mem_append, decide_eq_true_eq]
  by_cases before : place ∈ taken <;> by_cases first : place ∈ xs <;>
    by_cases second : place ∈ ys <;> simp [before, first, second]

namespace Form

variable {engine : Engine} {documents : Table String Schema}

theorem report_perm (taken : List Place) (f : Form) :
    (f.report engine documents taken).Perm
      (((f.occupied engine).filter (· ∈ taken)).map Place.repetition ++
        f.report engine documents []) := by
  by_cases compiles : f.Compiles engine
  · have h := outcome_preparedAs compiles
    rw [report_of_preparedAs h, report_of_preparedAs h, occupied_of_compiles compiles, ← h.places]
    exact PreparedForm.problems_perm documents taken _
  · rw [report_of_not_compiles compiles, report_of_not_compiles compiles,
      occupied_of_not_compiles compiles]
    exact .refl _

theorem report_congr {taken taken' : List Place} (same : ∀ place, place ∈ taken ↔ place ∈ taken')
    (f : Form) : f.report engine documents taken = f.report engine documents taken' := by
  simp only [report, PreparedForm.problems, PreparedForm.repeated, same]

theorem occupied_nodup (engine : Engine) (f : Form) : (f.occupied engine).Nodup := by
  rw [occupied]
  split
  · exact .nil
  · exact f.places_nodup

theorem report_append_perm (taken taken' : List Place) (f g : Form) :
    (f.report engine documents taken ++ g.report engine documents taken').Perm
      (((f.occupied engine).filter (· ∈ taken) ++ (g.occupied engine).filter (· ∈ taken')).map
          Place.repetition ++
        (f.report engine documents [] ++ g.report engine documents [])) := by
  refine ((report_perm taken f).append (report_perm taken' g)).trans ?_
  rw [List.map_append, List.append_assoc, List.append_assoc]
  exact (List.perm_append_comm_assoc ..).append_left _

/-- Of two forms the later one is reported for each place that both ask for, whichever that is. -/
theorem report_swap (taken : List Place) (f g : Form) :
    (f.report engine documents taken ++ g.report engine documents (taken ++ f.occupied engine)).Perm
      (g.report engine documents taken ++
        f.report engine documents (taken ++ g.occupied engine)) := by
  have places := Place.filter_taken_swap (occupied_nodup engine f) (occupied_nodup engine g) taken
  refine (report_append_perm ..).trans (.trans ?_ (report_append_perm ..).symm)
  exact (places.map Place.repetition).append List.perm_append_comm

end Form

namespace Survey

variable {engine : Engine} {documents : Table String Schema}

theorem problems_congr {taken taken' : List Place} (same : ∀ place, place ∈ taken ↔ place ∈ taken')
    (forms : List Form) : (ofForms engine ⟨documents, taken⟩ forms).problems =
      (ofForms engine ⟨documents, taken'⟩ forms).problems := by
  induction forms generalizing taken taken' with
  | nil => rfl
  | cons f rest ih =>
    rw [problems_cons, problems_cons, Form.report_congr same]
    exact congrArg _ (ih fun place => by simp [same])

/-- The problems of a survey do not depend on the order of the forms. -/
theorem problems_perm {forms forms' : List Form} (reordered : forms.Perm forms')
    (taken : List Place) : (ofForms engine ⟨documents, taken⟩ forms).problems.Perm
      (ofForms engine ⟨documents, taken⟩ forms').problems := by
  induction reordered generalizing taken with
  | nil => exact .refl _
  | cons f _ ih =>
    rw [problems_cons, problems_cons]
    exact (ih _).append_left _
  | swap f g rest =>
    -- The two forms have taken the same places by the end, in another order.
    have later : (ofForms engine ⟨documents, taken ++ g.occupied engine ++ f.occupied engine⟩
        rest).problems = (ofForms engine
          ⟨documents, taken ++ f.occupied engine ++ g.occupied engine⟩ rest).problems :=
      problems_congr (fun place => by simp only [List.mem_append]; exact or_right_comm) rest
    rw [problems_cons, problems_cons, problems_cons, problems_cons, later, ← List.append_assoc,
      ← List.append_assoc]
    exact (Form.report_swap taken g f).append_right _
  | trans _ _ first second => exact (first taken).trans (second taken)

end Survey

namespace Registry

/-- Two indexes that have the same entries, and a form for every pair, are the same. -/
theorem index_ext {index index' : Table Pair LocaleIndex} (occupied : Occupied index)
    (occupied' : Occupied index')
    (same : ∀ place : Place, place.held? index = place.held? index') : index = index' := by
  refine Table.ext_find? fun pair => ?_
  exact find?_index_congr occupied occupied' fun locale => same (pair.place locale)

end Registry

namespace Draft

/-- Drafts that differ in the order of their forms alone. -/
structure Alike (d d' : Draft) : Prop where
  documents : d.documents = d'.documents
  engine : d.engine = d'.engine
  fallback : d.fallback = d'.fallback
  forms : d.forms.Perm d'.forms

variable {d d' : Draft}

theorem Alike.problems_perm (h : Alike d d') : d.survey.problems.Perm d'.survey.problems := by
  rw [survey, survey, h.documents, h.engine]
  exact Survey.problems_perm h.forms []

theorem Alike.symm (h : Alike d d') : Alike d' d :=
  ⟨h.documents.symm, h.engine.symm, h.fallback.symm, h.forms.symm⟩

theorem Alike.held?_le (h : Alike d d') {r r' : Registry} (built : d.build = .ok r)
    (built' : d'.build = .ok r') {place : Place} {p : PreparedForm}
    (entry : place.held? r.index = some p) : place.held? r'.index = some p := by
  obtain ⟨f, one, prepared⟩ := (Registry.held?_eq_some_iff built).mp entry
  have forms := h.forms.filter (place ∈ ·.places)
  rw [one] at forms
  exact (Registry.held?_eq_some_iff built').mpr
    ⟨f, (List.singleton_perm.mp forms).symm, h.engine ▸ prepared⟩

theorem Alike.registry_eq (h : Alike d d') {r r' : Registry} (built : d.build = .ok r)
    (built' : d'.build = .ok r') : r = r' := by
  have index : r.index = r'.index :=
    Registry.index_ext (Registry.occupied_index built) (Registry.occupied_index built')
      fun place => Option.ext fun p => ⟨h.held?_le built built', h.symm.held?_le built' built⟩
  obtain ⟨-, parts⟩ := build_eq_ok_iff.mp built
  obtain ⟨-, parts'⟩ := build_eq_ok_iff.mp built'
  have documents : r.documents = r'.documents := by rw [parts, parts', h.documents]
  have fallback : r.fallback = r'.fallback := by rw [parts, parts', h.fallback]
  cases r
  cases r'
  exact Registry.mk.injEq .. ▸ ⟨documents, index, fallback⟩

theorem Alike.acceptable (h : Alike d d') (acceptable : d.Acceptable) : d'.Acceptable := by
  rw [← problems_eq_nil_iff] at acceptable ⊢
  have perm := h.problems_perm
  rw [acceptable] at perm
  exact List.nil_perm.mp perm

theorem alike_installAll (d : Draft) {xs ys : List Install} (h : Reordered xs ys) :
    Alike (d.installAll xs) (d.installAll ys) where
  documents := Table.ext_find? fun name => by
    rw [find?_documents_installAll, find?_documents_installAll, h.documents]
  engine := by rw [engine_installAll, engine_installAll, h.engines]
  fallback := by rw [fallback_installAll, fallback_installAll, h.fallbacks]
  forms := by
    rw [forms_installAll, forms_installAll]
    exact (h.perm.filterMap _).append_left _

/-- Reordered calls build the same registry, or fail with the same messages, each as often. -/
theorem build_reordered (d : Draft) {xs ys : List Install} (h : Reordered xs ys) :
    (∃ r, (d.installAll xs).build = .ok r ∧ (d.installAll ys).build = .ok r) ∨
      ∃ report report', (d.installAll xs).build = .error report ∧
        (d.installAll ys).build = .error report' ∧ report.messages.Perm report'.messages := by
  have alike := alike_installAll d h
  by_cases acceptable : (d.installAll xs).Acceptable
  · have built := build_of_acceptable acceptable
    have built' := build_of_acceptable (alike.acceptable acceptable)
    exact .inl ⟨_, built, alike.registry_eq built built' ▸ built'⟩
  · have failed := build_of_not_acceptable acceptable
    have failed' := build_of_not_acceptable (mt alike.symm.acceptable acceptable)
    exact .inr ⟨_, _, failed, failed', alike.problems_perm.map Problem.message⟩

/-- The calls that install the invitations. -/
def invitationCalls : List Install :=
  [.document Invitation.letter, .document Invitation.card, .form Invitation.english,
    .form Invitation.german]

/-- No two of these calls install the same document, so that they may come in reverse. -/
theorem invitationCalls_reordered : Reordered invitationCalls invitationCalls.reverse where
  perm := (List.reverse_perm _).symm
  engines := rfl
  fallbacks := rfl
  documents name := by
    by_cases letter : Invitation.letter.name = name
    · have card : Invitation.card.name ≠ name := letter ▸ by decide
      simp [invitationCalls, List.filterMap_cons, Install.document?, letter, card]
    · simp [invitationCalls, List.filterMap_cons, Install.document?, letter]

theorem build_invitationCalls_reverse : Reordered invitationCalls invitationCalls.reverse ∧
    ∃ r, (empty.installAll invitationCalls).build = .ok r ∧
      (empty.installAll invitationCalls.reverse).build = .ok r := by
  have accepted : (empty.installAll invitationCalls).build.toBool = true := by cbv
  rcases build_reordered empty invitationCalls_reordered with both | ⟨report, _, failed, -⟩
  · exact ⟨invitationCalls_reordered, both⟩
  · simp [failed, Except.toBool] at accepted

end Draft
end Letterbook
