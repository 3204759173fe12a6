import Letterbook.Proofs.Survey

/-! When a draft becomes a registry. `Draft.Acceptable` says it of the forms as they were
installed; no check that the survey leaves out, because a form did not compile or a target is not
installed, lets a draft through that another check would not stop. -/
namespace Letterbook

namespace PreparedForm

variable {documents : Table String Schema} {taken : List Place} {p : PreparedForm}

theorem untargeted_eq_nil_iff : p.untargeted = [] ↔ p.targets.toList ≠ [] := by
  simp [untargeted, NameSet.isEmpty]

theorem repeated_eq_nil_iff : p.repeated taken = [] ↔ ∀ place ∈ p.places, place ∉ taken := by
  simp [repeated]

theorem uninstalled_eq_nil_iff : p.uninstalled documents = [] ↔
    ∀ target ∈ p.targets.toList, documents.contains target := by
  simp [uninstalled]

theorem unknownNames_eq_nil_iff : p.unknownNames = [] ↔
    ∀ field e, p.fields.find? field = some (some e) →
      ∀ name ∈ e.names.toList, rootKey name ∈ p.source.fieldNames := by
  simp only [unknownNames, List.map_eq_nil_iff, List.filter_eq_nil_iff, Prod.forall,
    mem_references, Bool.not_eq_true', Bool.not_eq_false, Schema.hasField_iff]
  exact ⟨fun h field e found name named => h field name ⟨e, found, named⟩,
    fun h field name ⟨e, found, named⟩ => h field e found name named⟩

theorem undeclared_eq_nil_iff {targets : List Schema} : p.undeclared targets = [] ↔
    ∀ field ∈ p.fields.keys, ∃ document ∈ targets, field ∈ document.fieldNames := by
  simp [undeclared, Schema.hasField_iff]

theorem missing_eq_nil_iff {document : Schema} : p.missing document = [] ↔
    ∀ spec ∈ document.fields, spec.nullable = false → spec.name ∈ p.fields.keys := by
  simp only [missing, Schema.requiredFields, List.map_eq_nil_iff, List.filter_eq_nil_iff,
    List.mem_filter, Bool.not_eq_true', Bool.not_eq_false, Table.mem_keys_iff_contains, and_imp]

/-- With every target installed the fields are checked against all of them, and against the
required ones if there is one target. -/
theorem misfits_eq_nil_iff (installed : ∀ target ∈ p.targets.toList, documents.contains target) :
    p.misfits documents = [] ↔
      p.targets.toList ≠ [] →
        (∀ field ∈ p.fields.keys, ∃ target ∈ p.targets.toList, ∃ document,
          documents.find? target = some document ∧ field ∈ document.fieldNames) ∧
        ∀ target, p.targets.toList = [target] → ∀ document,
          documents.find? target = some document →
            ∀ spec ∈ document.fields, spec.nullable = false → spec.name ∈ p.fields.keys := by
  have length : (p.targets.toList.filterMap documents.find?).length = p.targets.toList.length :=
    List.filterMap_length_eq_length.mpr installed
  have among (field : String) :
      (∃ document ∈ p.targets.toList.filterMap documents.find?, field ∈ document.fieldNames) ↔
        ∃ target ∈ p.targets.toList, ∃ document,
          documents.find? target = some document ∧ field ∈ document.fieldNames := by
    simp only [List.mem_filterMap]
    exact ⟨fun ⟨document, ⟨target, member, found⟩, declares⟩ =>
        ⟨target, member, document, found, declares⟩,
      fun ⟨target, member, document, found, declares⟩ =>
        ⟨document, ⟨target, member, found⟩, declares⟩⟩
  simp only [misfits, length, Nat.lt_irrefl, if_false]
  simp only [← among]
  match targets : p.targets.toList with
  | [] => simp
  | [target] =>
    obtain ⟨document, found⟩ := Table.contains_iff.mp (installed target (by simp [targets]))
    simp [found, undeclared_eq_nil_iff, missing_eq_nil_iff]
  | first :: second :: rest =>
    obtain ⟨document, found⟩ := Table.contains_iff.mp (installed first (by simp [targets]))
    obtain ⟨other, foundOther⟩ := Table.contains_iff.mp (installed second (by simp [targets]))
    simp [found, foundOther, undeclared_eq_nil_iff]

theorem problems_eq_nil_iff : p.problems documents taken = [] ↔
    (p.untargeted = [] ∧ p.uninstalled documents = [] ∧ p.unknownNames = [] ∧
      p.misfits documents = []) ∧ ∀ place ∈ p.places, place ∉ taken := by
  simp only [problems, List.map_eq_nil_iff, List.append_eq_nil_iff, repeated_eq_nil_iff]
  constructor
  · rintro ⟨⟨⟨⟨targeted, free⟩, installed⟩, known⟩, fits⟩
    exact ⟨⟨targeted, installed, known, fits⟩, free⟩
  · rintro ⟨⟨targeted, installed, known, fits⟩, free⟩
    exact ⟨⟨⟨⟨targeted, free⟩, installed⟩, known⟩, fits⟩

end PreparedForm

namespace Form

/-- Nothing is wrong with the form itself. -/
structure Fits (engine : Engine) (documents : Table String Schema) (f : Form) : Prop where
  compiles : f.Compiles engine
  targeted : f.targets.toList ≠ []
  installed : ∀ target ∈ f.targets.toList, documents.contains target
  /-- The text of a variable before its first dot is a field of the record. -/
  known : ∀ field text e, f.fields.find? field = some (some text) → engine.compile text = .ok e →
    ∀ name ∈ e.names.toList, rootKey name ∈ f.source.fieldNames
  /-- Every field, blank or not, belongs to one of the targets. -/
  declared : ∀ field ∈ f.fields.keys, ∃ target ∈ f.targets.toList, ∃ document,
    documents.find? target = some document ∧ field ∈ document.fieldNames
  /-- A single target gets all the fields that it requires, blank or not. -/
  complete : ∀ target, f.targets.toList = [target] → ∀ document,
    documents.find? target = some document →
      ∀ spec ∈ document.fields, spec.nullable = false → spec.name ∈ f.fields.keys

variable {engine : Engine} {documents : Table String Schema} {taken : List Place} {f : Form}

theorem fits_iff_of_preparedAs {p : PreparedForm} (h : f.PreparedAs engine p) :
    f.Fits engine documents ↔ p.untargeted = [] ∧ p.uninstalled documents = [] ∧
      p.unknownNames = [] ∧ p.misfits documents = [] := by
  rw [PreparedForm.untargeted_eq_nil_iff, PreparedForm.uninstalled_eq_nil_iff,
    PreparedForm.unknownNames_eq_nil_iff]
  constructor
  · intro fits
    have installed : ∀ target ∈ p.targets.toList, documents.contains target :=
      h.targets ▸ fits.installed
    refine ⟨h.targets ▸ fits.targeted, installed, ?_, ?_⟩
    · intro field e found
      obtain ⟨text, written, compiled⟩ := (h.text field e).mp found
      exact h.source ▸ fits.known field text e written compiled
    · rw [PreparedForm.misfits_eq_nil_iff installed, h.targets, h.keys]
      exact fun _ => ⟨fits.declared, fits.complete⟩
  · rintro ⟨targeted, installed, known, fits⟩
    rw [PreparedForm.misfits_eq_nil_iff installed, h.targets, h.keys] at fits
    rw [h.targets] at targeted installed
    refine ⟨h.compiles, targeted, installed, ?_, (fits targeted).1, (fits targeted).2⟩
    intro field text e written compiled
    exact h.source ▸ known field e ((h.text field e).mpr ⟨text, written, compiled⟩)

/-- A form that does not compile is reported in any case, and one that compiles is reported for
each check on its own. -/
theorem report_eq_nil_iff : f.report engine documents taken = [] ↔
    f.Fits engine documents ∧ ∀ place ∈ f.places, place ∉ taken := by
  by_cases compiles : f.Compiles engine
  · have h := outcome_preparedAs compiles
    rw [report_of_preparedAs h, PreparedForm.problems_eq_nil_iff, fits_iff_of_preparedAs h,
      h.places]
  · rw [report_of_not_compiles compiles, refusals_eq_nil_iff]
    exact ⟨fun h => absurd h compiles, fun h => absurd h.1.compiles compiles⟩

end Form

namespace Draft

/-- Every form fits the documents, and no two of them ask for the same place. -/
structure Acceptable (d : Draft) : Prop where
  fits : ∀ f ∈ d.forms, f.Fits d.engine d.documents
  distinct : d.forms.Pairwise fun f g => ∀ place ∈ f.places, place ∉ g.places

end Draft

/-- The places taken on the way are those of all earlier forms, because a survey without problems
has met no form that takes none. -/
theorem Survey.problems_eq_nil_iff {engine : Engine} {documents : Table String Schema}
    {taken : List Place} {forms : List Form} :
    (ofForms engine ⟨documents, taken⟩ forms).problems = [] ↔
      (∀ f ∈ forms, f.Fits engine documents) ∧
        (∀ f ∈ forms, ∀ place ∈ f.places, place ∉ taken) ∧
        forms.Pairwise fun f g => ∀ place ∈ f.places, place ∉ g.places := by
  induction forms generalizing taken with
  | nil => simp [ofForms]
  | cons f rest ih =>
    rw [problems_cons, List.append_eq_nil_iff, Form.report_eq_nil_iff, ih]
    simp only [List.forall_mem_cons, List.pairwise_cons, List.mem_append, not_or]
    constructor
    · rintro ⟨⟨fits, free⟩, restFits, restFree, distinct⟩
      rw [Form.occupied_of_compiles fits.compiles] at restFree
      refine ⟨⟨fits, restFits⟩, ⟨free, fun g hg place asked => (restFree g hg place asked).1⟩,
        fun g hg place asked again => ?_, distinct⟩
      exact (restFree g hg place again).2 asked
    · rintro ⟨⟨fits, restFits⟩, ⟨free, restFree⟩, first, distinct⟩
      rw [Form.occupied_of_compiles fits.compiles]
      exact ⟨⟨fits, free⟩, restFits, fun g hg place asked =>
        ⟨restFree g hg place asked, fun earlier => first g hg place earlier asked⟩, distinct⟩

namespace Draft

theorem problems_eq_nil_iff {d : Draft} : d.survey.problems = [] ↔ d.Acceptable := by
  rw [survey, Review.start, Survey.problems_eq_nil_iff]
  exact ⟨fun ⟨fits, _, distinct⟩ => ⟨fits, distinct⟩,
    fun ⟨fits, distinct⟩ => ⟨fits, by simp, distinct⟩⟩

theorem build_of_acceptable {d : Draft} (h : d.Acceptable) :
    d.build = .ok ⟨d.documents, d.survey.forms.foldl PreparedForm.enter .empty, d.fallback⟩ := by
  simp [build, problems_eq_nil_iff.mpr h]

theorem build_of_not_acceptable {d : Draft} (h : ¬ d.Acceptable) :
    d.build = .error ⟨d.survey.problems.map Problem.message⟩ := by
  simp [build, mt problems_eq_nil_iff.mp h]

/-- A draft, however it was put together, becomes a registry exactly if it is acceptable; if it is
not, there is a report with at least one message and no registry. -/
theorem build_accepts_iff (d : Draft) :
    ((∃ r, d.build = .ok r) ↔ d.Acceptable) ∧
      (¬ d.Acceptable → ∃ report, d.build = .error report ∧ report.messages ≠ []) := by
  by_cases h : d.Acceptable
  · exact ⟨⟨fun _ => h, fun _ => ⟨_, build_of_acceptable h⟩⟩, fun refused => absurd h refused⟩
  · have failed := build_of_not_acceptable h
    refine ⟨⟨fun ⟨r, built⟩ => by simp [failed] at built, fun accepted => absurd accepted h⟩,
      fun _ => ⟨_, failed, ?_⟩⟩
    simpa [problems_eq_nil_iff] using h

end Draft
end Letterbook
