import Mathlib.Data.List.Nodup
import Letterbook.Proofs.Acceptance

/-! The report on a draft, form by form. Every form is reported in a block of its own, and the forms
before it change that block only by the places that they have taken. So a form that does not compile
changes no other block, and no problem of one form hides a problem of another. -/
namespace Letterbook

/-- A defect that a form has only because of earlier forms. -/
def Defect.isRepeated : Defect → Bool
  | .repeated _ => true
  | .uncompiled .. | .unknownName .. | .uninstalled _ | .undeclared .. | .missing .. |
    .untargeted => false

theorem filter_middle {holds : α → Bool} {front middle back : List α}
    (out : ∀ a ∈ front ++ back, holds a = false) (inside : ∀ a ∈ middle, holds a = true) :
    (front ++ middle ++ back).filter holds = middle ∧
      (front ++ middle ++ back).filter (!holds ·) = front ++ back := by
  have outFront : ∀ a ∈ front, holds a = false := fun a h => out a (List.mem_append_left _ h)
  have outBack : ∀ a ∈ back, holds a = false := fun a h => out a (List.mem_append_right _ h)
  constructor
  · simp only [List.filter_append]
    rw [List.filter_eq_nil_iff.mpr (by simpa using outFront), List.filter_eq_self.mpr inside,
      List.filter_eq_nil_iff.mpr (by simpa using outBack), List.nil_append, List.append_nil]
  · simp only [List.filter_append]
    rw [List.filter_eq_self.mpr (by simpa using outFront),
      List.filter_eq_nil_iff.mpr (by simpa using inside),
      List.filter_eq_self.mpr (by simpa using outBack), List.append_nil]

namespace PreparedForm

variable {documents : Table String Schema} {taken : List Place} {p : PreparedForm}

theorem repeated_eq (taken : List Place) (p : PreparedForm) : p.repeated taken =
    (p.targets.toList.filter fun target => ⟨p.source.name, target, p.locale⟩ ∈ taken).map
      .repeated := by
  rw [repeated, places, List.filter_map, List.map_map]
  rfl

theorem mem_repeated {target : String} : .repeated target ∈ p.repeated taken ↔
    target ∈ p.targets.toList ∧ ⟨p.source.name, target, p.locale⟩ ∈ taken := by
  simp [repeated_eq]

theorem repeated_nodup (taken : List Place) (p : PreparedForm) : (p.repeated taken).Nodup := by
  rw [repeated_eq]
  have targets : p.targets.toList.Nodup := Table.keys_nodup p.targets
  refine List.pairwise_map.mpr ((targets.filter _).imp fun different same => ?_)
  exact different (Defect.repeated.inj same)

theorem isRepeated_of_mem_repeated (taken : List Place) (p : PreparedForm) :
    ∀ defect ∈ p.repeated taken, defect.isRepeated = true := by
  intro defect member
  rw [repeated_eq] at member
  obtain ⟨target, -, rfl⟩ := List.mem_map.mp member
  rfl

theorem misfit_cases {defect : Defect} (member : defect ∈ p.misfits documents) :
    (∃ field ∈ p.fields.keys, defect = .undeclared field p.targets.toList) ∨
      ∃ document ∈ documents.values, ∃ spec ∈ document.requiredFields,
        defect = .missing document.name spec.name := by
  have undeclared {targets : List Schema} (member : defect ∈ p.undeclared targets) :
      ∃ field ∈ p.fields.keys, defect = .undeclared field p.targets.toList := by
    obtain ⟨field, kept, rfl⟩ := List.mem_map.mp member
    exact ⟨field, (List.mem_filter.mp kept).1, rfl⟩
  rw [misfits] at member
  split at member
  · contradiction
  · split at member
    · contradiction
    · next document one =>
      rcases List.mem_append.mp member with member | member
      · exact .inl (undeclared member)
      · obtain ⟨spec, kept, rfl⟩ := List.mem_map.mp member
        have found : document ∈ p.targets.toList.filterMap documents.find? := by simp [one]
        obtain ⟨target, -, found⟩ := List.mem_filterMap.mp found
        exact .inr ⟨document, List.mem_map_of_mem (Table.find?_eq_some_iff.mp found), spec,
          (List.mem_filter.mp kept).1, rfl⟩
    · exact .inl (undeclared member)

theorem not_isRepeated_of_mem_misfits (documents : Table String Schema) (p : PreparedForm) :
    ∀ defect ∈ p.misfits documents, defect.isRepeated = false := by
  intro defect member
  rcases misfit_cases member with ⟨field, -, rfl⟩ | ⟨document, -, spec, -, rfl⟩
  · rfl
  · rfl

/-- No other check finds a form repeated. -/
theorem not_isRepeated (documents : Table String Schema) (p : PreparedForm) :
    ∀ defect ∈ p.untargeted ++ (p.uninstalled documents ++ p.unknownNames ++ p.misfits documents),
      defect.isRepeated = false := by
  intro defect member
  simp only [List.mem_append] at member
  obtain none | (missed | unknown) | misfit := member
  · obtain ⟨-, rfl⟩ : p.targets.isEmpty = true ∧ defect = .untargeted := by
      simpa [untargeted] using none
    rfl
  · obtain ⟨target, -, rfl⟩ := List.mem_map.mp missed
    rfl
  · obtain ⟨reference, -, rfl⟩ := List.mem_map.mp unknown
    rfl
  · exact not_isRepeated_of_mem_misfits documents p defect misfit

theorem problems_eq (documents : Table String Schema) (taken : List Place) (p : PreparedForm) :
    p.problems documents taken = (p.untargeted ++ p.repeated taken ++
      (p.uninstalled documents ++ p.unknownNames ++ p.misfits documents)).map p.problem := by
  simp only [problems, List.append_assoc]

theorem problem_injective (p : PreparedForm) : Function.Injective p.problem := by
  intro a b same
  exact (Problem.mk.inj same).2.2

/-- The problems that are repetitions depend on what has been taken, the others do not. -/
theorem filter_problems (documents : Table String Schema) (taken : List Place)
    (p : PreparedForm) :
    (p.problems documents taken).filter (·.defect.isRepeated) = (p.repeated taken).map p.problem ∧
      (p.problems documents taken).filter (!·.defect.isRepeated) = p.problems documents [] := by
  have nothing : p.repeated [] = [] := by simp [repeated]
  -- The repetitions stand together, between defects of which none is one.
  obtain ⟨repetitions, others⟩ :=
    filter_middle (not_isRepeated documents p) (isRepeated_of_mem_repeated taken p)
  constructor
  · rw [problems_eq, List.filter_map]
    exact congrArg _ repetitions
  · rw [problems_eq, problems_eq, nothing, List.append_nil, List.filter_map]
    exact congrArg _ others

theorem mem_problems_repeated {target : String} :
    p.problem (.repeated target) ∈ p.problems documents taken ↔
      target ∈ p.targets.toList ∧ ⟨p.source.name, target, p.locale⟩ ∈ taken := by
  rw [← mem_repeated, ← List.mem_map_of_injective p.problem_injective,
    ← (filter_problems documents taken p).1]
  simp [problem, Defect.isRepeated]

theorem count_problems_repeated_le (documents : Table String Schema) (taken : List Place)
    (p : PreparedForm) (target : String) :
    (p.problems documents taken).count (p.problem (.repeated target)) ≤ 1 := by
  have unique : ((p.repeated taken).map p.problem).Nodup :=
    (repeated_nodup taken p).map p.problem_injective
  rw [← List.count_filter (p := (·.defect.isRepeated)) rfl, (filter_problems documents taken p).1]
  exact List.nodup_iff_count_le_one.mp unique _

end PreparedForm

namespace Form

variable {engine : Engine} {documents : Table String Schema} {taken : List Place} {f : Form}
  {p : PreparedForm}

theorem problem_of_preparedAs (h : f.PreparedAs engine p) : p.problem = f.problem := by
  funext defect
  simp only [PreparedForm.problem, problem, h.source, h.locale]

/-- What the engine says about the texts that it refuses, by field. -/
def refused (engine : Engine) (f : Form) : Table String String :=
  f.fields.filterMap fun _ text =>
    match text.map engine.compile with
    | some (.error message) => some message
    | some (.ok _) | none => none

theorem find?_refused {field message : String} : (f.refused engine).find? field = some message ↔
    ∃ text, f.fields.find? field = some (some text) ∧ engine.compile text = .error message := by
  rw [refused, Table.find?_filterMap, Option.bind_eq_some_iff]
  constructor
  · rintro ⟨written, found, said⟩
    cases written with
    | none => contradiction
    | some text =>
      cases compiled : engine.compile text with
      | ok e => simp [compiled] at said
      | error message' =>
        obtain rfl : message' = message := by simpa [compiled] using said
        exact ⟨text, found, compiled⟩
  · rintro ⟨text, found, compiled⟩
    exact ⟨some text, found, by simp [compiled]⟩

theorem refusals_eq (engine : Engine) (f : Form) : f.refusals engine =
    (f.refused engine).entries.map fun e => f.problem (.uncompiled e.1 e.2) := by
  simp only [refusals, compiled, refused, Table.mapValues, Table.filterMap, List.filterMap_map,
    List.map_filterMap]
  congr 1
  funext e
  obtain ⟨field, text⟩ := e
  cases text with
  | none => rfl
  | some text => cases compiled : engine.compile text <;> simp [refusal?, compiled]

theorem mem_refusals {problem : Problem} (member : problem ∈ f.refusals engine) :
    ∃ field message, problem = f.problem (.uncompiled field message) := by
  rw [refusals_eq] at member
  obtain ⟨e, -, rfl⟩ := List.mem_map.mp member
  exact ⟨e.1, e.2, rfl⟩

theorem filter_report (documents : Table String Schema) (taken : List Place) (f : Form) :
    (f.report engine documents taken).filter (!·.defect.isRepeated) =
      f.report engine documents [] := by
  by_cases compiles : f.Compiles engine
  · have h := outcome_preparedAs compiles
    rw [report_of_preparedAs h, report_of_preparedAs h]
    exact (PreparedForm.filter_problems documents taken _).2
  · rw [report_of_not_compiles compiles, report_of_not_compiles compiles]
    apply List.filter_eq_self.mpr
    intro problem member
    obtain ⟨field, message, rfl⟩ := mem_refusals member
    rfl

theorem own_of_mem_report {problem : Problem} (member : problem ∈ f.report engine documents taken) :
    problem.source = f.source.name ∧ problem.locale = f.locale := by
  by_cases compiles : f.Compiles engine
  · have h := outcome_preparedAs compiles
    rw [report_of_preparedAs h, PreparedForm.problems, problem_of_preparedAs h] at member
    obtain ⟨defect, -, rfl⟩ := List.mem_map.mp member
    exact ⟨rfl, rfl⟩
  · rw [report_of_not_compiles compiles] at member
    obtain ⟨field, message, rfl⟩ := mem_refusals member
    exact ⟨rfl, rfl⟩

theorem mem_report_repeated (compiles : f.Compiles engine) {target : String} :
    f.problem (.repeated target) ∈ f.report engine documents taken ↔
      target ∈ f.targets.toList ∧ ⟨f.source.name, target, f.locale⟩ ∈ taken := by
  have h := outcome_preparedAs compiles
  rw [report_of_preparedAs h, ← problem_of_preparedAs h, PreparedForm.mem_problems_repeated,
    h.source, h.targets, h.locale]

theorem count_report_repeated_le (documents : Table String Schema) (taken : List Place) (f : Form)
    (target : String) :
    (f.report engine documents taken).count (f.problem (.repeated target)) ≤ 1 := by
  by_cases compiles : f.Compiles engine
  · have h := outcome_preparedAs compiles
    rw [report_of_preparedAs h, ← problem_of_preparedAs h]
    exact PreparedForm.count_problems_repeated_le documents taken _ target
  · rw [report_of_not_compiles compiles]
    have absent : f.problem (.repeated target) ∉ f.refusals engine := by
      intro member
      obtain ⟨field, message, same⟩ := mem_refusals member
      simp [problem] at same
    rw [List.count_eq_zero.mpr absent]
    exact Nat.zero_le _

theorem mem_occupied {place : Place} :
    place ∈ f.occupied engine ↔ f.Compiles engine ∧ place ∈ f.places := by
  by_cases compiles : f.Compiles engine
  · rw [occupied_of_compiles compiles]
    simp [compiles]
  · rw [occupied_of_not_compiles compiles]
    simp [compiles]

end Form

namespace Survey

variable {engine : Engine} {documents : Table String Schema} {taken : List Place}

/-- What is reported for each of several forms, the first of which finds these places taken. -/
def blocks (engine : Engine) (documents : Table String Schema) :
    List Place → List Form → List (List Problem)
  | _, [] => []
  | taken, f :: rest =>
    f.report engine documents taken :: blocks engine documents (taken ++ f.occupied engine) rest

theorem problems_eq_flatten_blocks (forms : List Form) :
    (ofForms engine ⟨documents, taken⟩ forms).problems =
      (blocks engine documents taken forms).flatten := by
  induction forms generalizing taken with
  | nil => rfl
  | cons f rest ih => rw [problems_cons, ih, blocks, List.flatten_cons]

@[simp] theorem length_blocks (taken : List Place) (forms : List Form) :
    (blocks engine documents taken forms).length = forms.length := by
  induction forms generalizing taken with
  | nil => rfl
  | cons f rest ih => simp only [blocks, List.length_cons, ih]

/-- A form is reported with the places taken that the forms before it have asked for and got. -/
theorem getElem?_blocks (forms : List Form) (k : Nat) :
    (blocks engine documents taken forms)[k]? = forms[k]?.map fun f =>
      f.report engine documents (taken ++ (forms.take k).flatMap (Form.occupied engine)) := by
  induction forms generalizing taken k with
  | nil => rfl
  | cons f rest ih =>
    cases k with
    | zero => simp [blocks]
    | succ k => simp [blocks, ih, List.append_assoc]

/-- A form that takes no place changes no block but its own. -/
theorem blocks_eraseIdx {forms : List Form} {k : Nat} {f : Form} (found : forms[k]? = some f)
    (refused : ¬ f.Compiles engine) : blocks engine documents taken (forms.eraseIdx k) =
      (blocks engine documents taken forms).eraseIdx k := by
  induction forms generalizing taken k with
  | nil => rfl
  | cons g rest ih =>
    cases k with
    | zero =>
      obtain rfl : g = f := by simpa using found
      simp [blocks, Form.occupied_of_not_compiles refused]
    | succ k =>
      have later : rest[k]? = some f := by simpa using found
      simp [blocks, ih later]

end Survey

namespace Draft

/-- The draft with one form instead of its own. -/
def alone (d : Draft) (f : Form) : Draft := { d with forms := [f] }

/-- The draft without the form at a position. -/
def without (d : Draft) (k : Nat) : Draft := { d with forms := d.forms.eraseIdx k }

def blocks (d : Draft) : List (List Problem) := Survey.blocks d.engine d.documents [] d.forms

/-- What the block of a form says: what there is to say about that form alone, and besides, which of
its places earlier forms have taken. -/
structure IsBlock (d : Draft) (k : Nat) (f : Form) (block : List Problem) : Prop where
  own : ∀ problem ∈ block, problem.source = f.source.name ∧ problem.locale = f.locale
  alone : block.filter (!·.defect.isRepeated) = (d.alone f).survey.problems
  /-- A form that does not compile is reported for each text that is refused, in the order of the
  fields, and for nothing else. -/
  refused : ¬ f.Compiles d.engine → ∃ messages : Table String String,
    block = messages.entries.map (fun e => f.problem (.uncompiled e.1 e.2)) ∧
      ∀ field message, messages.find? field = some message ↔
        ∃ text, f.fields.find? field = some (some text) ∧ d.engine.compile text = .error message
  traceless : ¬ f.Compiles d.engine → (d.without k).blocks = d.blocks.eraseIdx k
  repeated : f.Compiles d.engine → ∀ target, f.problem (.repeated target) ∈ block ↔
    target ∈ f.targets.toList ∧ ∃ g ∈ d.forms.take k, g.Compiles d.engine ∧
      g.source.name = f.source.name ∧ target ∈ g.targets.toList ∧ g.locale = f.locale
  once : ∀ target, block.count (f.problem (.repeated target)) ≤ 1

/-- The problems of a draft are those of its forms, one block after the other. -/
structure Modular (d : Draft) : Prop where
  problems : d.survey.problems = d.blocks.flatten
  length : d.blocks.length = d.forms.length
  block : ∀ k f block, d.forms[k]? = some f → d.blocks[k]? = some block → d.IsBlock k f block
  accepted : d.blocks.flatten = [] → ∃ r, d.build = .ok r
  failed : d.blocks.flatten ≠ [] → d.build = .error ⟨d.blocks.flatten.map Problem.message⟩

theorem problems_alone (d : Draft) (f : Form) :
    (d.alone f).survey.problems = f.report d.engine d.documents [] := by
  change (Survey.ofForms d.engine ⟨d.documents, []⟩ [f]).problems = _
  rw [Survey.problems_eq_flatten_blocks]
  simp [Survey.blocks]

theorem isBlock_of_getElem? {d : Draft} {k : Nat} {f : Form} {block : List Problem}
    (found : d.forms[k]? = some f) (reported : d.blocks[k]? = some block) : d.IsBlock k f block := by
  have same : f.report d.engine d.documents ((d.forms.take k).flatMap (Form.occupied d.engine)) =
      block := by
    rw [blocks, Survey.getElem?_blocks, found, Option.map_some, List.nil_append] at reported
    exact Option.some.inj reported
  subst block
  constructor
  case own =>
    intro problem member
    exact Form.own_of_mem_report member
  case alone =>
    rw [problems_alone]
    exact Form.filter_report d.documents _ f
  case refused =>
    intro refused
    refine ⟨f.refused d.engine, ?_, fun field message => Form.find?_refused⟩
    rw [Form.report_of_not_compiles refused, Form.refusals_eq]
  case traceless => exact Survey.blocks_eraseIdx found
  case repeated =>
    intro compiles target
    rw [Form.mem_report_repeated compiles, List.mem_flatMap]
    simp only [Form.mem_occupied, Form.mem_places]
  case once => exact Form.count_report_repeated_le d.documents _ f

theorem survey_modular (d : Draft) : d.Modular := by
  have flattened : d.survey.problems = d.blocks.flatten :=
    Survey.problems_eq_flatten_blocks d.forms
  constructor
  case problems => exact flattened
  case length => exact Survey.length_blocks [] d.forms
  case block =>
    intro k f block found reported
    exact isBlock_of_getElem? found reported
  case accepted =>
    intro none
    rw [← flattened, problems_eq_nil_iff] at none
    exact ⟨_, build_of_acceptable none⟩
  case failed =>
    intro some
    rw [← flattened] at some ⊢
    exact build_of_not_acceptable (mt problems_eq_nil_iff.mpr some)

end Draft
end Letterbook
