import Letterbook.Proofs.Index
import Letterbook.Proofs.LocaleTag
import Letterbook.Proofs.ReportBlocks

/-! The lines of a report. A message takes one line exactly if the names in it do: what an engine
says is folded, but a variable stands as the engine spells it. A report whose messages take one line
each can be read back. -/
namespace Letterbook

def IsLine (s : String) : Prop := '\n' ∉ s.toList

instance (s : String) : Decidable (IsLine s) := inferInstanceAs (Decidable (¬ _))

theorem isLine_append {s t : String} : IsLine (s ++ t) ↔ IsLine s ∧ IsLine t := by
  simp [IsLine]

theorem isLine_intercalate {sep : String} {names : List String} (single : IsLine sep)
    (each : ∀ name ∈ names, IsLine name) : IsLine (sep.intercalate names) := by
  induction names with
  | nil => simp [IsLine]
  | cons name rest ih =>
    obtain ⟨first, later⟩ := List.forall_mem_cons.mp each
    cases rest with
    | nil => simpa using first
    | cons next rest =>
      rw [String.intercalate_cons_cons, isLine_append, isLine_append]
      exact ⟨⟨first, single⟩, ih later⟩

theorem isLine_oneLine (s : List Char) : IsLine (String.ofList (Text.oneLine s)) := by
  rw [IsLine, String.toList_ofList]
  intro feed
  rcases Text.mem_join feed with space | ⟨line, member, inside⟩
  · simp at space
  · obtain ⟨piece, cut, rfl⟩ := List.mem_map.mp (List.mem_filter.mp member).1
    have clean := (Text.of_mem_split cut '\n' (Text.mem_of_mem_trim inside)).1
    simp at clean

theorem Locale.isLine_tag {tag : String} {l : Locale} (parsed : Locale.parse? tag = some l) :
    IsLine l.tag := by
  intro feed
  rcases Locale.mem_tag parsed '\n' feed with hyphen | named <;> contradiction

namespace Report

/-- The lines of a report, without the empty text behind the last line feed. -/
def textLines (r : Report) : List String :=
  "Errors" :: r.messages.mapIdx fun k message => toString (k + 1) ++ ") " ++ message

/-- Reads a report: what stands behind the number of each line but the heading. -/
def read (text : String) : Report where
  messages := (Text.split (· == '\n') text.toList).tail.dropLast.map fun line =>
    String.ofList ((line.dropWhile Char.isDigit).drop 2)

theorem isDigit_of_mem_toString {n : Nat} {c : Char} (member : c ∈ (toString n).toList) :
    c.isDigit := by
  have digits : (toString n).toList = Nat.toDigits 10 n := by simp [toString, Nat.repr]
  exact Nat.isDigit_of_mem_toDigits (by decide) (by decide) (digits ▸ member)

theorem isLine_number (n : Nat) : IsLine (toString n ++ ") ") := by
  rw [isLine_append]
  refine ⟨fun feed => ?_, by decide⟩
  simpa using isDigit_of_mem_toString feed

theorem split_append_newline {s t : String} (single : IsLine s) :
    Text.split (· == '\n') (s ++ "\n" ++ t).toList =
      s.toList :: Text.split (· == '\n') t.toList := by
  have clean : ∀ c ∈ s.toList, (c == '\n') = false := by
    intro c member
    rw [beq_eq_false_iff_ne]
    rintro rfl
    exact single member
  simpa using Text.split_append_cons (t := t.toList) clean rfl

theorem split_numbered {messages : List String} (single : ∀ message ∈ messages, IsLine message)
    (first : Nat) : Text.split (· == '\n') (numbered first messages).toList =
      (messages.mapIdx fun k message => toString (first + k) ++ ") " ++ message).map
        String.toList ++ [[]] := by
  induction messages generalizing first with
  | nil => rfl
  | cons message rest ih =>
    obtain ⟨here, later⟩ := List.forall_mem_cons.mp single
    have line : IsLine (toString first ++ ") " ++ message) :=
      isLine_append.mpr ⟨isLine_number first, here⟩
    rw [numbered, split_append_newline line, ih later, List.mapIdx_cons, List.map_cons,
      List.cons_append]
    simp only [Nat.add_zero, Nat.add_assoc, Nat.add_comm 1]

/-- The lines of a report are those of its messages exactly if no message has several. -/
theorem split_text_iff {r : Report} :
    Text.split (· == '\n') r.text.toList = r.textLines.map String.toList ++ [[]] ↔
      ∀ message ∈ r.messages, IsLine message := by
  constructor
  · -- Every piece of a cut text is free of line feeds, and each message is part of a piece.
    intro lines message member feed
    obtain ⟨k, found⟩ := List.mem_iff_getElem?.mp member
    have line : toString (k + 1) ++ ") " ++ message ∈ r.textLines := by
      refine List.mem_cons_of_mem _ (List.mem_iff_getElem?.mpr ⟨k, ?_⟩)
      rw [List.getElem?_mapIdx, found, Option.map_some]
    have piece : (toString (k + 1) ++ ") " ++ message).toList ∈
        Text.split (· == '\n') r.text.toList := by
      rw [lines]
      exact List.mem_append_left _ (List.mem_map_of_mem line)
    have clean := (Text.of_mem_split piece '\n' (by simp [feed])).1
    simp at clean
  · intro single
    have heading : r.text = "Errors" ++ "\n" ++ numbered 1 r.messages := rfl
    rw [heading, split_append_newline (by decide), split_numbered single, textLines, List.map_cons,
      List.cons_append]
    simp only [Nat.add_comm 1]

theorem drop_number (n : Nat) (message : String) :
    (((toString n ++ ") " ++ message).toList.dropWhile Char.isDigit).drop 2) = message.toList := by
  have digits : ∀ c ∈ (toString n).toList, c.isDigit := fun _ => isDigit_of_mem_toString
  rw [String.toList_append, String.toList_append, List.append_assoc,
    List.dropWhile_append_of_pos digits]
  rfl

theorem read_text {r : Report} (single : ∀ message ∈ r.messages, IsLine message) :
    read r.text = r := by
  have messages : (r.messages.mapIdx fun k message => toString (k + 1) ++ ") " ++ message).map
      (fun line => String.ofList ((line.toList.dropWhile Char.isDigit).drop 2)) = r.messages := by
    apply List.ext_getElem?
    intro k
    simp only [List.getElem?_map, List.getElem?_mapIdx, Option.map_map, Function.comp_def,
      drop_number, String.ofList_toList, Option.map_id_fun', id]
  rw [read, split_text_iff.mpr single, textLines, List.map_cons, List.cons_append, List.tail_cons,
    List.dropLast_concat, List.map_map]
  exact congrArg Report.mk messages

end Report

namespace Defect

/-- The names of fields and documents in a defect. -/
def names : Defect → List String
  | uncompiled field _ | unknownName field _ => [field]
  | uninstalled target | repeated target => [target]
  | undeclared field targets => field :: targets
  | missing target field => [target, field]
  | untargeted => []

/-- The variable that a defect is about. -/
def unknown? : Defect → Option String
  | unknownName _ name => some name
  | uncompiled .. | uninstalled _ | undeclared .. | missing .. | repeated _ | untargeted => none

end Defect

theorem isLine_rootKey {name : String} (single : IsLine name) : IsLine (rootKey name) := by
  rw [IsLine, rootKey, String.toList_ofList]
  exact fun feed => single ((List.takeWhile_prefix _).subset feed)

theorem isLine_reference_iff {name : String} : IsLine (rootKey name) ∧
    IsLine (if rootKey name = name then "" else " referenced as [" ++ name ++ "]") ↔
      IsLine name := by
  by_cases root : rootKey name = name
  · simp +decide only [root, if_true, and_true]
  · simp +decide only [root, if_false, isLine_append, and_true, true_and]
    exact ⟨And.right, fun single => ⟨isLine_rootKey single, single⟩⟩

/-- With names of one line each, a message takes one line unless its variable does not. -/
theorem Problem.isLine_message_iff {p : Problem} (source : IsLine p.source)
    (locale : IsLine p.locale.tag) (names : ∀ name ∈ p.defect.names, IsLine name) :
    IsLine p.message ↔ ∀ name, p.defect.unknown? = some name → IsLine name := by
  obtain ⟨text, l, defect⟩ := p
  dsimp only at source locale names
  cases defect with
  | uncompiled field said =>
    have single := names field List.mem_cons_self
    have folded := isLine_oneLine said.toList
    simp +decide only [Problem.message, isLine_append, Defect.unknown?, source, locale, single,
      folded]
  | unknownName field name =>
    have single := names field List.mem_cons_self
    have reference : (IsLine (rootKey name) ∧ _) ↔ IsLine name := isLine_reference_iff
    simp +decide only [Problem.message, isLine_append, Defect.unknown?, source, locale, single,
      and_true, true_and, reference, Option.some.injEq, forall_eq']
  | uninstalled target =>
    have single := names target List.mem_cons_self
    simp +decide only [Problem.message, isLine_append, Defect.unknown?, source, locale, single]
  | undeclared field targets =>
    obtain ⟨single, each⟩ := List.forall_mem_cons.mp names
    have listed : IsLine (String.intercalate ", " targets) := isLine_intercalate (by decide) each
    simp +decide only [Problem.message, isLine_append, Defect.unknown?, source, locale, single,
      listed]
  | missing target field =>
    obtain ⟨document, single⟩ := List.forall_mem_cons.mp names
    have single := single field List.mem_cons_self
    simp +decide only [Problem.message, isLine_append, Defect.unknown?, source, locale, document,
      single]
  | repeated target =>
    have single := names target List.mem_cons_self
    simp +decide only [Problem.message, isLine_append, Defect.unknown?, source, locale, single]
  | untargeted => simp +decide only [Problem.message, isLine_append, Defect.unknown?, source, locale]

namespace PreparedForm

variable {documents : Table String Schema} {taken : List Place} {p : PreparedForm}

/-- What a review may find, check by check. -/
theorem problem_cases {problem : Problem} (member : problem ∈ p.problems documents taken) :
    problem.defect = .untargeted ∨
      (∃ target ∈ p.targets.toList,
        problem.defect = .repeated target ∨ problem.defect = .uninstalled target) ∨
      (∃ field name, (field, name) ∈ p.references ∧ problem.defect = .unknownName field name) ∨
      problem.defect ∈ p.misfits documents := by
  obtain ⟨defect, found, rfl⟩ := List.mem_map.mp member
  rw [problem]
  simp only [List.mem_append] at found
  obtain (((none | again) | missed) | unknown) | misfit := found
  · obtain ⟨-, rfl⟩ : p.targets.isEmpty = true ∧ defect = .untargeted := by
      simpa [untargeted] using none
    exact .inl rfl
  · rw [repeated_eq] at again
    obtain ⟨target, kept, rfl⟩ := List.mem_map.mp again
    exact .inr (.inl ⟨target, (List.mem_filter.mp kept).1, .inl rfl⟩)
  · obtain ⟨target, kept, rfl⟩ := List.mem_map.mp missed
    exact .inr (.inl ⟨target, (List.mem_filter.mp kept).1, .inr rfl⟩)
  · obtain ⟨⟨field, name⟩, kept, rfl⟩ := List.mem_map.mp unknown
    exact .inr (.inr (.inl ⟨field, name, (List.mem_filter.mp kept).1, rfl⟩))
  · exact .inr (.inr (.inr misfit))

end PreparedForm

/-- The names that a report on a form may hold: those of its targets and fields, and those of
documents and their fields. -/
def Form.Mentions (documents : Table String Schema) (f : Form) (name : String) : Prop :=
  name ∈ f.targets.toList ∨ name ∈ f.fields.keys ∨
    ∃ document ∈ documents.values, name = document.name ∨ name ∈ document.fieldNames

namespace Form

variable {engine : Engine} {documents : Table String Schema} {taken : List Place} {f : Form}
  {p : PreparedForm} {problem : Problem} {name : String}

theorem mentions_of_mem_problems (h : f.PreparedAs engine p)
    (member : problem ∈ p.problems documents taken) (named : name ∈ problem.defect.names) :
    f.Mentions documents name := by
  rcases PreparedForm.problem_cases member with same | ⟨target, listed, same⟩ |
    ⟨field, variableName, referenced, same⟩ | misfit
  · rw [same] at named
    contradiction
  · obtain rfl : name = target := by
      rcases same with same | same <;> simpa [same, Defect.names] using named
    exact .inl (h.targets ▸ listed)
  · obtain rfl : name = field := by simpa [same, Defect.names] using named
    obtain ⟨e, found, -⟩ := PreparedForm.mem_references.mp referenced
    exact .inr (.inl (h.keys ▸ Table.mem_keys.mpr ⟨_, found⟩))
  · rcases PreparedForm.misfit_cases misfit with ⟨field, key, same⟩ |
      ⟨document, installed, spec, required, same⟩
    · have either : name = field ∨ name ∈ p.targets.toList := by
        simpa [same, Defect.names] using named
      rcases either with rfl | listed
      · exact .inr (.inl (h.keys ▸ key))
      · exact .inl (h.targets ▸ listed)
    · have either : name = document.name ∨ name = spec.name := by
        simpa [same, Defect.names] using named
      refine .inr (.inr ⟨document, installed, either.imp_right ?_⟩)
      rintro rfl
      exact Schema.name_mem_of_required required

theorem mentions_of_mem_report (member : problem ∈ f.report engine documents taken)
    (named : name ∈ problem.defect.names) : f.Mentions documents name := by
  by_cases compiles : f.Compiles engine
  · have h := outcome_preparedAs compiles
    rw [report_of_preparedAs h] at member
    exact mentions_of_mem_problems h member named
  · rw [report_of_not_compiles compiles, refusals_eq] at member
    obtain ⟨e, entry, rfl⟩ := List.mem_map.mp member
    obtain rfl := List.mem_singleton.mp named
    obtain ⟨text, written, -⟩ := find?_refused.mp (Table.find?_eq_some_iff.mpr entry)
    exact .inr (.inl (Table.mem_keys.mpr ⟨_, written⟩))

/-- The variables in a report are those of texts that compile. -/
theorem exists_of_unknown (member : problem ∈ f.report engine documents taken)
    (unknown : problem.defect.unknown? = some name) :
    ∃ field text e, f.fields.find? field = some (some text) ∧ engine.compile text = .ok e ∧
      name ∈ e.names.toList := by
  by_cases compiles : f.Compiles engine
  · have h := outcome_preparedAs compiles
    rw [report_of_preparedAs h] at member
    rcases PreparedForm.problem_cases member with same | ⟨target, -, same | same⟩ |
      ⟨field, variableName, referenced, same⟩ | misfit
    · simp [same, Defect.unknown?] at unknown
    · simp [same, Defect.unknown?] at unknown
    · simp [same, Defect.unknown?] at unknown
    · obtain rfl : variableName = name := by simpa [same, Defect.unknown?] using unknown
      obtain ⟨e, found, inside⟩ := PreparedForm.mem_references.mp referenced
      obtain ⟨text, written, compiled⟩ := (h.text field e).mp found
      exact ⟨field, text, e, written, compiled, inside⟩
    · rcases PreparedForm.misfit_cases misfit with ⟨field, -, same⟩ | ⟨document, -, spec, -, same⟩
      · simp [same, Defect.unknown?] at unknown
      · simp [same, Defect.unknown?] at unknown
  · rw [report_of_not_compiles compiles] at member
    obtain ⟨field, message, rfl⟩ := mem_refusals member
    contradiction

end Form

namespace Draft

/-- The names that a draft gives are of one line each, and its locales were read from tags. -/
structure HasPlainNames (d : Draft) : Prop where
  sources : ∀ f ∈ d.forms, IsLine f.source.name
  locales : ∀ f ∈ d.forms, ∃ tag, Locale.parse? tag = some f.locale
  targets : ∀ f ∈ d.forms, ∀ target ∈ f.targets.toList, IsLine target
  fields : ∀ f ∈ d.forms, ∀ field ∈ f.fields.keys, IsLine field
  documents : ∀ document ∈ d.documents.values,
    IsLine document.name ∧ ∀ field ∈ document.fieldNames, IsLine field

variable {d : Draft} {report : Report} {problem : Problem}

theorem HasPlainNames.installForm (plain : d.HasPlainNames) {f : Form}
    (source : IsLine f.source.name) (locale : ∃ tag, Locale.parse? tag = some f.locale)
    (targets : ∀ target ∈ f.targets.toList, IsLine target)
    (fields : ∀ field ∈ f.fields.keys, IsLine field) : (d.installForm f).HasPlainNames where
  sources := List.forall_mem_append.mpr ⟨plain.sources, List.forall_mem_singleton.mpr source⟩
  locales := List.forall_mem_append.mpr ⟨plain.locales, List.forall_mem_singleton.mpr locale⟩
  targets := List.forall_mem_append.mpr ⟨plain.targets, List.forall_mem_singleton.mpr targets⟩
  fields := List.forall_mem_append.mpr ⟨plain.fields, List.forall_mem_singleton.mpr fields⟩
  documents := plain.documents

theorem exists_form_of_mem_problems (member : problem ∈ d.survey.problems) :
    ∃ f ∈ d.forms, ∃ taken, problem ∈ f.report d.engine d.documents taken := by
  rw [d.survey_modular.problems] at member
  obtain ⟨block, reported, member⟩ := List.mem_flatten.mp member
  obtain ⟨k, reported⟩ := List.mem_iff_getElem?.mp reported
  rw [blocks, Survey.getElem?_blocks, Option.map_eq_some_iff] at reported
  obtain ⟨f, found, rfl⟩ := reported
  exact ⟨f, List.mem_of_getElem? found, _, member⟩

theorem HasPlainNames.isLine_message_iff (plain : d.HasPlainNames)
    (member : problem ∈ d.survey.problems) :
    IsLine problem.message ↔ ∀ name, problem.defect.unknown? = some name → IsLine name := by
  obtain ⟨f, installed, taken, reported⟩ := exists_form_of_mem_problems member
  obtain ⟨source, locale⟩ := Form.own_of_mem_report reported
  obtain ⟨tag, parsed⟩ := plain.locales f installed
  apply Problem.isLine_message_iff
  · rw [source]
    exact plain.sources f installed
  · rw [locale]
    exact Locale.isLine_tag parsed
  · intro name named
    rcases Form.mentions_of_mem_report reported named with target | field |
      ⟨document, given, rfl | field⟩
    · exact plain.targets f installed name target
    · exact plain.fields f installed name field
    · exact (plain.documents document given).1
    · exact (plain.documents document given).2 name field

/-- The variables that a draft is reported for are of one line each. -/
def HasPlainVariables (d : Draft) : Prop :=
  ∀ problem ∈ d.survey.problems, ∀ name, problem.defect.unknown? = some name → IsLine name

theorem hasPlainVariables_of_compiled
    (compiled : ∀ f ∈ d.forms, ∀ field text e, f.fields.find? field = some (some text) →
      d.engine.compile text = .ok e → ∀ name ∈ e.names.toList, IsLine name) :
    d.HasPlainVariables := by
  intro problem member name unknown
  obtain ⟨f, installed, taken, reported⟩ := exists_form_of_mem_problems member
  obtain ⟨field, text, e, written, accepted, named⟩ := Form.exists_of_unknown reported unknown
  exact compiled f installed field text e written accepted name named

theorem messages_of_build_error (failed : d.build = .error report) :
    report.messages = d.survey.problems.map Problem.message := by
  by_cases acceptable : d.Acceptable
  · simp [build_of_acceptable acceptable] at failed
  · rw [build_of_not_acceptable acceptable, Except.error.injEq] at failed
    rw [← failed]

/-- A report has one line for each problem exactly if the variables that it names are of one line,
whatever the engine says about the texts that it refuses; then it can be read back. -/
theorem report_lines_iff (plain : d.HasPlainNames) (failed : d.build = .error report) :
    report.messages = d.survey.problems.map Problem.message ∧
      (Text.split (· == '\n') report.text.toList = report.textLines.map String.toList ++ [[]] ↔
        d.HasPlainVariables) ∧
      (d.HasPlainVariables → Report.read report.text = report) ∧
      ((∀ f ∈ d.forms, ∀ field text e, f.fields.find? field = some (some text) →
        d.engine.compile text = .ok e → ∀ name ∈ e.names.toList, IsLine name) →
        d.HasPlainVariables) := by
  have messages := messages_of_build_error failed
  have single_iff : (∀ message ∈ report.messages, IsLine message) ↔ d.HasPlainVariables := by
    rw [messages, List.forall_mem_map]
    exact forall₂_congr fun problem member => plain.isLine_message_iff member
  refine ⟨messages, Report.split_text_iff.trans single_iff, ?_, hasPlainVariables_of_compiled⟩
  intro single
  exact Report.read_text (single_iff.mpr single)

/-- An invitation with this text by letter. -/
def oneLetter (engine : Engine) (text : String) : Draft :=
  ((Draft.empty.withEngine engine).installDocument Invitation.letter).installForm
    ((Invitation.form .standard text).target "Letter")

/-- Another invitation, in German. -/
def twoLetters (engine : Engine) (text german : String) : Draft :=
  (oneLetter engine text).installForm
    ((Invitation.form (.ofLanguage "de") german).target "Letter")

theorem hasPlainNames_installLetter (plain : d.HasPlainNames) {l : Locale}
    (locale : ∃ tag, Locale.parse? tag = some l) (text : String) :
    (d.installForm ((Invitation.form l text).target "Letter")).HasPlainNames := by
  have guest : IsLine "Guest" := by decide
  have letter : IsLine "Letter" := by decide
  have body : IsLine "body" := by decide
  exact plain.installForm guest locale (List.forall_mem_singleton.mpr letter)
    (List.forall_mem_singleton.mpr body)

theorem hasPlainNames_oneLetter (engine : Engine) (text : String) :
    (oneLetter engine text).HasPlainNames := by
  have locale : Locale.parse? "en-US" = some Locale.standard := by decide +kernel
  have letter : IsLine "Letter" := by decide
  have body : IsLine "body" := by decide
  have documents :
      ((Draft.empty.withEngine engine).installDocument Invitation.letter).HasPlainNames := by
    constructor
    case documents =>
      exact List.forall_mem_singleton.mpr ⟨letter, List.forall_mem_singleton.mpr body⟩
    -- There are no forms yet.
    all_goals exact nofun
  exact hasPlainNames_installLetter documents ⟨"en-US", locale⟩ text

theorem hasPlainNames_twoLetters (engine : Engine) (text german : String) :
    (twoLetters engine text german).HasPlainNames := by
  have locale : Locale.parse? "de" = some (Locale.ofLanguage "de") := by decide +kernel
  exact hasPlainNames_installLetter (hasPlainNames_oneLetter engine text) ⟨"de", locale⟩ german

/-- An engine that takes no text and says so on several lines. -/
def refusing : Engine := ⟨fun text => .error ("no template:\n  " ++ text ++ "\n")⟩

theorem report_of_refusing : ∃ report,
    (twoLetters refusing "Dear guest" "Lieber Gast").build = .error report ∧
    (twoLetters refusing "Dear guest" "Lieber Gast").HasPlainVariables ∧
    Text.split (· == '\n') report.text.toList = report.textLines.map String.toList ++ [[]] ∧
    Report.read report.text = report ∧
    report.text = "Errors\n" ++
      "1) Failed to compile DocumentTemplate field [body] with source=[Guest] locale=en-US: " ++
      "no template: Dear guest\n" ++
      "2) Failed to compile DocumentTemplate field [body] with source=[Guest] locale=de: " ++
      "no template: Lieber Gast\n" := by
  have plain : (twoLetters refusing "Dear guest" "Lieber Gast").HasPlainNames :=
    hasPlainNames_twoLetters _ _ _
  have refused : (twoLetters refusing "Dear guest" "Lieber Gast").build.toBool = false := by
    decide +kernel
  cases built : (twoLetters refusing "Dear guest" "Lieber Gast").build with
  | ok r => simp [built, Except.toBool] at refused
  | error report =>
    obtain ⟨messages, lines, read, compiled⟩ := report_lines_iff plain built
    have single : (twoLetters refusing "Dear guest" "Lieber Gast").HasPlainVariables := by
      apply compiled
      intro f installed field text e written accepted
      contradiction
    refine ⟨report, rfl, single, lines.mpr single, read single, ?_⟩
    rw [Report.text, messages]
    decide +kernel

/-- The name of a variable may hold a line feed. The one problem with it is then reported as if there
were two. -/
theorem report_of_broken_variable : ∃ report other : Report,
    (oneLetter Markup.defaultEngine "\x7b\x7b[a\n2) b]\x7d\x7d").build = .error report ∧
    (oneLetter Markup.defaultEngine "\x7b\x7b[a\n2) b]\x7d\x7d").HasPlainNames ∧
    report.messages.length = 1 ∧ other.messages.length = 2 ∧ report.text = other.text ∧
    Text.split (· == '\n') report.text.toList ≠ report.textLines.map String.toList ++ [[]] := by
  have reported : (oneLetter Markup.defaultEngine "\x7b\x7b[a\n2) b]\x7d\x7d").survey.problems =
      [⟨"Guest", .standard, .unknownName "body" "[a\n2) b]"⟩] := by
    decide +kernel
  let rest := "b]] in DocumentData [Guest] for DocumentTemplate field [body] locale=en-US"
  cases built : (oneLetter Markup.defaultEngine "\x7b\x7b[a\n2) b]\x7d\x7d").build with
  | ok r =>
    have acceptable := problems_eq_nil_iff.mpr (build_eq_ok_iff.mp built).1
    simp [reported] at acceptable
  | error report =>
    have messages : report.messages = ["Missing variable [[a\n2) " ++ rest] := by
      rw [messages_of_build_error built, reported]
      decide +kernel
    refine ⟨report, ⟨["Missing variable [[a", rest]⟩, rfl, hasPlainNames_oneLetter _ _, ?_, rfl, ?_,
      ?_⟩
    · rw [messages, List.length_singleton]
    · rw [Report.text, messages]
      decide +kernel
    · rw [Ne, Report.split_text_iff, messages, List.forall_mem_singleton]
      decide +kernel

end Draft
end Letterbook
