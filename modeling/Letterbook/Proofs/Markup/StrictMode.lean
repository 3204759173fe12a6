import Letterbook.Proofs.Markup.Noninterference
import Letterbook.Proofs.Markup.Progress
import Letterbook.Proofs.Supplied

/-! Strict engines. Where texts only print fields by their names and ask whether there are some, a
form that is installed fills from every object with the fields of its source, although a strict
engine refuses to print what is missing. The exception is again a name with white space at an end,
which is trimmed from the variable but not from the key. -/
namespace Letterbook
namespace Markup

/-- Paths that lead from the context or the root to one field by its name. -/
structure Path.NamesField (p : Path) : Prop extends p.Direct where
  alone : p.others = []

instance : DecidablePred Path.NamesField := fun p =>
  decidable_of_iff (p.Direct ∧ p.others = []) ⟨fun ⟨direct, alone⟩ => ⟨direct, alone⟩,
    fun h => ⟨h.toDirect, h.alone⟩⟩

namespace Path.NamesField

variable {p : Path} {members : List (String × Json)}

theorem keys_eq (h : p.NamesField) : p.keys = [p.first.key] := by
  rw [keys_eq_of_direct h.toDirect, h.alone]
  rfl

theorem resolve_ofRoot (h : p.NamesField) : (Scope.ofRoot (.obj members)).resolve p =
    .ok (match Table.lookup p.first.key members with
      | some v => .at [p.first.key] v
      | none => .missing) := by
  rw [resolve_of_direct h.toDirect, h.keys_eq, Scope.atPlace]
  simp only [List.nil_append, Scope.ofRoot, follow, lookupKey]
  cases Table.lookup p.first.key members with
  | some v => rfl
  | none => rfl

theorem follows (h : p.NamesField) : (Scope.ofRoot (.obj members)).Follows p :=
  ⟨_, h.resolve_ofRoot⟩

theorem finds (h : p.NamesField) {v : Json} (present : Table.lookup p.first.key members = some v) :
    (Scope.ofRoot (.obj members)).Finds p := by
  refine ⟨_, h.resolve_ofRoot, ?_⟩
  rw [present]
  rfl

end Path.NamesField

namespace Template

/-- The template prints fields by their names and asks for them, and does nothing else. -/
structure RefersByName (t : Template) : Prop where
  refers : Element.listOnlyRefers t = true
  named : ∀ p ∈ t.paths, p.NamesField

/-- The names that the template prints are roots of its variables. -/
def PrintsVariables (t : Template) : Prop :=
  ∀ p ∈ Element.listPrinted t, p.first.key ∈ t.variables.toList.map rootKey

/-- No name that the template prints has white space at an end that is trimmed. -/
def PrintsUnpadded (t : Template) : Prop := ∀ p ∈ Element.listPrinted t, p.Unpadded

variable {t : Template} {o : Options}

theorem needsOnlyNames_of_printsVariables (h : t.RefersByName) (prints : t.PrintsVariables) :
    (t.executable o).NeedsOnlyNames := by
  intro members has
  have follows : ∀ p ∈ t.paths, (Scope.ofRoot (.obj members)).Follows p := by
    intro p read
    exact (h.named p read).follows
  have finds : ∀ p ∈ Element.listPrinted t, (Scope.ofRoot (.obj members)).Finds p := by
    intro p printed
    have named := h.named p (Element.listPrinted_subset h.refers printed)
    obtain ⟨v, present⟩ := has p.first.key (prints p printed)
    exact named.finds present
  obtain ⟨text, rendered⟩ := render_ok (o := o) h.refers follows finds
  refine ⟨text, ?_⟩
  simp only [executable, rendered]

theorem printsVariables_of_unpadded (h : t.RefersByName) (unpadded : t.PrintsUnpadded) :
    t.PrintsVariables := by
  intro p printed
  have read := Element.listPrinted_subset h.refers printed
  have keeps := Path.keepsRoot_of_unpadded (h.named p read).toDirect (unpadded p printed)
  obtain ⟨name, listed, root⟩ := keeps.exists_variable
  rw [← root]
  exact List.mem_map_of_mem
    (variables_subset (Element.listIsPlain_of_onlyRefers h.refers) read listed)

/-- The template of one tag, which prints the value of a path. -/
def tag (p : Path) : Template := [.output ⟨1, 1⟩ (.path p) [] [] true]

theorem execute_tag_missing {p : Path} (named : p.NamesField)
    (reference : Helper.ofName? p.spelling = none) (strict : o.strict = true)
    {members : List (String × Json)} (absent : Table.lookup p.first.key members = none) :
    ((tag p).executable o).execute (.obj members) =
      .error (RenderError.message ⟨.missing (some p.spelling), some ⟨1, 1⟩⟩) := by
  have resolved : (Scope.ofRoot (.obj members)).resolve p = .ok .missing := by
    rw [named.resolve_ofRoot, absent]
  have printed : Render.output o (Scope.ofRoot (.obj members)) (.path p) [] [] true =
      Render.lift (.error (.missing (some p.spelling))) := by
    rw [Render.output_path reference resolved, strict]
    rfl
  simp only [executable, tag, render, Render.maxDepth, Render.template, Render.elements,
    Render.element, printed]
  rfl

/-- An object with a null at the root of each variable, and nothing else. -/
def rootsOnly (names : NameSet) : Table String Json :=
  .ofList (names.toList.map fun name => (rootKey name, .null))

theorem mem_keys_rootsOnly {names : NameSet} {key : String} :
    key ∈ (rootsOnly names).keys ↔ key ∈ names.toList.map rootKey := by
  rw [rootsOnly, Table.mem_keys_ofList, List.map_map]
  rfl

/-- Where a strict engine prints a single name, that name has to be the root of a variable. -/
theorem needsOnlyNames_tag_iff {p : Path} (named : p.NamesField)
    (reference : Helper.ofName? p.spelling = none) (strict : o.strict = true) :
    ((tag p).executable o).NeedsOnlyNames ↔ (tag p).PrintsVariables := by
  constructor
  · intro needs q printed
    obtain rfl := List.mem_singleton.mp printed
    refine Classical.byContradiction fun other => ?_
    -- The object with the roots of all variables and nothing else does not have the name.
    have keys (key : String) : key ∈ (rootsOnly (tag q).variables).keys ↔
        key ∈ (tag q).variables.toList.map rootKey := mem_keys_rootsOnly
    obtain ⟨text, executed⟩ := needs (rootsOnly (tag q).variables).entries
      fun name listed => Table.mem_keys.mp ((keys name).mpr listed)
    have absent : (rootsOnly (tag q).variables).find? q.first.key = none := by
      apply Option.eq_none_iff_forall_ne_some.mpr
      intro v found
      exact other ((keys _).mp (Table.mem_keys.mpr ⟨v, found⟩))
    rw [execute_tag_missing named reference strict absent] at executed
    contradiction
  · apply needsOnlyNames_of_printsVariables
    refine ⟨?_, fun q read => ?_⟩
    · simp only [tag, Element.listOnlyRefers, Element.onlyRefers, Arg.isReference, reference]
      rfl
    · obtain rfl := List.mem_singleton.mp read
      exact named

end Template

theorem exists_template_of_compile {o : Options} {text : String} {e : Executable}
    (compiled : (engine o).compile text = .ok e) :
    ∃ t, Template.parse text = .ok t ∧ e = t.executable o := by
  rw [engine] at compiled
  cases parsed : Template.parse text with
  | ok t =>
    simp only [parsed, Except.ok.injEq] at compiled
    exact ⟨t, rfl, compiled.symm⟩
  | error refusal => simp [parsed] at compiled

end Markup

open Markup

/-- Every text of the draft's forms that parses is such a template. -/
def Draft.EachTemplate (d : Draft) (holds : Template → Prop) : Prop :=
  ∀ f ∈ d.forms, ∀ field text t, f.fields.find? field = some (some text) →
    Template.parse text = .ok t → holds t

namespace Registry

/-- Where all texts only print fields by their names and ask for them, a form that was found fills
from every object with the fields of its source, provided that the names which are printed are roots
of variables. They are where no such name has white space at an end; for a strict engine and a single
tag, this is also necessary. -/
theorem fills_of_refersByName {d : Draft} {r : Registry} {o : Options}
    (engine : d.engine = Markup.engine o) (built : d.build = .ok r)
    (named : d.EachTemplate Template.RefersByName) :
    (d.EachTemplate Template.PrintsVariables → ∀ pair b requested p members,
      r.binding pair = .ok b → b.resolve requested = .ok p →
        (Json.obj members).Has p.source.fieldNames →
          ∃ filled, b.fill (.obj members) requested = .ok filled) ∧
    (d.EachTemplate Template.PrintsUnpadded → d.EachTemplate Template.PrintsVariables) ∧
    (o.strict = true → ∀ p : Path, p.NamesField → Helper.ofName? p.spelling = none →
      (((Template.tag p).executable o).NeedsOnlyNames ↔ (Template.tag p).PrintsVariables)) := by
  refine ⟨fun prints pair b requested p members bound resolved has => ?_, fun unpadded => ?_,
    fun strict p direct reference => Template.needsOnlyNames_tag_iff direct reference strict⟩
  · refine fill_ok_of_has built ?_ bound resolved has
    intro f installed field text e written compiled
    rw [engine] at compiled
    obtain ⟨t, parsed, rfl⟩ := exists_template_of_compile compiled
    apply Template.needsOnlyNames_of_printsVariables
    · exact named f installed field text t written parsed
    · exact prints f installed field text t written parsed
  · intro f installed field text t written parsed
    apply Template.printsVariables_of_unpadded
    · exact named f installed field text t written parsed
    · exact unpadded f installed field text t written parsed

end Registry

theorem Draft.eachTemplate_of_single {d : Draft} {f : Form} {field text : String} {t : Template}
    {holds : Template → Prop} (forms : d.forms = [f]) (fields : f.fields.entries = [(field, some text)])
    (parsed : Template.parse text = .ok t) (held : holds t) : d.EachTemplate holds := by
  intro g installed field' text' t' written parsed'
  rw [forms, List.mem_singleton] at installed
  subst g
  have entry := Table.find?_eq_some_iff.mp written
  rw [fields, List.mem_singleton] at entry
  cases entry
  rw [parsed] at parsed'
  cases parsed'
  exact held

/-- A greeting to one or to several, or from someone. -/
def Markup.greeting : Template :=
  [.text "Dear ", .output ⟨1, 6⟩ (.path ⟨some .thisDot, none, false, [], .name "name".toList, []⟩)
      [] [] true,
    .block (some ⟨1, 19⟩) "if" [.path (.ofName "many".toList)] [] .none [.text ", all"]
      (some [.block none "if" [.path (.ofName "from".toList)] [] .none
        [.text " from ", .output ⟨1, 58⟩
          (.path ⟨none, some .dot, false, [], .name "from".toList, []⟩) [] [] false] none false])
      false]

def Markup.greetingText : String :=
  "Dear \x7b\x7bthis.name\x7d\x7d\x7b\x7b#if many\x7d\x7d, all" ++
    "\x7b\x7belse if from\x7d\x7d from \x7b\x7b\x7b@root.from\x7d\x7d\x7d\x7b\x7b/if\x7d\x7d"

/-- The greeting, for a strict engine. -/
def Draft.greeting : Draft :=
  ((Draft.empty.withEngine (Markup.engine ⟨.html, true⟩)).installDocument
    Invitation.letter).installForm
    (((Form.blank ((((Schema.named "Guest").field "name").field "many").field "from")
      .standard).field "body" Markup.greetingText).target "Letter")

theorem Registry.fills_greeting : ∃ r b p,
    Draft.greeting.engine = Markup.engine ⟨.html, true⟩ ∧ Draft.greeting.build = .ok r ∧
    Draft.greeting.EachTemplate Template.RefersByName ∧
    Draft.greeting.EachTemplate Template.PrintsVariables ∧
    r.binding ⟨"Guest", "Letter"⟩ = .ok b ∧ b.resolve (.ofLanguage "de") = .ok p ∧
    (Json.obj [("from", .null), ("many", .bool false), ("name", .str "Ann")]).Has
      p.source.fieldNames ∧
    ∃ filled, b.fill (.obj [("from", .null), ("many", .bool false), ("name", .str "Ann")])
      (.ofLanguage "de") = .ok filled := by
  have parsed : Template.parse greetingText = .ok Markup.greeting := by cbv
  have named : Draft.greeting.EachTemplate Template.RefersByName :=
    Draft.eachTemplate_of_single rfl rfl parsed ⟨rfl, by decide⟩
  have unpadded : Draft.greeting.EachTemplate Template.PrintsUnpadded := by
    refine Draft.eachTemplate_of_single rfl rfl parsed ?_
    unfold Template.PrintsUnpadded
    decide
  have declared : (Draft.greeting.resolved? ⟨"Guest", "Letter"⟩ (.ofLanguage "de")).map
      (·.2.2.source.fieldNames) = some ["name", "many", "from"] := by
    decide +kernel
  obtain ⟨⟨r, b, p⟩, resolved, fields⟩ := Option.map_eq_some_iff.mp declared
  obtain ⟨built, bound, found⟩ := Draft.resolved?_eq_some resolved
  obtain ⟨fills, prints, -⟩ := fills_of_refersByName rfl built named
  have has : (Json.obj [("from", .null), ("many", .bool false), ("name", .str "Ann")]).Has
      p.source.fieldNames := by
    rw [fields]
    decide
  exact ⟨r, b, p, rfl, built, named, prints unpadded, bound, found, has,
    fills (prints unpadded) _ b _ p _ bound found has⟩

/-- One tag for a strict engine, whose name begins with a no-break space. -/
def Draft.paddedName : Draft :=
  ((Draft.empty.withEngine (Markup.engine ⟨.none, true⟩)).installDocument
    ((Schema.named "D").field "f")).installForm
    (((Form.blank ((Schema.named "S").field "x") .standard).field "f"
      "\x7b\x7b\u00a0x\x7d\x7d").target "D")

theorem Registry.paddedName_not_filled : ∃ r b p,
    Draft.paddedName.engine = Markup.engine ⟨.none, true⟩ ∧ Draft.paddedName.build = .ok r ∧
    Draft.paddedName.EachTemplate Template.RefersByName ∧ r.binding ⟨"S", "D"⟩ = .ok b ∧
    b.resolve .standard = .ok p ∧ (Json.obj [("x", .null)]).Has p.source.fieldNames ∧
    b.fill (.obj [("x", .null)]) .standard =
      .error (.field "f" (RenderError.message ⟨.missing (some "\u00a0x"), some ⟨1, 1⟩⟩)) := by
  have parsed : Template.parse "\x7b\x7b\u00a0x\x7d\x7d" = .ok padded := by cbv
  have named : Draft.paddedName.EachTemplate Template.RefersByName :=
    Draft.eachTemplate_of_single rfl rfl parsed ⟨rfl, by decide⟩
  have refused : (Draft.paddedName.resolved? ⟨"S", "D"⟩ .standard).map
      (fun found => (found.2.2.source.fieldNames,
        found.2.1.fill (.obj [("x", .null)]) .standard)) =
      some (["x"], .error
        (.field "f" (RenderError.message ⟨.missing (some "\u00a0x"), some ⟨1, 1⟩⟩))) := by
    decide +kernel
  obtain ⟨⟨r, b, p⟩, resolved, answer⟩ := Option.map_eq_some_iff.mp refused
  obtain ⟨built, bound, found⟩ := Draft.resolved?_eq_some resolved
  obtain ⟨fields, failed⟩ := Prod.mk.inj answer
  refine ⟨r, b, p, rfl, built, named, bound, found, ?_, failed⟩
  rw [fields]
  decide

end Letterbook
