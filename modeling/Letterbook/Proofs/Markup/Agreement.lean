import Letterbook.Markup.Render
import Letterbook.Proofs.Markup.ReadPaths

/-! Plain templates print the same in two scopes in which the paths that they read lead to the
same: nothing else of a scope but its indentation matters to them. -/
namespace Letterbook.Markup

/-- Two scopes that print alike and in which these paths lead to the same. -/
structure Scope.Agree (paths : List Path) (s s' : Scope) : Prop where
  indent : s.indent = s'.indent
  resolve : ∀ p ∈ paths, s.resolve p = s'.resolve p

variable {o : Options} {s s' : Scope} {paths paths' : List Path}

theorem Scope.Agree.mono (agree : s.Agree paths s') (fewer : paths' ⊆ paths) :
    s.Agree paths' s' :=
  ⟨agree.indent, fun p member => agree.resolve p (fewer member)⟩

theorem Scope.Agree.left (agree : Scope.Agree (paths ++ paths') s s') : s.Agree paths s' :=
  agree.mono (List.subset_append_left ..)

theorem Scope.Agree.right (agree : Scope.Agree (paths ++ paths') s s') : s.Agree paths' s' :=
  agree.mono (List.subset_append_right ..)

mutual

theorem Arg.eval_congr {arg : Arg} (agree : Scope.Agree arg.paths s s') :
    arg.eval o s = arg.eval o s' := by
  cases arg with
  | path p => simp only [Arg.eval, agree.resolve p (List.mem_singleton_self p)]
  | literal v => simp only [Arg.eval]
  | call name args hash =>
    simp only [Arg.eval, Arg.evalList_congr agree.left, Arg.evalHash_congr agree.right]

theorem Arg.evalList_congr {args : List Arg} (agree : Scope.Agree (Arg.listPaths args) s s') :
    Arg.evalList o s args = Arg.evalList o s' args := by
  cases args with
  | nil => simp only [Arg.evalList]
  | cons arg rest =>
    simp only [Arg.evalList, Arg.eval_congr agree.left, Arg.evalList_congr agree.right]

theorem Arg.evalHash_congr {hash : List (String × Arg)}
    (agree : Scope.Agree (Arg.hashPaths hash) s s') :
    Arg.evalHash o s hash = Arg.evalHash o s' hash := by
  cases hash with
  | nil => simp only [Arg.evalHash]
  | cons entry rest =>
    simp only [Arg.evalHash, Arg.eval_congr agree.left, Arg.evalHash_congr agree.right]

end

theorem Arg.asName_congr {arg : Arg} (agree : Scope.Agree arg.paths s s') :
    arg.asName o s = arg.asName o s' := by
  cases arg with
  | path p => rfl
  | literal v => rfl
  | call name args hash => simp only [Arg.asName, Arg.eval_congr agree]

/-- A path that stands for a name is not followed. -/
theorem Arg.asName_of_isPath {arg : Arg} (named : arg.isPath = true) :
    arg.asName o s = arg.asName o s' := by
  cases arg with
  | path p => rfl
  | literal | call => cases named

theorem evalActuals_congr {args : List Arg} {hash : List (String × Arg)}
    (agree : Scope.Agree (Arg.listPaths args ++ Arg.hashPaths hash) s s') :
    evalActuals o s args hash = evalActuals o s' args hash := by
  simp only [evalActuals, Arg.evalList_congr agree.left, Arg.evalHash_congr agree.right]

namespace Render

theorem write_congr (indent : s.indent = s'.indent) (text : String) :
    write s text = write s' text := by
  simp only [write, indent]

theorem writeOutcome_congr (indent : s.indent = s'.indent) {escaped : Bool} (outcome : Outcome) :
    writeOutcome o s escaped outcome = writeOutcome o s' escaped outcome := by
  cases outcome with
  | value v => simp only [writeOutcome, writeValue, write_congr indent]
  | truth b => rfl
  | nothing => rfl

theorem output_congr {pos : Position} {name : Arg} {args : List Arg}
    {hash : List (String × Arg)} {escaped : Bool}
    (plain : (Element.output pos name args hash escaped).isPlain = true)
    (agree : Scope.Agree (Element.output pos name args hash escaped).paths s s') :
    output o s name args hash escaped = output o s' name args hash escaped := by
  rw [Element.paths] at agree
  rw [Element.isPlain, Bool.or_eq_true] at plain
  simp only [output]
  split
  · next alone =>
    rw [if_pos alone] at agree
    simp only [Arg.asName_congr agree, Arg.eval_congr agree, writeOutcome_congr agree.indent,
      writeValue, write_congr agree.indent]
  · next given =>
    rw [if_neg given] at agree
    have named : name.asName o s = name.asName o s' :=
      Arg.asName_of_isPath (plain.resolve_left given)
    simp only [evalActuals_congr agree, named, writeOutcome_congr agree.indent]

theorem choose_congr {holds : Bool} {body : Body} {inverse : Option Body}
    (chosen : body s = body s') (otherwise : ∀ print, inverse = some print → print s = print s') :
    choose s holds body inverse = choose s' holds body inverse := by
  cases holds with
  | true => exact chosen
  | false =>
    cases inverse with
    | none => rfl
    | some print => exact otherwise print rfl

/-- A block that chooses by a truth prints one of its bodies in its own scope. -/
theorem block_congr {name : String} {args : List Arg} {hash : List (String × Arg)}
    {names : BlockNames} {body : Body} {inverse : Option Body} (keeps : keepsContext name = true)
    (agree : Scope.Agree (Arg.listPaths args ++ Arg.hashPaths hash) s s')
    (chosen : body s = body s') (otherwise : ∀ print, inverse = some print → print s = print s') :
    block o s name args hash names body inverse = block o s' name args hash names body inverse := by
  simp only [block, evalActuals_congr agree]
  rw [keepsContext, Bool.or_eq_true, beq_iff_eq, beq_iff_eq] at keeps
  rcases keeps with rfl | rfl <;> simp only [Helper.ofName?, choose_congr chosen otherwise]

variable {call : Scope → Template → Rendering Unit}

mutual

theorem element_congr {e : Element} (plain : e.isPlain = true) (agree : Scope.Agree e.paths s s') :
    element o call s e = element o call s' e := by
  cases e with
  | text t => simp only [element, write_congr agree.indent]
  | comment => simp only [element]
  | output pos name args hash escaped => simp only [element, output_congr plain agree]
  | block pos name args hash names body inverse leads =>
    simp only [Element.isPlain, Bool.and_eq_true] at plain
    obtain ⟨⟨keeps, bodyPlain⟩, inversePlain⟩ := plain
    have printed : block o s name args hash names (fun s => elements o call s body)
          (optionalBody o call inverse) =
        block o s' name args hash names (fun s => elements o call s body)
          (optionalBody o call inverse) :=
      block_congr keeps agree.left.left (elements_congr bodyPlain agree.left.right)
        (optionalBody_congr inversePlain agree.right)
    simp only [element, printed]
  | decorator | partialCall => cases plain

theorem elements_congr {es : List Element} (plain : Element.listIsPlain es = true)
    (agree : Scope.Agree (Element.listPaths es) s s') :
    elements o call s es = elements o call s' es := by
  cases es with
  | nil => simp only [elements]
  | cons e rest =>
    obtain ⟨first, others⟩ := Bool.and_eq_true_iff.mp plain
    simp only [elements, element_congr first agree.left, elements_congr others agree.right]

theorem optionalBody_congr {inverse : Option (List Element)}
    (plain : Element.inverseIsPlain inverse = true)
    (agree : Scope.Agree (Element.inversePaths inverse) s s') :
    ∀ print, optionalBody o call inverse = some print → print s = print s' := by
  intro print same
  cases inverse with
  | none => simp only [optionalBody] at same; cases same
  | some body =>
    rw [optionalBody, Option.some.injEq] at same
    subst print
    exact elements_congr plain agree

end

end Render
end Letterbook.Markup
