import Letterbook.Markup.Render
import Letterbook.Proofs.Markup.ReadPaths

/-! Templates that print paths and ask for them. Such a template cannot fail in a scope in which all
its paths lead somewhere and those that it prints lead to a value. -/
namespace Letterbook.Markup

/-- A path that does not name a helper. -/
def Arg.isReference : Arg → Bool
  | .path p => (Helper.ofName? p.spelling).isNone
  | .literal _ | .call .. => false

/-- An argument that is not computed. -/
def Arg.isAtom : Arg → Bool
  | .path _ | .literal _ => true
  | .call .. => false

mutual

/-- Texts, comments, tags that print a path, and blocks that choose by the truth of an argument. -/
def Element.onlyRefers : Element → Bool
  | .text _ | .comment => true
  | .output _ name args hash _ => args.isEmpty && hash.isEmpty && name.isReference
  | .block _ name args hash _ body inverse _ =>
    keepsContext name && !args.isEmpty && args.all Arg.isAtom && hash.all (·.2.isAtom) &&
      Element.listOnlyRefers body && Element.inverseOnlyRefers inverse
  | .decorator .. | .partialCall .. => false

def Element.listOnlyRefers : List Element → Bool
  | [] => true
  | e :: rest => e.onlyRefers && Element.listOnlyRefers rest

def Element.inverseOnlyRefers : Option (List Element) → Bool
  | none => true
  | some body => Element.listOnlyRefers body

end

mutual

/-- The paths that tags print. What a block asks for is not printed. -/
def Element.printed : Element → List Path
  | .output _ name _ _ _ => name.paths
  | .block _ _ _ _ _ body inverse _ => Element.listPrinted body ++ Element.inversePrinted inverse
  | .text _ | .comment | .decorator .. | .partialCall .. => []

def Element.listPrinted : List Element → List Path
  | [] => []
  | e :: rest => e.printed ++ Element.listPrinted rest

def Element.inversePrinted : Option (List Element) → List Path
  | none => []
  | some body => Element.listPrinted body

end

mutual

theorem Element.isPlain_of_onlyRefers {e : Element} (refers : e.onlyRefers = true) :
    e.isPlain = true := by
  cases e with
  | text | comment => rfl
  | output pos name args hash escaped =>
    simp only [Element.onlyRefers, Bool.and_eq_true] at refers
    simp only [Element.isPlain, refers.1.1, refers.1.2, Bool.and_self, Bool.true_or]
  | block pos name args hash names body inverse leads =>
    simp only [Element.onlyRefers, Bool.and_eq_true] at refers
    obtain ⟨⟨⟨⟨⟨keeps, -⟩, -⟩, -⟩, body⟩, inverse⟩ := refers
    simp only [Element.isPlain, keeps, Element.listIsPlain_of_onlyRefers body,
      Element.inverseIsPlain_of_onlyRefers inverse, Bool.and_self]
  | decorator | partialCall => cases refers

theorem Element.listIsPlain_of_onlyRefers {es : List Element}
    (refers : Element.listOnlyRefers es = true) : Element.listIsPlain es = true := by
  cases es with
  | nil => rfl
  | cons e rest =>
    obtain ⟨first, others⟩ := Bool.and_eq_true_iff.mp refers
    exact Bool.and_eq_true_iff.mpr
      ⟨Element.isPlain_of_onlyRefers first, Element.listIsPlain_of_onlyRefers others⟩

theorem Element.inverseIsPlain_of_onlyRefers {inverse : Option (List Element)}
    (refers : Element.inverseOnlyRefers inverse = true) :
    Element.inverseIsPlain inverse = true := by
  cases inverse with
  | none => rfl
  | some body => exact Element.listIsPlain_of_onlyRefers refers

end

mutual

theorem Element.printed_subset {e : Element} (refers : e.onlyRefers = true) :
    e.printed ⊆ e.paths := by
  cases e with
  | text | comment => exact List.Subset.refl _
  | output pos name args hash escaped =>
    simp only [Element.onlyRefers, Bool.and_eq_true] at refers
    simp only [Element.printed, Element.paths, refers.1.1, refers.1.2, Bool.and_self, if_true]
    exact List.Subset.refl _
  | block pos name args hash names body inverse leads =>
    simp only [Element.onlyRefers, Bool.and_eq_true] at refers
    intro p member
    rw [Element.paths, List.append_assoc]
    rcases List.mem_append.mp member with member | member
    · exact List.mem_append_right _ (List.mem_append_left _
        (Element.listPrinted_subset refers.1.2 member))
    · exact List.mem_append_right _ (List.mem_append_right _
        (Element.inversePrinted_subset refers.2 member))
  | decorator | partialCall => cases refers

theorem Element.listPrinted_subset {es : List Element}
    (refers : Element.listOnlyRefers es = true) :
    Element.listPrinted es ⊆ Element.listPaths es := by
  cases es with
  | nil => exact List.Subset.refl _
  | cons e rest =>
    obtain ⟨first, others⟩ := Bool.and_eq_true_iff.mp refers
    intro p member
    rcases List.mem_append.mp member with member | member
    · exact List.mem_append_left _ (Element.printed_subset first member)
    · exact List.mem_append_right _ (Element.listPrinted_subset others member)

theorem Element.inversePrinted_subset {inverse : Option (List Element)}
    (refers : Element.inverseOnlyRefers inverse = true) :
    Element.inversePrinted inverse ⊆ Element.inversePaths inverse := by
  cases inverse with
  | none => exact List.Subset.refl _
  | some body => exact Element.listPrinted_subset refers

end

/-- The path leads to something, if only to a missing value. -/
def Scope.Follows (s : Scope) (p : Path) : Prop := ∃ found, s.resolve p = .ok found

/-- The path leads to a value. -/
def Scope.Finds (s : Scope) (p : Path) : Prop :=
  ∃ found, s.resolve p = .ok found ∧ found.isMissing = false

section Evaluation

variable {o : Options} {s : Scope}

theorem Arg.eval_ok_of_isAtom {arg : Arg} (atom : arg.isAtom = true)
    (follows : ∀ p ∈ arg.paths, s.Follows p) : ∃ actual, arg.eval o s = .ok actual := by
  cases arg with
  | path p =>
    obtain ⟨found, resolved⟩ := follows p (List.mem_singleton_self p)
    refine ⟨⟨found, some p.spelling⟩, ?_⟩
    rw [Arg.eval, resolved]
    rfl
  | literal v => exact ⟨⟨.value v, none⟩, by rw [Arg.eval]; rfl⟩
  | call => cases atom

theorem Arg.evalList_ok_of_isAtom {args : List Arg} (atoms : args.all Arg.isAtom = true)
    (follows : ∀ p ∈ Arg.listPaths args, s.Follows p) :
    ∃ actuals, Arg.evalList o s args = .ok actuals ∧ actuals.length = args.length := by
  induction args with
  | nil => exact ⟨[], by rw [Arg.evalList]; rfl, rfl⟩
  | cons arg rest ih =>
    rw [List.all_cons, Bool.and_eq_true] at atoms
    obtain ⟨here, later⟩ := List.forall_mem_append.mp follows
    obtain ⟨first, evaluated⟩ := Arg.eval_ok_of_isAtom (o := o) atoms.1 here
    obtain ⟨others, evaluatedAll, length⟩ := ih atoms.2 later
    refine ⟨first :: others, ?_, by rw [List.length_cons, List.length_cons, length]⟩
    rw [Arg.evalList, evaluated, evaluatedAll]
    rfl

theorem Arg.evalHash_ok_of_isAtom {hash : List (String × Arg)}
    (atoms : (hash.all (·.2.isAtom)) = true)
    (follows : ∀ p ∈ Arg.hashPaths hash, s.Follows p) :
    ∃ actuals, Arg.evalHash o s hash = .ok actuals := by
  induction hash with
  | nil => exact ⟨[], by rw [Arg.evalHash]; rfl⟩
  | cons entry rest ih =>
    obtain ⟨key, arg⟩ := entry
    rw [List.all_cons, Bool.and_eq_true] at atoms
    obtain ⟨here, later⟩ := List.forall_mem_append.mp follows
    obtain ⟨first, evaluated⟩ := Arg.eval_ok_of_isAtom (o := o) atoms.1 here
    obtain ⟨others, evaluatedAll⟩ := ih atoms.2 later
    refine ⟨(key, first) :: others, ?_⟩
    rw [Arg.evalHash, evaluated, evaluatedAll]
    rfl

/-- Arguments that are not computed are evaluated, none of them lost. -/
theorem evalActuals_ok_of_isAtom {args : List Arg} {hash : List (String × Arg)}
    (atoms : args.all Arg.isAtom = true) (hashAtoms : (hash.all (·.2.isAtom)) = true)
    (follows : ∀ p ∈ Arg.listPaths args, s.Follows p)
    (hashFollows : ∀ p ∈ Arg.hashPaths hash, s.Follows p) :
    ∃ actuals, evalActuals o s args hash = .ok actuals ∧ actuals.args.length = args.length := by
  obtain ⟨given, evaluated, length⟩ := Arg.evalList_ok_of_isAtom (o := o) atoms follows
  obtain ⟨named, evaluatedHash⟩ := Arg.evalHash_ok_of_isAtom (o := o) hashAtoms hashFollows
  refine ⟨⟨given, named⟩, ?_, length⟩
  rw [evalActuals, evaluated, evaluatedHash]
  rfl

/-- Only a condition that is not given is an error. -/
theorem Helper.condition_ok {actuals : Helper.Actuals} (given : 0 < actuals.args.length) :
    ∃ holds, Helper.condition actuals = .ok holds := by
  obtain ⟨arg, rest, args⟩ := List.exists_cons_of_length_pos given
  rw [Helper.condition, Helper.Actuals.at, args]
  exact ⟨_, rfl⟩

end Evaluation

/-- The computation comes to an end without an error, whatever has been printed before. -/
def Rendering.Succeeds (r : Rendering α) : Prop := ∀ out, ∃ result, r out = .ok result

namespace Rendering.Succeeds

variable {o : Options} {s : Scope}

theorem pure (a : α) : Succeeds (Pure.pure a) := fun out => ⟨(a, out), rfl⟩

theorem modify (f : Output → Output) : Succeeds (modify f) := fun out => ⟨((), f out), rfl⟩

theorem bind {r : Rendering α} {next : α → Rendering β} (first : Succeeds r)
    (second : ∀ a, Succeeds (next a)) : Succeeds (r >>= next) := by
  intro out
  obtain ⟨⟨a, between⟩, ran⟩ := first out
  obtain ⟨result, ranNext⟩ := second a between
  refine ⟨result, ?_⟩
  change (r out >>= fun x => next x.1 x.2) = _
  rw [ran]
  exact ranNext

theorem located {r : Rendering α} (succeeds : Succeeds r) (pos : Option Position) :
    Succeeds (Render.located pos r) := by
  intro out
  obtain ⟨result, ran⟩ := succeeds out
  refine ⟨result, ?_⟩
  rw [Render.located, ran]

theorem indenting {call : Rendering Unit} (succeeds : Succeeds call) (first : Output → Bool) :
    Succeeds (Render.indenting first call) := by
  refine bind (fun out => ⟨(out, out), rfl⟩) fun before => ?_
  refine bind (fun out => ⟨((), _), rfl⟩) fun _ => ?_
  exact bind succeeds fun _ => modify _

theorem write (s : Scope) (text : String) : Succeeds (Render.write s text) := by
  rw [Render.write]
  split
  · exact pure ()
  · exact modify _

theorem choose {holds : Bool} {body : Body} {inverse : Option Body} (chosen : Succeeds (body s))
    (otherwise : ∀ print, inverse = some print → Succeeds (print s)) :
    Succeeds (Render.choose s holds body inverse) := by
  cases holds with
  | true => exact chosen
  | false =>
    cases inverse with
    | none => exact pure ()
    | some print => exact otherwise print rfl

end Rendering.Succeeds

namespace Render

open Rendering (Succeeds)

variable {o : Options} {s : Scope} {call : Scope → Template → Rendering Unit}

theorem lift_ok_bind {a : α} {next : α → Rendering β} {x : Except RenderFault α} (ok : x = .ok a) :
    (lift x >>= next) = next a := by
  subst ok
  rfl

/-- A tag with a path alone, which is no helper, prints the value there; what is missing is an error
for a strict engine only. -/
theorem output_path {p : Path} {found : Found} {escaped : Bool}
    (reference : Helper.ofName? p.spelling = none) (resolved : s.resolve p = .ok found) :
    output o s (.path p) [] [] escaped =
      if found.isMissing then
        if o.strict then lift (.error (.missing (some p.spelling))) else pure ()
      else writeValue o s escaped found.json := by
  have evaluated : (Arg.path p).eval o s = .ok ⟨found, some p.spelling⟩ := by
    rw [Arg.eval, resolved]
    rfl
  have named : (Arg.path p).asName o s = .ok p.spelling := rfl
  rw [output]
  simp only [List.isEmpty_nil, Bool.and_self, if_true]
  rw [lift_ok_bind named, reference]
  dsimp only
  rw [lift_ok_bind evaluated]

theorem output_succeeds {p : Path} {escaped : Bool} (reference : Helper.ofName? p.spelling = none)
    (finds : s.Finds p) : Succeeds (output o s (.path p) [] [] escaped) := by
  obtain ⟨found, resolved, present⟩ := finds
  rw [output_path reference resolved, present]
  exact Succeeds.write s _

theorem block_succeeds {name : String} {args : List Arg} {hash : List (String × Arg)}
    {names : BlockNames} {body : Body} {inverse : Option Body} (keeps : keepsContext name = true)
    (given : args ≠ []) (atoms : args.all Arg.isAtom = true)
    (hashAtoms : (hash.all (·.2.isAtom)) = true)
    (follows : ∀ p ∈ Arg.listPaths args, s.Follows p)
    (hashFollows : ∀ p ∈ Arg.hashPaths hash, s.Follows p) (chosen : Succeeds (body s))
    (otherwise : ∀ print, inverse = some print → Succeeds (print s)) :
    Succeeds (block o s name args hash names body inverse) := by
  obtain ⟨actuals, evaluated, length⟩ :=
    evalActuals_ok_of_isAtom (o := o) atoms hashAtoms follows hashFollows
  obtain ⟨holds, condition⟩ : ∃ holds, Helper.condition actuals = .ok holds :=
    Helper.condition_ok (length ▸ List.length_pos_iff.mpr given)
  rw [block, lift_ok_bind evaluated]
  rw [keepsContext, Bool.or_eq_true, beq_iff_eq, beq_iff_eq] at keeps
  rcases keeps with rfl | rfl
  · simp only [Helper.ofName?]
    rw [lift_ok_bind condition]
    exact Succeeds.choose chosen otherwise
  · simp only [Helper.ofName?]
    rw [lift_ok_bind condition]
    exact Succeeds.choose chosen otherwise

-- Which body a block prints depends on the data, so both of them have to succeed.
mutual

/-- What a block asks for may be missing; what a tag prints may not. -/
theorem element_succeeds {e : Element} (refers : e.onlyRefers = true)
    (follows : ∀ p ∈ e.paths, s.Follows p) (finds : ∀ p ∈ e.printed, s.Finds p) :
    Succeeds (element o call s e) := by
  cases e with
  | text t =>
    rw [element]
    exact Succeeds.write s t
  | comment =>
    rw [element]
    exact Succeeds.pure ()
  | output pos name args hash escaped =>
    simp only [Element.onlyRefers, Bool.and_eq_true, List.isEmpty_iff] at refers
    obtain ⟨⟨rfl, rfl⟩, reference⟩ := refers
    rw [element]
    cases name with
    | path p =>
      refine Succeeds.located ?_ pos
      exact output_succeeds (Option.isNone_iff_eq_none.mp reference)
        (finds p (List.mem_singleton_self p))
    | literal | call => cases reference
  | block pos name args hash names body inverse leads =>
    simp only [Element.onlyRefers, Bool.and_eq_true, Bool.not_eq_true'] at refers
    obtain ⟨⟨⟨⟨⟨keeps, given⟩, atoms⟩, hashAtoms⟩, bodyRefers⟩, inverseRefers⟩ := refers
    simp only [Element.paths, List.forall_mem_append] at follows
    obtain ⟨⟨⟨argsFollow, hashFollow⟩, bodyFollows⟩, inverseFollows⟩ := follows
    obtain ⟨bodyFinds, inverseFinds⟩ := List.forall_mem_append.mp finds
    rw [element]
    refine Succeeds.located (Succeeds.indenting ?_ _) pos
    apply block_succeeds keeps (List.isEmpty_eq_false_iff.mp given) atoms hashAtoms argsFollow
      hashFollow
    · exact elements_succeeds bodyRefers bodyFollows bodyFinds
    · exact optionalBody_succeeds inverseRefers inverseFollows inverseFinds
  | decorator | partialCall => cases refers

theorem elements_succeeds {es : List Element} (refers : Element.listOnlyRefers es = true)
    (follows : ∀ p ∈ Element.listPaths es, s.Follows p)
    (finds : ∀ p ∈ Element.listPrinted es, s.Finds p) : Succeeds (elements o call s es) := by
  cases es with
  | nil =>
    rw [elements]
    exact Succeeds.pure ()
  | cons e rest =>
    obtain ⟨first, others⟩ := Bool.and_eq_true_iff.mp refers
    obtain ⟨firstFollows, othersFollow⟩ := List.forall_mem_append.mp follows
    obtain ⟨firstFinds, othersFind⟩ := List.forall_mem_append.mp finds
    rw [elements]
    refine Succeeds.bind ?_ fun _ => ?_
    · exact element_succeeds first firstFollows firstFinds
    · exact elements_succeeds others othersFollow othersFind

theorem optionalBody_succeeds {inverse : Option (List Element)}
    (refers : Element.inverseOnlyRefers inverse = true)
    (follows : ∀ p ∈ Element.inversePaths inverse, s.Follows p)
    (finds : ∀ p ∈ Element.inversePrinted inverse, s.Finds p) :
    ∀ print, optionalBody o call inverse = some print → Succeeds (print s) := by
  intro print same
  cases inverse with
  | none =>
    rw [optionalBody] at same
    contradiction
  | some body =>
    rw [optionalBody, Option.some.injEq] at same
    subst print
    exact elements_succeeds refers follows finds

end

end Render

/-- Rendering then comes to a text, for every escaping and strictness. -/
theorem Template.render_ok {t : Template} {o : Options} {root : Json}
    (refers : Element.listOnlyRefers t = true)
    (follows : ∀ p ∈ t.paths, (Scope.ofRoot root).Follows p)
    (finds : ∀ p ∈ Element.listPrinted t, (Scope.ofRoot root).Finds p) :
    ∃ text, t.render o root = .ok text := by
  have succeeds : Rendering.Succeeds
      (Render.elements o (Render.template o 9999) (Scope.ofRoot root) t) :=
    Render.elements_succeeds refers follows finds
  -- No partial is called, so whatever the bound on nested calls leaves is enough.
  obtain ⟨result, rendered⟩ := succeeds .blank
  refine ⟨result.2.text, ?_⟩
  rw [render, Render.maxDepth, Render.template, rendered]
  rfl

end Letterbook.Markup
