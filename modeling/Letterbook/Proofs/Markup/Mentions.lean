import Letterbook.Proofs.Table
import Letterbook.Markup.Variables

/-! The paths that a template mentions where the context is the one it was given: alone in a tag
that prints, as arguments, as named arguments and inside calls, but not in the body of a block other
than `if` and `unless`. The variables of a template are the variables of these paths. -/
namespace Letterbook.Markup

/-- A call is mentioned by its name only if it has no arguments. -/
inductive Arg.Mentions : Arg → Path → Prop
  | path (p : Path) : Mentions (.path p) p
  | name (p : Path) : Mentions (.call p [] []) p
  | argument {name p : Path} {args : List Arg} {hash : List (String × Arg)} {arg : Arg}
      (member : arg ∈ args) (inside : Mentions arg p) : Mentions (.call name args hash) p
  | namedArgument {name p : Path} {args : List Arg} {hash : List (String × Arg)} {key : String}
      {arg : Arg} (member : (key, arg) ∈ hash) (inside : Mentions arg p) :
      Mentions (.call name args hash) p

/-- One of the arguments of a tag mentions the path. -/
def Arg.AnyMentions (args : List Arg) (hash : List (String × Arg)) (p : Path) : Prop :=
  (∃ arg ∈ args, arg.Mentions p) ∨ ∃ entry ∈ hash, entry.2.Mentions p

inductive Element.Mentions : Element → Path → Prop
  | name {pos : Position} {name : Arg} {escaped : Bool} {p : Path} (inside : name.Mentions p) :
      Mentions (.output pos name [] [] escaped) p
  | outputArgument {pos : Position} {name : Arg} {args : List Arg} {hash : List (String × Arg)}
      {escaped : Bool} {p : Path} (inside : Arg.AnyMentions args hash p) :
      Mentions (.output pos name args hash escaped) p
  | blockArgument {pos : Option Position} {name : String} {args : List Arg}
      {hash : List (String × Arg)} {names : BlockNames} {body : List Element}
      {inverse : Option (List Element)} {leads : Bool} {p : Path}
      (inside : Arg.AnyMentions args hash p) :
      Mentions (.block pos name args hash names body inverse leads) p
  | body {pos : Option Position} {name : String} {args : List Arg} {hash : List (String × Arg)}
      {names : BlockNames} {body : List Element} {inverse : Option (List Element)} {leads : Bool}
      {p : Path} {e : Element} (keeps : keepsContext name = true) (member : e ∈ body)
      (inside : Mentions e p) : Mentions (.block pos name args hash names body inverse leads) p
  | inverse {pos : Option Position} {name : String} {args : List Arg} {hash : List (String × Arg)}
      {names : BlockNames} {body inverse : List Element} {leads : Bool} {p : Path} {e : Element}
      (member : e ∈ inverse) (inside : Mentions e p) :
      Mentions (.block pos name args hash names body (some inverse) leads) p

/-- An element of the template mentions the path. -/
def Template.Mentions (t : Template) (p : Path) : Prop := ∃ e ∈ t, e.Mentions p

variable {v : String}

namespace Arg

variable {args : List Arg} {hash : List (String × Arg)}

theorem mentions_path {q p : Path} : (Arg.path q).Mentions p ↔ p = q := by
  constructor
  · intro mentions
    cases mentions
    rfl
  · rintro rfl
    exact .path p

theorem mentions_call {name p : Path} : (Arg.call name args hash).Mentions p ↔
    (args = [] ∧ hash = []) ∧ p = name ∨ AnyMentions args hash p := by
  constructor
  · intro mentions
    cases mentions with
    | name => exact .inl ⟨⟨rfl, rfl⟩, rfl⟩
    | argument member inside => exact .inr (.inl ⟨_, member, inside⟩)
    | namedArgument member inside => exact .inr (.inr ⟨_, member, inside⟩)
  · rintro (⟨⟨rfl, rfl⟩, rfl⟩ | ⟨arg, member, inside⟩ | ⟨entry, member, inside⟩)
    · exact .name p
    · exact .argument member inside
    · exact .namedArgument member inside

theorem exists_anyMentions {P : Path → Prop} : (∃ p, AnyMentions args hash p ∧ P p) ↔
    (∃ arg ∈ args, ∃ p, arg.Mentions p ∧ P p) ∨ ∃ entry ∈ hash, ∃ p, entry.2.Mentions p ∧ P p := by
  constructor
  · rintro ⟨p, ⟨arg, member, inside⟩ | ⟨entry, member, inside⟩, holds⟩
    · exact .inl ⟨arg, member, p, inside, holds⟩
    · exact .inr ⟨entry, member, p, inside, holds⟩
  · rintro (⟨arg, member, p, inside, holds⟩ | ⟨entry, member, p, inside, holds⟩)
    · exact ⟨p, .inl ⟨arg, member, inside⟩, holds⟩
    · exact ⟨p, .inr ⟨entry, member, inside⟩, holds⟩

/-- The variables of a tag are those of its name, if it stands alone, and of its arguments. -/
theorem mem_ite_alone {alone : List String} :
    v ∈ (if args.isEmpty && hash.isEmpty then alone
      else listVariables args ++ hashVariables hash) ↔
    (args = [] ∧ hash = []) ∧ v ∈ alone ∨ v ∈ listVariables args ++ hashVariables hash := by
  cases args with
  | cons arg rest => simp
  | nil =>
    cases hash with
    | cons entry rest => simp
    | nil => simp [listVariables, hashVariables]

mutual

theorem mem_variables (arg : Arg) :
    v ∈ arg.variables ↔ ∃ p, arg.Mentions p ∧ v ∈ p.variables := by
  cases arg with
  | path q => simp [Arg.variables, mentions_path]
  | literal value =>
    constructor
    · intro member
      cases member
    · rintro ⟨p, mentions, -⟩
      cases mentions
  | call name args hash =>
    have listed := mem_listVariables args
    have named := mem_hashVariables hash
    rw [Arg.variables, mem_ite_alone, List.mem_append, listed, named, ← exists_anyMentions]
    simp only [mentions_call, or_and_right, exists_or, and_assoc, exists_and_left, exists_eq_left]

theorem mem_listVariables (args : List Arg) :
    v ∈ listVariables args ↔ ∃ arg ∈ args, ∃ p, arg.Mentions p ∧ v ∈ p.variables := by
  cases args with
  | nil => simp [listVariables]
  | cons arg rest =>
    have first := mem_variables arg
    have others := mem_listVariables rest
    simp only [listVariables, List.mem_append, first, others, List.mem_cons, exists_eq_or_imp]

theorem mem_hashVariables (hash : List (String × Arg)) :
    v ∈ hashVariables hash ↔ ∃ entry ∈ hash, ∃ p, entry.2.Mentions p ∧ v ∈ p.variables := by
  cases hash with
  | nil => simp [hashVariables]
  | cons entry rest =>
    obtain ⟨key, arg⟩ := entry
    have first := mem_variables arg
    have others := mem_hashVariables rest
    simp only [hashVariables, List.mem_append, first, others, List.mem_cons, exists_eq_or_imp]

end

theorem mem_anyVariables : v ∈ listVariables args ++ hashVariables hash ↔
    ∃ p, AnyMentions args hash p ∧ v ∈ p.variables := by
  rw [List.mem_append, mem_listVariables, mem_hashVariables, ← exists_anyMentions]

end Arg

namespace Element

theorem mentions_output {pos : Position} {name : Arg} {args : List Arg}
    {hash : List (String × Arg)} {escaped : Bool} {p : Path} :
    (output pos name args hash escaped).Mentions p ↔
      (args = [] ∧ hash = []) ∧ name.Mentions p ∨ Arg.AnyMentions args hash p := by
  constructor
  · intro mentions
    cases mentions with
    | name inside => exact .inl ⟨⟨rfl, rfl⟩, inside⟩
    | outputArgument inside => exact .inr inside
  · rintro (⟨⟨rfl, rfl⟩, inside⟩ | inside)
    · exact .name inside
    · exact .outputArgument inside

theorem mentions_block {pos : Option Position} {name : String} {args : List Arg}
    {hash : List (String × Arg)} {names : BlockNames} {body : List Element}
    {inverse : Option (List Element)} {leads : Bool} {p : Path} :
    (block pos name args hash names body inverse leads).Mentions p ↔
      Arg.AnyMentions args hash p ∨ (keepsContext name = true ∧ ∃ e ∈ body, e.Mentions p) ∨
        ∃ es, inverse = some es ∧ ∃ e ∈ es, e.Mentions p := by
  constructor
  · intro mentions
    cases mentions with
    | blockArgument inside => exact .inl inside
    | body keeps member inside => exact .inr (.inl ⟨keeps, _, member, inside⟩)
    | inverse member inside => exact .inr (.inr ⟨_, rfl, _, member, inside⟩)
  · rintro (inside | ⟨keeps, e, member, inside⟩ | ⟨es, rfl, e, member, inside⟩)
    · exact .blockArgument inside
    · exact .body keeps member inside
    · exact .inverse member inside

mutual

theorem mem_variables (e : Element) :
    v ∈ e.variables ↔ ∃ p, e.Mentions p ∧ v ∈ p.variables := by
  cases e with
  | text | comment | decorator | partialCall =>
    constructor
    · intro member
      cases member
    · rintro ⟨p, mentions, -⟩
      cases mentions
  | output pos name args hash escaped =>
    rw [Element.variables, Arg.mem_ite_alone, Arg.mem_variables, Arg.mem_anyVariables]
    simp only [mentions_output, or_and_right, exists_or, and_assoc, exists_and_left]
  | block pos name args hash names body inverse leads =>
    have inner := mem_listVariables body
    have other := mem_inverseVariables inverse
    -- The body counts only if the block keeps the context, the inverse counts always.
    have kept : v ∈ (if keepsContext name then listVariables body else []) ↔
        keepsContext name = true ∧ ∃ e ∈ body, ∃ p, e.Mentions p ∧ v ∈ p.variables := by
      split
      · next keeps => simp only [inner, keeps, true_and]
      · next changes => simp [changes]
    rw [Element.variables, List.mem_append, List.mem_append, Arg.mem_anyVariables, kept, other]
    simp only [mentions_block]
    constructor
    · rintro ((⟨p, inside, listed⟩ | ⟨keeps, e, member, p, inside, listed⟩) |
        ⟨es, same, e, member, p, inside, listed⟩)
      · exact ⟨p, .inl inside, listed⟩
      · exact ⟨p, .inr (.inl ⟨keeps, e, member, inside⟩), listed⟩
      · exact ⟨p, .inr (.inr ⟨es, same, e, member, inside⟩), listed⟩
    · rintro ⟨p, inside | ⟨keeps, e, member, inside⟩ | ⟨es, same, e, member, inside⟩, listed⟩
      · exact .inl (.inl ⟨p, inside, listed⟩)
      · exact .inl (.inr ⟨keeps, e, member, p, inside, listed⟩)
      · exact .inr ⟨es, same, e, member, p, inside, listed⟩

theorem mem_listVariables (es : List Element) :
    v ∈ listVariables es ↔ ∃ e ∈ es, ∃ p, e.Mentions p ∧ v ∈ p.variables := by
  cases es with
  | nil => simp [listVariables]
  | cons e rest =>
    have first := mem_variables e
    have others := mem_listVariables rest
    simp only [listVariables, List.mem_append, first, others, List.mem_cons, exists_eq_or_imp]

theorem mem_inverseVariables (inverse : Option (List Element)) : v ∈ inverseVariables inverse ↔
    ∃ es, inverse = some es ∧ ∃ e ∈ es, ∃ p, e.Mentions p ∧ v ∈ p.variables := by
  cases inverse with
  | none => simp [inverseVariables]
  | some es =>
    have inner := mem_listVariables es
    simp only [inverseVariables, inner, Option.some.injEq, exists_eq_left']

end

end Element

/-- The variables of a template are those of the paths that it mentions. -/
theorem Template.mem_variables_iff {t : Template} :
    v ∈ t.variables.toList ↔ ∃ p, t.Mentions p ∧ v ∈ p.variables := by
  rw [Template.variables, NameSet.mem_toList_ofList, Element.mem_listVariables]
  constructor
  · rintro ⟨e, member, p, inside, listed⟩
    exact ⟨p, ⟨e, member, inside⟩, listed⟩
  · rintro ⟨p, ⟨e, member, inside⟩, listed⟩
    exact ⟨e, member, p, inside, listed⟩

end Letterbook.Markup
