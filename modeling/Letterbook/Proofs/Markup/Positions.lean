import Mathlib
import Letterbook.Markup.Template
import Letterbook.Proofs.Markup.Mentions

/-! The variables of a template by positions. A position is a sequence of turns from the whole
template inwards, and each turn stays where the context is the one that the template was given. The
variables are those of the paths at such positions, so a template is as good as its bare form, in
which nothing else is left. -/
namespace Letterbook.Markup

/-- What stands at a position. -/
inductive Node
  | elements (es : List Element)
  | element (e : Element)
  | arg (a : Arg)

/-- A turn to something inside a node. Members of a list are counted from zero. -/
inductive Turn
  | member (index : Nat)
  | name
  | argument (index : Nat)
  | hashValue (index : Nat)
  | body
  | inverse
  deriving DecidableEq, Repr

namespace Node

/-- What tags, blocks and calls are given, without and with a key. -/
def arguments : Node → List Arg
  | .element (.output _ _ args _ _) | .element (.block _ _ args ..) | .arg (.call _ args _) => args
  | _ => []

def hash : Node → List (String × Arg)
  | .element (.output _ _ _ hash _) | .element (.block _ _ _ hash ..) | .arg (.call _ _ hash) => hash
  | _ => []

/-- The name of a tag or a call that is given nothing. -/
def name? : Node → Option Arg
  | .element (.output _ name [] [] _) => some name
  | .arg (.call name [] []) => some (.path name)
  | _ => none

/-- The body of a block named `if` or `unless`. -/
def body? : Node → Option (List Element)
  | .element (.block _ name _ _ _ body ..) => if name = "if" ∨ name = "unless" then some body else none
  | _ => none

def inverse? : Node → Option (List Element)
  | .element (.block _ _ _ _ _ _ inverse _) => inverse
  | _ => none

def member? (index : Nat) : Node → Option Element
  | .elements es => es[index]?
  | _ => none

def turn? (n : Node) : Turn → Option Node
  | .member index => (n.member? index).map .element
  | .name => n.name?.map .arg
  | .argument index => n.arguments[index]?.map .arg
  | .hashValue index => n.hash[index]?.map fun entry => .arg entry.2
  | .body => n.body?.map .elements
  | .inverse => n.inverse?.map .elements

/-- What stands at the end of some turns. -/
def at? (n : Node) (turns : List Turn) : Option Node := turns.foldlM turn? n

def Mentions : Node → Path → Prop
  | .elements es, p => ∃ e ∈ es, e.Mentions p
  | .element e, p => e.Mentions p
  | .arg a, p => a.Mentions p

variable {n n' : Node} {p : Path} {turn : Turn} {turns : List Turn}

theorem at?_cons : n.at? (turn :: turns) = (n.turn? turn).bind (at? · turns) := rfl

theorem at?_of_turn (turned : n.turn? turn = some n') : n.at? (turn :: turns) = n'.at? turns := by
  rw [at?_cons, turned, Option.bind_some]

theorem mentions_of_given (given : Arg.AnyMentions n.arguments n.hash p) : n.Mentions p := by
  have nothing : ¬ Arg.AnyMentions [] [] p := by simp [Arg.AnyMentions]
  cases n with
  | elements es => exact absurd given nothing
  | element e =>
    cases e with
    | output => exact .outputArgument given
    | block => exact .blockArgument given
    | text | comment | decorator | partialCall => exact absurd given nothing
  | arg a =>
    cases a with
    | call => exact Arg.mentions_call.mpr (.inr given)
    | path | literal => exact absurd given nothing

theorem mentions_of_name {a : Arg} (named : n.name? = some a) (inside : a.Mentions p) :
    n.Mentions p := by
  unfold name? at named
  split at named
  · cases named
    exact .name inside
  · cases named
    obtain rfl := Arg.mentions_path.mp inside
    exact .name p
  · contradiction

theorem mentions_of_body {es : List Element} (held : n.body? = some es)
    (inside : ∃ e ∈ es, e.Mentions p) : n.Mentions p := by
  obtain ⟨e, member, inside⟩ := inside
  unfold body? at held
  split at held
  · split at held
    · next keeps =>
      cases held
      exact .body (by simpa [keepsContext] using keeps) member inside
    · contradiction
  · contradiction

theorem mentions_of_inverse {es : List Element} (held : n.inverse? = some es)
    (inside : ∃ e ∈ es, e.Mentions p) : n.Mentions p := by
  obtain ⟨e, member, inside⟩ := inside
  unfold inverse? at held
  split at held
  · subst held
    exact .inverse member inside
  · contradiction

theorem mentions_of_turn (turned : n.turn? turn = some n') (inside : n'.Mentions p) :
    n.Mentions p := by
  cases turn with
  | member index =>
    obtain ⟨e, listed, rfl⟩ := Option.map_eq_some_iff.mp turned
    cases n with
    | elements es => exact ⟨e, List.mem_of_getElem? listed, inside⟩
    | element | arg => contradiction
  | name =>
    obtain ⟨a, named, rfl⟩ := Option.map_eq_some_iff.mp turned
    exact mentions_of_name named inside
  | argument index =>
    obtain ⟨a, listed, rfl⟩ := Option.map_eq_some_iff.mp turned
    exact mentions_of_given (.inl ⟨a, List.mem_of_getElem? listed, inside⟩)
  | hashValue index =>
    obtain ⟨entry, listed, rfl⟩ := Option.map_eq_some_iff.mp turned
    exact mentions_of_given (.inr ⟨entry, List.mem_of_getElem? listed, inside⟩)
  | body =>
    obtain ⟨es, held, rfl⟩ := Option.map_eq_some_iff.mp turned
    exact mentions_of_body held inside
  | inverse =>
    obtain ⟨es, held, rfl⟩ := Option.map_eq_some_iff.mp turned
    exact mentions_of_inverse held inside

theorem mentions_of_at (reached : n.at? turns = some (.arg (.path p))) : n.Mentions p := by
  induction turns generalizing n with
  | nil =>
    cases reached
    exact .path p
  | cons turn rest ih =>
    obtain ⟨n', turned, reached⟩ := Option.bind_eq_some_iff.mp reached
    exact mentions_of_turn turned (ih reached)

/-- The path stands at some position inside. -/
def Reaches (n : Node) (p : Path) : Prop := ∃ turns, n.at? turns = some (.arg (.path p))

theorem Reaches.step (turn : Turn) (reaches : n'.Reaches p) (turned : n.turn? turn = some n') :
    n.Reaches p := by
  obtain ⟨turns, reached⟩ := reaches
  exact ⟨turn :: turns, (at?_of_turn turned).trans reached⟩

theorem reaches_argument {a : Arg} (member : a ∈ n.arguments) (reaches : (arg a).Reaches p) :
    n.Reaches p := by
  obtain ⟨index, listed⟩ := List.getElem?_of_mem member
  have turned : n.turn? (.argument index) = some (.arg a) := by rw [turn?, listed, Option.map_some]
  exact reaches.step _ turned

theorem reaches_hashValue {entry : String × Arg} (member : entry ∈ n.hash)
    (reaches : (arg entry.2).Reaches p) : n.Reaches p := by
  obtain ⟨index, listed⟩ := List.getElem?_of_mem member
  have turned : n.turn? (.hashValue index) = some (.arg entry.2) := by
    rw [turn?, listed, Option.map_some]
  exact reaches.step _ turned

theorem reaches_member {es : List Element} {e : Element} (member : e ∈ es)
    (reaches : (element e).Reaches p) : (elements es).Reaches p := by
  obtain ⟨index, listed⟩ := List.getElem?_of_mem member
  have turned : (elements es).turn? (.member index) = some (.element e) := by
    rw [turn?, member?, listed, Option.map_some]
  exact reaches.step _ turned

theorem reaches_of_argMentions {a : Arg} (inside : a.Mentions p) : (arg a).Reaches p := by
  induction inside with
  | path p => exact ⟨[], rfl⟩
  | name p => exact Reaches.step .name ⟨[], rfl⟩ rfl
  | @argument name p args hash a member _ ih =>
    exact reaches_argument (n := .arg (.call name args hash)) member ih
  | @namedArgument name p args hash key a member _ ih =>
    exact reaches_hashValue (n := .arg (.call name args hash)) member ih

theorem reaches_of_given (given : Arg.AnyMentions n.arguments n.hash p) : n.Reaches p := by
  rcases given with ⟨a, member, inside⟩ | ⟨entry, member, inside⟩
  · exact reaches_argument member (reaches_of_argMentions inside)
  · exact reaches_hashValue member (reaches_of_argMentions inside)

theorem reaches_of_elementMentions {e : Element} (inside : e.Mentions p) :
    (element e).Reaches p := by
  induction inside with
  | name inside => exact (reaches_of_argMentions inside).step .name rfl
  | outputArgument inside => exact reaches_of_given inside
  | blockArgument inside => exact reaches_of_given inside
  | body keeps member _ ih =>
    refine (reaches_member member ih).step .body ?_
    have named := keeps
    simp only [keepsContext, Bool.or_eq_true, beq_iff_eq] at named
    rw [turn?, body?, if_pos named, Option.map_some]
  | inverse member _ ih => exact (reaches_member member ih).step .inverse rfl

theorem reaches_iff_mentions : n.Reaches p ↔ n.Mentions p := by
  constructor
  · rintro ⟨turns, reached⟩
    exact mentions_of_at reached
  · intro inside
    cases n with
    | elements es =>
      obtain ⟨e, member, inside⟩ := inside
      exact reaches_member member (reaches_of_elementMentions inside)
    | element e => exact reaches_of_elementMentions inside
    | arg a => exact reaches_of_argMentions inside

end Node

/-- What stands in a template at the end of some turns. -/
def Template.at? (t : Template) (turns : List Turn) : Option Node := (Node.elements t).at? turns

section Bare

mutual

/-- An argument without its literals, its keys and the names of helpers that are given something. -/
def Arg.bare : Arg → Arg
  | .path p => .path p
  | .literal _ => .literal .null
  | .call name args hash =>
    .call (if args.isEmpty && hash.isEmpty then name else .ofName []) (Arg.listBare args)
      (Arg.hashBare hash)

def Arg.listBare : List Arg → List Arg
  | [] => []
  | a :: rest => a.bare :: Arg.listBare rest

def Arg.hashBare : List (String × Arg) → List (String × Arg)
  | [] => []
  | (_, a) :: rest => ("", a.bare) :: Arg.hashBare rest

end

mutual

/-- What is left of an element: nothing of texts, comments, decorators and partials, a tag without
the name of a helper that is given something, and a block of which only the name counts whether it
is `if` or `unless`, with its body if that is so. -/
def Element.bare : Element → List Element
  | .output _ name args hash _ =>
    [.output ⟨0, 0⟩ (if args.isEmpty && hash.isEmpty then name.bare else .literal .null)
      (Arg.listBare args) (Arg.hashBare hash) false]
  | .block _ name args hash _ body inverse _ =>
    [.block none (if keepsContext name then "if" else "") (Arg.listBare args) (Arg.hashBare hash)
      .none (if keepsContext name then Element.listBare body else []) (Element.inverseBare inverse)
      false]
  | .text _ | .comment | .decorator .. | .partialCall .. => []

def Element.listBare : List Element → List Element
  | [] => []
  | e :: rest => e.bare ++ Element.listBare rest

def Element.inverseBare : Option (List Element) → Option (List Element)
  | none => none
  | some es => some (Element.listBare es)

end

/-- What is left of a template without all that its variables do not come from. -/
def Template.bare (t : Template) : Template := Element.listBare t

namespace Arg

theorem isEmpty_listBare (args : List Arg) : (listBare args).isEmpty = args.isEmpty := by
  cases args <;> rfl

theorem isEmpty_hashBare (hash : List (String × Arg)) : (hashBare hash).isEmpty = hash.isEmpty := by
  cases hash <;> rfl

mutual

theorem variables_bare (a : Arg) : a.bare.variables = a.variables := by
  cases a with
  | path p => rfl
  | literal v => rfl
  | call name args hash =>
    rw [bare, Arg.variables, Arg.variables, isEmpty_listBare, isEmpty_hashBare, listVariables_bare,
      hashVariables_bare]
    split
    · rfl
    · rfl

theorem listVariables_bare (args : List Arg) : listVariables (listBare args) = listVariables args := by
  cases args with
  | nil => rfl
  | cons a rest =>
    rw [listBare, listVariables, listVariables, variables_bare, listVariables_bare]

theorem hashVariables_bare (hash : List (String × Arg)) :
    hashVariables (hashBare hash) = hashVariables hash := by
  rcases hash with _ | ⟨⟨key, a⟩, rest⟩
  · rfl
  · rw [hashBare, hashVariables, hashVariables, variables_bare, hashVariables_bare]

end

end Arg

namespace Element

theorem listVariables_append (es es' : List Element) :
    listVariables (es ++ es') = listVariables es ++ listVariables es' := by
  induction es with
  | nil => rfl
  | cons e rest ih => rw [List.cons_append, listVariables, listVariables, ih, List.append_assoc]

mutual

theorem variables_bare (e : Element) : listVariables e.bare = e.variables := by
  cases e with
  | text | comment | decorator | partialCall => rfl
  | output pos name args hash escaped =>
    rw [bare, listVariables, listVariables, List.append_nil, Element.variables,
      Element.variables, Arg.isEmpty_listBare, Arg.isEmpty_hashBare, Arg.listVariables_bare,
      Arg.hashVariables_bare]
    split
    · exact Arg.variables_bare name
    · rfl
  | block pos name args hash names body inverse leads =>
    have inner := listVariables_bare body
    have other := inverseVariables_bare inverse
    rw [bare, listVariables, listVariables, List.append_nil, Element.variables,
      Element.variables, Arg.listVariables_bare, Arg.hashVariables_bare, other]
    cases keepsContext name with
    | true => simp [keepsContext, inner]
    | false => simp [keepsContext]

theorem listVariables_bare (es : List Element) : listVariables (listBare es) = listVariables es := by
  cases es with
  | nil => rfl
  | cons e rest =>
    rw [listBare, listVariables_append, variables_bare, listVariables_bare, listVariables]

theorem inverseVariables_bare (inverse : Option (List Element)) :
    inverseVariables (inverseBare inverse) = inverseVariables inverse := by
  cases inverse with
  | none => rfl
  | some es =>
    rw [inverseBare, inverseVariables, inverseVariables, listVariables_bare]

end

end Element

theorem Template.variables_bare (t : Template) : t.bare.variables = t.variables := by
  rw [Template.variables, Template.variables, bare, Element.listVariables_bare]

end Bare

/-- The variables are those of the paths at positions, and what is no part of the bare form does not
count. -/
theorem Template.variables_by_positions (t : Template) :
    (∀ v, v ∈ t.variables.toList ↔
      ∃ turns p, t.at? turns = some (.arg (.path p)) ∧ variableOf p.chars = some v) ∧
    ∀ t' : Template, t'.bare = t.bare → t'.variables = t.variables := by
  constructor
  · intro v
    rw [mem_variables_iff]
    constructor
    · rintro ⟨p, inside, listed⟩
      have inside : (Node.elements t).Mentions p := inside
      obtain ⟨turns, reached⟩ := Node.reaches_iff_mentions.mpr inside
      exact ⟨turns, p, reached, Option.mem_toList.mp listed⟩
    · rintro ⟨turns, p, reached, listed⟩
      have inside := Node.reaches_iff_mentions.mp ⟨turns, reached⟩
      exact ⟨p, inside, Option.mem_toList.mpr listed⟩
  · intro t' same
    rw [← t'.variables_bare, same, t.variables_bare]

def listingText : String :=
  "\x7b\x7b! all \x7d\x7dHi \x7b\x7blookup a k=(len b)\x7d\x7d\x7b\x7b#each xs\x7d\x7d\x7b\x7bname\x7d\x7d" ++
    "\x7b\x7belse if c\x7d\x7d\x7b\x7bd\x7d\x7d\x7b\x7b/each\x7d\x7d"

def relistingText : String :=
  "\x7b\x7bgt a j=(not b)\x7d\x7d\x7b\x7b#with xs\x7d\x7d<\x7b\x7bother\x7d\x7d>" ++
    "\x7b\x7belse unless c\x7d\x7d\x7b\x7bd\x7d\x7d!\x7b\x7b/with\x7d\x7d\x7b\x7b> foot e\x7d\x7d"

/-- The path of one plain name. -/
def named (name : String) : Arg := .path (.ofName name.toList)

def listing : Template :=
  [.comment, .text "Hi ",
    .output ⟨1, 14⟩ (named "lookup") [named "a"]
      [("k", .call (.ofName "len".toList) [named "b"] [])] true,
    .block (some ⟨1, 36⟩) "each" [named "xs"] [] .none [.output ⟨1, 48⟩ (named "name") [] [] true]
      (some [.block none "if" [named "c"] [] .none [.output ⟨1, 69⟩ (named "d") [] [] true] none
        false])
      false]

def relisting : Template :=
  [.output ⟨1, 1⟩ (named "gt") [named "a"] [("j", .call (.ofName "not".toList) [named "b"] [])]
      true,
    .block (some ⟨1, 19⟩) "with" [named "xs"] [] .none
      [.text "<", .output ⟨1, 32⟩ (named "other") [] [] true, .text ">"]
      (some [.block none "unless" [named "c"] [] .none
        [.output ⟨1, 59⟩ (named "d") [] [] true, .text "!"] none false])
      false,
    .partialCall ⟨1, 74⟩ (.fixed "foot") [named "e"] [] none "" false]

theorem variables_relisting : Template.parse listingText = .ok listing ∧
    Template.parse relistingText = .ok relisting ∧ relisting.bare = listing.bare ∧
    relisting.variables = listing.variables ∧
    listing.variables.toList = ["a", "b", "c", "d", "xs"] ∧
    ∃ turns p, listing.at? turns = some (.arg (.path p)) ∧ variableOf p.chars = some "d" := by
  have parsed : Template.parse listingText = .ok listing := by cbv
  have reparsed : Template.parse relistingText = .ok relisting := by cbv
  have same : relisting.bare = listing.bare := rfl
  have listed : listing.variables.toList = ["a", "b", "c", "d", "xs"] := by decide +kernel
  obtain ⟨positions, alike⟩ := listing.variables_by_positions
  refine ⟨parsed, reparsed, same, alike relisting same, listed, (positions "d").mp ?_⟩
  rw [listed]
  simp

end Letterbook.Markup
