import Letterbook.Markup.Template
import Letterbook.Proofs.Markup.ReadTags

/-! The paths of a parsed template. Cutting a text into tokens, laying them out and building a tree
changes no path, so every path that the template mentions was read from its text. -/
namespace Letterbook.Markup

namespace Token

/-- All paths of the tag, if the token is one, were read. -/
def WasRead : Token → Prop
  | .text .. => True
  | .tag t => t.mark.WasRead

theorem wasRead_text {held raw : Bool} {s : List Char} :
    ∀ token ∈ (if held then [text raw s] else []), token.WasRead := by
  intro token member
  split at member
  · rw [List.mem_singleton.mp member]
    trivial
  · cases member

theorem wasRead_scan {fuel : Nat} {pos : Position} {raw : Bool} {s : List Char}
    {tokens : List Token} (scanned : scan fuel pos raw s = some tokens) :
    ∀ token ∈ tokens, token.WasRead := by
  induction fuel generalizing pos raw s tokens with
  | zero => cases scanned
  | succ fuel ih =>
    obtain ⟨taken, whole⟩ : ∃ taken, takeText (s.length + 1)
      (if raw then Grammar.four else Grammar.two) s = taken := ⟨_, rfl⟩
    rw [scan, whole] at scanned
    by_cases ended : taken.rest.isEmpty
    · rw [if_pos ended] at scanned
      split at scanned
      · contradiction
      · cases scanned
        exact wasRead_text
    · rw [if_neg ended] at scanned
      obtain ⟨⟨⟨before, mark, after⟩, cursor⟩, read, scanned⟩ := Option.bind_eq_some_iff.mp scanned
      obtain ⟨others, later, same⟩ := Option.bind_eq_some_iff.mp scanned
      cases same
      have marked : mark.WasRead := by
        split at read
        · exact Grammar.yields_rawClosingTag _ _ _ read
        · exact Grammar.yields_tag _ _ _ read
      intro token member
      rcases List.mem_append.mp member with member | member
      · exact wasRead_text token member
      · rcases List.mem_cons.mp member with rfl | member
        · exact marked
        · exact ih later token member

/-- Layout changes texts and indentation, and what a tag mentions is neither. -/
theorem wasRead_placed {before : List Char} {lone : Bool} {t : Tag} (read : t.mark.WasRead) :
    (Layout.placed before lone t).mark.WasRead := by
  unfold Layout.placed
  split
  · exact read
  · unfold Layout.withIndent
    split
    · trivial
    · exact read

theorem wasRead_settle {m : Layout.Margin} {tokens : List Token}
    (read : ∀ token ∈ tokens, token.WasRead) : ∀ token ∈ Layout.settle m tokens, token.WasRead := by
  induction tokens generalizing m with
  | nil => exact read
  | cons token rest ih =>
    obtain ⟨first, others⟩ := List.forall_mem_cons.mp read
    cases token with
    | text raw s =>
      unfold Layout.settle
      dsimp only
      split
      · exact ih others
      · exact List.forall_mem_cons.mpr ⟨trivial, ih others⟩
      · exact List.forall_mem_cons.mpr ⟨trivial, ih others⟩
    | tag t =>
      unfold Layout.settle
      exact List.forall_mem_cons.mpr ⟨wasRead_placed first, ih others⟩

end Token

namespace Assembly

variable {α β : Type} {P : α → Prop} {Q : β → Prop} {g : Assembly α}

/-- From tokens that were read come results with the property, and such tokens are left. -/
def Keeps (g : Assembly α) (P : α → Prop) : Prop := ∀ stock a stock',
  (∀ token ∈ stock.tokens, token.WasRead) → g stock = some (a, stock') →
    P a ∧ ∀ token ∈ stock'.tokens, token.WasRead

theorem keeps_failure : Keeps (failure : Assembly α) P := fun _ _ _ _ made => nomatch made

theorem keeps_pure {a : α} (holds : P a) : Keeps (pure a) P := by
  intro stock b stock' read made
  cases made
  exact ⟨holds, read⟩

theorem Keeps.bind {f : α → Assembly β} (first : Keeps g P) (next : ∀ a, P a → Keeps (f a) Q) :
    Keeps (g >>= f) Q := by
  intro stock b stock' read made
  obtain ⟨⟨a, middle⟩, here, there⟩ := Option.bind_eq_some_iff.mp made
  obtain ⟨holds, left⟩ := first stock a middle read here
  exact next a holds middle b stock' left there

theorem Keeps.map {f : α → β} (first : Keeps g P) (holds : ∀ a, P a → Q (f a)) :
    Keeps (f <$> g) Q := by
  rw [← bind_pure_comp]
  exact first.bind fun a made => keeps_pure (holds a made)

theorem keeps_get {f : Stock → Assembly β}
    (next : ∀ stock, (∀ token ∈ stock.tokens, token.WasRead) → Keeps (f stock) Q) :
    Keeps (get >>= f) Q := fun stock b stock' read made => next stock read stock b stock' read made

theorem keeps_modify {f : Stock → Stock}
    (keeps : ∀ stock, (∀ token ∈ stock.tokens, token.WasRead) →
      ∀ token ∈ (f stock).tokens, token.WasRead) :
    Keeps (modify f) fun _ => True := by
  intro stock a stock' read made
  cases made
  exact ⟨trivial, keeps stock read⟩

theorem keeps_take {t : Tag} {rest : List Token} (others : ∀ token ∈ rest, token.WasRead) :
    Keeps (take t rest) fun _ => True := keeps_modify fun _ _ => others

theorem keeps_allows {p : Char → Bool} {name : List Char} :
    Keeps (allows p name) fun _ => True := by
  unfold allows
  split
  · exact keeps_pure trivial
  · exact keeps_failure

theorem keeps_noted {wrong : Bool} {f : Fault} :
    Keeps (if wrong then note f else pure ()) fun _ => True := by
  split
  · exact keeps_modify fun _ read => read
  · exact keeps_pure trivial

variable {stock : Stock} {t : Tag} {rest : List Token}

theorem forall_mem_of_tokens_eq (tokens : stock.tokens = .tag t :: rest)
    (read : ∀ token ∈ stock.tokens, token.WasRead) :
    t.mark.WasRead ∧ ∀ token ∈ rest, token.WasRead :=
  List.forall_mem_cons.mp (tokens ▸ read)

theorem keeps_closeHelper {opened : String} : Keeps (closeHelper opened) fun _ => True := by
  refine keeps_get fun stock read => ?_
  split
  · next t rest tokens =>
    obtain ⟨-, others⟩ := forall_mem_of_tokens_eq tokens read
    split
    · exact keeps_allows.bind fun _ _ => (keeps_take others).bind fun _ _ => keeps_noted
    · exact keeps_allows.bind fun _ _ => (keeps_take others).bind fun _ _ => keeps_noted
    · exact keeps_failure
  · exact keeps_failure

theorem keeps_closeDecorator {isPartial : Bool} {opened : String} :
    Keeps (closeDecorator isPartial opened) fun _ => True := by
  refine keeps_get fun stock read => ?_
  split
  · next t rest tokens =>
    obtain ⟨-, others⟩ := forall_mem_of_tokens_eq tokens read
    split
    · next name mark =>
      have taken : Keeps (do
          take t rest
          if String.ofList name != "" && String.ofList name != opened then
            note (.mismatch .decorator opened (String.ofList name) t.pos)) fun _ => True :=
        (keeps_take others).bind fun _ _ => keeps_noted
      dsimp only
      split
      · split
        · exact keeps_allows.bind fun _ _ => taken
        · exact taken
      · exact keeps_allows.bind fun _ _ => taken
    · exact keeps_failure
  · exact keeps_failure

/-- All paths that the elements mention were read. -/
def WasRead (es : List Element) : Prop := ∀ e ∈ es, ∀ p, e.Mentions p → p.WasRead

/-- The inverse of a block, if there is one, was read. -/
def InverseRead (inverse : Option (List Element)) : Prop := ∀ es, inverse = some es → WasRead es

theorem wasRead_nil : WasRead [] := List.forall_mem_nil _

theorem wasRead_block {head : Grammar.Head} {body : List Element}
    {inverse : Option (List Element)} (first : head.WasRead) (inner : WasRead body)
    (other : InverseRead inverse) {pos : Option Position} {leads : Bool} : ∀ p, (Element.block pos
      head.name head.args head.hash head.names body inverse leads).Mentions p → p.WasRead := by
  intro p mentions
  rcases Element.mentions_block.mp mentions with
    inside | ⟨-, e, member, inside⟩ | ⟨es, same, e, member, inside⟩
  · exact first p inside
  · exact inner e member p inside
  · exact other es same e member p inside

section Steps

variable {fuel : Nat}

theorem keeps_cons (ofElements : Keeps (elements fuel) WasRead) {e : Element}
    (read : ∀ p, e.Mentions p → p.WasRead) : Keeps ((e :: ·) <$> elements fuel) WasRead :=
  ofElements.map fun _ others => List.forall_mem_cons.mpr ⟨read, others⟩

theorem keeps_block (ofElements : Keeps (elements fuel) WasRead)
    (ofInverse : Keeps (inverse fuel) InverseRead) {head : Grammar.Head} (first : head.WasRead)
    (others : ∀ token ∈ rest, token.WasRead) : Keeps (do
      take t rest
      let body ← elements fuel
      let inverse ← inverse fuel
      closeHelper head.name
      (.block (some t.pos) head.name head.args head.hash head.names body inverse t.leads :: ·)
        <$> elements fuel) WasRead := by
  refine (keeps_take others).bind fun _ _ => ofElements.bind fun body inner => ?_
  refine ofInverse.bind fun inverse other => keeps_closeHelper.bind fun _ _ => ?_
  exact keeps_cons ofElements (wasRead_block first inner other)

theorem keeps_elements_succ (ofElements : Keeps (elements fuel) WasRead)
    (ofInverse : Keeps (inverse fuel) InverseRead) : Keeps (elements (fuel + 1)) WasRead := by
  rw [elements]
  refine keeps_get fun stock read => ?_
  split
  · exact keeps_pure wasRead_nil
  · next raw s rest tokens =>
    obtain ⟨-, others⟩ := List.forall_mem_cons.mp (tokens ▸ read)
    refine (keeps_modify fun _ _ => others).bind fun _ _ => ofElements.bind fun es more => ?_
    apply keeps_pure
    split
    · exact more
    · exact List.forall_mem_cons.mpr ⟨nofun, more⟩
  · next t rest tokens =>
    obtain ⟨marked, others⟩ := forall_mem_of_tokens_eq tokens read
    split
    case h_1 | h_2 | h_3 | h_4 => exact keeps_pure wasRead_nil
    case h_6 phrase escaped mark =>
      rw [mark] at marked
      refine (keeps_take others).bind fun _ _ => keeps_cons ofElements fun p mentions => ?_
      exact marked p (Element.mentions_output.mp mentions)
    case h_7 head mark | h_8 head mark =>
      rw [mark] at marked
      exact keeps_block ofElements ofInverse marked others
    -- Comments, decorators and partials mention nothing.
    case h_5 | h_9 | h_11 => exact (keeps_take others).bind fun _ _ => keeps_cons ofElements nofun
    case h_10 | h_12 =>
      refine (keeps_take others).bind fun _ _ => ofElements.bind fun _ _ => ?_
      exact keeps_closeDecorator.bind fun _ _ => keeps_cons ofElements nofun

theorem keeps_inverse_succ (ofElements : Keeps (elements fuel) WasRead)
    (ofInverse : Keeps (inverse fuel) InverseRead) : Keeps (inverse (fuel + 1)) InverseRead := by
  rw [inverse]
  refine keeps_get fun stock read => ?_
  split
  · next t rest tokens =>
    obtain ⟨marked, others⟩ := forall_mem_of_tokens_eq tokens read
    split
    · next head mark =>
      rw [mark] at marked
      refine (keeps_take others).bind fun _ _ => ofElements.bind fun body inner => ?_
      refine ofInverse.bind fun inverse other => keeps_pure fun es same => ?_
      cases same
      exact List.forall_mem_cons.mpr ⟨wasRead_block marked inner other, wasRead_nil⟩
    · refine (keeps_take others).bind fun _ _ => ofElements.map fun body inner es same => ?_
      cases same
      exact inner
    · exact keeps_pure nofun
  · exact keeps_pure nofun

end Steps

/-- By induction on the bound: elements and inverses are made of each other with a smaller one. -/
theorem keeps_elements (fuel : Nat) :
    Keeps (elements fuel) WasRead ∧ Keeps (inverse fuel) InverseRead := by
  induction fuel with
  | zero => exact ⟨keeps_failure, keeps_failure⟩
  | succ fuel ih =>
    obtain ⟨ofElements, ofInverse⟩ := ih
    exact ⟨keeps_elements_succ ofElements ofInverse, keeps_inverse_succ ofElements ofInverse⟩

end Assembly

/-- Every path that a parsed template mentions was read from its text. -/
theorem Template.wasRead_of_parse {text : String} {t : Template}
    (parsed : Template.parse text = .ok t) {p : Path} (mentions : t.Mentions p) : p.WasRead := by
  rw [parse] at parsed
  split at parsed
  · contradiction
  · next tokens found =>
    rw [ofTokens] at parsed
    split at parsed
    · next es faults made =>
      split at parsed
      · cases parsed
        have read : ∀ token ∈ Token.laidOut tokens, token.WasRead :=
          Token.wasRead_settle (Token.wasRead_scan found)
        obtain ⟨whole, -⟩ := (Assembly.keeps_elements _).1 _ _ _ read made
        obtain ⟨e, member, inside⟩ := mentions
        exact whole e member p inside
      · contradiction
    · contradiction

end Letterbook.Markup
