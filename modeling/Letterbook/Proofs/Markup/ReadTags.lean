import Letterbook.Markup.Token
import Letterbook.Proofs.Markup.Mentions
import Letterbook.Proofs.Markup.PathText

/-! Reading tags. A property of all that a reader can read comes from the readers that it is made
of. So all paths that a tag mentions were read from text, in calls within calls too. -/
namespace Letterbook.Markup

namespace Grammar

variable {α β : Type} {P : α → Prop} {Q : β → Prop} {g h : Grammar α} {c c' : Cursor}

/-- All that the reader can read has the property. -/
def Yields (g : Grammar α) (P : α → Prop) : Prop := ∀ c a c', g c = some (a, c') → P a

theorem yields_true (g : Grammar α) : g.Yields fun _ => True := fun _ _ _ _ => trivial

theorem yields_failure : (failure : Grammar α).Yields P := fun _ _ _ read => nomatch read

theorem yields_pure {a : α} (holds : P a) : (pure a : Grammar α).Yields P := by
  intro c b c' read
  cases read
  exact holds

theorem Yields.bind {f : α → Grammar β} (first : g.Yields P) (next : ∀ a, P a → (f a).Yields Q) :
    (g >>= f).Yields Q := by
  intro c b c' read
  obtain ⟨⟨a, middle⟩, here, there⟩ := Option.bind_eq_some_iff.mp read
  exact next a (first c a middle here) middle b c' there

/-- What is read first does not matter. -/
theorem yields_bind {f : α → Grammar β} (next : ∀ a, (f a).Yields Q) : (g >>= f).Yields Q :=
  (yields_true g).bind fun a _ => next a

theorem Yields.map {f : α → β} (first : g.Yields P) (holds : ∀ a, P a → Q (f a)) :
    (f <$> g).Yields Q := by
  rw [← bind_pure_comp]
  exact first.bind fun a read => yields_pure (holds a read)

theorem Yields.orElse (first : g.Yields P) (second : h.Yields P) : (g <|> h).Yields P := by
  intro c a c' read
  have either : g c = some (a, c') ∨ h c = some (a, c') := by
    have chosen : (g c <|> h c) = some (a, c') := read
    cases here : g c with
    | none => exact .inr (by simpa [here] using chosen)
    | some found => exact .inl (by simpa [here] using chosen)
  rcases either with here | there
  · exact first c a c' here
  · exact second c a c' there

theorem Yields.many (each : g.Yields P) : Yields (many g) fun as => ∀ a ∈ as, P a := by
  intro c as last read
  fun_induction Grammar.many g c generalizing as last with
  | case1 c none =>
    cases read
    simp
  | case2 c a next first shorter ih =>
    obtain ⟨⟨more, behind⟩, others, same⟩ := Option.map_eq_some_iff.mp read
    cases same
    exact List.forall_mem_cons.mpr ⟨each c a next first, ih more _ others⟩
  | case3 c a next first =>
    cases read
    simpa using each c a next first

theorem Yields.braced {opening closing : List Char} (inner : g.Yields P) :
    (braced opening closing g).Yields fun r => P r.2.1 := by
  refine yields_bind fun _ => yields_bind fun _ => yields_bind fun before => yields_bind fun _ => ?_
  refine inner.bind fun a holds => ?_
  refine yields_bind fun _ => yields_bind fun after => yields_bind fun _ => yields_bind fun _ => ?_
  exact yields_pure holds

theorem Yields.signed {sign : List Char} (inner : g.Yields P) : (signed sign g).Yields P :=
  yields_bind fun _ => yields_bind fun _ => inner

end Grammar

/-- All paths that the argument mentions were read. -/
def Arg.WasRead (arg : Arg) : Prop := ∀ p, arg.Mentions p → p.WasRead

/-- All paths that arguments mention were read. -/
def Arg.AllRead (args : List Arg) (hash : List (String × Arg)) : Prop :=
  ∀ p, Arg.AnyMentions args hash p → p.WasRead

namespace Grammar

section Arguments

variable {givens : List Given}

theorem exists_mem_of_mem_named {done : List (String × Arg)} {entry : String × Arg}
    (member : entry ∈ givens.foldl (fun done g => match g.1 with
      | some key => Table.put key g.2 done
      | none => done) done) : entry ∈ done ∨ ∃ g ∈ givens, g.2 = entry.2 := by
  induction givens generalizing done with
  | nil => exact .inl member
  | cons g rest ih =>
    obtain ⟨key, arg⟩ := g
    rcases ih member with before | ⟨g, later, same⟩
    · cases key with
      | none => exact .inl before
      | some key =>
        rcases Table.key_of_mem_put before with rfl | before
        · exact .inr ⟨_, List.mem_cons_self, rfl⟩
        · exact .inl before
    · exact .inr ⟨g, List.mem_cons_of_mem _ later, same⟩

theorem allRead_of_given (read : ∀ g ∈ givens, g.2.WasRead) :
    Arg.AllRead (positional givens) (named givens) := by
  rintro p (⟨arg, member, inside⟩ | ⟨entry, member, inside⟩)
  · obtain ⟨⟨key, arg'⟩, given, kept⟩ := List.mem_filterMap.mp member
    have same : arg' = arg := by
      cases key with
      | none => exact Option.some.inj kept
      | some key => cases kept
    exact read _ given p (same ▸ inside)
  · rcases exists_mem_of_mem_named member with none | ⟨g, given, same⟩
    · cases none
    · exact read g given p (same ▸ inside)

theorem yields_path : path.Yields Path.WasRead := by
  intro c p c' read
  obtain ⟨⟨q, rest⟩, found, same⟩ := Option.map_eq_some_iff.mp read
  cases same
  exact .inl ⟨c.rest, rest, found⟩

theorem wasRead_call {name : Path} {args : List Arg} {hash : List (String × Arg)}
    (named : name.WasRead) (given : Arg.AllRead args hash) :
    (Arg.call name args hash).WasRead := by
  intro p mentions
  rcases Arg.mentions_call.mp mentions with ⟨-, rfl⟩ | inside
  · exact named
  · exact given p inside

theorem allRead_nil : Arg.AllRead [] [] := by
  rintro p (⟨arg, member, -⟩ | ⟨entry, member, -⟩)
  · cases member
  · cases member

theorem wasRead_path {p : Path} (read : p.WasRead) : (Arg.path p).WasRead := by
  intro q mentions
  rw [Arg.mentions_path.mp mentions]
  exact read

/-- By induction on the bound on nesting: each reader calls the others with a smaller bound. -/
theorem yields_args (fuel : Nat) : (arg fuel).Yields Arg.WasRead ∧
    (call fuel).Yields Arg.WasRead ∧ (applied fuel).Yields Arg.WasRead ∧
    (given fuel).Yields fun g => g.2.WasRead := by
  induction fuel with
  | zero => exact ⟨yields_failure, yields_failure, yields_failure, yields_failure⟩
  | succ fuel ih =>
    obtain ⟨ofArg, ofCall, ofApplied, ofGiven⟩ := ih
    refine ⟨?_, ?_, ?_, ?_⟩
    · rw [arg]
      refine yields_bind fun _ => ?_
      refine (Yields.orElse ?_ (Yields.orElse ?_ ofCall))
      · exact (yields_true literal).map fun value _ p mentions => nomatch mentions
      · exact yields_path.map fun p read => wasRead_path read
    · rw [call]
      refine yields_bind fun _ => yields_bind fun _ => ?_
      refine Yields.bind (P := Arg.WasRead) (ofApplied.orElse ?_) fun inner read => ?_
      · exact yields_path.map fun p read => wasRead_call read allRead_nil
      · exact yields_bind fun _ => yields_bind fun _ => yields_pure read
    · rw [applied]
      refine yields_bind fun name => ?_
      refine Yields.bind (Yields.many (yields_bind fun _ => ofGiven)) fun givens read => ?_
      have made : (pure (.call (.ofName name) (positional givens) (named givens)) :
          Grammar Arg).Yields Arg.WasRead :=
        yields_pure (wasRead_call (.inr ⟨name, rfl⟩) (allRead_of_given read))
      split
      · exact yields_bind fun _ => made
      · exact made
    · rw [given]
      refine Yields.orElse ?_ (ofArg.map fun arg read => read)
      refine yields_bind fun key => yields_bind fun _ => yields_bind fun _ => ?_
      refine yields_bind fun _ => ?_
      exact ofArg.bind fun arg read => yields_pure read

end Arguments

/-- All paths that a tag with this phrase mentions were read. -/
def Phrase.WasRead (x : Phrase) : Prop := ∀ p,
  (x.args = [] ∧ x.hash = []) ∧ x.name.Mentions p ∨ Arg.AnyMentions x.args x.hash p → p.WasRead

/-- All paths of the head of a block were read. -/
def Head.WasRead (h : Head) : Prop := Arg.AllRead h.args h.hash

theorem wasRead_alone {name : Arg} (read : name.WasRead) : (⟨name, [], []⟩ : Phrase).WasRead := by
  rintro p (⟨-, inside⟩ | inside)
  · exact read p inside
  · exact allRead_nil p inside

theorem yields_expression : expression.Yields Phrase.WasRead := by
  refine yields_bind fun fuel => ?_
  obtain ⟨-, ofCall, ofApplied, -⟩ := yields_args fuel
  refine Yields.orElse ?_ ?_
  · refine ofApplied.bind fun arg read => ?_
    split
    · refine yields_pure fun p mentions => read p (Arg.mentions_call.mpr ?_)
      simpa only [Arg.mentions_path] using mentions
    · exact yields_pure (wasRead_alone read)
  · refine Yields.bind (P := Arg.WasRead) (ofCall.orElse ?_) fun name read => ?_
    · exact yields_path.map fun p read => wasRead_path read
    · exact yields_pure (wasRead_alone read)

theorem yields_head : head.Yields Head.WasRead := by
  refine yields_bind fun fuel => yields_bind fun name => ?_
  obtain ⟨-, -, -, ofGiven⟩ := yields_args fuel
  refine Yields.bind (Yields.many (yields_bind fun _ => ofGiven)) fun givens read => ?_
  exact yields_bind fun names => yields_pure (allRead_of_given read)

end Grammar

/-- All paths of a tag that prints, and of the head of a helper block, were read. -/
def Mark.WasRead : Mark → Prop
  | .output phrase _ => phrase.WasRead
  | .opening head | .chained head | .rawOpening head => head.WasRead
  | .otherwise | .closing _ | .rawClosing _ | .comment | .decorator _ | .decoratorOpening _
  | .partialCall .. | .partialOpening _ => True

namespace Grammar

theorem yields_elseTag : elseTag.Yields fun r => r.2.1.WasRead := by
  refine Yields.orElse ?_ ?_
  · exact Yields.braced (yields_bind fun _ => yields_pure trivial)
  · refine Yields.braced (yields_bind fun _ => yields_bind fun _ => ?_)
    exact yields_head.map fun head read => read

theorem yields_outputTag : outputTag.Yields fun r => r.2.1.WasRead := by
  refine Yields.orElse ?_ (Yields.orElse ?_ (Yields.orElse ?_ ?_))
  · exact Yields.braced (yields_expression.map fun phrase read => read)
  · exact Yields.braced (yields_expression.map fun phrase read => read)
  · refine Yields.braced (Yields.bind (Yields.signed yields_expression) fun phrase read => ?_)
    exact yields_bind fun _ => yields_bind fun _ => yields_pure read
  · refine Yields.braced (Yields.signed (yields_bind fun fuel => ?_))
    obtain ⟨-, ofCall, -, -⟩ := yields_args fuel
    refine Yields.bind (P := Arg.WasRead) (ofCall.orElse ?_) fun name read => ?_
    · exact yields_path.map fun p read => wasRead_path read
    · exact yields_pure (wasRead_alone read)

theorem yields_blockTag : blockTag.Yields fun r => r.2.1.WasRead := by
  refine Yields.orElse ?_ (Yields.orElse ?_ (Yields.orElse ?_ (Yields.orElse ?_ (Yields.orElse ?_
    (Yields.orElse ?_ ?_)))))
  · exact Yields.braced (Yields.signed (yields_head.map fun head read => read))
  · exact Yields.braced (yields_head.map fun head read => read)
  -- The other tags have no paths that are mentioned.
  · exact Yields.braced (Yields.signed ((yields_true _).map fun _ _ => trivial))
  · exact Yields.braced (Yields.signed (Yields.signed ((yields_true _).map fun _ _ => trivial)))
  · exact Yields.braced (Yields.signed ((yields_true _).map fun _ _ => trivial))
  · exact Yields.braced (Yields.signed (Yields.signed ((yields_true _).map fun _ _ => trivial)))
  · exact Yields.braced (Yields.signed ((yields_true _).map fun _ _ => trivial))

theorem yields_tag : tag.Yields fun r => r.2.1.WasRead := by
  refine yields_elseTag.orElse (yields_outputTag.orElse (yields_blockTag.orElse ?_))
  refine yields_bind fun _ => yields_bind fun _ => yields_bind fun _ => ?_
  exact yields_pure trivial

theorem yields_rawClosingTag : rawClosingTag.Yields fun r => r.2.1.WasRead :=
  Yields.braced (Yields.signed ((yields_true _).map fun _ _ => trivial))

end Grammar
end Letterbook.Markup
