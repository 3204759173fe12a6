import Letterbook.Markup.Path

/-! Reading paths. What is read is the path as it is written, and it is taken apart as far as its
marks allow: `@root` in front of a separator marks the root and is no block data. -/
namespace Letterbook.Markup

namespace Path

variable {p : Path} {s rest : List Char}

/-- The path without the mark of the current context, as written. -/
def body (p : Path) : List Char :=
  (p.root.map fun sep => rootWord ++ sep.spelling).getD [] ++ (if p.data then ['@'] else []) ++
    p.parents.flatMap (fun sep => ['.', '.'] ++ sep.spelling) ++ p.first.spelling ++
    p.others.flatMap fun (sep, item) => sep.spelling ++ item.spelling

theorem eq_of_separator_read? {sep : Separator} (read : Separator.read? s = some (sep, rest)) :
    s = sep.spelling ++ rest := by
  unfold Separator.read? at read
  split at read
  · cases read
    rfl
  · cases read
    rfl
  · contradiction

theorem eq_of_item_read? {item : Item} (read : Item.read? s = some (item, rest)) :
    s = item.spelling ++ rest := by
  unfold Item.read? at read
  split at read
  · next inner =>
    split at read
    · next closing after found =>
      cases read
      have bracket : closing = ']' := by
        have stopped := List.head?_dropWhile_not (· != ']') inner
        simpa [found] using stopped
      have whole := List.takeWhile_append_dropWhile (p := (· != ']')) (l := inner)
      rw [found, bracket] at whole
      simp [Item.spelling, whole]
    · contradiction
  · split at read
    · contradiction
    · cases read
      exact List.takeWhile_append_dropWhile.symm

theorem eq_of_readParents (s : List Char) :
    s = (readParents s).1.flatMap (fun sep => ['.', '.'] ++ sep.spelling) ++ (readParents s).2 := by
  fun_induction readParents s with
  | case1 rest ps after read ih =>
    rw [read] at ih
    exact congrArg (['.', '.', '.'] ++ ·) ih
  | case2 rest ps after read ih =>
    rw [read] at ih
    exact congrArg (['.', '.', '/'] ++ ·) ih
  | case3 s => rfl

theorem eq_of_readOthers (fuel : Nat) (s : List Char) :
    s = (readOthers fuel s).1.flatMap (fun e => e.1.spelling ++ e.2.spelling) ++
      (readOthers fuel s).2 := by
  fun_induction readOthers fuel s with
  | case1 | case2 | case3 => rfl
  | case4 s fuel sep after found item behind first others rest read ih =>
    rw [read] at ih
    rw [eq_of_separator_read? found, eq_of_item_read? first]
    simp only [List.flatMap_cons, List.append_assoc]
    exact congrArg (sep.spelling ++ ·) (congrArg (item.spelling ++ ·) ih)

theorem eq_of_current_read? {mark : Current} (read : Current.read? s = some (mark, rest)) :
    s = mark.spelling ++ rest := by
  unfold Current.read? at read
  split at read
  · cases read
    rfl
  · cases read
    rfl
  · cases read
    rfl
  · contradiction

theorem eq_of_readRoot? {sep : Separator} (read : readRoot? s = some (sep, rest)) :
    s = rootWord ++ sep.spelling ++ rest := by
  obtain ⟨behind, word, separated⟩ := Option.bind_eq_some_iff.mp read
  rw [Text.strip?_eq_some.mp word, eq_of_separator_read? separated, List.append_assoc]

/-- What is read is the path as written, and only a path without the mark of the root goes on from
its mark of the context with a text that has no such mark. -/
theorem read?_eq_some (read : read? s = some (p, rest)) :
    ∃ behind, s = (p.current.map Current.spelling).getD [] ++ behind ∧ behind = p.body ++ rest ∧
      (p.root = none → readRoot? behind = none) := by
  rw [read?] at read
  -- One step for each mark, in the order of reading.
  split at read
  next current s₁ marked =>
  split at read
  next root s₂ rooted =>
  split at read
  next data s₃ sign =>
  split at read
  next parents s₄ up =>
  split at read
  · contradiction
  next first s₅ found =>
  split at read
  next others s₆ more =>
  cases read
  have context : s = (current.map Current.spelling).getD [] ++ s₁ := by
    split at marked
    · next found =>
      cases marked
      exact eq_of_current_read? found
    · cases marked
      rfl
  have ground : s₁ = (root.map fun sep => rootWord ++ sep.spelling).getD [] ++ s₂ ∧
      (root = none → readRoot? s₁ = none) := by
    split at rooted
    · next found =>
      cases rooted
      exact ⟨eq_of_readRoot? found, nofun⟩
    · next unfound =>
      cases rooted
      exact ⟨rfl, fun _ => unfound⟩
  have kind : s₂ = (if data then ['@'] else []) ++ s₃ := by
    split at sign
    · cases sign
      rfl
    · cases sign
      rfl
  have levels := eq_of_readParents s₃
  have item := eq_of_item_read? found
  have items := eq_of_readOthers s₅.length s₅
  rw [up] at levels
  rw [more] at items
  refine ⟨s₁, context, ?_, ground.2⟩
  rw [ground.1, kind, levels, item, items]
  simp only [body, List.append_assoc]

/-- A path that was read from text, or the name of a call that was. -/
def WasRead (p : Path) : Prop := (∃ s rest, read? s = some (p, rest)) ∨ ∃ s, p = .ofName s

theorem chars_eq_body (p : Path) :
    p.chars = (p.current.map Current.spelling).getD [] ++ p.body := by
  simp only [chars, body, List.append_assoc]

/-- What is written `@root` in front of a separator is the mark of the root. -/
theorem WasRead.chars_ne_marked (read : p.WasRead) (bare : p.current = none)
    (unmarked : p.root = none) (data : p.data = true) (sep : Separator) (behind : List Char) :
    p.chars ≠ rootWord ++ sep.spelling ++ behind := by
  intro same
  rcases read with ⟨s, rest, read⟩ | ⟨s, rfl⟩
  · obtain ⟨body, -, written, unfound⟩ := read?_eq_some read
    have none : readRoot? body = none := unfound unmarked
    have chars : p.chars = p.body := by
      rw [chars_eq_body, bare]
      rfl
    rw [written, ← chars, same] at none
    cases sep with
    | dot => cases none
    | slash => cases none
  · contradiction

end Path
end Letterbook.Markup
