import Mathlib.Data.List.TakeWhile
import Letterbook.Text.Split

/-! Cutting, joining and trimming. A text is cut in one way only, and pieces without separators are
what their joined text is cut into; none of the three brings in a character that was not there, but
for the separators. -/
namespace Letterbook.Text

variable {p : Char → Bool} {c : Char} {s t piece : List Char} {pieces : List (List Char)}

theorem split_of_clean (clean : ∀ c ∈ s, p c = false) : split p s = [s] := by
  induction s with
  | nil => rfl
  | cons c rest ih =>
    obtain ⟨first, later⟩ := List.forall_mem_cons.mp clean
    rw [split, first, ih later]
    rfl

theorem split_append_cut (cut : p c = true) (s t : List Char) :
    split p (s ++ c :: t) = split p s ++ split p t := by
  induction s with
  | nil => simp [split, cut]
  | cons d rest ih =>
    rw [List.cons_append, split, split, ih]
    split
    · rfl
    · obtain ⟨first, later, pieces⟩ := List.exists_cons_of_ne_nil (split_ne_nil p rest)
      rw [pieces]
      rfl

theorem split_append_cons (clean : ∀ c ∈ s, p c = false) (cut : p c = true) :
    split p (s ++ c :: t) = s :: split p t := by
  rw [split_append_cut cut, split_of_clean clean, List.singleton_append]

/-- What stands between the separators of a text. -/
inductive Cut (p : Char → Bool) : List Char → List (List Char) → Prop
  | last {piece : List Char} (clean : ∀ c ∈ piece, p c = false) : Cut p piece [piece]
  | next {piece s : List Char} {c : Char} {pieces : List (List Char)}
    (clean : ∀ c ∈ piece, p c = false) (separates : p c = true) (later : Cut p s pieces) :
    Cut p (piece ++ c :: s) (piece :: pieces)

theorem Cut.consPiece (kept : p c = false) (cut : Cut p s pieces) :
    Cut p (c :: s) (consPiece c pieces) := by
  cases cut with
  | last clean => exact .last (List.forall_mem_cons.mpr ⟨kept, clean⟩)
  | next clean separates later =>
    exact .next (List.forall_mem_cons.mpr ⟨kept, clean⟩) separates later

theorem cut_iff : Cut p s pieces ↔ split p s = pieces := by
  constructor
  · intro cut
    induction cut with
    | last clean => exact split_of_clean clean
    | next clean separates _ ih => rw [split_append_cons clean separates, ih]
  · rintro rfl
    induction s with
    | nil => exact .last (by simp)
    | cons c rest ih =>
      rw [split]
      split
      · next separates =>
        have nothing : ∀ c ∈ ([] : List Char), p c = false := by simp
        exact .next nothing separates ih
      · next kept => exact ih.consPiece (by simpa using kept)

/-- A piece consists of characters of the text, and no separator is among them. -/
theorem of_mem_split (member : piece ∈ split p s) : ∀ c ∈ piece, p c = false ∧ c ∈ s := by
  induction s generalizing piece with
  | nil =>
    obtain rfl := List.mem_singleton.mp member
    simp
  | cons d rest ih =>
    have wider {piece : List Char} (member : piece ∈ split p rest) :
        ∀ c ∈ piece, p c = false ∧ c ∈ d :: rest := by
      intro c inside
      obtain ⟨clean, there⟩ := ih member c inside
      exact ⟨clean, List.mem_cons_of_mem _ there⟩
    rw [split] at member
    split at member
    case isTrue =>
      rcases List.mem_cons.mp member with rfl | member
      · simp
      · exact wider member
    case isFalse keep =>
      obtain ⟨first, later, cut⟩ := List.exists_cons_of_ne_nil (split_ne_nil p rest)
      rw [cut] at member wider
      rcases List.mem_cons.mp member with rfl | member
      · intro c inside
        rcases List.mem_cons.mp inside with rfl | inside
        · exact ⟨by simpa using keep, List.mem_cons_self⟩
        · exact wider List.mem_cons_self c inside
      · exact wider (List.mem_cons_of_mem _ member)

theorem split_join (nonempty : pieces ≠ []) (clean : ∀ piece ∈ pieces, ∀ c ∈ piece, p c = false)
    (cut : p c = true) : split p (join [c] pieces) = pieces := by
  induction pieces with
  | nil => contradiction
  | cons piece rest ih =>
    obtain ⟨first, later⟩ := List.forall_mem_cons.mp clean
    cases rest with
    | nil => exact split_of_clean first
    | cons next rest =>
      rw [join, List.append_assoc, List.singleton_append, split_append_cons first cut,
        ih (by simp) later]
      simp

theorem mem_join {sep : List Char} (member : c ∈ join sep pieces) :
    c ∈ sep ∨ ∃ piece ∈ pieces, c ∈ piece := by
  induction pieces using join.induct with
  | case1 => contradiction
  | case2 piece => exact .inr ⟨piece, List.mem_singleton_self _, member⟩
  | case3 piece rest more ih =>
    rw [join.eq_3 _ _ _ more, List.mem_append, List.mem_append] at member
    rcases member with (here | there) | later
    · exact .inr ⟨piece, List.mem_cons_self, here⟩
    · exact .inl there
    · refine (ih later).imp_right ?_
      rintro ⟨piece, member, inside⟩
      exact ⟨piece, List.mem_cons_of_mem _ member, inside⟩

theorem mem_of_mem_trim (member : c ∈ trim s) : c ∈ s := by
  rw [trim, dropEndWhile, List.mem_reverse] at member
  have kept := (List.dropWhile_suffix _).subset member
  exact (List.dropWhile_suffix _).subset (List.mem_reverse.mp kept)

theorem dropWhile_eq_self (kept : ∀ c, s.head? = some c → p c = false) : s.dropWhile p = s := by
  cases s with
  | nil => rfl
  | cons c rest => exact List.dropWhile_cons_of_neg (by simp [kept c rfl])

theorem head?_dropWhile (first : (s.dropWhile p).head? = some c) : p c = false := by
  have stops := List.head?_dropWhile_not p s
  rwa [first] at stops

theorem dropEndWhile_append_cons (kept : p c = false) (xs ys : List Char) :
    dropEndWhile p (xs ++ c :: ys) = xs ++ c :: dropEndWhile p ys := by
  have front : (c :: xs.reverse).dropWhile p = c :: xs.reverse :=
    List.dropWhile_cons_of_neg (by simp [kept])
  simp only [dropEndWhile, List.reverse_append, List.reverse_cons, List.append_assoc,
    List.singleton_append, List.dropWhile_append, front]
  split
  · next none => simp [List.isEmpty_iff.mp none]
  · simp

/-- Between ends that are kept, trimming takes nothing. -/
theorem trim_append_cons {xs ys : List Char} (kept : isWhite c = false)
    (front : ∀ d, (xs ++ c :: ys).head? = some d → isWhite d = false) :
    trim (xs ++ c :: ys) = xs ++ c :: dropEndWhile isWhite ys := by
  rw [trim, dropWhile_eq_self front, dropEndWhile_append_cons kept]

/-- What is left of a text without the white space at its ends. -/
structure Trimmed (s core : List Char) : Prop where
  around : ∃ before after, s = before ++ core ++ after ∧ ∀ c ∈ before ++ after, isWhite c = true
  first : ∀ c, core.head? = some c → isWhite c = false
  last : ∀ c, core.getLast? = some c → isWhite c = false

theorem trimmed_trim (s : List Char) : Trimmed s (trim s) := by
  have inner := dropEndWhile_append_takeEndWhile isWhite (s.dropWhile isWhite)
  constructor
  case around =>
    refine ⟨s.takeWhile isWhite, takeEndWhile isWhite (s.dropWhile isWhite), ?_, ?_⟩
    · rw [trim, List.append_assoc, inner, List.takeWhile_append_dropWhile]
    · intro c member
      rcases List.mem_append.mp member with front | back
      · exact List.mem_takeWhile_imp front
      · exact List.mem_takeWhile_imp (List.mem_reverse.mp back)
  case first =>
    intro c first
    apply head?_dropWhile (p := isWhite) (s := s)
    rw [← inner, List.head?_append, ← trim, first]
    rfl
  case last =>
    intro c last
    rw [trim, dropEndWhile, List.getLast?_reverse] at last
    exact head?_dropWhile last

theorem Trimmed.trim_eq {core : List Char} (trimmed : Trimmed s core) : trim s = core := by
  obtain ⟨before, after, rfl, white⟩ := trimmed.around
  obtain ⟨front, back⟩ := List.forall_mem_append.mp white
  rcases List.eq_nil_or_concat core with rfl | ⟨inner, c, rfl⟩
  · have all : (before ++ [] ++ after).dropWhile isWhite = [] :=
      List.dropWhile_eq_nil_iff.mpr (by simpa using white)
    rw [trim, all]
    rfl
  · -- Between the white space the text begins and ends with characters that are kept.
    have kept : isWhite c = false := trimmed.last c (by simp)
    have begins : ∀ d, (inner ++ c :: after).head? = some d → isWhite d = false := by
      intro d first
      exact trimmed.first d (by cases inner <;> simpa using first)
    have nothing : dropEndWhile isWhite after = [] := by
      rw [dropEndWhile, List.dropWhile_eq_nil_iff.mpr (by simpa using back), List.reverse_nil]
    have text : before ++ inner.concat c ++ after = before ++ (inner ++ c :: after) := by simp
    rw [text, trim, List.dropWhile_append_of_pos front, dropWhile_eq_self begins,
      dropEndWhile_append_cons kept, nothing, List.concat_eq_append]

theorem trim_of_no_white (none : ∀ c ∈ s, isWhite c = false) : trim s = s := by
  have trimmed : Trimmed s s := by
    refine ⟨⟨[], [], by simp, by simp⟩, ?_, ?_⟩
    · intro c first
      exact none c (List.mem_of_head? first)
    · intro c last
      exact none c (List.mem_of_getLast? last)
  exact trimmed.trim_eq

end Letterbook.Text
