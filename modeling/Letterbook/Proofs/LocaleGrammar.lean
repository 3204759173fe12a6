import Letterbook.Proofs.LocaleTag

/-! The grammar of tags. A text without the white space at its ends falls into pieces in one way only,
and it is a tag exactly if all of them are words. Two tags are those of one locale exactly if they have
the same pieces, but for the case of letters in the first two. -/
namespace Letterbook.Locale

variable {s t tag : String} {l m : Locale} {c d : Char} {piece : List Char}
  {pieces ps qs : List (List Char)}

/-- The pieces of a text between hyphens and underscores, without the white space around it. -/
def Pieces (tag : String) (pieces : List (List Char)) : Prop :=
  ∃ core, Text.Trimmed tag.toList core ∧ Text.Cut isSeparator core pieces

/-- The same text but for the case of ASCII letters. -/
def Folds (piece piece' : List Char) : Prop := piece.map Char.toLower = piece'.map Char.toLower

/-- As many pieces, the first two of them up to case and the others without change. -/
structure SamePieces (ps qs : List (List Char)) : Prop where
  count : ps.length = qs.length
  folded : ∀ i < 2, ∀ p q, ps[i]? = some p → qs[i]? = some q → Folds p q
  exact : ∀ i ≥ 2, ps[i]? = qs[i]?

theorem pieces_iff : Pieces tag pieces ↔
    Text.split isSeparator (Text.trim tag.toList) = pieces := by
  constructor
  · rintro ⟨core, trimmed, cut⟩
    rw [trimmed.trim_eq, Text.cut_iff.mp cut]
  · intro cut
    exact ⟨_, Text.trimmed_trim tag.toList, Text.cut_iff.mpr cut⟩

theorem exists_pieces (tag : String) : ∃ pieces, Pieces tag pieces :=
  ⟨_, pieces_iff.mpr rfl⟩

theorem Pieces.ne_nil (cut : Pieces tag pieces) : pieces ≠ [] := by
  rw [← pieces_iff.mp cut]
  exact Text.split_ne_nil _ _

theorem parse_eq_ok_iff : parse tag = .ok l ↔ parse? tag = some l := by
  rw [parse]
  cases parse? tag <;> simp

theorem parse_eq_error_iff {e : Invalid} : parse tag = .error e ↔ parse? tag = none ∧ e = ⟨tag⟩ := by
  rw [parse]
  cases parse? tag <;> simp [eq_comm]

section Acceptance

theorem exists_ofSubtags? (nonempty : pieces ≠ []) : ∃ l, ofSubtags? pieces = some l := by
  match pieces with
  | [] => contradiction
  | [language] | [language, region] | language :: region :: variant :: rest =>
    exact ⟨_, rfl⟩

theorem parse?_eq_some_iff_pieces (cut : Pieces tag pieces) :
    parse? tag = some l ↔ (∀ piece ∈ pieces, IsWord piece) ∧ ofSubtags? pieces = some l := by
  rw [parse?_eq_some_iff, pieces_iff.mp cut]
  simp only [isSubtag_iff]

theorem exists_parse_iff (cut : Pieces tag pieces) :
    (∃ l, parse tag = .ok l) ↔ ∀ piece ∈ pieces, IsWord piece := by
  simp only [parse_eq_ok_iff, parse?_eq_some_iff_pieces cut]
  constructor
  · rintro ⟨l, words, -⟩
    exact words
  · intro words
    obtain ⟨l, given⟩ := exists_ofSubtags? cut.ne_nil
    exact ⟨l, words, given⟩

end Acceptance

section Kernel

theorem toUpper_inj : c.toUpper = d.toUpper ↔ c.toLower = d.toLower := by
  constructor
  · intro same
    rw [← Char.toLower_toUpper_eq_toLower, same, Char.toLower_toUpper_eq_toLower]
  · intro same
    rw [← Char.toUpper_toLower_eq_toUpper, same, Char.toUpper_toLower_eq_toUpper]

theorem map_toUpper_inj {p q : List Char} : p.map Char.toUpper = q.map Char.toUpper ↔ Folds p q := by
  induction p generalizing q with
  | nil => cases q <;> simp [Folds]
  | cons c p ih =>
    cases q with
    | nil => simp [Folds]
    | cons d q => simp only [Folds, List.map_cons, List.cons.injEq, toUpper_inj, ih]

/-- The spelling of the piece at an index. -/
def spelling : Nat → List Char → List Char
  | 0, piece => piece.map Char.toLower
  | 1, piece => piece.map Char.toUpper
  | _ + 2, piece => piece

theorem length_spelled (pieces : List (List Char)) : (spelled pieces).length = pieces.length := by
  match pieces with
  | [] | [language] | language :: region :: rest => rfl

theorem getElem?_spelled (pieces : List (List Char)) (i : Nat) :
    (spelled pieces)[i]? = (pieces[i]?).map (spelling i) := by
  match pieces, i with
  | [], i => simp [spelled]
  | [language], 0 => rfl
  | [language], i + 1 => simp [spelled]
  | language :: region :: rest, 0 => rfl
  | language :: region :: rest, 1 => rfl
  | language :: region :: rest, i + 2 => exact Option.map_id'.symm

theorem spelling_eq_iff {i : Nat} {p q : List Char} :
    spelling i p = spelling i q ↔ if i < 2 then Folds p q else p = q := by
  match i with
  | 0 => exact Iff.rfl
  | 1 => exact map_toUpper_inj
  | i + 2 => simp [spelling]

theorem spelled_eq_iff : spelled ps = spelled qs ↔ SamePieces ps qs := by
  constructor
  · intro same
    have lengths : ps.length = qs.length := by rw [← length_spelled, same, length_spelled]
    have alike (i : Nat) : (ps[i]?).map (spelling i) = (qs[i]?).map (spelling i) := by
      rw [← getElem?_spelled, same, getElem?_spelled]
    refine ⟨lengths, ?_, ?_⟩
    · intro i early p q first second
      have spellings := alike i
      rw [first, second, Option.map_some, Option.map_some, Option.some.injEq] at spellings
      simpa [early] using spelling_eq_iff.mp spellings
    · intro i late
      have unchanged : spelling i = id := by
        match i with
        | i + 2 => rfl
      simpa [unchanged] using alike i
  · intro same
    apply List.ext_getElem?
    intro i
    rw [getElem?_spelled, getElem?_spelled]
    by_cases early : i < 2
    · rcases Nat.lt_or_ge i ps.length with inside | outside
      · have inside' : i < qs.length := same.count ▸ inside
        have folds := same.folded i early _ _ (List.getElem?_eq_getElem inside)
          (List.getElem?_eq_getElem inside')
        rw [List.getElem?_eq_getElem inside, List.getElem?_eq_getElem inside', Option.map_some,
          Option.map_some, spelling_eq_iff.mpr (by simpa [early] using folds)]
      · rw [List.getElem?_eq_none outside, List.getElem?_eq_none (same.count ▸ outside)]
    · rw [same.exact i (by omega)]

/-- The tag of a locale shows the pieces that it was read from, in their spelling. -/
theorem eq_iff_spelled_eq (first : ∀ piece ∈ ps, isSubtag piece)
    (second : ∀ piece ∈ qs, isSubtag piece) (given : ofSubtags? ps = some l)
    (given' : ofSubtags? qs = some m) : l = m ↔ spelled ps = spelled qs := by
  constructor
  · rintro rfl
    have joined : Text.join ['-'] (spelled ps) = Text.join ['-'] (spelled qs) := by
      rw [← toList_tag given, toList_tag given']
    rw [← split_join_subtags (spelled_ne_nil given) (isSubtag_spelled first), joined,
      split_join_subtags (spelled_ne_nil given') (isSubtag_spelled second)]
  · intro same
    rw [← ofSubtags?_spelled, same, ofSubtags?_spelled, given'] at given
    exact (Option.some.inj given).symm

end Kernel

/-- How texts are read as tags: by their pieces alone, and what is no tag is handed back as it was
given. -/
theorem parse_by_pieces (s t : String) : (∃ ps, Pieces s ps) ∧ ∀ ps qs, Pieces s ps → Pieces t qs →
    ((∃ l, parse s = .ok l) ↔ ∀ piece ∈ ps, IsWord piece) ∧
      (∀ e, parse s = .error e → e.tag = s) ∧
      ∀ l m, parse s = .ok l → parse t = .ok m → (l = m ↔ SamePieces ps qs) := by
  refine ⟨exists_pieces s, fun ps qs cut cut' => ⟨exists_parse_iff cut, ?_, ?_⟩⟩
  · intro e refused
    obtain ⟨-, rfl⟩ := parse_eq_error_iff.mp refused
    rfl
  · intro l m read read'
    obtain ⟨words, given⟩ := (parse?_eq_some_iff_pieces cut).mp (parse_eq_ok_iff.mp read)
    obtain ⟨words', given'⟩ := (parse?_eq_some_iff_pieces cut').mp (parse_eq_ok_iff.mp read')
    rw [← spelled_eq_iff]
    exact eq_iff_spelled_eq (fun piece member => isSubtag_iff.mpr (words piece member))
      (fun piece member => isSubtag_iff.mpr (words' piece member)) given given'

/-- Two tags of one locale: other separators and other letters, but the same variant. -/
theorem parse_by_pieces_posix :
    Pieces "EN_us-posix " ["EN".toList, "us".toList, "posix".toList] ∧
      Pieces "en-US_posix" ["en".toList, "US".toList, "posix".toList] ∧
      ∃ l, parse "EN_us-posix " = .ok l ∧ parse "en-US_posix" = .ok l ∧
        SamePieces ["EN".toList, "us".toList, "posix".toList]
          ["en".toList, "US".toList, "posix".toList] := by
  have cut : Pieces "EN_us-posix " ["EN".toList, "us".toList, "posix".toList] :=
    pieces_iff.mpr (by decide +kernel)
  have cut' : Pieces "en-US_posix" ["en".toList, "US".toList, "posix".toList] :=
    pieces_iff.mpr (by decide +kernel)
  have read : parse "EN_us-posix " = .ok ⟨"en", some "US", some "posix"⟩ := by decide +kernel
  have read' : parse "en-US_posix" = .ok ⟨"en", some "US", some "posix"⟩ := by decide +kernel
  obtain ⟨-, -, same⟩ := (parse_by_pieces "EN_us-posix " "en-US_posix").2 _ _ cut cut'
  exact ⟨cut, cut', _, read, read', (same _ _ read read').mp rfl⟩

end Letterbook.Locale
