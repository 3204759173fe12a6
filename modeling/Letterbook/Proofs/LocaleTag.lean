import Mathlib
import Letterbook.Locale
import Letterbook.Proofs.Pieces

/-! Tags of locales. What was read from a tag is written in one spelling, and that spelling is read
as the same locale again. -/
namespace Letterbook.Locale

variable {l : Locale} {tag : String} {c : Char} {piece : List Char} {pieces : List (List Char)}

section Subtags

theorem toNat_of_isAlphanum (named : c.isAlphanum) : 0x30 ≤ c.toNat ∧ c.toNat ≤ 0x7a := by
  have value : c.toNat = c.val.toNat := rfl
  simp [Char.isAlphanum, Char.isAlpha, Char.isUpper, Char.isLower, Char.isDigit,
    UInt32.le_iff_toNat_le] at named
  omega

theorem isSeparator_of_isAlphanum (named : c.isAlphanum) : isSeparator c = false := by
  rw [Bool.eq_false_iff]
  intro separates
  have either : c = '-' ∨ c = '_' := by simpa [isSeparator] using separates
  rcases either with rfl | rfl <;> contradiction

theorem isAlphanum_toLower (named : c.isAlphanum) : c.toLower.isAlphanum := by
  by_cases upper : c.isUpper
  · have letter : c.isAlpha := by simp [Char.isAlpha, upper]
    simp [Char.isAlphanum, letter]
  · rwa [Char.toLower_eq_of_not_isUpper upper]

theorem isAlphanum_toUpper (named : c.isAlphanum) : c.toUpper.isAlphanum := by
  by_cases lower : c.isLower
  · have letter : c.isAlpha := by simp [Char.isAlpha, lower]
    simp [Char.isAlphanum, letter]
  · rwa [Char.toUpper_eq_of_not_isLower lower]

/-- A run of ASCII letters and digits, at least one. -/
def IsWord (piece : List Char) : Prop := piece ≠ [] ∧ ∀ c ∈ piece, c.isAlphanum

theorem isSubtag_iff : isSubtag piece ↔ IsWord piece := by
  simp [isSubtag, IsWord]

theorem isSubtag_map {f : Char → Char} (keeps : ∀ c : Char, c.isAlphanum → (f c).isAlphanum)
    (subtag : isSubtag piece) : isSubtag (piece.map f) := by
  obtain ⟨some, named⟩ := isSubtag_iff.mp subtag
  refine isSubtag_iff.mpr ⟨by simpa using some, ?_⟩
  intro c member
  obtain ⟨d, inside, rfl⟩ := List.mem_map.mp member
  exact keeps d (named d inside)

/-- The spelling of subtags: the language in small letters, the region in capitals, the others as
they are. -/
def spelled : List (List Char) → List (List Char)
  | [] => []
  | [language] => [language.map Char.toLower]
  | language :: region :: rest => language.map Char.toLower :: region.map Char.toUpper :: rest

theorem isSubtag_spelled (subtags : ∀ piece ∈ pieces, isSubtag piece) :
    ∀ piece ∈ spelled pieces, isSubtag piece := by
  have lower {piece : List Char} (subtag : isSubtag piece) : isSubtag (piece.map Char.toLower) :=
    isSubtag_map (fun _ => isAlphanum_toLower) subtag
  have upper {piece : List Char} (subtag : isSubtag piece) : isSubtag (piece.map Char.toUpper) :=
    isSubtag_map (fun _ => isAlphanum_toUpper) subtag
  match pieces with
  | [] => simp [spelled]
  | [language] =>
    simp only [List.forall_mem_cons] at subtags
    simpa [spelled] using lower subtags.1
  | language :: region :: rest =>
    simp only [List.forall_mem_cons] at subtags
    simp only [spelled, List.forall_mem_cons]
    exact ⟨lower subtags.1, upper subtags.2.1, subtags.2.2⟩

theorem ofSubtags?_spelled (pieces : List (List Char)) :
    ofSubtags? (spelled pieces) = ofSubtags? pieces := by
  have lower (piece : List Char) : (piece.map Char.toLower).map Char.toLower =
      piece.map Char.toLower := by simp
  have upper (piece : List Char) : (piece.map Char.toUpper).map Char.toUpper =
      piece.map Char.toUpper := by simp
  match pieces with
  | [] | [language] | [language, region] | language :: region :: variant :: rest =>
    simp only [spelled, ofSubtags?, Text.lower, Text.upper, lower, upper]

theorem toList_tag (given : ofSubtags? pieces = some l) :
    l.tag.toList = Text.join ['-'] (spelled pieces) := by
  match pieces with
  | [] => contradiction
  | [language] | [language, region] | language :: region :: variant :: rest =>
    cases given
    simp [tag, spelled, Text.join, Text.lower, Text.upper]

theorem spelled_ne_nil (given : ofSubtags? pieces = some l) : spelled pieces ≠ [] := by
  intro none
  rw [← ofSubtags?_spelled, none] at given
  contradiction

/-- Subtags that are joined by hyphens are cut apart again, since no separator is among them. -/
theorem split_join_subtags (nonempty : pieces ≠ []) (subtags : ∀ piece ∈ pieces, isSubtag piece) :
    Text.split isSeparator (Text.join ['-'] pieces) = pieces := by
  refine Text.split_join nonempty ?_ (by decide)
  intro piece member c inside
  exact isSeparator_of_isAlphanum ((isSubtag_iff.mp (subtags piece member)).2 c inside)

end Subtags

theorem parse?_eq_some_iff : parse? tag = some l ↔
    (∀ piece ∈ Text.split isSeparator (Text.trim tag.toList), isSubtag piece) ∧
      ofSubtags? (Text.split isSeparator (Text.trim tag.toList)) = some l := by
  rw [parse?, Option.ite_none_right_eq_some, List.all_eq_true]

theorem isWhite_of_bounds (low : 0x21 ≤ c.toNat) (high : c.toNat ≤ 0x7e) :
    Text.isWhite c = false := by
  simp only [Text.isWhite, Bool.or_eq_false_iff, Bool.and_eq_false_iff, decide_eq_false_iff_not,
    beq_eq_false_iff_ne]
  omega

/-- Subtags that are joined by hyphens are read as they were, since they hold no white space. -/
theorem parse?_join (nonempty : pieces ≠ []) (subtags : ∀ piece ∈ pieces, isSubtag piece)
    (joined : tag.toList = Text.join ['-'] pieces) : parse? tag = ofSubtags? pieces := by
  have trimmed : Text.trim tag.toList = Text.join ['-'] pieces := by
    rw [joined]
    apply Text.trim_of_no_white
    intro c member
    rcases Text.mem_join member with hyphen | ⟨piece, member, inside⟩
    · obtain rfl := List.mem_singleton.mp hyphen
      decide
    · have named := (isSubtag_iff.mp (subtags piece member)).2 c inside
      obtain ⟨low, high⟩ := toNat_of_isAlphanum named
      exact isWhite_of_bounds (by omega) (by omega)
  rw [parse?, trimmed, split_join_subtags nonempty subtags, if_pos (List.all_eq_true.mpr subtags)]

/-- The tag of a locale that was read from some tag is read as that locale. -/
theorem parse?_tag (parsed : parse? tag = some l) : parse? l.tag = some l := by
  obtain ⟨subtags, given⟩ := parse?_eq_some_iff.mp parsed
  rw [parse?_join (spelled_ne_nil given) (isSubtag_spelled subtags) (toList_tag given),
    ofSubtags?_spelled, given]

example : (parse? "\tEN_us-POSIX ").map Locale.tag = some "en-US-POSIX" := by decide +kernel

theorem mem_tag (parsed : parse? tag = some l) : ∀ c ∈ l.tag.toList, c = '-' ∨ c.isAlphanum := by
  obtain ⟨subtags, given⟩ := parse?_eq_some_iff.mp parsed
  intro c member
  rw [toList_tag given] at member
  rcases Text.mem_join member with hyphen | ⟨piece, member, inside⟩
  · exact .inl (List.mem_singleton.mp hyphen)
  · exact .inr ((isSubtag_iff.mp (isSubtag_spelled subtags piece member)).2 c inside)

end Letterbook.Locale
