import Letterbook.Proofs.LocaleGrammar
import Letterbook.Proofs.ManifestText

/-! Locales that are written and read again. Whatever was read from a tag comes back from its own tag
and from its JSON; of the locales that are made from any texts, those come back whose texts are words,
and no others. -/
namespace Letterbook.Locale

variable {tag x y : String} {l m : Locale} {c d : Char} {p q : List Char}

/-- The tag of a locale is read as this locale, and so is its JSON, as a value and as a text. -/
structure ReadsBack (l : Locale) : Prop where
  tag : parse l.tag = .ok l
  value : Json.decode decoder l.toJson = .ok l
  text : Json.decodeText decoder l.toJson.compact = .ok l

theorem readsBack_iff : l.ReadsBack ↔ parse l.tag = .ok l := by
  refine ⟨ReadsBack.tag, fun read => ?_⟩
  have decoded : decoder l.toJson.reading = .ok l := decoder_toJson ⟨_, parse_eq_ok_iff.mp read⟩
  have text := Json.readText_compact (Json.numberless_str l.tag)
  refine ⟨read, decoded, ?_⟩
  simp only [Json.decodeText, toJson, text, bind, Except.bind]
  rw [← toJson, decoded]

/-- The locales that come back are those that words spell. -/
theorem parse_tag_iff : parse l.tag = .ok l ↔
    ∃ pieces, (∀ piece ∈ pieces, IsWord piece) ∧ ofSubtags? pieces = some l := by
  constructor
  · intro read
    obtain ⟨pieces, cut⟩ := exists_pieces l.tag
    exact ⟨pieces, (parse?_eq_some_iff_pieces cut).mp (parse_eq_ok_iff.mp read)⟩
  · rintro ⟨pieces, words, given⟩
    have nonempty : pieces ≠ [] := by
      rintro rfl
      contradiction
    have spelled : parse? (String.ofList (Text.join ['-'] pieces)) = some l := by
      rw [← given]
      exact parse?_join nonempty (fun piece member => isSubtag_iff.mpr (words piece member))
        String.toList_ofList
    exact parse_eq_ok_iff.mpr (parse?_tag spelled)

section Words

theorem isAlphanum_of_toLower_eq (same : c.toLower = d.toLower) (named : c.isAlphanum) :
    d.isAlphanum := by
  by_cases upper : d.isUpper
  · simp [Char.isAlphanum, Char.isAlpha, upper]
  · rw [← Char.toLower_eq_of_not_isUpper upper, ← same]
    exact isAlphanum_toLower named

theorem Folds.isWord (folds : Folds p q) (word : IsWord p) : IsWord q := by
  obtain ⟨nonempty, named⟩ := word
  refine ⟨?_, ?_⟩
  · rintro rfl
    exact nonempty (List.map_eq_nil_iff.mp folds)
  · intro d member
    have folded : d.toLower ∈ p.map Char.toLower := folds ▸ List.mem_map_of_mem member
    obtain ⟨c, inside, same⟩ := List.mem_map.mp folded
    exact isAlphanum_of_toLower_eq same (named c inside)

theorem IsWord.lower (word : IsWord p) : IsWord (Text.lower p).toList := by
  have folds : Folds p (Text.lower p).toList := by simp [Folds, Text.lower]
  exact folds.isWord word

theorem IsWord.upper (word : IsWord p) : IsWord (Text.upper p).toList := by
  have folds : Folds p (Text.upper p).toList := by simp [Folds, Text.upper]
  exact folds.isWord word

theorem lower_inj : Text.lower p = Text.lower q ↔ Folds p q := String.ofList_inj

theorem upper_inj : Text.upper p = Text.upper q ↔ Folds p q :=
  String.ofList_inj.trans map_toUpper_inj

theorem parse_tag_ofLanguage_iff :
    parse (ofLanguage x).tag = .ok (ofLanguage x) ↔ IsWord x.toList := by
  rw [parse_tag_iff]
  constructor
  · rintro ⟨pieces, words, given⟩
    match pieces with
    | [] => contradiction
    | [language] =>
      simp only [ofSubtags?, ofLanguage, Option.some.injEq, mk.injEq, and_true, lower_inj] at given
      exact given.isWord (words language List.mem_cons_self)
    | [language, region] | language :: region :: variant :: rest =>
      simp [ofSubtags?, ofLanguage] at given
  · intro word
    exact ⟨[x.toList], by simpa using word, rfl⟩

theorem parse_tag_ofRegion_iff :
    parse (ofRegion x y).tag = .ok (ofRegion x y) ↔ IsWord x.toList ∧ IsWord y.toList := by
  rw [parse_tag_iff]
  constructor
  · rintro ⟨pieces, words, given⟩
    match pieces with
    | [] => contradiction
    | [language, region] =>
      simp only [ofSubtags?, ofRegion, Option.some.injEq, mk.injEq, and_true, lower_inj,
        upper_inj] at given
      obtain ⟨word, word'⟩ : IsWord language ∧ IsWord region := by simpa using words
      exact ⟨given.1.isWord word, given.2.isWord word'⟩
    | [language] | language :: region :: variant :: rest =>
      simp [ofSubtags?, ofRegion] at given
  · intro words
    exact ⟨[x.toList, y.toList], by simpa using words, rfl⟩

theorem isWord_language (read : parse tag = .ok l) : IsWord l.language.toList := by
  obtain ⟨pieces, cut⟩ := exists_pieces tag
  obtain ⟨words, given⟩ := (parse?_eq_some_iff_pieces cut).mp (parse_eq_ok_iff.mp read)
  match pieces with
  | [] => contradiction
  | [language] | [language, region] | language :: region :: variant :: rest =>
    cases given
    exact (words language List.mem_cons_self).lower

end Words

/-- What was read is read again, and so is its language alone; so no two locales that were read have
the same tag. A locale that was made from texts is read again exactly if they are words. -/
theorem reads_back :
    (∀ tag l, parse tag = .ok l → l.ReadsBack ∧ l.languageOnly.ReadsBack) ∧
    (∀ tag tag' l m, parse tag = .ok l → parse tag' = .ok m → l.tag = m.tag → l = m) ∧
    (∀ x, parse (ofLanguage x).tag = .ok (ofLanguage x) ↔ IsWord x.toList) ∧
    ∀ x y, parse (ofRegion x y).tag = .ok (ofRegion x y) ↔ IsWord x.toList ∧ IsWord y.toList := by
  have again {tag : String} {l : Locale} (read : parse tag = .ok l) : parse l.tag = .ok l :=
    parse_eq_ok_iff.mpr (parse?_tag (parse_eq_ok_iff.mp read))
  refine ⟨?_, ?_, fun x => parse_tag_ofLanguage_iff, fun x y => parse_tag_ofRegion_iff⟩
  · intro tag l read
    have language := parse_tag_ofLanguage_iff.mpr (isWord_language read)
    exact ⟨readsBack_iff.mpr (again read), readsBack_iff.mpr language⟩
  · intro tag tag' l m read read' same
    have first := again read
    rw [same, again read', Except.ok.injEq] at first
    exact first.symm

/-- A tag in another spelling, and a region that is no word. -/
theorem reads_back_posix :
    parse "\tEN_us-POSIX " = .ok ⟨"en", some "US", some "POSIX"⟩ ∧
      (⟨"en", some "US", some "POSIX"⟩ : Locale).ReadsBack ∧
      (⟨"en", none, none⟩ : Locale).ReadsBack ∧
      parse (ofRegion "de" "at-1990").tag ≠ .ok (ofRegion "de" "at-1990") := by
  have read : parse "\tEN_us-POSIX " = .ok ⟨"en", some "US", some "POSIX"⟩ := by decide +kernel
  obtain ⟨back, language⟩ := reads_back.1 _ _ read
  refine ⟨read, back, language, fun same => ?_⟩
  obtain ⟨-, -, named⟩ := (reads_back.2.2.2 "de" "at-1990").mp same
  exact absurd (named '-' (by decide)) (by decide)

end Letterbook.Locale
