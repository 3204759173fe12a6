import Letterbook.Table
import Letterbook.Text.Case
import Letterbook.Text.Split

/-! Locale tags: a language with an optional region and variant, such as `en`, `en-US` or
`en-US-POSIX`, and the locales that stand in for a requested one. -/
namespace Letterbook

structure Locale where
  language : String
  region : Option String
  variant : Option String
  deriving DecidableEq, Repr, Inhabited

namespace Locale

/-- The locale of a language, whatever its text. -/
def ofLanguage (language : String) : Locale := ⟨Text.lower language.toList, none, none⟩

/-- The locale of a language in a region, whatever their texts. -/
def ofRegion (language region : String) : Locale :=
  ⟨Text.lower language.toList, some (Text.upper region.toList), none⟩

/-- The locale of a registry that names none. -/
def standard : Locale := ofRegion "en" "US"

def isSeparator (c : Char) : Bool := c == '-' || c == '_'

/-- A subtag: ASCII letters and digits, at least one. -/
def isSubtag (piece : List Char) : Bool := !piece.isEmpty && piece.all Char.isAlphanum

/-- The locale of subtags: language, region, and a variant of all the rest. -/
def ofSubtags? : List (List Char) → Option Locale
  | [] => none
  | [language] => some ⟨Text.lower language, none, none⟩
  | [language, region] => some ⟨Text.lower language, some (Text.upper region), none⟩
  | language :: region :: rest =>
    some ⟨Text.lower language, some (Text.upper region), some (String.ofList (Text.join ['-'] rest))⟩

/-- Reads a tag with white space around it; either separator may stand between its subtags. -/
def parse? (tag : String) : Option Locale :=
  let pieces := Text.split isSeparator (Text.trim tag.toList)
  if pieces.all isSubtag then ofSubtags? pieces else none

/-- The message for a tag that is none, with the tag as it was given. -/
def invalidMessage (tag : String) : String := "Invalid locale: " ++ tag

/-- A text that was given as a tag and is none. -/
structure Invalid where
  tag : String
  deriving DecidableEq, Repr

def Invalid.message (e : Invalid) : String := invalidMessage e.tag

/-- Reads a tag, or hands back the text that is none. -/
def parse (tag : String) : Except Invalid Locale :=
  match parse? tag with
  | some l => .ok l
  | none => .error ⟨tag⟩

/-- The tag of a locale. -/
def tag (l : Locale) : String :=
  String.intercalate "-" (l.language :: (l.region.toList ++ l.variant.toList))

/-- The locale with its language alone. -/
def languageOnly (l : Locale) : Locale := ofLanguage l.language

def isLanguageOnly (l : Locale) : Bool := l.region.isNone && l.variant.isNone

/-- A locale that is there already adds nothing to a chain. -/
def extend (chain : List Locale) (next : Locale) : List Locale :=
  if next ∈ chain then chain else chain ++ [next]

/-- The locales to try for a requested one: itself, its language, the default; each once. -/
def fallbackChain (l fallback : Locale) : List Locale :=
  [l.languageOnly, fallback].foldl extend [l]

/-- Locales are ordered by language, then region, then variant; an absent part comes first. -/
instance : Ord Locale :=
  ⟨compareLex (compareOn language) (compareLex (compareOn region) (compareOn variant))⟩

instance : Std.TransOrd Locale := inferInstanceAs <| Std.TransCmp <|
  compareLex (compareOn language) (compareLex (compareOn region) (compareOn variant))

theorem compare_eq_then (l m : Locale) : compare l m =
    (compare l.language m.language).then
      ((compare l.region m.region).then (compare l.variant m.variant)) := rfl

instance : Std.LawfulEqOrd Locale where
  eq_of_compare {l m} h := by
    obtain ⟨language, region, variant⟩ := l
    obtain ⟨language', region', variant'⟩ := m
    rw [compare_eq_then, Ordering.then_eq_eq, Ordering.then_eq_eq] at h
    obtain ⟨h₁, h₂, h₃⟩ := h
    simp only [Std.LawfulEqOrd.compare_eq_iff_eq] at h₁ h₂ h₃
    rw [h₁, h₂, h₃]

theorem exists_extend_cons (l next : Locale) (chain : List Locale) :
    ∃ rest, extend (l :: chain) next = l :: rest := by
  rw [extend]
  split
  next => exact ⟨chain, rfl⟩
  next => exact ⟨chain ++ [next], rfl⟩

/-- A requested locale is tried first. -/
theorem exists_fallbackChain_cons (l fallback : Locale) :
    ∃ rest, l.fallbackChain fallback = l :: rest := by
  obtain ⟨rest, more⟩ := exists_extend_cons l l.languageOnly []
  rw [fallbackChain, List.foldl_cons, List.foldl_cons, List.foldl_nil, more]
  exact exists_extend_cons l fallback rest

end Locale
end Letterbook
