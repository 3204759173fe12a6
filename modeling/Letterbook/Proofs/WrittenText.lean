import Mathlib.Data.List.Forall2
import Letterbook.Json.Reading
import Letterbook.Json.Text

/-! Written JSON is read back. Strings come back whatever characters they hold, and so do all values
that are made of truths, strings and null: a reader with enough fuel takes a text that spells a value
and leaves what stands behind it. Both writers spell the value, one without white space and one with
its items and members on lines of their own. -/
namespace Letterbook.Json

open Quoted

section Strings

theorem hexValue?_hexDigit : ∀ n < 16, hexValue? (hexDigit n) = some n := by decide

theorem readUnits_plain {c : Char} (quote : c ≠ '"') (slash : c ≠ '\\') (printed : ¬ c.toNat < 0x20)
    (fuel : Nat) (rest : List Char) (acc : List Nat) :
    readUnits (fuel + 1) (c :: rest) acc = readUnits fuel rest (c.toNat :: acc) := by
  rw [readUnits.eq_def]
  simp only
  split
  · contradiction
  · next same => exact absurd (List.cons.inj same).1 quote
  · next same => exact absurd (List.cons.inj same).1 slash
  · next same => exact absurd (List.cons.inj same).1 slash
  · next same =>
    obtain ⟨rfl, rfl⟩ := List.cons.inj same
    rw [if_neg printed]

theorem readUnits_escapeChar (c : Char) (fuel : Nat) (rest : List Char) (acc : List Nat) :
    readUnits (fuel + 1) (escapeChar c ++ rest) acc = readUnits fuel rest (c.toNat :: acc) := by
  unfold escapeChar
  split
  case h_8 quote slash _ _ _ _ _ =>
    split
    -- A control character is written by its number, with four digits of which two are zero.
    · next control =>
      have high := hexValue?_hexDigit (c.toNat / 16) (by omega)
      have low := hexValue?_hexDigit (c.toNat % 16) (by omega)
      have zero : hexValue? '0' = some 0 := by decide
      have value : ((0 * 16 + 0) * 16 + c.toNat / 16) * 16 + c.toNat % 16 = c.toNat := by omega
      have hex : readHex4 ('0' :: '0' :: hexDigit (c.toNat / 16) ::
          hexDigit (c.toNat % 16) :: rest) = .ok (c.toNat, rest) := by
        simp only [readHex4, zero, high, low, value]
      simp only [List.cons_append, List.nil_append, readUnits, hex]
    · next printed => exact readUnits_plain quote slash printed fuel rest acc
  all_goals rfl

theorem readUnits_flatMap_escapeChar {s : List Char} {fuel : Nat} (enough : s.length < fuel)
    (rest : List Char) (acc : List Nat) :
    readUnits fuel (s.flatMap escapeChar ++ '"' :: rest) acc =
      (acc.reverse ++ s.map Char.toNat, .ok rest) := by
  induction s generalizing fuel acc with
  | nil =>
    obtain ⟨fuel, rfl⟩ := Nat.exists_eq_add_one_of_ne_zero (Nat.ne_zero_of_lt enough)
    simp [readUnits]
  | cons c s ih =>
    rw [List.length_cons] at enough
    obtain ⟨fuel, rfl⟩ := Nat.exists_eq_add_one_of_ne_zero (Nat.ne_zero_of_lt enough)
    rw [List.flatMap_cons, List.append_assoc, readUnits_escapeChar, ih (by omega)]
    simp

theorem length_escapeChar_pos (c : Char) : 0 < (escapeChar c).length := by
  unfold escapeChar
  split
  case h_8 => split <;> exact Nat.succ_pos _
  all_goals exact Nat.succ_pos _

theorem length_le_flatMap_escapeChar (s : List Char) :
    s.length ≤ (s.flatMap escapeChar).length := by
  induction s with
  | nil => exact Nat.le_refl 0
  | cons c s ih =>
    have first := length_escapeChar_pos c
    rw [List.length_cons, List.flatMap_cons, List.length_append]
    omega

/-- No character is half of a surrogate pair, so the units of characters are these characters. -/
theorem charsOfUnits_toNat (s : List Char) : charsOfUnits (s.map Char.toNat) = some s := by
  have whole (c : Char) : isHighHalf c.toNat = false ∧ isLowHalf c.toNat = false := by
    have valid : c.toNat < 0xd800 ∨ 0xdfff < c.toNat ∧ c.toNat < 0x110000 := c.valid
    simp only [isHighHalf, isLowHalf, Bool.and_eq_false_iff, decide_eq_false_iff_not]
    omega
  induction s with
  | nil => rfl
  | cons c rest ih =>
    obtain ⟨high, low⟩ := whole c
    cases rest with
    | nil => simp [charsOfUnits, high, low]
    | cons d rest =>
      rw [List.map_cons] at ih
      simp [charsOfUnits, high, low, ih]

theorem read_flatMap_escapeChar (s : String) (rest : List Char) :
    Quoted.read (s.toList.flatMap escapeChar ++ '"' :: rest) = .ok (some s, rest) := by
  have enough : s.toList.length < (s.toList.flatMap escapeChar ++ '"' :: rest).length + 1 := by
    have shorter := length_le_flatMap_escapeChar s.toList
    rw [List.length_append]
    omega
  have units := readUnits_flatMap_escapeChar enough rest []
  rw [List.reverse_nil, List.nil_append] at units
  simp only [Quoted.read, units, charsOfUnits_toNat, Option.map_some, String.ofList_toList]

theorem toList_quote (s : String) :
    (quote s).toList = '"' :: (s.toList.flatMap escapeChar ++ ['"']) := by
  simp [quote]

end Strings

mutual

/-- The value holds no number. -/
def numberless : Json → Bool
  | .num _ => false
  | .arr items => numberlessItems items
  | .obj members => numberlessMembers members
  | .null | .bool _ | .str _ => true

def numberlessItems : List Json → Bool
  | [] => true
  | item :: rest => item.numberless && numberlessItems rest

def numberlessMembers : List (String × Json) → Bool
  | [] => true
  | (_, value) :: rest => value.numberless && numberlessMembers rest

end

section Numberless

variable {order : MemberOrder} {items : List Json} {members : List (String × Json)}

theorem numberlessItems_iff :
    numberlessItems items = true ↔ ∀ item ∈ items, item.numberless = true := by
  induction items with
  | nil => simp [numberlessItems]
  | cons item rest ih => rw [numberlessItems, Bool.and_eq_true, ih, List.forall_mem_cons]

theorem numberlessMembers_iff :
    numberlessMembers members = true ↔ ∀ m ∈ members, m.2.numberless = true := by
  induction members with
  | nil => simp [numberlessMembers]
  | cons m rest ih => rw [numberlessMembers, Bool.and_eq_true, ih, List.forall_mem_cons]

@[simp] theorem numberless_str (s : String) : (str s).numberless = true := rfl

@[simp] theorem numberless_bool (b : Bool) : (bool b).numberless = true := rfl

theorem numberless_arr {w : α → Json} {values : List α}
    (plain : ∀ a ∈ values, (w a).numberless = true) : (arr (values.map w)).numberless = true := by
  apply numberlessItems_iff.mpr
  intro item member
  obtain ⟨a, listed, rfl⟩ := List.mem_map.mp member
  exact plain a listed

theorem mem_of_mem_foldl_put {done : List (String × Json)} {m : String × Json}
    (member : m ∈ members.foldl (fun done m => Table.put m.1 m.2 done) done) :
    m ∈ done ∨ m ∈ members := by
  induction members generalizing done with
  | nil => exact .inl member
  | cons first rest ih =>
    rcases ih member with placed | later
    · rcases Table.key_of_mem_put placed with rfl | before
      · exact .inr List.mem_cons_self
      · exact .inl before
    · exact .inr (List.mem_cons_of_mem first later)

theorem numberless_record (plain : ∀ m ∈ members, m.2.numberless = true) :
    (record order members).numberless = true := by
  cases order with
  | declared => exact numberlessMembers_iff.mpr plain
  | byName =>
    apply numberlessMembers_iff.mpr
    intro m member
    rcases mem_of_mem_foldl_put member with none | given
    · contradiction
    · exact plain m given

end Numberless

section Spelling

/-- White space, or nothing. -/
def Gap (w : List Char) : Prop := ∀ c ∈ w, Text.isSpace c = true

theorem Gap.nil : Gap [] := by simp [Gap]

theorem Gap.space : Gap [' '] := by simp [Gap, Text.isSpace, Text.isBlank]

theorem Gap.lineBreak : Gap ['\n'] := by simp [Gap, Text.isSpace, Text.isBreak]

theorem Gap.append {w v : List Char} (first : Gap w) (second : Gap v) : Gap (w ++ v) :=
  List.forall_mem_append.mpr ⟨first, second⟩

theorem gap_newLine (level : Nat) : Gap (newLine level).toList := by
  have indented (n : Nat) : Gap ("".pushn ' ' n).toList := by
    induction n with
    | zero => exact .nil
    | succ n ih =>
      have pushed : "".pushn ' ' (n + 1) = ("".pushn ' ' n).push ' ' := rfl
      rw [pushed, String.toList_push]
      exact ih.append .space
  rw [newLine, String.toList_append]
  exact Gap.lineBreak.append (indented _)

mutual

/-- The text spells a value that holds no number. -/
inductive Spells : List Char → Json → Prop
  | null : Spells "null".toList .null
  | bool (b : Bool) : Spells (if b then "true" else "false").toList (.bool b)
  | str (s : String) : Spells (quote s).toList (.str s)
  | noItems : Spells ['[', ']'] (.arr [])
  | items {s : List Char} {items : List Json} (inside : SpellsItems s items) :
    Spells ('[' :: (s ++ [']'])) (.arr items)
  | noMembers : Spells ['\x7b', '\x7d'] (.obj [])
  | members {s : List Char} {members : List (String × Json)} (inside : SpellsMembers s members) :
    Spells ('\x7b' :: (s ++ ['\x7d'])) (.obj members)

/-- The text spells some items of an array, with white space in front of each and behind the last. -/
inductive SpellsItems : List Char → List Json → Prop
  | last {w s v : List Char} {item : Json} (gap : Gap w) (text : Spells s item)
    (behind : Gap v) : SpellsItems (w ++ (s ++ v)) [item]
  | cons {w s more : List Char} {item : Json} {items : List Json} (gap : Gap w)
    (text : Spells s item) (others : SpellsItems more items) :
    SpellsItems (w ++ (s ++ ',' :: more)) (item :: items)

/-- The text spells some members of an object, with white space in front of each, in front of its
value and behind the last. -/
inductive SpellsMembers : List Char → List (String × Json) → Prop
  | last {w u s v : List Char} {key : String} {value : Json} (gap : Gap w) (inner : Gap u)
    (text : Spells s value) (behind : Gap v) :
    SpellsMembers (w ++ ((quote key).toList ++ ':' :: (u ++ (s ++ v)))) [(key, value)]
  | cons {w u s more : List Char} {key : String} {value : Json} {members : List (String × Json)}
    (gap : Gap w) (inner : Gap u) (text : Spells s value) (others : SpellsMembers more members) :
    SpellsMembers (w ++ ((quote key).toList ++ ':' :: (u ++ (s ++ ',' :: more))))
      ((key, value) :: members)

end

end Spelling

section Writing

variable {texts : List String} {items : List Json} {members : List (String × Json)}
  {w v : List Char} {level : Nat}

theorem spellsItems_intercalate
    (spelled : List.Forall₂ (fun text item => Spells text.toList item) texts items)
    (nonempty : texts ≠ []) (gap : Gap w) (behind : Gap v) :
    SpellsItems (w ++ ((',' :: w).intercalate (texts.map String.toList) ++ v)) items := by
  induction spelled with
  | nil => contradiction
  | cons first others ih =>
    cases others with
    | nil => simpa using SpellsItems.last gap first behind
    | cons next more => simpa using SpellsItems.cons gap first (ih (List.cons_ne_nil _ _))

/-- The text spells one member. -/
def SpellsMember (text : String) (m : String × Json) : Prop :=
  ∃ u s, Gap u ∧ Spells s m.2 ∧ text.toList = (quote m.1).toList ++ ':' :: (u ++ s)

theorem spellsMembers_intercalate (spelled : List.Forall₂ SpellsMember texts members)
    (nonempty : texts ≠ []) (gap : Gap w) (behind : Gap v) :
    SpellsMembers (w ++ ((',' :: w).intercalate (texts.map String.toList) ++ v)) members := by
  induction spelled with
  | nil => contradiction
  | cons first others ih =>
    obtain ⟨u, s, inner, text, same⟩ := first
    cases others with
    | nil => simpa [same] using SpellsMembers.last gap inner text behind
    | cons next more =>
      simpa [same] using SpellsMembers.cons gap inner text (ih (List.cons_ne_nil _ _))

mutual

theorem spells_compact {j : Json} (plain : j.numberless = true) : Spells j.compact.toList j := by
  cases j with
  | null => exact .null
  | bool b => exact .bool b
  | num n => simp [numberless] at plain
  | str s => exact .str s
  | arr items =>
    have spelled := spelled_compactItems plain
    cases items with
    | nil => exact .noItems
    | cons item more =>
      have inside := spellsItems_intercalate spelled (List.cons_ne_nil _ _) .nil .nil
      simpa [compact] using Spells.items inside
  | obj members =>
    have spelled := spelled_compactMembers plain
    cases members with
    | nil => exact .noMembers
    | cons m more =>
      have inside := spellsMembers_intercalate spelled (List.cons_ne_nil _ _) .nil .nil
      simpa [compact] using Spells.members inside

theorem spelled_compactItems {items : List Json} (plain : numberlessItems items = true) :
    List.Forall₂ (fun text item => Spells text.toList item) (compactItems items) items := by
  cases items with
  | nil => exact .nil
  | cons item more =>
    obtain ⟨first, others⟩ := Bool.and_eq_true_iff.mp plain
    exact .cons (spells_compact first) (spelled_compactItems others)

theorem spelled_compactMembers {members : List (String × Json)}
    (plain : numberlessMembers members = true) :
    List.Forall₂ SpellsMember (compactMembers members) members := by
  cases members with
  | nil => exact .nil
  | cons m more =>
    obtain ⟨first, others⟩ := Bool.and_eq_true_iff.mp plain
    have member : SpellsMember (quote m.1 ++ ":" ++ compact m.2) m :=
      ⟨[], _, .nil, spells_compact first, by simp⟩
    exact .cons member (spelled_compactMembers others)

end

theorem toList_block (opening closing : String) (nonempty : texts ≠ []) :
    (block level opening closing texts).toList = opening.toList ++
      ((newLine (level + 1)).toList ++
        ((',' :: (newLine (level + 1)).toList).intercalate (texts.map String.toList) ++
          ((newLine level).toList ++ closing.toList))) := by
  have some : texts.isEmpty = false := by simpa using nonempty
  simp [block, some]

mutual

theorem spells_prettyAt (level : Nat) {j : Json} (plain : j.numberless = true) :
    Spells (prettyAt level j).toList j := by
  cases j with
  | null => exact .null
  | bool b => exact .bool b
  | num n => simp [numberless] at plain
  | str s => exact .str s
  | arr items =>
    have spelled := spelled_prettyItems (level + 1) plain
    cases items with
    | nil => simpa [prettyAt, prettyItems, block] using Spells.noItems
    | cons item more =>
      have some : prettyItems (level + 1) (item :: more) ≠ [] := List.cons_ne_nil _ _
      have inside := spellsItems_intercalate spelled some (gap_newLine (level + 1))
        (gap_newLine level)
      have text := Spells.items inside
      rw [List.append_assoc, List.append_assoc] at text
      rw [prettyAt, toList_block _ _ some]
      exact text
  | obj members =>
    have spelled := spelled_prettyMembers (level + 1) plain
    cases members with
    | nil => simpa [prettyAt, prettyMembers, block] using Spells.noMembers
    | cons m more =>
      have some : prettyMembers (level + 1) (m :: more) ≠ [] := List.cons_ne_nil _ _
      have inside := spellsMembers_intercalate spelled some (gap_newLine (level + 1))
        (gap_newLine level)
      have text := Spells.members inside
      rw [List.append_assoc, List.append_assoc] at text
      rw [prettyAt, toList_block _ _ some]
      exact text

theorem spelled_prettyItems (level : Nat) {items : List Json}
    (plain : numberlessItems items = true) :
    List.Forall₂ (fun text item => Spells text.toList item) (prettyItems level items) items := by
  cases items with
  | nil => exact .nil
  | cons item more =>
    obtain ⟨first, others⟩ := Bool.and_eq_true_iff.mp plain
    exact .cons (spells_prettyAt level first) (spelled_prettyItems level others)

theorem spelled_prettyMembers (level : Nat) {members : List (String × Json)}
    (plain : numberlessMembers members = true) :
    List.Forall₂ SpellsMember (prettyMembers level members) members := by
  cases members with
  | nil => exact .nil
  | cons m more =>
    obtain ⟨first, others⟩ := Bool.and_eq_true_iff.mp plain
    have member : SpellsMember (quote m.1 ++ ": " ++ prettyAt level m.2) m :=
      ⟨[' '], _, .space, spells_prettyAt level first, by simp⟩
    exact .cons member (spelled_prettyMembers level others)

end

end Writing

namespace Reading

theorem skipSpace_cons {c : Char} (solid : Text.isSpace c = false) (rest : List Char) :
    Text.skipSpace (c :: rest) = c :: rest := List.dropWhile_cons_of_neg (by simp [solid])

theorem skipSpace_append {w : List Char} (gap : Gap w) (s : List Char) :
    Text.skipSpace (w ++ s) = Text.skipSpace s := List.dropWhile_append_of_pos gap

theorem skipSpace_skipSpace (s : List Char) :
    Text.skipSpace (Text.skipSpace s) = Text.skipSpace s := by
  have passed : Gap (s.takeWhile Text.isSpace) := List.all_eq_true.mp List.all_takeWhile
  have whole : s.takeWhile Text.isSpace ++ Text.skipSpace s = s := List.takeWhile_append_dropWhile
  rw [← skipSpace_append passed, whole]

section Steps

variable {fuel : Nat} {s w more rest : List Char} {item value : Reading} {items : List Reading}
  {members : List (Option String × Reading)}

theorem readValue_skipSpace (fuel : Nat) (s : List Char) :
    readValue fuel (Text.skipSpace s) = readValue fuel s := by
  cases fuel with
  | zero => rfl
  | succ fuel => rw [readValue, readValue, skipSpace_skipSpace]

theorem readValue_append (gap : Gap w) (fuel : Nat) (s : List Char) :
    readValue fuel (w ++ s) = readValue fuel s := by
  rw [← readValue_skipSpace, skipSpace_append gap, readValue_skipSpace]

theorem readItems_skipSpace (fuel : Nat) (s : List Char) :
    readItems fuel (Text.skipSpace s) = readItems fuel s := by
  cases fuel with
  | zero => rfl
  | succ fuel => rw [readItems, readItems, readValue_skipSpace]

theorem readMembers_skipSpace (fuel : Nat) (s : List Char) :
    readMembers fuel (Text.skipSpace s) = readMembers fuel s := by
  cases fuel with
  | zero => rfl
  | succ fuel => rw [readMembers, readMembers, skipSpace_skipSpace]

theorem readValue_quote (fuel : Nat) (s : String) (rest : List Char) :
    readValue (fuel + 1) ((quote s).toList ++ rest) = (.str (some s), .ok rest) := by
  have read := read_flatMap_escapeChar s rest
  rw [toList_quote, List.cons_append, List.append_assoc, List.singleton_append, readValue]
  simp [skipSpace_cons, Text.isSpace, Text.isBlank, Text.isBreak, read]

/-- Nothing is read where the text ends or the array does. -/
theorem readItems_nil (fuel : Nat) : (readItems fuel []).2.1 ≠ none := by
  rcases fuel with _ | _ | fuel
  all_goals simp [readItems, readValue, brokenAt, Text.skipSpace]

theorem readItems_bracket (fuel : Nat) (s : List Char) : (readItems fuel (']' :: s)).2.1 ≠ none := by
  rcases fuel with _ | _ | fuel
  · simp [readItems]
  · simp [readItems, readValue, brokenAt]
  · simp [readItems, readValue, brokenAt, skipSpace_cons, Text.isSpace, Text.isBlank, Text.isBreak]

theorem readMembers_brace (fuel : Nat) (s : List Char) :
    (readMembers fuel ('\x7d' :: s)).2.1 ≠ none := by
  rcases fuel with _ | fuel
  · simp [readMembers]
  · simp [readMembers, skipSpace_cons, Text.isSpace, Text.isBlank, Text.isBreak]

theorem readValue_items (read : readItems fuel s = (items, none, .ok rest)) :
    readValue (fuel + 1) ('[' :: s) = (.arr items none, .ok rest) := by
  have bracket : Text.skipSpace ('[' :: s) = '[' :: s := skipSpace_cons (by decide) _
  rw [← readItems_skipSpace] at read
  rw [readValue]
  simp only [bracket]
  split
  · next tail closed =>
    rw [closed] at read
    exact absurd (congrArg (·.2.1) read) (readItems_bracket fuel tail)
  · next ended =>
    rw [ended] at read
    exact absurd (congrArg (·.2.1) read) (readItems_nil fuel)
  · rw [read]

theorem readValue_members (read : readMembers fuel s = (members, none, .ok rest)) :
    readValue (fuel + 1) ('\x7b' :: s) = (.obj members none, .ok rest) := by
  have brace : Text.skipSpace ('\x7b' :: s) = '\x7b' :: s := skipSpace_cons (by decide) _
  rw [← readMembers_skipSpace] at read
  rw [readValue]
  simp only [brace]
  split
  · next tail closed =>
    rw [closed] at read
    exact absurd (congrArg (·.2.1) read) (readMembers_brace fuel tail)
  · rw [read]

theorem readItems_last (read : readValue fuel s = (item, .ok more))
    (closed : Text.skipSpace more = ']' :: rest) :
    readItems (fuel + 1) s = ([item], none, .ok rest) := by
  rw [readItems]
  simp only [read, closed]

theorem readItems_cons (read : readValue fuel s = (item, .ok (',' :: more)))
    (others : readItems fuel more = (items, none, .ok rest)) :
    readItems (fuel + 1) s = (item :: items, none, .ok rest) := by
  have comma : Text.skipSpace (',' :: more) = ',' :: more := skipSpace_cons (by decide) _
  rw [readItems]
  simp only [read, comma, others]

theorem readMembers_last {key : String} (gap : Gap w)
    (read : readValue fuel s = (value, .ok more)) (closed : Text.skipSpace more = '\x7d' :: rest) :
    readMembers (fuel + 1) (w ++ ((quote key).toList ++ ':' :: s)) =
      ([(some key, value)], none, .ok rest) := by
  have mark (tail : List Char) : Text.skipSpace ('"' :: tail) = '"' :: tail :=
    skipSpace_cons (by decide) _
  have colon : Text.skipSpace (':' :: s) = ':' :: s := skipSpace_cons (by decide) _
  have named := read_flatMap_escapeChar key (':' :: s)
  rw [toList_quote, List.cons_append, List.append_assoc, List.singleton_append, readMembers,
    skipSpace_append gap]
  simp only [mark, named, colon, read, closed]

theorem readMembers_cons {key : String} (gap : Gap w)
    (read : readValue fuel s = (value, .ok (',' :: more)))
    (others : readMembers fuel more = (members, none, .ok rest)) :
    readMembers (fuel + 1) (w ++ ((quote key).toList ++ ':' :: s)) =
      ((some key, value) :: members, none, .ok rest) := by
  have mark (tail : List Char) : Text.skipSpace ('"' :: tail) = '"' :: tail :=
    skipSpace_cons (by decide) _
  have colon : Text.skipSpace (':' :: s) = ':' :: s := skipSpace_cons (by decide) _
  have comma : Text.skipSpace (',' :: more) = ',' :: more := skipSpace_cons (by decide) _
  have named := read_flatMap_escapeChar key (':' :: s)
  rw [toList_quote, List.cons_append, List.append_assoc, List.singleton_append, readMembers,
    skipSpace_append gap]
  simp only [mark, named, colon, read, comma, others]

end Steps

mutual

/-- A value is read back from a text that spells it, whatever follows. -/
theorem readValue_of_spells {s : List Char} {j : Json} (spelled : Spells s j) {fuel : Nat}
    (enough : s.length < fuel) (rest : List Char) :
    readValue fuel (s ++ rest) = (j.reading, .ok rest) := by
  cases fuel with
  | zero => contradiction
  | succ fuel =>
    -- The brackets pay for the level of nesting, so what is left is enough for the parts.
    cases spelled with
    | null => rfl
    | bool b => cases b <;> rfl
    | str s => exact readValue_quote fuel s rest
    | noItems => rfl
    | items inside =>
      simp only [List.length_cons, List.length_append, List.length_nil] at enough
      rw [List.cons_append, List.append_assoc, List.singleton_append]
      exact readValue_items (readItems_of_spells inside (by omega) rest)
    | noMembers => rfl
    | members inside =>
      simp only [List.length_cons, List.length_append, List.length_nil] at enough
      rw [List.cons_append, List.append_assoc, List.singleton_append]
      exact readValue_members (readMembers_of_spells inside (by omega) rest)

theorem readItems_of_spells {s : List Char} {items : List Json} (spelled : SpellsItems s items)
    {fuel : Nat} (enough : s.length + 1 < fuel) (rest : List Char) :
    readItems fuel (s ++ ']' :: rest) = (readingItems items, none, .ok rest) := by
  cases fuel with
  | zero => contradiction
  | succ fuel =>
    cases spelled with
    | last gap text behind =>
      simp only [List.length_append] at enough
      simp only [List.append_assoc]
      have closed := skipSpace_append behind (']' :: rest)
      apply readItems_last _ (closed.trans (skipSpace_cons (by decide) rest))
      rw [readValue_append gap]
      exact readValue_of_spells text (by omega) _
    | cons gap text others =>
      simp only [List.length_append, List.length_cons] at enough
      simp only [List.append_assoc, List.cons_append]
      refine readItems_cons ?_ (readItems_of_spells others (by omega) rest)
      rw [readValue_append gap]
      exact readValue_of_spells text (by omega) _

theorem readMembers_of_spells {s : List Char} {members : List (String × Json)}
    (spelled : SpellsMembers s members) {fuel : Nat} (enough : s.length + 1 < fuel)
    (rest : List Char) :
    readMembers fuel (s ++ '\x7d' :: rest) = (readingMembers members, none, .ok rest) := by
  cases fuel with
  | zero => contradiction
  | succ fuel =>
    cases spelled with
    | last gap inner text behind =>
      simp only [List.length_append, List.length_cons] at enough
      simp only [List.append_assoc, List.cons_append]
      have closed := skipSpace_append behind ('\x7d' :: rest)
      apply readMembers_last gap _ (closed.trans (skipSpace_cons (by decide) rest))
      rw [readValue_append inner]
      exact readValue_of_spells text (by omega) _
    | cons gap inner text others =>
      simp only [List.length_append, List.length_cons] at enough
      simp only [List.append_assoc, List.cons_append]
      refine readMembers_cons gap ?_ (readMembers_of_spells others (by omega) rest)
      rw [readValue_append inner]
      exact readValue_of_spells text (by omega) _

end

end Reading

/-- A text that spells a value is read as that value, with white space behind it. -/
theorem readText_of_spells {text : String} {j : Json} (spelled : Spells text.toList j)
    {behind : String} (gap : Gap behind.toList) : readText (text ++ behind) = (j.reading, none) := by
  have enough : text.toList.length < (text ++ behind).toList.length + 1 := by
    rw [String.toList_append, List.length_append]
    omega
  have read := Reading.readValue_of_spells spelled enough behind.toList
  have passed : Text.skipSpace behind.toList = [] := by
    have skipped := Reading.skipSpace_append gap []
    rwa [List.append_nil] at skipped
  rw [← String.toList_append] at read
  simp only [readText, read, passed]
  rfl

/-- The text of a value without numbers is read as that value, and nothing is left over. -/
theorem readText_compact {j : Json} (plain : j.numberless = true) :
    readText j.compact = (j.reading, none) := by
  have nothing : Gap "".toList := .nil
  have read := readText_of_spells (spells_compact plain) nothing
  rwa [String.append_empty] at read

/-- So is the text that is laid out on lines, with a line break behind it. -/
theorem readText_pretty {j : Json} (plain : j.numberless = true) :
    readText (j.pretty ++ "\n") = (j.reading, none) := by
  exact readText_of_spells (spells_prettyAt 0 plain) Gap.lineBreak

end Letterbook.Json
