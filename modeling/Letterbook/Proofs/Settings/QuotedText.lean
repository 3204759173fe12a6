import Letterbook.Settings.Text
import Letterbook.Toml.Quoted

/-! Quoted texts are read back, whatever characters they hold and whichever of the four forms they
take. In long forms the quotes at the end may belong to the text, so a run of them is settled where it
begins: it closes the string only if nothing but quotes is left. -/
namespace Letterbook.Settings

open Toml

/-- A spelling of a character between double quotes: itself, or an escape that joins no lines. -/
inductive Spells (c : Char) : List Char → Prop
  | itself (plain : isPlain c = true) (quote : c ≠ '"') (slash : c ≠ '\\') : Spells c [c]
  | escape {d : Char} {code : List Char} (visible : d ∉ [' ', '\t', '\n', '\r'])
      (reads : ∀ rest, readEscape (d :: (code ++ rest)) = some (c, rest)) : Spells c ('\\' :: d :: code)

section Characters

variable {c : Char} {s : List Char}

theorem readCode_hexDigit (coded : c.toNat < 128) (rest : List Char) :
    readCode 4 ('0' :: '0' :: (hexDigit (c.toNat / 16)).toUpper ::
      (hexDigit (c.toNat % 16)).toUpper :: rest) = some (c, rest) := by
  have digits : ∀ n < 128, natOfDigits 16 ['0', '0', (hexDigit (n / 16)).toUpper,
      (hexDigit (n % 16)).toUpper] = n ∧ isHexDigit (hexDigit (n / 16)).toUpper = true ∧
      isHexDigit (hexDigit (n % 16)).toUpper = true := by decide +kernel
  obtain ⟨value, high, low⟩ := digits c.toNat coded
  have zero : isHexDigit '0' = true := by decide
  have valid : c.toNat.isValidChar := c.valid
  simp [readCode, value, high, low, zero, valid, Char.ofNat_toNat]

theorem spells_escaped {oneLine : Bool} (direct : oneLine = true ∨ c ≠ '"' ∧ c ≠ '\n') :
    Spells c (escaped oneLine c) := by
  unfold escaped
  split
  case h_3 =>
    obtain rfl : oneLine = true := by simpa using direct
    exact .escape (by decide) fun _ => rfl
  case h_4 =>
    obtain rfl : oneLine = true := by simpa using direct
    exact .escape (by decide) fun _ => rfl
  case h_8 slash tab feed quote _ _ _ =>
    split
    · next coded =>
      have small : c.toNat < 128 := by
        simp only [needsCode, Bool.or_eq_true, Bool.and_eq_true, decide_eq_true_eq,
          beq_iff_eq] at coded
        omega
      exact .escape (by decide) (readCode_hexDigit small)
    · next printed =>
      refine .itself ?_ quote slash
      simp only [needsCode, Bool.or_eq_true, Bool.and_eq_true, decide_eq_true_eq, bne_iff_ne,
        beq_iff_eq] at printed
      simp only [isPlain, Bool.or_eq_true, Bool.and_eq_true, decide_eq_true_eq, bne_iff_ne,
        beq_iff_eq]
      grind
  all_goals exact .escape (by decide) fun _ => rfl

theorem Spells.head_ne {w : List Char} (spells : Spells c w) (t : List Char) :
    (w ++ t).head? ≠ some '"' := by
  cases spells with
  | itself _ quote => simpa using quote
  | escape => simp

theorem Spells.length_pos {w : List Char} (spells : Spells c w) : 0 < w.length := by
  cases spells <;> simp

/-- A text without codes has only characters that stand as they are, and line feeds. -/
theorem isPlain_of_not_needsCode (coded : s.any needsCode = false) (member : c ∈ s) :
    c = '\n' ∨ isPlain c = true := by
  have printed := List.any_eq_false.mp coded c member
  simp only [needsCode, Bool.or_eq_true, Bool.and_eq_true, decide_eq_true_eq, bne_iff_ne,
    beq_iff_eq] at printed
  simp only [isPlain, Bool.or_eq_true, Bool.and_eq_true, decide_eq_true_eq, bne_iff_ne, beq_iff_eq]
  grind

end Characters

section OneLine

variable {c : Char} {s w : List Char}

theorem readBasic_spelled (spells : Spells c w) (fuel : Nat) (rest acc : List Char) :
    readBasic (fuel + 1) (w ++ rest) acc = readBasic fuel rest (c :: acc) := by
  cases spells with
  | itself plain quote slash =>
    rw [List.singleton_append, readBasic.eq_def]
    simp only
    rw [if_pos plain]
  | escape _ reads => simp only [List.cons_append, readBasic, reads]

theorem readBasic_escaped {fuel : Nat} (enough : s.length < fuel) (rest acc : List Char) :
    readBasic fuel (s.flatMap (escaped true) ++ '"' :: rest) acc = some (acc.reverse ++ s, rest) := by
  induction s generalizing fuel acc with
  | nil =>
    obtain ⟨fuel, rfl⟩ := Nat.exists_eq_add_one_of_ne_zero (Nat.ne_zero_of_lt enough)
    simp [readBasic]
  | cons c s ih =>
    rw [List.length_cons] at enough
    obtain ⟨fuel, rfl⟩ := Nat.exists_eq_add_one_of_ne_zero (Nat.ne_zero_of_lt enough)
    rw [List.flatMap_cons, List.append_assoc, readBasic_spelled (spells_escaped (.inl rfl)),
      ih (by omega)]
    simp

theorem length_le_flatMap_escaped (s : List Char) :
    s.length ≤ (s.flatMap (escaped true)).length := by
  induction s with
  | nil => exact Nat.le_refl 0
  | cons c s ih =>
    have first := (spells_escaped (c := c) (.inl rfl)).length_pos
    rw [List.length_cons, List.flatMap_cons, List.length_append]
    omega

theorem readLiteral_eq (plain : ∀ c ∈ s, isPlain c = true) (quote : '\'' ∉ s) (rest : List Char) :
    readLiteral (s ++ '\'' :: rest) = some (s, rest) := by
  induction s with
  | nil => rfl
  | cons c s ih =>
    obtain ⟨first, later⟩ := List.forall_mem_cons.mp plain
    rw [List.mem_cons, not_or] at quote
    obtain ⟨different, absent⟩ := quote
    rw [List.cons_append, readLiteral, if_pos first, ih later absent]
    · rfl
    · exact fun same => different same.symm

end OneLine

section Runs

variable {c d : Char} {s : List Char} {k : Nat}

theorem exists_replicate_append (c : Char) (s : List Char) :
    ∃ k rest, s = List.replicate k c ++ rest ∧ rest.head? ≠ some c := by
  induction s with
  | nil => exact ⟨0, [], rfl, nofun⟩
  | cons d s ih =>
    by_cases same : d = c
    · obtain ⟨k, rest, rfl, other⟩ := ih
      exact ⟨k + 1, rest, by rw [same, List.replicate_succ, List.cons_append], other⟩
    · exact ⟨0, d :: s, rfl, by simpa using same⟩

theorem takeWhile_replicate_append (other : s.head? ≠ some c) :
    (List.replicate k c ++ s).takeWhile (· == c) = List.replicate k c := by
  have ends : s.takeWhile (· == c) = [] := by
    cases s with
    | nil => rfl
    | cons d s => exact List.takeWhile_cons_of_neg (by simpa using other)
  rw [List.takeWhile_append_of_pos (by simp), ends, List.append_nil]

theorem closing?_of_lt (few : k < 3) (other : s.head? ≠ some c) :
    closing? c (List.replicate k c ++ s) = none := by
  rw [closing?, takeWhile_replicate_append other, List.length_replicate]
  exact if_pos few

/-- Up to two quotes in front of the closing three belong to the text. -/
theorem closing?_of_le (few : k ≤ 2) (other : s.head? ≠ some c) :
    closing? c (List.replicate k c ++ c :: c :: c :: s) = some (List.replicate k c, s) := by
  have whole : List.replicate k c ++ c :: c :: c :: s = List.replicate (k + 3) c ++ s := by
    rw [← List.replicate_append_replicate, List.append_assoc]
    rfl
  have inside : min (k + 3 - 3) 2 = k := by omega
  rw [whole, closing?, takeWhile_replicate_append other, List.length_replicate,
    if_neg (by omega), inside]
  simp

theorem le_longestRun (run : Nat) (s : List Char) : run ≤ longestRun c run s := by
  induction s generalizing run with
  | nil => exact Nat.le_refl run
  | cons d s ih =>
    have longer := ih (run + 1)
    rw [longestRun]
    split
    · omega
    · exact Nat.le_max_left ..

theorem le_longestRun_replicate (run : Nat) (s : List Char) :
    run + k ≤ longestRun c run (List.replicate k c ++ s) := by
  induction k generalizing run with
  | zero => exact le_longestRun run s
  | succ k ih =>
    have longer := ih (run + 1)
    rw [List.replicate_succ, List.cons_append, longestRun, if_pos (by simp)]
    omega

theorem longestRun_mono {run more : Nat} (fewer : run ≤ more) (s : List Char) :
    longestRun c run s ≤ longestRun c more s := by
  induction s generalizing run more with
  | nil => exact fewer
  | cons d s ih =>
    rw [longestRun, longestRun]
    split
    · exact ih (by omega)
    · omega

/-- Behind the first character the longest run is no longer. -/
theorem longestRun_tail_le (s : List Char) : longestRun c 0 s ≤ longestRun c 0 (d :: s) := by
  rw [longestRun]
  split
  · exact longestRun_mono (Nat.zero_le 1) s
  · exact Nat.le_max_right ..

theorem longestRun_pos (member : c ∈ s) : 0 < longestRun c 0 s := by
  induction s with
  | nil => contradiction
  | cons d s ih =>
    rcases List.mem_cons.mp member with rfl | later
    · have one := le_longestRun_replicate (c := c) (k := 1) 0 s
      exact one
    · have shorter := longestRun_tail_le (c := c) (d := d) s
      have found := ih later
      omega

end Runs

section SeveralLines

variable {c : Char} {s w t : List Char}

theorem newline?_of_ne (feed : c ≠ '\n') (carriage : c ≠ '\r') (s : List Char) :
    newline? (c :: s) = none := by
  unfold newline?
  split
  · next same => exact absurd (List.cons.inj same).1 feed
  · next same => exact absurd (List.cons.inj same).1 carriage
  · rfl

theorem newline?_of_isPlain (plain : isPlain c = true) (s : List Char) :
    newline? (c :: s) = none := by
  refine newline?_of_ne ?_ ?_ s
  · rintro rfl
    contradiction
  · rintro rfl
    contradiction

theorem Spells.newline?_eq_none (spells : Spells c w) (t : List Char) : newline? (w ++ t) = none := by
  cases spells with
  | itself plain => exact newline?_of_isPlain plain t
  | escape => exact newline?_of_isPlain (by decide) _

theorem readBasicLines_plain (plain : isPlain c = true) (slash : c ≠ '\\')
    (inside : closing? '"' (c :: t) = none) (fuel : Nat) (acc : List Char) :
    readBasicLines (fuel + 1) (c :: t) acc = readBasicLines fuel t (c :: acc) := by
  rw [readBasicLines.eq_def]
  simp only [inside, newline?_of_isPlain plain]
  rw [if_pos plain]

theorem readBasicLines_spelled (spells : Spells c w) (fuel : Nat) (t acc : List Char) :
    readBasicLines (fuel + 1) (w ++ t) acc = readBasicLines fuel t (c :: acc) := by
  have inside : closing? '"' (w ++ t) = none := by
    exact closing?_of_lt (k := 0) (by decide) (spells.head_ne t)
  cases spells with
  | itself plain _ slash => exact readBasicLines_plain plain slash inside fuel acc
  | @escape d code visible reads =>
    have stays : joinLines? (d :: (code ++ t)) = none := by
      simp only [List.mem_cons, List.not_mem_nil, or_false, not_or] at visible
      obtain ⟨space, tab, feed, carriage⟩ := visible
      rw [joinLines?, List.dropWhile_cons_of_neg (by simp [Text.isBlank, space, tab]),
        newline?_of_ne feed carriage]
      rfl
    have slash : newline? ('\\' :: d :: (code ++ t)) = none := newline?_of_isPlain (by decide) _
    simp only [List.cons_append, readBasicLines] at *
    simp only [inside, slash, stays, reads]

theorem readBasicLines_closed {quotes rest : List Char} (ends : closing? '"' t = some (quotes, rest))
    (fuel : Nat) (acc : List Char) :
    readBasicLines (fuel + 1) t acc = some (acc.reverse ++ quotes, rest) := by
  rw [readBasicLines.eq_def]
  simp only [ends]

theorem readBasicLines_feed (fuel : Nat) (t acc : List Char) :
    readBasicLines (fuel + 1) ('\n' :: t) acc = readBasicLines fuel t ('\n' :: acc) := by
  have inside : closing? '"' ('\n' :: t) = none := closing?_of_lt (k := 0) (by decide) (by simp)
  rw [readBasicLines.eq_def]
  simp only [inside, newline?]

theorem escapedLines_of_ne (quote : c ≠ '"') (q : Nat) (s : List Char) :
    escapedLines q (c :: s) = escaped false c ++ escapedLines 0 s := by
  rw [escapedLines]
  exact quote

/-- The quotes in front of a written text close nothing, unless they are the whole text. -/
theorem escapedLines_front {q : Nat} (short : q ≤ 2) (s : List Char) :
    (∃ k, q + k ≤ 2 ∧ s = List.replicate k '"' ∧ escapedLines q s = s) ∨
      ∃ k t, q + k ≤ 2 ∧ (∀ rest, (t ++ rest).head? ≠ some '"') ∧
        escapedLines q s = List.replicate k '"' ++ t := by
  induction s generalizing q with
  | nil => exact .inl ⟨0, short, rfl, rfl⟩
  | cons c s ih =>
    by_cases quote : c = '"'
    · subst quote
      rw [escapedLines]
      by_cases full : q = 2
      · rw [if_pos full]
        exact .inr ⟨0, '\\' :: '"' :: escapedLines 0 s, short, by simp, rfl⟩
      · rw [if_neg full]
        rcases ih (q := q + 1) (by omega) with ⟨k, few, rfl, same⟩ | ⟨k, t, few, other, same⟩
        · exact .inl ⟨k + 1, by omega, rfl, by rw [same]⟩
        · exact .inr ⟨k + 1, t, by omega, other, by rw [same]; rfl⟩
    · rw [escapedLines_of_ne quote]
      refine .inr ⟨0, escaped false c ++ escapedLines 0 s, short, fun rest => ?_, rfl⟩
      rw [List.append_assoc]
      by_cases feed : c = '\n'
      · subst feed
        simp [escaped]
      · exact (spells_escaped (.inr ⟨quote, feed⟩)).head_ne _

theorem readBasicLines_escapedLines {q fuel : Nat} (short : q ≤ 2) (enough : s.length < fuel)
    {rest : List Char} (other : rest.head? ≠ some '"') (acc : List Char) :
    readBasicLines fuel (escapedLines q s ++ '"' :: '"' :: '"' :: rest) acc =
      some (acc.reverse ++ s, rest) := by
  induction s generalizing q fuel acc with
  | nil =>
    obtain ⟨fuel, rfl⟩ := Nat.exists_eq_add_one_of_ne_zero (Nat.ne_zero_of_lt enough)
    exact readBasicLines_closed (closing?_of_le (k := 0) (by decide) other) fuel acc
  | cons c s ih =>
    obtain ⟨fuel, rfl⟩ := Nat.exists_eq_add_one_of_ne_zero (Nat.ne_zero_of_lt enough)
    rw [List.length_cons] at enough
    -- Quotes that are all that is left run into the closing three, which is read at once.
    rcases escapedLines_front short (c :: s) with ⟨k, few, whole, same⟩ | ⟨k, t, few, open', same⟩
    · rw [same, whole]
      exact readBasicLines_closed (closing?_of_le (by omega) other) fuel acc
    · have inside : closing? '"' (escapedLines q (c :: s) ++ '"' :: '"' :: '"' :: rest) = none := by
        rw [same, List.append_assoc]
        exact closing?_of_lt (by omega) (open' _)
      by_cases quote : c = '"'
      · subst quote
        rw [escapedLines] at inside ⊢
        by_cases full : q = 2
        · have spells : Spells '"' ['\\', '"'] := .escape (by decide) fun _ => rfl
          rw [if_pos full]
          change readBasicLines (fuel + 1) (['\\', '"'] ++ (escapedLines 0 s ++ _)) acc = _
          rw [readBasicLines_spelled spells, ih (by omega) (by omega)]
          simp
        · rw [if_neg full, List.cons_append] at inside ⊢
          rw [readBasicLines_plain (by decide) (by decide) inside, ih (by omega) (by omega)]
          simp
      · rw [escapedLines_of_ne quote, List.append_assoc]
        by_cases feed : c = '\n'
        · subst feed
          change readBasicLines (fuel + 1) ('\n' :: (escapedLines 0 s ++ _)) acc = _
          rw [readBasicLines_feed, ih (by omega) (by omega)]
          simp
        · rw [readBasicLines_spelled (spells_escaped (.inr ⟨quote, feed⟩)),
            ih (by omega) (by omega)]
          simp

theorem readLiteralLines_closed {quotes rest : List Char}
    (ends : closing? '\'' t = some (quotes, rest)) (fuel : Nat) (acc : List Char) :
    readLiteralLines (fuel + 1) t acc = some (acc.reverse ++ quotes, rest) := by
  rw [readLiteralLines.eq_def]
  simp only [ends]

theorem readLiteralLines_cons (plain : c = '\n' ∨ isPlain c = true)
    (inside : closing? '\'' (c :: t) = none) (fuel : Nat) (acc : List Char) :
    readLiteralLines (fuel + 1) (c :: t) acc = readLiteralLines fuel t (c :: acc) := by
  rw [readLiteralLines.eq_def]
  rcases plain with rfl | plain
  · simp only [inside, newline?]
  · simp only [inside, newline?_of_isPlain plain]
    rw [if_pos plain]

theorem readLiteralLines_eq (plain : ∀ c ∈ s, c = '\n' ∨ isPlain c = true)
    (short : longestRun '\'' 0 s ≤ 2) {fuel : Nat} (enough : s.length < fuel) {rest : List Char}
    (other : rest.head? ≠ some '\'') (acc : List Char) :
    readLiteralLines fuel (s ++ '\'' :: '\'' :: '\'' :: rest) acc =
      some (acc.reverse ++ s, rest) := by
  induction s generalizing fuel acc with
  | nil =>
    obtain ⟨fuel, rfl⟩ := Nat.exists_eq_add_one_of_ne_zero (Nat.ne_zero_of_lt enough)
    exact readLiteralLines_closed (closing?_of_le (k := 0) (by decide) other) fuel acc
  | cons c s ih =>
    obtain ⟨fuel, rfl⟩ := Nat.exists_eq_add_one_of_ne_zero (Nat.ne_zero_of_lt enough)
    rw [List.length_cons] at enough
    obtain ⟨first, later⟩ := List.forall_mem_cons.mp plain
    obtain ⟨k, more, whole, ends⟩ := exists_replicate_append '\'' (c :: s)
    have few : 0 + k ≤ 2 := Nat.le_trans (whole ▸ le_longestRun_replicate 0 more) short
    -- The text ends here if the run of quotes in front is the whole of it.
    cases more with
    | nil =>
      rw [whole, List.append_nil]
      exact readLiteralLines_closed (closing?_of_le (by omega) other) fuel acc
    | cons d more =>
      have inside : closing? '\'' (c :: s ++ '\'' :: '\'' :: '\'' :: rest) = none := by
        rw [whole, List.append_assoc]
        exact closing?_of_lt (by omega) (by simpa using ends)
      have shorter : longestRun '\'' 0 s ≤ 2 := Nat.le_trans (longestRun_tail_le s) short
      rw [List.cons_append] at inside ⊢
      rw [readLiteralLines_cons first inside, ih later shorter (by omega)]
      simp

end SeveralLines

section Forms

variable {s rest : List Char}

theorem quotingOf_eq_literal (form : quotingOf s = .literal) :
    s.any needsCode = false ∧ '\n' ∉ s ∧ '\'' ∉ s := by
  have absent : longestRun '\'' 0 s = 0 → '\'' ∉ s := by
    intro none member
    have some := longestRun_pos member
    omega
  unfold quotingOf at form
  grind

theorem quotingOf_eq_longLiteral (form : quotingOf s = .longLiteral) :
    s.any needsCode = false ∧ longestRun '\'' 0 s ≤ 2 := by
  unfold quotingOf at form
  grind

/-- Fewer than three opening quotes begin a string on one line. -/
theorem readString_eq_readLine {q : Char} (quote : q = '"' ∨ q = '\'') (short : ∀ t, s ≠ q :: q :: t) :
    readString (q :: s) = readLine (q :: s) := by
  unfold readString
  split
  · next same =>
    obtain ⟨rfl, more⟩ := List.cons.inj same
    exact absurd more (short _)
  · next same =>
    obtain ⟨rfl, more⟩ := List.cons.inj same
    exact absurd more (short _)
  · rfl

theorem readString_basic (double : rest.head? ≠ some '"') :
    readString ('"' :: (s.flatMap (escaped true) ++ '"' :: rest)) =
      some (String.ofList s, rest) := by
  have short : ∀ t, s.flatMap (escaped true) ++ '"' :: rest ≠ '"' :: '"' :: t := by
    rintro t same
    cases s with
    | nil => exact double (by simp [(List.cons.inj same).2])
    | cons c s =>
      have other := (spells_escaped (c := c) (.inl rfl)).head_ne (s.flatMap (escaped true) ++ '"' :: rest)
      rw [List.flatMap_cons, List.append_assoc] at same
      exact other (by rw [same]; rfl)
  have enough : s.length < (s.flatMap (escaped true) ++ '"' :: rest).length + 1 := by
    have shorter := length_le_flatMap_escaped s
    rw [List.length_append]
    omega
  rw [readString_eq_readLine (.inl rfl) short, readLine, readBasic_escaped enough]
  rfl

theorem readString_literal (plain : ∀ c ∈ s, isPlain c = true) (quote : '\'' ∉ s)
    (single : rest.head? ≠ some '\'') :
    readString ('\'' :: (s ++ '\'' :: rest)) = some (String.ofList s, rest) := by
  have short : ∀ t, s ++ '\'' :: rest ≠ '\'' :: '\'' :: t := by
    rintro t same
    cases s with
    | nil => exact single (by simp [(List.cons.inj same).2])
    | cons c s => exact quote (by simp [(List.cons.inj same).1])
  rw [readString_eq_readLine (.inr rfl) short, readLine, readLiteral_eq plain quote]
  rfl

/-- What stands behind the opening quotes of a long form. -/
def opening (s : List Char) : List Char := if s.contains '\n' then ['\n'] else []

theorem skipNewline_opening {t : List Char}
    (begins : '\n' ∉ s → newline? t = none) : skipNewline (opening s ++ t) = t := by
  unfold opening skipNewline
  by_cases lines : '\n' ∈ s
  · simp [lines, newline?]
  · simp [lines, begins lines]

theorem length_lt_opening {s t w : List Char} (shorter : s.length ≤ w.length) :
    s.length < (opening s ++ (w ++ t)).length + 1 := by
  simp only [List.length_append]
  omega

theorem newline?_escapedLines (feed : '\n' ∉ s) (t : List Char) :
    newline? (escapedLines 0 s ++ '"' :: t) = none := by
  cases s with
  | nil => exact newline?_of_isPlain (by decide) t
  | cons c s =>
    rw [List.mem_cons, not_or] at feed
    by_cases quote : c = '"'
    · subst quote
      exact newline?_of_isPlain (by decide) _
    · rw [escapedLines_of_ne quote, List.append_assoc]
      exact (spells_escaped (.inr ⟨quote, fun same => feed.1 same.symm⟩)).newline?_eq_none _

theorem length_le_escapedLines (q : Nat) (s : List Char) : s.length ≤ (escapedLines q s).length := by
  induction s generalizing q with
  | nil => exact Nat.le_refl 0
  | cons c s ih =>
    by_cases quote : c = '"'
    · subst quote
      have unescaped := ih (q + 1)
      have anew := ih 0
      rw [escapedLines]
      split <;> simp only [List.length_cons] <;> omega
    · have later := ih 0
      have first : 0 < (escaped false c).length := by
        by_cases feed : c = '\n'
        · subst feed
          decide
        · exact (spells_escaped (.inr ⟨quote, feed⟩)).length_pos
      rw [escapedLines_of_ne quote, List.length_append, List.length_cons]
      omega

theorem readString_longBasic (double : rest.head? ≠ some '"') :
    readString ('"' :: '"' :: '"' :: (opening s ++ (escapedLines 0 s ++ '"' :: '"' :: '"' :: rest))) =
      some (String.ofList s, rest) := by
  have enough := length_lt_opening (t := '"' :: '"' :: '"' :: rest) (length_le_escapedLines 0 s)
  rw [readString, skipNewline_opening fun feed => newline?_escapedLines feed _,
    readBasicLines_escapedLines (by decide) enough double]
  rfl

theorem readString_longLiteral (plain : ∀ c ∈ s, c = '\n' ∨ isPlain c = true)
    (short : longestRun '\'' 0 s ≤ 2) (single : rest.head? ≠ some '\'') :
    readString ('\'' :: '\'' :: '\'' :: (opening s ++ (s ++ '\'' :: '\'' :: '\'' :: rest))) =
      some (String.ofList s, rest) := by
  have begins : '\n' ∉ s → newline? (s ++ '\'' :: '\'' :: '\'' :: rest) = none := by
    intro feed
    cases s with
    | nil => exact newline?_of_isPlain (by decide) _
    | cons c s =>
      rw [List.mem_cons, not_or] at feed
      have first := (plain c (by simp)).resolve_left fun same => feed.1 same.symm
      exact newline?_of_isPlain first _
  have enough := length_lt_opening (t := '\'' :: '\'' :: '\'' :: rest) (Nat.le_refl s.length)
  rw [readString, skipNewline_opening begins, readLiteralLines_eq plain short enough single]
  rfl

theorem readString_quoted (s : String) (double : rest.head? ≠ some '"')
    (single : rest.head? ≠ some '\'') :
    readString ((quoted s).toList ++ rest) = some (s, rest) := by
  have start : (if '\n' ∈ s.toList then "\n" else "").toList = opening s.toList := by
    unfold opening
    split <;> simp [*]
  have same : String.ofList s.toList = s := String.ofList_toList
  unfold quoted
  dsimp only
  split
  · have read := readString_basic (s := s.toList) double
    simpa [same] using read
  · next form =>
    obtain ⟨coded, feed, quote⟩ := quotingOf_eq_literal form
    have plain : ∀ c ∈ s.toList, isPlain c = true := by
      intro c member
      refine (isPlain_of_not_needsCode coded member).resolve_left ?_
      rintro rfl
      exact feed member
    have read := readString_literal plain quote single
    simpa [same] using read
  · have read := readString_longBasic (s := s.toList) double
    simpa [same, start] using read
  · next form =>
    obtain ⟨coded, short⟩ := quotingOf_eq_longLiteral form
    have read := readString_longLiteral (fun c => isPlain_of_not_needsCode coded) short single
    simpa [same, start] using read

end Forms

end Letterbook.Settings
