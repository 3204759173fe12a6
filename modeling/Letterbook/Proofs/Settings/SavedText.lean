import Letterbook.Proofs.Settings.QuotedText
import Letterbook.Settings.Files

/-! Saved settings are read back as a layer. A document that is written line by line, with bare names,
quoted texts and truths, is read line by line, and its lines make up the sections of a layer. -/
namespace Letterbook.Settings

open Toml

section Names

variable {name rest : List Char}

/-- A name that needs no quotes. -/
def IsBare (name : List Char) : Prop := name ≠ [] ∧ ∀ c ∈ name, isKeyChar c = true

instance : DecidablePred IsBare := fun name =>
  decidable_of_iff (name ≠ [] ∧ name.all isKeyChar = true) (by rw [IsBare, List.all_eq_true])

theorem IsBare.exists_cons (bare : IsBare name) :
    ∃ c more, name = c :: more ∧ isKeyChar c = true := by
  obtain ⟨something, chars⟩ := bare
  obtain ⟨c, more, rfl⟩ := List.exists_cons_of_ne_nil something
  exact ⟨c, more, rfl, chars c (by simp)⟩

theorem takeWhile_bare (bare : IsBare name) (stops : ∀ c ∈ rest.head?, isKeyChar c = false) :
    (name ++ rest).takeWhile isKeyChar = name ∧ (name ++ rest).dropWhile isKeyChar = rest := by
  have ends : rest.takeWhile isKeyChar = [] ∧ rest.dropWhile isKeyChar = rest := by
    cases rest with
    | nil => exact ⟨rfl, rfl⟩
    | cons c rest =>
      have other := stops c rfl
      simp [other]
  rw [List.takeWhile_append_of_pos bare.2, List.dropWhile_append_of_pos bare.2, ends.1, ends.2,
    List.append_nil]
  exact ⟨rfl, rfl⟩

theorem readKeyPart_bare (bare : IsBare name) (stops : ∀ c ∈ rest.head?, isKeyChar c = false) :
    readKeyPart (name ++ rest) = some (String.ofList name, rest) := by
  obtain ⟨taken, dropped⟩ := takeWhile_bare bare stops
  obtain ⟨c, more, rfl, key⟩ := bare.exists_cons
  unfold readKeyPart
  split
  · next same =>
    obtain ⟨rfl, -⟩ := List.cons.inj same
    contradiction
  · next same =>
    obtain ⟨rfl, -⟩ := List.cons.inj same
    contradiction
  · rw [taken, dropped]
    rfl

theorem skipBlanks_bare (bare : IsBare name) (rest : List Char) :
    skipBlanks (name ++ rest) = name ++ rest := by
  obtain ⟨c, more, rfl, key⟩ := bare.exists_cons
  refine List.dropWhile_cons_of_neg ?_
  intro blank
  simp only [Text.isBlank, Bool.or_eq_true, beq_iff_eq] at blank
  rcases blank with rfl | rfl <;> contradiction

theorem readKey_bare (bare : IsBare name) (stops : ∀ c ∈ rest.head?, isKeyChar c = false)
    (last : (skipBlanks rest).head? ≠ some '.') :
    readKey (name ++ rest) = some (⟨[], String.ofList name⟩, skipBlanks rest) := by
  have parts : readKeyParts ((name ++ rest).length + 1) (name ++ rest) =
      some ([String.ofList name], skipBlanks rest) := by
    rw [readKeyParts, skipBlanks_bare bare, readKeyPart_bare bare stops]
    simp only [Option.bind_eq_bind, Option.bind_some]
    split
    · next same => exact absurd (by rw [same]; rfl) last
    · rfl
  rw [readKey, parts]
  rfl

end Names

/-- A text that is a value, whatever follows behind a line feed. -/
structure Denotes (text : List Char) (v : Value) : Prop where
  visible : ∀ rest, skipBlanks (text ++ rest) = text ++ rest
  reads : ∀ fuel depth rest,
    readValue (fuel + 1) depth (text ++ '\n' :: rest) = some (v, '\n' :: rest)

theorem denotes_quoted (s : String) : Denotes (quoted s).toList (.str s) := by
  have first : ∃ q more, (quoted s).toList = q :: more ∧ (q = '"' ∨ q = '\'') := by
    unfold quoted
    dsimp only
    split <;> simp
  obtain ⟨q, more, whole, quote⟩ := first
  constructor
  · intro rest
    rw [whole]
    refine List.dropWhile_cons_of_neg ?_
    rcases quote with rfl | rfl <;> decide
  · intro fuel depth rest
    have read : readString ((quoted s).toList ++ '\n' :: rest) = some (s, '\n' :: rest) :=
      readString_quoted s (by simp) (by simp)
    rw [whole, List.cons_append] at read ⊢
    rcases quote with rfl | rfl <;> simp only [readValue, read, Option.map_some]

theorem denotes_truth (b : Bool) :
    Denotes (if b then "true" else "false").toList (.bool b) := by
  cases b with
  | false => exact ⟨fun _ => rfl, fun _ _ _ => rfl⟩
  | true => exact ⟨fun _ => rfl, fun _ _ _ => rfl⟩

section Lines

/-- A text whose last character is behind one line of a document. -/
def Adds (text : List Char) (line : Line) : Prop :=
  ∀ rest, readLineContent (text ++ rest) = some (line, '\n' :: rest)

def headerLine (name : List Char) : List Char := '[' :: (name ++ [']', '\n'])

def pairLine (name text : List Char) : List Char := name ++ ' ' :: '=' :: ' ' :: (text ++ ['\n'])

variable {name text : List Char} {line : Line} {v : Value}

theorem adds_feed : Adds ['\n'] .blank := fun _ => rfl

theorem adds_headerLine (bare : IsBare name) :
    Adds (headerLine name) (.header ⟨⟨[], String.ofList name⟩, false⟩) := by
  intro rest
  have whole : headerLine name ++ rest = '[' :: (name ++ (']' :: '\n' :: rest)) := by
    simp [headerLine]
  have closed : skipBlanks (']' :: '\n' :: rest) = ']' :: '\n' :: rest := rfl
  have key : readKey (name ++ (']' :: '\n' :: rest)) =
      some (⟨[], String.ofList name⟩, ']' :: '\n' :: rest) :=
    readKey_bare bare (by simp; decide) (by simp [closed])
  have header : readHeader ('[' :: (name ++ (']' :: '\n' :: rest))) =
      some (⟨⟨[], String.ofList name⟩, false⟩, '\n' :: rest) := by
    unfold readHeader
    split
    · next same =>
      -- A second bracket would be the first character of the name.
      obtain ⟨c, more, rfl, char⟩ := bare.exists_cons
      obtain ⟨rfl, -⟩ := List.cons.inj (List.cons.inj same).2
      contradiction
    · next same =>
      obtain ⟨-, rfl⟩ := List.cons.inj same
      rw [key]
      rfl
    · next other => exact absurd rfl (other _)
  rw [whole, readLineContent]
  change (readHeader ('[' :: (name ++ (']' :: '\n' :: rest)))).map _ = _
  rw [header]
  rfl

theorem adds_pairLine (bare : IsBare name) (denotes : Denotes text v) :
    Adds (pairLine name text) (.pair ⟨[], String.ofList name⟩ v) := by
  intro rest
  have whole : pairLine name text ++ rest = name ++ (' ' :: '=' :: ' ' :: (text ++ '\n' :: rest)) := by
    simp [pairLine]
  have equals : skipBlanks (' ' :: '=' :: ' ' :: (text ++ '\n' :: rest)) =
      '=' :: ' ' :: (text ++ '\n' :: rest) := rfl
  have key : readKey (name ++ (' ' :: '=' :: ' ' :: (text ++ '\n' :: rest))) =
      some (⟨[], String.ofList name⟩, '=' :: ' ' :: (text ++ '\n' :: rest)) :=
    readKey_bare bare (by simp; decide) (by simp [equals])
  have ahead : skipBlanks (' ' :: (text ++ '\n' :: rest)) = text ++ '\n' :: rest :=
    denotes.visible ('\n' :: rest)
  have pair : readPair (name ++ (' ' :: '=' :: ' ' :: (text ++ '\n' :: rest))) =
      some ((⟨[], String.ofList name⟩, v), '\n' :: rest) := by
    rw [readPair, key]
    simp [Text.strip?, ahead, denotes.reads]
  obtain ⟨c, more, rfl, char⟩ := bare.exists_cons
  have plain : c ≠ '[' ∧ (c == '#' || c == '\n' || c == '\r') = false := by
    refine ⟨?_, ?_⟩
    · rintro rfl
      contradiction
    · simp only [Bool.or_eq_false_iff, beq_eq_false_iff_ne]
      refine ⟨⟨?_, ?_⟩, ?_⟩ <;> rintro rfl <;> contradiction
  rw [whole, readLineContent, skipBlanks_bare bare]
  rw [List.cons_append] at pair ⊢
  split
  · next same => exact absurd (List.cons.inj same).1 plain.1
  · next same => contradiction
  · next same =>
    obtain ⟨rfl, rfl⟩ := List.cons.inj same
    rw [plain.2, pair]
    rfl

theorem Adds.ne_nil (adds : Adds text line) : text ≠ [] := by
  rintro rfl
  have read := adds []
  simp [readLineContent, skipBlanks] at read

theorem readLines_of_adds {doc : List (List Char × Line)} {fuel : Nat}
    (adds : ∀ l ∈ doc, Adds l.1 l.2) (something : doc ≠ []) (enough : doc.length ≤ fuel) :
    readLines fuel (doc.flatMap Prod.fst) = some (doc.map Prod.snd) := by
  induction doc generalizing fuel with
  | nil => contradiction
  | cons l rest ih =>
    obtain ⟨first, later⟩ := List.forall_mem_cons.mp adds
    rw [List.length_cons] at enough
    obtain ⟨fuel, rfl⟩ := Nat.exists_eq_add_one_of_ne_zero (Nat.ne_zero_of_lt enough)
    rw [List.flatMap_cons, readLines, first]
    change (if (rest.flatMap Prod.fst).isEmpty then some [l.2] else _) = _
    cases rest with
    | nil => rfl
    | cons l' rest =>
      have more : ((l' :: rest).flatMap Prod.fst).isEmpty = false := by
        have text := (later l' (by simp)).ne_nil
        simp [text]
      rw [more, ih later (by simp) (by omega)]
      rfl

theorem parse?_of_adds {doc : List (List Char × Line)} {text : String}
    (adds : ∀ l ∈ doc, Adds l.1 l.2) (something : doc ≠ [])
    (written : text.toList = doc.flatMap Prod.fst) (mark : text.toList.head? ≠ some '\ufeff') :
    parse? text = assemble (sections (doc.map Prod.snd)).1 (sections (doc.map Prod.snd)).2 := by
  have few : doc.length ≤ (doc.flatMap Prod.fst).length := by
    clear mark written something
    induction doc with
    | nil => exact Nat.le_refl 0
    | cons l rest ih =>
      obtain ⟨first, later⟩ := List.forall_mem_cons.mp adds
      have fewer := ih later
      have some := List.length_pos_iff.mpr first.ne_nil
      rw [List.length_cons, List.flatMap_cons, List.length_append]
      omega
  have lines := readLines_of_adds adds something (Nat.le_add_right_of_le few (k := 1))
  unfold parse?
  split
  · next same => exact absurd (by rw [same]; rfl) mark
  · rw [written]
    dsimp only
    rw [lines]
    rfl

end Lines

/-- The lines of saved settings. -/
def savedLines (s : Settings) : List (List Char × Line) :=
  let header (name : String) : List Char × Line :=
    (headerLine name.toList, .header ⟨⟨[], name⟩, false⟩)
  let pair (name text : String) (v : Value) : List Char × Line :=
    (pairLine name.toList text.toList, .pair ⟨[], name⟩ v)
  [header "barbershop", pair "default_locale" (quoted s.defaultLocale) (.str s.defaultLocale),
    (['\n'], .blank), header "render",
    pair "escape" (quoted (escapeWord s.escape)) (.str (escapeWord s.escape)),
    pair "strict" (if s.strict then "true" else "false") (.bool s.strict),
    (['\n'], .blank), header "templates", pair "dir" (quoted s.directory) (.str s.directory)]

theorem adds_savedLines (s : Settings) : ∀ l ∈ savedLines s, Adds l.1 l.2 := by
  have header (name : String) (bare : IsBare name.toList) :
      Adds (headerLine name.toList) (.header ⟨⟨[], name⟩, false⟩) := by
    have adds := adds_headerLine bare
    rwa [String.ofList_toList] at adds
  have pair (name : String) (bare : IsBare name.toList) {text : String} {v : Value}
      (denotes : Denotes text.toList v) :
      Adds (pairLine name.toList text.toList) (.pair ⟨[], name⟩ v) := by
    have adds := adds_pairLine bare denotes
    rwa [String.ofList_toList] at adds
  simp only [savedLines, List.forall_mem_cons]
  exact ⟨header _ (by decide), pair _ (by decide) (denotes_quoted _), adds_feed,
    header _ (by decide), pair _ (by decide) (denotes_quoted _),
    pair _ (by decide) (denotes_truth _), adds_feed, header _ (by decide),
    pair _ (by decide) (denotes_quoted _), nofun⟩

theorem toList_fileText (s : Settings) : (fileText s).toList = (savedLines s).flatMap Prod.fst := by
  have shop : "[barbershop]\ndefault_locale = ".toList =
      headerLine "barbershop".toList ++ ("default_locale".toList ++ [' ', '=', ' ']) := by
    rfl
  have render : "\n\n[render]\nescape = \"".toList = ['\n'] ++ (['\n'] ++
      (headerLine "render".toList ++ ("escape".toList ++ ([' ', '=', ' '] ++ "\"".toList)))) := by
    rfl
  have strict : "\"\nstrict = ".toList =
      "\"".toList ++ (['\n'] ++ ("strict".toList ++ [' ', '=', ' '])) := rfl
  have templates : "\n\n[templates]\ndir = ".toList = ['\n'] ++ (['\n'] ++
      (headerLine "templates".toList ++ ("dir".toList ++ [' ', '=', ' ']))) := by
    rfl
  have feed : "\n".toList = ['\n'] := rfl
  have word : (quoted (escapeWord s.escape)).toList =
      "\"".toList ++ ((escapeWord s.escape).toList ++ "\"".toList) := by
    cases s.escape <;> rfl
  have pair (name text : List Char) :
      pairLine name text = name ++ ([' ', '=', ' '] ++ (text ++ ['\n'])) := rfl
  unfold fileText
  simp only [savedLines, String.toList_append, shop, render, strict, templates, feed, word, pair,
    List.flatMap_cons, List.flatMap_nil, List.append_assoc, List.append_nil]

/-- The layer that saved settings are. -/
def savedLayer (s : Settings) : Layer :=
  [("barbershop", .obj [("default_locale", .str s.defaultLocale)]),
    ("render", .obj [("escape", .str (escapeWord s.escape)), ("strict", .bool s.strict)]),
    ("templates", .obj [("dir", .str s.directory)])]

theorem unmarked_fileText (s : Settings) : (fileText s).toList.head? ≠ some '\ufeff' := by
  rw [toList_fileText]
  simp [savedLines, headerLine]

theorem withoutMark_fileText (s : Settings) : withoutMark (fileText s) = fileText s := by
  unfold withoutMark
  split
  · next same => exact absurd (by rw [same]; rfl) (unmarked_fileText s)
  · rfl

theorem layerOfText?_fileText (s : Settings) :
    layerOfText? .toml (fileText s) = some (savedLayer s) := by
  have parsed := parse?_of_adds (adds_savedLines s) (by simp [savedLines]) (toList_fileText s)
    (unmarked_fileText s)
  have ordered : compare "render" "barbershop" = .gt ∧ compare "strict" "escape" = .gt ∧
      compare "templates" "barbershop" = .gt ∧ compare "templates" "render" = .gt := by
    decide
  rw [layerOfText?, valueOfText?, parsed]
  simp [ordered, savedLines, sections, assemble, addPairs, addPair, addSection, alter, Members.find?,
    Members.put, Members.putLast, finishMembers, Part.finish, ofToml?, heldMoment?, momentName,
    membersOfToml?, Json.object, Table.put, savedLayer]

end Letterbook.Settings
