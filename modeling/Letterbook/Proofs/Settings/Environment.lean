import Letterbook.Disk.Tree
import Letterbook.Json.Equality
import Letterbook.Proofs.Settings.Loading
import Letterbook.Proofs.Settings.Overriding
import Letterbook.Proofs.Settings.SavedText

/-! Texts from the environment. The value of a variable is guessed, so a text setting gets what the
guess says as text: that is the value itself unless it reads as a truth or a number that is spelled in
another way. A file holds the text as it is. -/
namespace Letterbook.Settings

section Spelling

variable {v : String}

/-- The text that the value of a variable comes to. -/
def spelled (v : String) : String := (text? (guess v)).getD v

/-- The guess of a text spells it as it is. -/
structure KeepsSpelling (v : String) : Prop where
  truth : ∀ word ∈ ["true", "false"], Text.lower v.toList = word → v = word
  integer : ∀ i, Decimal.readInt? v.toList = some i → isInt64 i = true → v = toString i
  number : ∀ x, (Decimal.readInt? v.toList).filter isInt64 = none →
    Decimal.read? v.toList = some x → v = x.plainText

/-- What a text is guessed to be. Words come first, then integers, then other numbers. -/
inductive Guessed (v : String) : Json → Prop
  | truth {b : Bool} (word : Text.lower v.toList = if b then "true" else "false") :
      Guessed v (.bool b)
  | integer {i : Int} (other : Text.lower v.toList ∉ ["true", "false"])
      (read : (Decimal.readInt? v.toList).filter isInt64 = some i) : Guessed v (.num (.int i))
  | number {x : Binary64} (other : Text.lower v.toList ∉ ["true", "false"])
      (unfit : (Decimal.readInt? v.toList).filter isInt64 = none)
      (read : Decimal.read? v.toList = some x) : Guessed v (.num (.float x))
  | text (other : Text.lower v.toList ∉ ["true", "false"])
      (unfit : (Decimal.readInt? v.toList).filter isInt64 = none)
      (unread : Decimal.read? v.toList = none) : Guessed v (.str v)

theorem guessed (v : String) : Guessed v (guess v) := by
  unfold guess
  dsimp only
  split
  · next yes => exact .truth (b := true) (by simpa using yes)
  · next notYes =>
    split
    · next no => exact .truth (b := false) (by simpa using no)
    · next notNo =>
      have other : Text.lower v.toList ∉ ["true", "false"] := by simp_all
      split
      · next i read => exact .integer other read
      · next unfit =>
        split
        · next x read => exact .number other unfit read
        · next unread => exact .text other unfit unread

theorem text?_guess (v : String) : text? (guess v) = some (spelled v) := by
  have readable : (text? (guess v)).isSome = true := by
    have told := guessed v
    generalize guess v = j at told ⊢
    cases told with
    | truth | number | text => rfl
    | integer _ read =>
      have fits := (Option.filter_eq_some_iff.mp read).2
      simp [text?, narrow, fits]
  obtain ⟨text, same⟩ := Option.isSome_iff_exists.mp readable
  rw [spelled, same]
  rfl

theorem not_isTable_guess (v : String) : ¬ IsTable (guess v) := by
  have told := guessed v
  generalize guess v = j at told ⊢
  rintro ⟨members, rfl⟩
  cases told

theorem keepsSpelling_of_word {word : String} (listed : word ∈ ["true", "false"]) :
    KeepsSpelling word := by
  have unread : ∀ word ∈ ["true", "false"], Text.lower word.toList = word ∧
      Decimal.readInt? word.toList = none ∧ Decimal.read? word.toList = none := by decide
  obtain ⟨small, integer, number⟩ := unread word listed
  refine ⟨fun other _ same => small.symm.trans same, ?_, ?_⟩
  · intro i read
    rw [integer] at read
    cases read
  · intro x _ read
    rw [number] at read
    cases read

theorem keepsSpelling_of_unfit (other : Text.lower v.toList ∉ ["true", "false"])
    (unfit : (Decimal.readInt? v.toList).filter isInt64 = none)
    (number : ∀ x, Decimal.read? v.toList = some x → v = x.plainText) : KeepsSpelling v := by
  refine ⟨?_, ?_, fun x _ read => number x read⟩
  · rintro word listed rfl
    contradiction
  · intro i read fits
    rw [Option.filter_eq_some_iff.mpr ⟨read, fits⟩] at unfit
    contradiction

theorem spelled_eq_self_iff : spelled v = v ↔ KeepsSpelling v := by
  have told := guessed v
  unfold spelled
  generalize guess v = j at told
  cases told with
  | @truth b word =>
    change (if b then "true" else "false") = v ↔ _
    have listed : (if b then "true" else "false") ∈ ["true", "false"] := by cases b <;> simp
    constructor
    · rintro rfl
      exact keepsSpelling_of_word listed
    · exact fun keeps => (keeps.truth _ listed word).symm
  | @integer i other read =>
    obtain ⟨read', fits⟩ := Option.filter_eq_some_iff.mp read
    have same : (text? (.num (.int i))).getD v = toString i := by simp [text?, narrow, fits]
    rw [same]
    constructor
    · intro equal
      refine ⟨?_, ?_, fun x unfit => ?_⟩
      · rintro word listed rfl
        contradiction
      · intro j again _
        rw [read', Option.some.injEq] at again
        rw [← again, equal]
      · rw [read] at unfit
        contradiction
    · exact fun keeps => (keeps.integer i read' fits).symm
  | @number x other unfit read =>
    change x.plainText = v ↔ _
    constructor
    · intro equal
      refine keepsSpelling_of_unfit other unfit fun y again => ?_
      rw [read, Option.some.injEq] at again
      rw [← again, equal]
    · exact fun keeps => (keeps.number x unfit read).symm
  | text other unfit unread =>
    refine iff_of_true rfl (keepsSpelling_of_unfit other unfit fun x read => ?_)
    rw [unread] at read
    contradiction

/-- A character that stands in no numeral. -/
def IsStrange (c : Char) : Prop := c.isDigit = false ∧ c ∉ ['+', '-', '.', 'e', 'E']

theorem takeSign_cases (s : List Char) : (Decimal.takeSign s).2 = s ∨
    ∃ c, c ∈ ['+', '-'] ∧ s = c :: (Decimal.takeSign s).2 := by
  unfold Decimal.takeSign
  split
  · exact .inr ⟨'-', by decide, rfl⟩
  · exact .inr ⟨'+', by decide, rfl⟩
  · exact .inl rfl

section Strange

variable {c : Char} {s : List Char}

theorem mem_takeSign (strange : IsStrange c) (member : c ∈ s) : c ∈ (Decimal.takeSign s).2 := by
  rcases takeSign_cases s with same | ⟨d, sign, same⟩
  · rwa [same]
  · rw [same, List.mem_cons] at member
    refine member.resolve_left ?_
    rintro rfl
    exact strange.2 (by simp only [List.mem_cons] at sign ⊢; tauto)

theorem not_all_isDigit (strange : IsStrange c) (member : c ∈ s) : s.all Char.isDigit = false := by
  rw [List.all_eq_false]
  exact ⟨c, member, by simp [strange.1]⟩

theorem mem_dropWhile_isDigit (strange : IsStrange c) (member : c ∈ s) :
    c ∈ s.dropWhile Char.isDigit := by
  rw [← List.takeWhile_append_dropWhile (p := Char.isDigit) (l := s), List.mem_append] at member
  refine member.resolve_left fun digit => ?_
  have taken := List.all_eq_true.mp List.all_takeWhile c digit
  rw [strange.1] at taken
  contradiction

theorem readInt?_of_strange (strange : IsStrange c) (member : c ∈ s) :
    Decimal.readInt? s = none := by
  rw [Decimal.readInt?]
  simp [not_all_isDigit strange (mem_takeSign strange member)]

theorem readExponent?_of_strange (strange : IsStrange c) (member : c ∈ s) :
    Decimal.readExponent? s = none := by
  cases s with
  | nil => contradiction
  | cons d rest =>
    rw [Decimal.readExponent?]
    split
    · next letter =>
      have later : c ∈ rest := by
        refine (List.mem_cons.mp member).resolve_left ?_
        rintro rfl
        simp only [Bool.or_eq_true, beq_iff_eq] at letter
        exact strange.2 (by simp only [List.mem_cons]; tauto)
      simp [not_all_isDigit strange (mem_takeSign strange later)]
    · rfl

theorem readUnsigned?_of_strange (strange : IsStrange c) (member : c ∈ s) (neg : Bool) :
    Decimal.readUnsigned? neg s = none := by
  have behind := mem_dropWhile_isDigit strange member
  rw [Decimal.readUnsigned?]
  dsimp only [Decimal.takeDigits]
  rw [readExponent?_of_strange strange]
  · rw [Option.map_none, ite_self]
  · split
    · next rest point =>
      rw [point] at behind
      refine mem_dropWhile_isDigit strange ((List.mem_cons.mp behind).resolve_left ?_)
      rintro rfl
      exact strange.2 (by simp)
    · exact behind

/-- A text with a character that no numeral has, and that is none of the words, is kept. -/
theorem keepsSpelling_of_strange {v : String} (strange : IsStrange c) (member : c ∈ v.toList)
    (truth : Text.lower v.toList ∉ ["true", "false"])
    (special : Text.lower (Decimal.takeSign v.toList).2 ∉ ["inf", "infinity", "nan"]) :
    KeepsSpelling v := by
  have integer := readInt?_of_strange strange member
  have number : Decimal.read? v.toList = none := by
    simp only [List.mem_cons, List.not_mem_nil, or_false, not_or] at special
    rw [Decimal.read?]
    simp [special, readUnsigned?_of_strange strange (mem_takeSign strange member)]
  refine keepsSpelling_of_unfit truth (by rw [integer, Option.filter_none]) fun x read => ?_
  rw [number] at read
  contradiction

end Strange

end Spelling

section Routes

/-- The variable of a key. -/
def Key.variable (key : Key) : String :=
  "BARBER__" ++ Text.upper key.part.toList ++ "__" ++ Text.upper key.name.toList

/-- The keys of texts. Each is the only one of its section. -/
def Key.IsText (key : Key) : Prop := key = .defaultLocale ∨ key = .directory

instance : DecidablePred Key.IsText := fun key => inferInstanceAs (Decidable (key = _ ∨ key = _))

/-- The settings with another text at a key. -/
def withText (s : Settings) (key : Key) (v : String) : Settings :=
  match key with
  | .defaultLocale => { s with defaultLocale := v }
  | .directory => { s with directory := v }
  | .escape | .strict => s

def textAt (s : Settings) : Key → Option String
  | .defaultLocale => some s.defaultLocale
  | .directory => some s.directory
  | .escape | .strict => none

variable {key : Key} {s : Settings} {v w : String} {root root' j j' : Json}

theorem withText_eq_self_iff (there : s.textAt key = some v) : s.withText key w = s ↔ w = v := by
  obtain ⟨defaultLocale, escape, strict, directory⟩ := s
  cases key <;> simp_all [withText, textAt]

theorem layerOfEnvironment_variable (before after : List (String × String)) (key : Key) (v : String) :
    layerOfEnvironment (before ++ (key.variable, v) :: after) =
      layerOfEnvironment before ++ (key.part ++ "." ++ key.name, guess v) ::
        layerOfEnvironment after := by
  have dotted : ∀ key : Key, (Text.strip? variableStart (Text.lower key.variable.toList).toList).map
      (fun name => String.ofList (dotted name)) = some (key.part ++ "." ++ key.name) := by
    decide +kernel
  have setting : settingOf? (key.variable, v) = some (key.part ++ "." ++ key.name, guess v) := by
    obtain ⟨name, found, same⟩ := Option.map_eq_some_iff.mp (dotted key)
    rw [settingOf?, found, Option.map_some, same]
  rw [layerOfEnvironment, List.filterMap_append, List.filterMap_cons, setting]
  rfl

theorem ofTree?_of_holdsAt (text : key.IsText) (agree : AgreeOff key root root')
    (holds : HoldsAt root key j) (holds' : HoldsAt root' key j') (given : text? j = some w)
    (given' : text? j' = some v) : ofTree? root = (ofTree? root').map (·.withText key w) ∧
      ∀ s, ofTree? root' = some s → s.textAt key = some v := by
  obtain ⟨part, found, ⟨members, rfl⟩, there⟩ := holds
  obtain ⟨part', found', ⟨members', rfl⟩, there'⟩ := holds'
  have inside : memberOf (.obj members) 0 key.name = some j := there
  have inside' : memberOf (.obj members') 0 key.name = some j' := there'
  have table (members : List (String × Json)) : isSection (some (.obj members)) = true := rfl
  have setting (standard : String) (j : Json) : settingOr text? standard (some j) = text? j := rfl
  rw [member?_eq_lookup] at found found'
  -- The settings of the other sections are the same on both sides, whatever they are.
  rcases text with rfl | rfl
  · have render := agree "render" (by decide)
    have templates := agree "templates" (by decide)
    simp only [member?_eq_lookup, Key.part, Key.name] at *
    simp only [ofTree?, found, found', render, templates, table, Option.bind_some, inside, inside',
      setting, given, given', Option.bind_eq_bind]
    generalize (true && isSection _ && _) = sound
    generalize settingOr escaping? _ _ = escape
    generalize settingOr truth? _ _ = strict
    generalize settingOr text? _ _ = directory
    cases sound <;> cases escape <;> cases strict <;> cases directory <;> simp [withText, textAt]
  · have shop := agree "barbershop" (by decide)
    have render := agree "render" (by decide)
    simp only [member?_eq_lookup, Key.part, Key.name] at *
    simp only [ofTree?, found, found', shop, render, table, Option.bind_some, inside, inside',
      setting, given, given', Option.bind_eq_bind]
    generalize (isSection _ && _ && true) = sound
    generalize settingOr text? _ _ = defaultLocale
    generalize settingOr escaping? _ _ = escape
    generalize settingOr truth? _ _ = strict
    cases sound <;> cases defaultLocale <;> cases escape <;> cases strict <;>
      simp [withText, textAt]

/-- A variable and a member of a file set the key alike, each to its own value. -/
theorem ofLayers?_variable (text : key.IsText) (lower : List Layer) {front back before after : Layer}
    (spares : Layer.Spares (front ++ back) key) (spares' : Layer.Spares (before ++ after) key) :
    let guessed := ofLayers? (lower ++ [front ++ back,
      before ++ (key.part ++ "." ++ key.name, guess v) :: after])
    let held := ofLayers? (lower ++ [front ++ (key.part, .obj [(key.name, .str v)]) :: back,
      before ++ after])
    guessed = held.map (·.withText key (spelled v)) ∧
      ∀ s, held = some s → s.textAt key = some v := by
  simp only [ofLayers?, List.foldl_append, List.foldl_cons, List.foldl_nil]
  generalize lower.foldl overlay (.obj []) = root
  have later : Layer.Spares back key := fun entry member =>
    spares entry (List.mem_append_right front member)
  have later' : Layer.Spares after key := fun entry member =>
    spares' entry (List.mem_append_right before member)
  have kept : text? (.str v) = some v := rfl
  refine ofTree?_of_holdsAt text ?_ ?_ ?_ (text?_guess v) kept
  · have agree : AgreeOff key (overlay root (front ++ back))
        (overlay root (front ++ (key.part, .obj [(key.name, .str v)]) :: back)) := by
      refine AgreeOff.overlay_insert (fun _ _ => rfl) ?_
      exact ⟨key.part, [], placeOf_part key, key.folded_part.symm⟩
    refine AgreeOff.symm (agree.symm.overlay_insert ?_)
    exact ⟨key.part, [.member key.name], placeOf_setting key, key.folded_part.symm⟩
  · refine holdsAt_overlay_insert (fun root => ?_) later' _ before
    rw [placeOf_setting]
    exact holdsAt_setting key.folded_part.symm key.folded_name.symm (not_isTable_guess v)
  · refine HoldsAt.overlay ?_ spares'
    refine holdsAt_overlay_insert (fun root => ?_) later _ front
    rw [placeOf_part]
    refine holdsAt_table key.folded_part.symm ?_ ?_
    · simp [written, key.folded_name]
    · simp [IsTable]

end Routes

/-- A text from a variable is the text in a file as its guess spells it; all else is the same, and so is
the text if the guess keeps its spelling. -/
theorem load_by_variable {d d' : Disk Id} {configFolder : Option String}
    {before after : List (String × String)} {path path' : Option String} {key : Key} {v : String}
    {front back : Layer} (text : key.IsText)
    (lower : lowerLayers d configFolder = lowerLayers d' configFolder)
    (asked : optionalLayer d true path = .ok (front ++ back))
    (asked' : optionalLayer d' true path' =
      .ok (front ++ (key.part, .obj [(key.name, .str v)]) :: back))
    (spares : Layer.Spares (front ++ back) key)
    (spares' : (layerOfEnvironment (before ++ after)).Spares key) :
    (load d configFolder (before ++ (key.variable, v) :: after) path).run =
      (load d' configFolder (before ++ after) path').run.map (·.withText key (spelled v)) ∧
    ∀ s, (load d' configFolder (before ++ after) path').run = .ok s → s.textAt key = some v ∧
      ((load d configFolder (before ++ (key.variable, v) :: after) path).run = .ok s ↔
        KeepsSpelling v) := by
  have main : (load d configFolder (before ++ (key.variable, v) :: after) path).run =
      (load d' configFolder (before ++ after) path').run.map (·.withText key (spelled v)) ∧
      ∀ s, (load d' configFolder (before ++ after) path').run = .ok s → s.textAt key = some v := by
    have parts : layerOfEnvironment (before ++ after) =
        layerOfEnvironment before ++ layerOfEnvironment after := List.filterMap_append
    rw [parts] at spares'
    rw [load_eq_lower, load_eq_lower, lower, asked, asked', layerOfEnvironment_variable, parts]
    cases lowerLayers d' configFolder with
    | error e => exact ⟨rfl, nofun⟩
    | ok layers =>
      obtain ⟨changed, there⟩ := ofLayers?_variable (v := v) text layers spares spares'
      refine ⟨?_, fun s loaded => there s (answerOf_eq_ok_iff.mp loaded)⟩
      change answerOf _ = (answerOf _).map _
      unfold answerOf
      rw [changed]
      cases ofLayers? (layers ++ [front ++ (key.part, .obj [(key.name, .str v)]) :: back,
        layerOfEnvironment before ++ layerOfEnvironment after]) <;> rfl
  obtain ⟨changed, there⟩ := main
  refine ⟨changed, fun s loaded => ⟨there s loaded, ?_⟩⟩
  rw [changed, loaded, ← spelled_eq_self_iff, ← withText_eq_self_iff (there s loaded)]
  change Except.ok (s.withText key (spelled v)) = Except.ok s ↔ _
  rw [Except.ok.injEq]

/-- A document with one text. -/
def settingText (key : Key) (v : String) : String :=
  "[" ++ key.part ++ "]\n" ++ key.name ++ " = " ++ quoted v ++ "\n"

/-- Every text can be written at a key. -/
theorem layerOfText?_settingText (key : Key) (v : String) :
    layerOfText? .toml (settingText key v) = some [(key.part, .obj [(key.name, .str v)])] := by
  have part : IsBare key.part.toList := by cases key <;> decide
  have name : IsBare key.name.toList := by cases key <;> decide
  have unheld : key.part ≠ momentName ∧ key.name ≠ momentName := by cases key <;> decide
  have header := adds_headerLine part
  have pair := adds_pairLine name (denotes_quoted v)
  rw [String.ofList_toList] at header pair
  have written : (settingText key v).toList =
      [(headerLine key.part.toList, Toml.Line.header ⟨⟨[], key.part⟩, false⟩),
        (pairLine key.name.toList (quoted v).toList, Toml.Line.pair ⟨[], key.name⟩ (.str v))].flatMap
          Prod.fst := by
    simp [settingText, headerLine, pairLine]
  have parsed := parse?_of_adds (by simp [header, pair]) (by simp) written
    (by rw [written]; simp [headerLine])
  rw [layerOfText?, valueOfText?, parsed]
  simp [Toml.sections, Toml.assemble, Toml.addPairs, Toml.addPair, Toml.addSection, Toml.alter,
    Toml.Members.find?, Toml.Members.put, Toml.Members.putLast, Toml.finishMembers, Toml.Part.finish,
    ofToml?, heldMoment?, membersOfToml?, Json.object, Table.put, unheld]

theorem withoutMark_settingText (key : Key) (v : String) :
    withoutMark (settingText key v) = settingText key v := by
  have first : (settingText key v).toList.head? = some '[' := by simp [settingText]
  unfold withoutMark
  split
  · next rest marked =>
    rw [marked] at first
    cases first
  · rfl

/-- A file with such a text that is found and can be read sets the key to the text. -/
theorem optionalLayer_settingText {d : Disk Id} {name path : String} (required : Bool) (key : Key)
    (v : String) (found : (findFile d name).run = some (path, .toml))
    (read : (d.read path).run = .ok (settingText key v)) :
    optionalLayer d required (some name) = .ok [(key.part, .obj [(key.name, .str v)])] := by
  rw [optionalLayer, fileLayer, Id.run_bind, found]
  dsimp only
  rw [Id.run_bind, read]
  dsimp only
  rw [withoutMark_settingText, layerOfText?_settingText]
  rfl

/-- A file that can be asked for, in a place with no other. -/
def askedTree (text : String) : FileTree where
  files := Table.ofList [(["own.toml"], .text text)]
  folders := []
  workingDirectory := "/"

theorem load_by_variable_forms :
    (load (askedTree (settingText .directory "forms")).disk none
      [("BARBER__TEMPLATES__DIR", "forms")] none).run =
      .ok { standard with directory := "forms" } := by
  have named : Key.directory.variable = "BARBER__TEMPLATES__DIR" := rfl
  have keeps : KeepsSpelling "forms" :=
    keepsSpelling_of_strange (c := 'f') ⟨by decide, by decide⟩ (by decide) (by decide)
      (by decide)
  have asked : optionalLayer (askedTree (settingText .directory "forms")).disk true none =
      .ok ([] ++ []) := rfl
  have found : (findFile (askedTree (settingText .directory "forms")).disk "own.toml").run =
      some ("/own.toml", .toml) := by decide +kernel
  have read : ((askedTree (settingText .directory "forms")).disk.read "/own.toml").run =
      .ok (settingText .directory "forms") := Result.toOption_eq_some.mp (by decide +kernel)
  have asked' : optionalLayer (askedTree (settingText .directory "forms")).disk true
      (some "own.toml") =
      .ok ([] ++ (Key.directory.part, .obj [(Key.directory.name, .str "forms")]) :: []) :=
    optionalLayer_settingText true .directory "forms" found read
  have spares : Layer.Spares ([] ++ []) .directory := by simp [Layer.Spares]
  have spares' : (layerOfEnvironment ([] ++ [])).Spares .directory := spares
  have loaded : (load (askedTree (settingText .directory "forms")).disk none ([] ++ [])
      (some "own.toml")).run = .ok { standard with directory := "forms" } :=
    Result.toOption_eq_some.mp (by decide +kernel)
  have same := (load_by_variable (.inr rfl) rfl asked asked' spares spares').2 _ loaded
  rw [← named]
  exact same.2.mpr keeps

/-- Zeros in front are lost on the way through the environment. -/
theorem load_by_variable_zeros :
    (load (askedTree (settingText .directory "007")).disk none [("BARBER__TEMPLATES__DIR", "007")]
      none).run.toOption = some { standard with directory := "7" } ∧
    (load (askedTree (settingText .directory "007")).disk none [] (some "own.toml")).run.toOption =
      some { standard with directory := "007" } := by
  decide +kernel

end Letterbook.Settings
