import Letterbook.Json.Equality
import Letterbook.Proofs.FileWriting
import Letterbook.Proofs.Settings.Loading
import Letterbook.Proofs.Settings.Overriding
import Letterbook.Proofs.Settings.SavedText

/-! Settings that are saved to a file load back from it. The saved layer has all four settings, so it
leaves nothing of the layers below, and saving spoils none of the other files. -/
namespace Letterbook.Settings

variable {s : Settings}

section Overriding

def savedValue (s : Settings) : Key → Json
  | .defaultLocale => .str s.defaultLocale
  | .escape => .str (escapeWord s.escape)
  | .strict => .bool s.strict
  | .directory => .str s.directory

theorem overlay_savedLayer (s : Settings) (root : Json) : overlay root (savedLayer s) =
    setAt (.obj [("dir", .str s.directory)]) [.member "templates"]
      (setAt (.obj [("escape", .str (escapeWord s.escape)), ("strict", .bool s.strict)])
        [.member "render"]
        (setAt (.obj [("default_locale", .str s.defaultLocale)]) [.member "barbershop"] root)) := by
  have shop : placeOf "barbershop" = [.member "barbershop"] := placeOf_part .defaultLocale
  have render : placeOf "render" = [.member "render"] := placeOf_part .escape
  have templates : placeOf "templates" = [.member "templates"] := placeOf_part .directory
  simp only [savedLayer, overlay, List.foldl_cons, List.foldl_nil, shop, render, templates]

theorem holdsAt_savedLayer (s : Settings) (root : Json) (key : Key) :
    HoldsAt (overlay root (savedLayer s)) key (savedValue s key) := by
  have part (key : Key) : key.part = folded key.part := key.folded_part.symm
  have defaultLocale : folded "default_locale" = "default_locale" := Key.folded_name .defaultLocale
  have escape : folded "escape" = "escape" := Key.folded_name .escape
  have strict : folded "strict" = "strict" := Key.folded_name .strict
  have directory : folded "dir" = "dir" := Key.folded_name .directory
  rw [overlay_savedLayer]
  cases key with
  | defaultLocale =>
    refine HoldsAt.setAt (HoldsAt.setAt (holdsAt_table (part .defaultLocale) ?_ ?_)
      (.outside (by decide))) (.outside (by decide))
    · simp [written, Key.name, defaultLocale, savedValue]
    · simp [IsTable]
  | escape =>
    refine HoldsAt.setAt (holdsAt_table (part .escape) ?_ ?_) (.outside (by decide))
    · simp [written, Key.name, escape, strict, savedValue]
    · simp [IsTable]
  | strict =>
    refine HoldsAt.setAt (holdsAt_table (part .strict) ?_ ?_) (.outside (by decide))
    · simp [written, Key.name, strict, savedValue]
    · simp [IsTable]
  | directory =>
    refine holdsAt_table (part .directory) ?_ ?_
    · simp [written, Key.name, directory, savedValue]
    · simp [IsTable]

theorem follows_savedValue (s : Settings) : s.Follows fun key => some (savedValue s key) where
  defaultLocale := rfl
  escape := by
    cases word : s.escape <;> simp only [settingOr, savedValue, word] <;> decide
  strict := rfl
  directory := rfl

theorem ofTree?_savedLayer (s : Settings) (root : Json) :
    ofTree? (overlay root (savedLayer s)) = some s := by
  have holds := holdsAt_savedLayer s root
  have tables : HasTables (overlay root (savedLayer s)) := by
    intro key j found
    obtain ⟨part, there, table, -⟩ := holds key
    rw [found, Option.some.injEq] at there
    exact there ▸ table
  have values : valueAt (overlay root (savedLayer s)) = fun key => some (savedValue s key) := by
    funext key
    exact (holds key).valueAt
  rw [ofTree?_eq_some_iff tables, values]
  exact follows_savedValue s

end Overriding

section Finding

variable {t t' : FileTree} {place : List String} {text name path stem : String} {format : Format}

theorem firstFile_eq_find? (t : FileTree) (candidates : List (String × Format)) :
    (firstFile t.disk candidates).run = candidates.find? fun c => t.isFile c.1 := by
  induction candidates with
  | nil => rfl
  | cons c rest ih =>
    obtain ⟨path, format⟩ := c
    rw [firstFile, Id.run_bind, List.find?_cons]
    cases file : t.isFile path with
    | true =>
      change (if t.isFile path = true then _ else _) = _
      rw [if_pos file]
      rfl
    | false =>
      change (if t.isFile path = true then _ else _) = _
      rw [if_neg (by simp [file])]
      exact ih

theorem findFile_eq (t : FileTree) (name : String) : (findFile t.disk name).run =
    if t.isFile (Path.join t.workingDirectory name) then
      ((Path.extension? (Path.join t.workingDirectory name)).bind Format.ofExtension?).map
        fun format => (Path.join t.workingDirectory name, format)
    else if (Path.fileName? (Path.join t.workingDirectory name)).isSome then
      (Format.all.map fun format =>
        (withExtension (Path.join t.workingDirectory name) format, format)).find?
          fun c => t.isFile c.1
    else none := by
  have folder : t.disk.workingDirectory = t.workingDirectory := rfl
  rw [findFile, folder, Id.run_bind, ← firstFile_eq_find?]
  change (if t.isFile (Path.join t.workingDirectory name) = true then _ else _ : Id _).run = _
  split
  · rfl
  · split
    · rfl
    · rfl

/-- What is found is a file, under its own name or with an extension more. -/
theorem findFile_eq_some (found : (findFile t.disk name).run = some (path, format)) :
    t.isFile path = true ∧ ((path = Path.join t.workingDirectory name ∧
      (Path.extension? path).bind Format.ofExtension? = some format) ∨
      t.isFile (Path.join t.workingDirectory name) = false ∧
      path = withExtension (Path.join t.workingDirectory name) format) := by
  rw [findFile_eq] at found
  split at found
  · next file =>
    obtain ⟨_, known, same⟩ := Option.map_eq_some_iff.mp found
    obtain ⟨rfl, rfl⟩ := Prod.mk.inj same
    exact ⟨file, .inl ⟨rfl, known⟩⟩
  · next none =>
    split at found
    · have file := List.find?_some found
      obtain ⟨_, -, same⟩ := List.mem_map.mp (List.mem_of_find?_eq_some found)
      obtain ⟨rfl, rfl⟩ := Prod.mk.inj same
      exact ⟨file, .inr ⟨by simpa using none, rfl⟩⟩
    · contradiction

/-- A file that is found elsewhere after writing was found before. -/
theorem findFile_of_puts (puts : t.Puts t' place text)
    (found : (findFile t'.disk name).run = some (path, format))
    (elsewhere : t.locate path ≠ .ok place) :
    (findFile t.disk name).run = some (path, format) := by
  -- Writing takes no file away, so the candidates that were passed over were no files before.
  have stays {p : String} (file : ¬ t'.isFile p = true) : ¬ t.isFile p = true :=
    fun before => file (puts.isFile.mpr (.inr before))
  have before : t.isFile path = true :=
    (puts.isFile.mp (findFile_eq_some found).1).resolve_left elsewhere
  rw [findFile_eq, puts.workingDirectory] at found
  rw [findFile_eq]
  split at found
  · obtain ⟨_, -, same⟩ := Option.map_eq_some_iff.mp found
    rw [if_pos (by rwa [(Prod.mk.inj same).1]), found]
  · next none =>
    rw [if_neg (stays none)]
    split at found
    · next named =>
      rw [if_pos named]
      obtain ⟨-, front, back, cut, others⟩ := List.find?_eq_some_iff_append.mp found
      refine List.find?_eq_some_iff_append.mpr ⟨before, front, back, cut, ?_⟩
      intro c member
      have missing := others c member
      simp only [Bool.not_eq_true'] at missing ⊢
      exact Bool.eq_false_iff.mpr (stays (Bool.eq_false_iff.mp missing))
    · contradiction

end Finding

section Loading

variable {t t' : FileTree} {place : List String} {text name path stem : String} {format : Format}

/-- The layer of a file can be had, if only because there is no such file. -/
def Loads (d : Disk Id) (name : String) : Prop := ∃ layer, (fileLayer d false name).run = .ok layer

theorem loads_iff : Loads t.disk name ↔ ∀ path format text,
    (findFile t.disk name).run = some (path, format) → t.read path = .ok text →
      (layerOfText? format (withoutMark text)).isSome = true := by
  have access (path : String) : (t.disk.read path).run = t.read path := rfl
  unfold Loads
  rw [fileLayer, Id.run_bind]
  cases found : (findFile t.disk name).run with
  | none => exact ⟨fun _ => nofun, fun _ => ⟨[], rfl⟩⟩
  | some candidate =>
    obtain ⟨path, format⟩ := candidate
    dsimp only
    rw [Id.run_bind, access]
    cases read : t.read path with
    | error e =>
      refine ⟨fun _ path' format' text same unread => ?_, fun _ => ⟨[], rfl⟩⟩
      cases same
      rw [read] at unread
      contradiction
    | ok text =>
      dsimp only
      constructor
      · rintro ⟨layer, made⟩ path' format' text' same read'
        cases same
        cases read.symm.trans read'
        cases parsed : layerOfText? format (withoutMark text) with
        | none =>
          rw [parsed] at made
          contradiction
        | some layer => rfl
      · intro made
        obtain ⟨layer, made⟩ := Option.isSome_iff_exists.mp (made path format text rfl read)
        exact ⟨layer, by rw [made]; rfl⟩

theorem extension?_of_toml (something : stem ≠ "")
    (ends : (Path.pieces path).getLast? = some (stem ++ ".toml"))
    (legal : Path.IsName (stem ++ ".toml")) : Path.extension? path = some "toml" := by
  have dotted : stem ++ ".toml" = stem ++ "." ++ "toml" := by
    rw [String.append_assoc]
    rfl
  rw [dotted] at ends legal
  exact Path.extension?_eq ends legal something (by decide)

variable (puts : t.Puts t' place s.fileText)
  (absolute : Path.isAbsolute t.workingDirectory = true)
  (last : place.getLast? = some (stem ++ ".toml")) (something : stem ≠ "")

include puts absolute last something

/-- The place of the saved file is not found as a file of another format. -/
theorem format_of_located (found : (findFile t'.disk name).run = some (path, format))
    (leads : t.locate path = .ok place) : format = .toml := by
  obtain ⟨-, led⟩ := FileTree.locate_eq_ok_iff.mp leads
  obtain ⟨whole, ends, same, legal⟩ := FileTree.last_of_follow led puts.free
  obtain rfl : stem ++ ".toml" = whole := by simpa [last] using same
  rcases (findFile_eq_some found).2 with ⟨rfl, known⟩ | ⟨-, rfl⟩
  · rw [puts.workingDirectory] at ends known
    rw [Path.join_join_of_absolute absolute] at ends
    rw [extension?_of_toml something ends legal] at known
    simpa [Format.ofExtension?, eq_comm] using known
  · cases format with
    | toml => rfl
    | json =>
      -- The last characters differ.
      have given : (stem ++ ".toml").toList.getLast? = some 'l' := by simp
      have taken := Path.getLast?_toList ends legal.ne.1
      rw [Path.getLast?_toList_join (by simp [withExtension]), given] at taken
      simp [withExtension, Format.extension] at taken

theorem loads_of_elsewhere (elsewhere : ∀ path format text,
    (findFile t'.disk name).run = some (path, format) → t.locate path ≠ .ok place →
      t'.read path = .ok text → (layerOfText? format (withoutMark text)).isSome = true) :
    Loads t'.disk name := by
  rw [loads_iff]
  intro path format text found read
  by_cases leads : t.locate path = .ok place
  · rw [puts.read leads, Except.ok.injEq] at read
    rw [format_of_located puts absolute last something found leads, ← read, withoutMark_fileText,
      layerOfText?_fileText]
    rfl
  · exact elsewhere path format text found leads read

/-- Saving spoils no other file. -/
theorem loads_of_puts (loads : Loads t.disk name) : Loads t'.disk name := by
  refine loads_of_elsewhere puts absolute last something ?_
  intro path format text found elsewhere read
  have before := findFile_of_puts puts found elsewhere
  rw [puts.read_of_ne (findFile_eq_some before).1 elsewhere] at read
  exact loads_iff.mp loads path format text before read

/-- The saved file loads under any path that leads to it. -/
theorem loads_of_located (located : t.locate name = .ok place) : Loads t'.disk name := by
  refine loads_of_elsewhere puts absolute last something ?_
  intro path format text found elsewhere read
  -- Whatever is found is the saved file: under the name itself the path leads there, and a name with
  -- an extension more is looked for only where the name itself is no file.
  exfalso
  obtain ⟨checked, led⟩ := FileTree.locate_eq_ok_iff.mp located
  have led' : t.follow (Path.join t.workingDirectory name) = .ok place := by
    rw [FileTree.follow_join_of_absolute absolute, led]
  obtain ⟨file, ⟨rfl, -⟩ | ⟨none, rfl⟩⟩ := findFile_eq_some found
  all_goals
    rw [puts.workingDirectory] at *
    obtain ⟨q, there, -⟩ := FileTree.isFile_iff.mp file
    obtain ⟨checked', leads⟩ := FileTree.locate_eq_ok_iff.mp (puts.locate.mp there)
  · exact elsewhere (FileTree.locate_eq_ok_iff.mpr ⟨checked', led'⟩)
  · obtain ⟨whole, ends, -, legal⟩ := FileTree.last_of_follow led puts.free
    rw [withExtension, Path.upToName_eq ends legal, String.append_assoc] at checked'
    have named : Path.join t.workingDirectory name ≠ "" := by
      intro empty
      have slash := Path.isAbsolute_join_of_absolute absolute name
      rw [empty] at slash
      exact Bool.false_ne_true slash
    have checked := FileTree.checkPath_of_append named checked'
    have written := puts.isFile.mpr (.inl (FileTree.locate_eq_ok_iff.mpr ⟨checked, led'⟩))
    exact Bool.false_ne_true (none.symm.trans written)

theorem fileLayer_of_puts (located : t.locate (Path.join t.workingDirectory name) = .ok place)
    (required : Bool) : (fileLayer t'.disk required name).run = .ok (savedLayer s) := by
  obtain ⟨-, led⟩ := FileTree.locate_eq_ok_iff.mp located
  obtain ⟨whole, ends, same, legal⟩ := FileTree.last_of_follow led puts.free
  obtain rfl : stem ++ ".toml" = whole := by simpa [last] using same
  rw [Path.join_join_of_absolute absolute] at ends
  have found : (findFile t'.disk name).run = some (Path.join t.workingDirectory name, .toml) := by
    rw [findFile_eq, puts.workingDirectory, if_pos (puts.isFile.mpr (.inl located)),
      extension?_of_toml something ends legal]
    rfl
  have read : (t'.disk.read (Path.join t.workingDirectory name)).run = .ok s.fileText :=
    puts.read located
  rw [fileLayer, Id.run_bind, found]
  dsimp only
  rw [Id.run_bind, read]
  dsimp only
  rw [withoutMark_fileText, layerOfText?_fileText]
  rfl

/-- Saving spoils none of the files that are looked for, the saved one included. -/
theorem lowerLayers_of_puts {configFolder : Option String}
    (loads : ∃ layers, lowerLayers t.disk configFolder = .ok layers) :
    ∃ layers, lowerLayers t'.disk configFolder = .ok layers := by
  unfold lowerLayers at loads ⊢
  rw [exists_fileLayers_iff] at loads ⊢
  simp only [fileNames, List.mem_append, Option.toList_none, List.map_nil, List.not_mem_nil,
    or_false, List.mem_map, Option.mem_toList] at loads ⊢
  rintro _ (⟨name, fixed, rfl⟩ | ⟨name, user, rfl⟩)
  · exact loads_of_puts puts absolute last something (loads _ (.inl ⟨name, fixed, rfl⟩))
  · obtain ⟨folder, present⟩ := Option.filter_eq_some_iff.mp user
    rcases puts.present present with located | before
    · exact loads_of_located puts absolute last something located
    · refine loads_of_puts puts absolute last something (loads _ (.inr ⟨name, ?_, rfl⟩))
      exact Option.filter_eq_some_iff.mpr ⟨folder, before⟩

end Loading

theorem layerOfEnvironment_eq_nil {environment : List (String × String)}
    (unset : ∀ entry ∈ environment, ¬ variableStart <+: (Text.lower entry.1.toList).toList) :
    layerOfEnvironment environment = [] := by
  refine List.filterMap_eq_nil_iff.mpr fun entry member => ?_
  rw [settingOf?, Option.map_eq_none_iff, Option.eq_none_iff_forall_ne_some]
  intro rest start
  rw [Text.strip?_eq_some] at start
  exact unset entry member (start ▸ List.prefix_append _ _)

theorem answerOf_savedLayer (s : Settings) (lower : List Layer) :
    answerOf (lower ++ [savedLayer s, []]) = .ok s := by
  rw [answerOf_eq_ok_iff, ofLayers?, List.foldl_append]
  exact ofTree?_savedLayer s _

/-- Settings that are saved to a file load back from it. -/
theorem load_saved {t t' : FileTree} {configFolder : Option String}
    {environment : List (String × String)} {front : String}
    (absolute : Path.isAbsolute t.workingDirectory = true) (named : Path.isOpen front = false)
    (short : FileTree.checkPath (Path.join t.workingDirectory (front ++ ".toml")) = .ok ())
    (saved : t.write (front ++ ".toml") s.fileText = .ok t')
    (unset : ∀ entry ∈ environment, ¬ variableStart <+: (Text.lower entry.1.toList).toList) :
    ((∃ layers, lowerLayers t.disk configFolder = .ok layers) →
      ∃ layers, lowerLayers t'.disk configFolder = .ok layers) ∧
    ((∃ layers, lowerLayers t'.disk configFolder = .ok layers) →
      (load t'.disk configFolder environment (some (front ++ ".toml"))).run = .ok s) := by
  obtain ⟨before, stem, ahead, clean, rfl⟩ := Path.exists_last front
  have something : stem ≠ "" := by
    rintro rfl
    rw [String.append_empty, ahead] at named
    contradiction
  obtain ⟨place, puts, located⟩ := FileTree.exists_puts saved
  obtain ⟨-, led⟩ := FileTree.locate_eq_ok_iff.mp located
  -- The new file has the last name of the path, whatever folders the path goes through.
  have last : place.getLast? = some (stem ++ ".toml") := by
    obtain ⟨whole, ends, same, -⟩ := FileTree.last_of_follow led puts.free
    rw [String.append_assoc, Path.getLast?_pieces_join ahead (by simp [clean]),
      Option.some.injEq] at ends
    rw [same, ends]
  refine ⟨lowerLayers_of_puts puts absolute last something, ?_⟩
  rintro ⟨lower, loaded⟩
  have located' : t.locate (Path.join t.workingDirectory (before ++ stem ++ ".toml")) = .ok place := by
    rw [FileTree.locate_eq_ok_iff, FileTree.follow_join_of_absolute absolute]
    exact ⟨short, led⟩
  have asked := fileLayer_of_puts puts absolute last something located' true
  rw [load_eq_lower, loaded, optionalLayer, asked, layerOfEnvironment_eq_nil unset]
  exact answerOf_savedLayer s lower

/-- A desk with settings of its own and room for a file. -/
def officeTree : FileTree where
  files := Table.ofList
    [(["var", "barber.toml"], .text "render.strict = false\n[templates]\ndir = \"x\"\n")]
  folders := []
  workingDirectory := "/var"

/-- Settings whose texts need quotes of different kinds. -/
def oddSettings : Settings := ⟨"\"\"\"'''\n\\", .html, true, "a'\\b\t\x7f"⟩

theorem load_saved_oddSettings : ∃ t', officeTree.write "own.toml" oddSettings.fileText = .ok t' ∧
    (∃ layers, lowerLayers officeTree.disk none = .ok layers) ∧
    (load t'.disk none [("HOME", "/var")] (some "own.toml")).run = .ok oddSettings := by
  have written : (officeTree.write "own.toml" oddSettings.fileText).toOption.isSome = true := by
    decide +kernel
  obtain ⟨t', saved⟩ := Option.isSome_iff_exists.mp written
  have saved := Result.toOption_eq_some.mp saved
  have short : FileTree.checkPath (Path.join officeTree.workingDirectory ("own" ++ ".toml")) = .ok () :=
    Result.toOption_eq_some.mp (by decide +kernel)
  have loads : (lowerLayers officeTree.disk none).toOption.isSome = true := by decide +kernel
  obtain ⟨layers, lower⟩ := Option.isSome_iff_exists.mp loads
  have lower : ∃ layers, lowerLayers officeTree.disk none = .ok layers :=
    ⟨layers, Result.toOption_eq_some.mp lower⟩
  obtain ⟨stays, loads⟩ := load_saved (by decide) (by decide) short saved
    (by decide +kernel : ∀ entry ∈ [("HOME", "/var")],
      ¬ variableStart <+: (Text.lower entry.1.toList).toList)
  exact ⟨t', saved, lower, loads (stays lower)⟩

/-- A place without files. -/
def blankTree : FileTree where
  files := Table.empty
  folders := []
  workingDirectory := "/"

/-- A file whose whole name is the ending has no extension, and variables count in any case. -/
theorem load_saved_unnamed_or_lowered :
    (∃ t', blankTree.write ".toml" standard.fileText = .ok t' ∧
      (lowerLayers t'.disk none).toOption = some [[], [], []] ∧
      (load t'.disk none [] (some ".toml")).run.toOption = none) ∧
    ∃ t', blankTree.write "own.toml" standard.fileText = .ok t' ∧
      (lowerLayers t'.disk none).toOption = some [[], [], []] ∧
      ¬ "BARBER__".toList <+: "barber__render__strict".toList ∧
      (load t'.disk none [("barber__render__strict", "true")] (some "own.toml")).run.toOption =
        some { standard with strict := true } := by
  have unnamed : blankTree.locateNew ".toml" = .ok [".toml"] :=
    Result.toOption_eq_some.mp (by decide +kernel)
  have own : blankTree.locateNew "own.toml" = .ok ["own.toml"] :=
    Result.toOption_eq_some.mp (by decide +kernel)
  refine ⟨⟨_, FileTree.write_eq_ok unnamed (by decide +kernel) _, ?_, ?_⟩,
    ⟨_, FileTree.write_eq_ok own (by decide +kernel) _, ?_, ?_, ?_⟩⟩
  all_goals decide +kernel

end Letterbook.Settings
