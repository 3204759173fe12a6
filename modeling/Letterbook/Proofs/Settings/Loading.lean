import Letterbook.Proofs.Results
import Letterbook.Settings.Files

/-! How loading puts its sources together. The files that are not asked for come first, then the one
that is, then the environment, and an absent file is as good as an empty layer. -/
namespace Letterbook.Settings

/-- The layer of a file that there is to look for, or none. -/
def optionalLayer (d : Disk Id) (required : Bool) : Option String → Except LoadError Layer
  | none => .ok []
  | some name => (fileLayer d required name).run

/-- The file of the user, if there is one. -/
def userFile? (d : Disk Id) (configFolder : Option String) : Option String :=
  (configFolder.map userFile).filter fun file => (d.present file).run

/-- The layers of the files that are looked for without being asked for. -/
def lowerLayers (d : Disk Id) (configFolder : Option String) : Except LoadError (List Layer) :=
  (fileLayers d (fileNames (userFile? d configFolder) none)).run

/-- The settings of some layers, as loading answers. -/
def answerOf (layers : List Layer) : Except LoadError Settings :=
  match ofLayers? layers with
  | some s => .ok s
  | none => .error .shape

variable {d : Disk Id} {configFolder : Option String} {environment : List (String × String)}
  {path : Option String} {layers : List Layer} {s : Settings}

theorem answerOf_eq_ok_iff : answerOf layers = .ok s ↔ ofLayers? layers = some s := by
  unfold answerOf
  cases ofLayers? layers <;> simp

theorem answerOf_append_nil (layers more : List Layer) :
    answerOf (layers ++ [] :: more) = answerOf (layers ++ more) := by
  simp only [answerOf, ofLayers?, List.foldl_append, List.foldl_cons]
  rfl

theorem fileLayers_cons (d : Disk Id) (required : Bool) (name : String)
    (rest : List (Bool × String)) : (fileLayers d ((required, name) :: rest)).run =
      (fileLayer d required name).run >>= fun layer =>
        (fileLayers d rest).run.map fun layers => layer :: layers := by
  rw [fileLayers, Id.run_bind]
  cases (fileLayer d required name).run with
  | error e => rfl
  | ok layer =>
    dsimp only
    rw [Id.run_bind]
    cases (fileLayers d rest).run <;> rfl

theorem fileLayers_append (d : Disk Id) (names more : List (Bool × String)) :
    (fileLayers d (names ++ more)).run =
      (fileLayers d names).run >>= fun layers =>
        (fileLayers d more).run.map fun others => layers ++ others := by
  induction names with
  | nil =>
    rw [List.nil_append]
    change _ = (fileLayers d more).run.map fun others => others
    cases (fileLayers d more).run <;> rfl
  | cons entry rest ih =>
    obtain ⟨required, name⟩ := entry
    rw [List.cons_append, fileLayers_cons, fileLayers_cons, ih]
    cases (fileLayer d required name).run with
    | error e => rfl
    | ok layer => cases (fileLayers d rest).run with
      | error e => rfl
      | ok layers => cases (fileLayers d more).run <;> rfl

/-- Some files can be loaded exactly if each of them can. -/
theorem exists_fileLayers_iff {names : List (Bool × String)} :
    (∃ layers, (fileLayers d names).run = .ok layers) ↔
      ∀ entry ∈ names, ∃ layer, (fileLayer d entry.1 entry.2).run = .ok layer := by
  induction names with
  | nil => simp [fileLayers, pure, Id.run]
  | cons entry rest ih =>
    rw [fileLayers_cons, List.forall_mem_cons, ← ih]
    simp only [Result.bind_eq_ok, Result.map_eq_ok]
    constructor
    · rintro ⟨_, layer, first, layers, later, -⟩
      exact ⟨⟨layer, first⟩, layers, later⟩
    · rintro ⟨⟨layer, first⟩, layers, later⟩
      exact ⟨_, layer, first, layers, later, rfl⟩

/-- An absent source is as good as an empty layer. -/
theorem fileLayers_optional (d : Disk Id) (required : Bool) (file : Option String) :
    (fileLayers d (file.toList.map (required, ·))).run =
      (optionalLayer d required file).map fun layer => if file.isSome then [layer] else [] := by
  cases file with
  | none => rfl
  | some name =>
    rw [Option.toList_some, List.map_singleton, fileLayers_cons]
    change _ = (fileLayer d required name).run.map fun layer => [layer]
    cases (fileLayer d required name).run <;> rfl

theorem load_eq (d : Disk Id) (configFolder : Option String) (environment : List (String × String))
    (path : Option String) : (load d configFolder environment path).run =
      (fileLayers d (fileNames (userFile? d configFolder) path)).run >>= fun layers =>
        answerOf (layers ++ [layerOfEnvironment environment]) := by
  cases configFolder
  all_goals
    simp only [load, Option.map_none, Option.map_some, pure_bind, Id.run_bind, userFile?,
      Option.filter_none, Option.filter_some]
    generalize (fileLayers d (fileNames _ path)).run = made
    cases made with
    | error e => rfl
    | ok layers =>
      change _ = answerOf (layers ++ [layerOfEnvironment environment])
      unfold answerOf
      dsimp only
      cases ofLayers? (layers ++ [layerOfEnvironment environment]) <;> rfl

/-- The lower files are loaded first, then the one that is asked for, and then the settings are
taken from all. -/
theorem load_eq_lower (d : Disk Id) (configFolder : Option String)
    (environment : List (String × String)) (path : Option String) :
    (load d configFolder environment path).run =
      lowerLayers d configFolder >>= fun lower =>
        optionalLayer d true path >>= fun asked =>
          answerOf (lower ++ [asked, layerOfEnvironment environment]) := by
  have names : fileNames (userFile? d configFolder) path =
      fileNames (userFile? d configFolder) none ++ path.toList.map (true, ·) := by
    simp [fileNames]
  rw [load_eq, names, fileLayers_append, ← lowerLayers, fileLayers_optional]
  cases lowerLayers d configFolder with
  | error e => rfl
  | ok lower => cases path with
    | none =>
      change answerOf ((lower ++ []) ++ _) = answerOf (lower ++ [] :: _)
      rw [List.append_nil, answerOf_append_nil]
    | some name =>
      cases asked : optionalLayer d true (some name) with
      | error e => rfl
      | ok layer =>
        change answerOf ((lower ++ [layer]) ++ _) = answerOf (lower ++ _)
        rw [List.append_assoc]
        rfl

end Letterbook.Settings
