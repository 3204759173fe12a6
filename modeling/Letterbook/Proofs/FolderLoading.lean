import Letterbook.Proofs.FileTree
import Letterbook.Proofs.Merging

/-! Folders of manifests that are loaded. The files of manifests at or below a path have one ascending
order, in which they are loaded, whatever the order of the walk; so the result depends on them alone,
and it is their merge or the error of the first that fails. -/
namespace Letterbook

/-- The disk has the files of the tree, and walks over them in an order of its own. -/
structure Disk.Shows (d : Disk Id) (t : FileTree) : Prop where
  read : d.read = t.read
  isFile : d.isFile = t.isFile
  walk : ∀ path, (d.walk path).run.Perm (t.walk path)

namespace Manifest

variable {t t' : FileTree} {d d' : Disk Id} {path p : String} {files files' : List String}
  {done m : Manifest} {e : LoadError}

section Ordering

/-- The extension is one of the two formats. -/
def HasFormat (p : String) : Prop :=
  Path.extension? p = some "toml" ∨ Path.extension? p = some "json"

instance (p : String) : Decidable (HasFormat p) := inferInstanceAs (Decidable (_ ∨ _))

/-- The files of manifests at or below a path, in ascending order of the names on their paths. -/
structure Lists (t : FileTree) (path : String) (files : List String) : Prop where
  mem_iff : ∀ p, p ∈ files ↔ Path.Below path p ∧ t.isFile p = true ∧ HasFormat p
  ascending : files.Pairwise fun p q => compare (Path.names p) (Path.names q) = .lt

theorem compare_names_swap (p q : String) : compare (Path.names p) (Path.names q) =
    (compare (Path.names q) (Path.names p)).swap := Std.OrientedCmp.eq_swap

/-- There is one such list only. -/
theorem Lists.eq_of_mem_iff (first : Lists t path files) (second : Lists t' path files')
    (same : ∀ p, p ∈ files ↔ p ∈ files') : files = files' := by
  have nodup {t : FileTree} {files : List String} (lists : Lists t path files) : files.Nodup := by
    refine lists.ascending.imp ?_
    rintro p q below rfl
    have self : compare (Path.names p) (Path.names p) = .eq := Std.ReflCmp.compare_self
    rw [self] at below
    contradiction
  refine List.Perm.eq_of_pairwise ?_ first.ascending second.ascending
    ((List.perm_ext_iff_of_nodup (nodup first) (nodup second)).mpr same)
  intro p q _ _ less greater
  rw [compare_names_swap, less] at greater
  contradiction

theorem isManifestPath_iff : isManifestPath p = true ↔ HasFormat p := by
  simp [isManifestPath, HasFormat]

theorem manifestPaths_perm (paths : List String) :
    (manifestPaths paths).Perm (paths.filter isManifestPath) :=
  List.mergeSort_perm _ _

theorem manifestPaths_sorted (paths : List String) : (manifestPaths paths).Pairwise fun p q =>
    (compare (Path.names p) (Path.names q)).isLE = true := by
  refine List.pairwise_mergeSort (fun a b c => Std.TransCmp.isLE_trans) (fun a b => ?_) _
  rw [compare_names_swap b a]
  cases compare (Path.names a) (Path.names b) <;> rfl

theorem manifestPaths_ascending {paths : List String} (inside : ∀ p ∈ paths, Path.Below path p)
    (nodup : paths.Nodup) :
    (manifestPaths paths).Pairwise fun p q => compare (Path.names p) (Path.names q) = .lt := by
  have perm := manifestPaths_perm paths
  have distinct : (manifestPaths paths).Nodup := perm.nodup_iff.mpr (nodup.filter _)
  have below {p : String} (member : p ∈ manifestPaths paths) : Path.Below path p :=
    inside p (List.mem_filter.mp (perm.mem_iff.mp member)).1
  -- Of two different paths below the same one, the names differ.
  refine ((manifestPaths_sorted paths).and distinct).imp_of_mem ?_
  rintro p q member member' ⟨le, different⟩
  cases order : compare (Path.names p) (Path.names q) with
  | lt => rfl
  | eq =>
    have named := Std.LawfulEqCmp.eq_of_compare order
    exact absurd ((below member).eq_of_names (below member') named) different
  | gt =>
    rw [order] at le
    contradiction

/-- Paths of different names have one ascending order. -/
theorem manifestPaths_eq {paths : List String} (perm : (paths.filter isManifestPath).Perm files)
    (ascending : files.Pairwise fun p q => compare (Path.names p) (Path.names q) = .lt) :
    manifestPaths paths = files := by
  have whole := (manifestPaths_perm paths).trans perm
  have sorted : files.Pairwise fun p q => (compare (Path.names p) (Path.names q)).isLE = true :=
    ascending.imp fun less => by rw [less]; rfl
  have apart : files.Pairwise fun p q => compare (Path.names p) (Path.names q) ≠ .eq :=
    ascending.imp fun less => by rw [less]; nofun
  have symmetric : Std.Symm fun p q => compare (Path.names p) (Path.names q) ≠ .eq := by
    refine ⟨fun p q differ same => differ ?_⟩
    rw [compare_names_swap, same]
    rfl
  refine whole.eq_of_pairwise ?_ (manifestPaths_sorted paths) sorted
  intro p q member member' le ge
  by_contra different
  exact apart.forall (whole.mem_iff.mp member) member' different
    (Std.OrientedCmp.isLE_antisymm le ge)

theorem lists_manifestPaths (named : t.WellNamed) {paths : List String}
    (walked : paths.Perm (t.walk path)) : Lists t path (manifestPaths (paths.filter t.isFile)) := by
  constructor
  case mem_iff =>
    intro p
    rw [(manifestPaths_perm _).mem_iff, List.mem_filter, List.mem_filter, walked.mem_iff,
      isManifestPath_iff, and_assoc]
    constructor
    · rintro ⟨member, file, extension⟩
      exact ⟨FileTree.below_of_mem_walk named member, file, extension⟩
    · rintro ⟨inside, file, extension⟩
      exact ⟨FileTree.mem_walk_of_isFile inside file, file, extension⟩
  case ascending =>
    have nodup : paths.Nodup := walked.nodup_iff.mpr (FileTree.walk_nodup named path)
    have inside : ∀ p ∈ paths.filter t.isFile, Path.Below path p := by
      intro p member
      exact FileTree.below_of_mem_walk named (walked.mem_iff.mp (List.mem_filter.mp member).1)
    exact manifestPaths_ascending inside (nodup.filter _)

end Ordering

section Loading

theorem filterAuxM_id (keeps : String → Id Bool) (paths before : List String) :
    (List.filterAuxM keeps paths before).run =
      (paths.filter fun p => (keeps p).run).reverse ++ before := by
  induction paths generalizing before with
  | nil => rfl
  | cons p rest ih =>
    have step : (List.filterAuxM keeps (p :: rest) before).run =
        (List.filterAuxM keeps rest (cond (keeps p).run (p :: before) before)).run := rfl
    rw [step, ih, List.filter_cons]
    cases (keeps p).run <;> simp

theorem loadFolder_eq (shows : d.Shows t) (path : String) : loadFolder d path =
    loadFiles d (manifestPaths ((d.walk path).run.filter t.isFile)) .empty := by
  have kept : ((d.walk path).run.filterM d.isFile).run = (d.walk path).run.filter t.isFile := by
    have turned : ((d.walk path).run.filterM d.isFile).run =
        (List.filterAuxM d.isFile (d.walk path).run []).run.reverse := rfl
    rw [turned, filterAuxM_id, List.append_nil, List.reverse_reverse, shows.isFile]
    rfl
  rw [← kept]
  rfl

theorem loadFolder_eq_loadFiles (shows : d.Shows t)
    (perm : (((t.walk path).filter t.isFile).filter isManifestPath).Perm files)
    (ascending : files.Pairwise fun p q => compare (Path.names p) (Path.names q) = .lt) :
    loadFolder d path = loadFiles d files .empty := by
  have walked := ((shows.walk path).filter t.isFile).filter isManifestPath
  rw [loadFolder_eq shows, manifestPaths_eq (walked.trans perm) ascending]

theorem loadFiles_cons (d : Disk Id) (p : String) (rest : List String) (done : Manifest) :
    loadFiles d (p :: rest) done = match (loadFile d p).run with
      | .error e => .error e
      | .ok next => loadFiles d rest (done.merge next) := rfl

/-- Files are loaded one after the other, and then merged. -/
theorem loadFiles_eq_mapM (d : Disk Id) (files : List String) (done : Manifest) :
    loadFiles d files done =
      (files.mapM fun p => (loadFile d p).run).map fun parts => parts.foldl merge done := by
  induction files generalizing done with
  | nil => rfl
  | cons p rest ih =>
    rw [loadFiles_cons, List.mapM_cons]
    cases (loadFile d p).run with
    | error e => rfl
    | ok next =>
      dsimp only
      rw [ih]
      cases rest.mapM fun p => (loadFile d p).run <;> rfl

theorem loadFile_eq (d : Disk Id) (p : String) : loadFile d p = match (d.read p).run with
    | .error e => .error (.unread e)
    | .ok text => (ofText (Path.extension? p) text).mapError (.invalid p) := by
  simp only [loadFile, bind]
  cases d.read p <;> rfl

theorem loadFile_congr (same : d.read p = d'.read p) : loadFile d p = loadFile d' p := by
  rw [loadFile_eq, loadFile_eq, same]

theorem loadFiles_congr (same : ∀ p ∈ files, d.read p = d'.read p) (done : Manifest) :
    loadFiles d files done = loadFiles d' files done := by
  induction files generalizing done with
  | nil => rfl
  | cons p rest ih =>
    obtain ⟨first, others⟩ := List.forall_mem_cons.mp same
    rw [loadFiles_cons, loadFiles_cons, loadFile_congr first]
    cases (loadFile d' p).run with
    | error e => rfl
    | ok next => exact ih others (done.merge next)

/-- The file is read, and its text is this manifest in the format of its extension. -/
inductive Holds (t : FileTree) (p : String) (m : Manifest) : Prop
  | toml {text : String} (read : t.read p = .ok text)
    (extension : Path.extension? p = some "toml") (parsed : ofTomlText? text = some m)
  | json {text : String} (read : t.read p = .ok text)
    (extension : Path.extension? p = some "json") (parsed : ofJsonText text = .ok m)

/-- The file cannot be read, it has neither extension, or its text is no manifest in the format of
its extension. -/
inductive Fails (t : FileTree) (p : String) : LoadError → Prop
  | unread {error : ReadError} (read : t.read p = .error error) : Fails t p (.unread error)
  | format {text : String} (read : t.read p = .ok text) (other : ¬ HasFormat p) :
    Fails t p (.invalid p .format)
  | toml {text : String} (read : t.read p = .ok text)
    (extension : Path.extension? p = some "toml") (refused : ofTomlText? text = none) :
    Fails t p (.invalid p .toml)
  | json {text : String} {misfit : Json.Misfit} (read : t.read p = .ok text)
    (extension : Path.extension? p = some "json") (refused : ofJsonText text = .error misfit) :
    Fails t p (.invalid p (.json misfit))

theorem loadFile_of_read {text : String} (read : t.read p = .ok text) :
    loadFile t.disk p = (ofText (Path.extension? p) text).mapError (.invalid p) := by
  have found : (t.disk.read p).run = .ok text := read
  rw [loadFile_eq, found]

theorem loadFile_of_holds (holds : Holds t p m) : loadFile t.disk p = .ok m := by
  cases holds with
  | toml read extension parsed =>
    rw [loadFile_of_read read, extension, ofText, parsed]
    rfl
  | json read extension parsed =>
    rw [loadFile_of_read read, extension, ofText, parsed]
    rfl

theorem ofText_eq_format (other : ¬ HasFormat p) (text : String) :
    ofText (Path.extension? p) text = .error .format := by
  obtain ⟨toml, json⟩ := not_or.mp other
  rw [ofText]
  · exact toml
  · exact json

theorem loadFile_of_fails (fails : Fails t p e) : loadFile t.disk p = .error e := by
  cases fails with
  | @unread error read =>
    have failed : (t.disk.read p).run = .error error := read
    rw [loadFile_eq, failed]
  | @format text read other =>
    rw [loadFile_of_read read, ofText_eq_format other]
    rfl
  | toml read extension refused =>
    rw [loadFile_of_read read, extension, ofText, refused]
    rfl
  | json read extension refused =>
    rw [loadFile_of_read read, extension, ofText, refused]
    rfl

theorem holds_or_fails (t : FileTree) (p : String) : (∃ m, Holds t p m) ∨ ∃ e, Fails t p e := by
  cases read : t.read p with
  | error error => exact .inr ⟨_, .unread read⟩
  | ok text =>
    by_cases manifest : HasFormat p
    · rcases manifest with extension | extension
      · cases parsed : ofTomlText? text with
        | some m => exact .inl ⟨m, .toml read extension parsed⟩
        | none => exact .inr ⟨_, .toml read extension parsed⟩
      · cases parsed : ofJsonText text with
        | ok m => exact .inl ⟨m, .json read extension parsed⟩
        | error misfit => exact .inr ⟨_, .json read extension parsed⟩
    · exact .inr ⟨_, .format read manifest⟩

theorem loadFile_eq_ok_iff : loadFile t.disk p = .ok m ↔ Holds t p m := by
  refine ⟨fun loaded => ?_, loadFile_of_holds⟩
  rcases holds_or_fails t p with ⟨m', holds⟩ | ⟨e, fails⟩
  · cases (loadFile_of_holds holds).symm.trans loaded
    exact holds
  · cases (loadFile_of_fails fails).symm.trans loaded

theorem loadFile_eq_error_iff : loadFile t.disk p = .error e ↔ Fails t p e := by
  refine ⟨fun failed => ?_, loadFile_of_fails⟩
  rcases holds_or_fails t p with ⟨m, holds⟩ | ⟨e', fails⟩
  · cases (loadFile_of_holds holds).symm.trans failed
  · cases (loadFile_of_fails fails).symm.trans failed
    exact fails

/-- What comes of these files in their order: what they all declare, file after file, or the error
of the first that holds no manifest. -/
structure MergesFiles (t : FileTree) (files : List String) (result : Except LoadError Manifest) :
    Prop where
  ok_iff : ∀ m, result = .ok m ↔ ∃ parts, List.Forall₂ (Holds t) files parts ∧
    m = ⟨parts.flatMap documents, parts.flatMap sources, parts.flatMap forms⟩
  error_iff : ∀ e, result = .error e ↔ ∃ before p after, files = before ++ p :: after ∧
    (∀ q ∈ before, ∃ m, Holds t q m) ∧ Fails t p e

theorem mergeAll_eq (parts : List Manifest) : mergeAll parts =
    ⟨parts.flatMap documents, parts.flatMap sources, parts.flatMap forms⟩ := by
  rw [← documents_mergeAll, ← sources_mergeAll, ← forms_mergeAll]

theorem mergesFiles_of_loadFiles (read : d.read = t.read) (files : List String) :
    MergesFiles t files (loadFiles d files .empty) := by
  have same : loadFiles d files .empty = loadFiles t.disk files .empty :=
    loadFiles_congr (fun p _ => congrFun read p) .empty
  rw [same, loadFiles_eq_mapM]
  constructor
  case ok_iff =>
    intro m
    have held : Holds t = fun p m => loadFile t.disk p = .ok m := by
      funext p m
      exact propext loadFile_eq_ok_iff.symm
    simp only [Result.map_eq_ok, Result.mapM_eq_ok_iff, held, ← mergeAll_eq, eq_comm (a := m)]
    rfl
  case error_iff =>
    intro e
    simp only [Result.map_eq_error, Result.mapM_eq_error_iff, ← loadFile_eq_ok_iff,
      ← loadFile_eq_error_iff]
    rfl

theorem MergesFiles.ne_format {result : Except LoadError Manifest}
    (merges : MergesFiles t files result) (lists : Lists t path files) (q : String) :
    result ≠ .error (.invalid q .format) := by
  intro failed
  obtain ⟨before, p, after, rfl, -, fails⟩ := (merges.error_iff _).mp failed
  obtain ⟨-, -, manifest⟩ := (lists.mem_iff p).mp (by simp)
  cases fails with
  | format read other => exact other manifest

end Loading

section Changing

/-- The path leads to the same place in both trees, and below it they have the same files of
manifests. Nothing is said of other files, or of folders. -/
structure SameManifests (t t' : FileTree) (path : String) : Prop where
  locate : t'.locate path = t.locate path
  find? : ∀ place names, t.locate path = .ok place → (∀ name ∈ names, Path.IsName name) →
    HasFormat (Path.below path names) → t'.files.find? (place ++ names) = t.files.find? (place ++ names)

theorem SameManifests.refl (t : FileTree) (path : String) : SameManifests t t path :=
  ⟨rfl, fun _ _ _ _ _ => rfl⟩

theorem SameManifests.symm (same : SameManifests t t' path) : SameManifests t' t path := by
  refine ⟨same.locate.symm, fun place names located legal manifest => ?_⟩
  exact (same.find? place names (same.locate ▸ located) legal manifest).symm

theorem SameManifests.isFile (same : SameManifests t t' path) (inside : Path.Below path p)
    (manifest : HasFormat p) (file : t.isFile p = true) :
    t'.isFile p = true ∧ t'.read p = t.read p := by
  obtain ⟨something, names, legal, rfl⟩ := inside
  obtain ⟨q, located, member⟩ := FileTree.isFile_iff.mp file
  obtain ⟨place, here, rfl⟩ := FileTree.locate_below something legal located
  obtain ⟨content, found⟩ := Table.mem_keys.mp member
  have found' := (same.find? place names here legal manifest).trans found
  have member' := Table.mem_keys.mpr ⟨content, found'⟩
  have located' := FileTree.locate_below_transfer something legal same.locate located member'
  have read := FileTree.read_congr located' located found' found
  exact ⟨FileTree.isFile_iff.mpr ⟨_, located', member'⟩, read⟩

theorem Lists.eq_of_sameManifests (first : Lists t path files) (second : Lists t' path files')
    (same : SameManifests t t' path) : files = files' := by
  refine first.eq_of_mem_iff second fun p => ?_
  rw [first.mem_iff, second.mem_iff]
  constructor
  · rintro ⟨inside, file, extension⟩
    exact ⟨inside, (same.isFile inside extension file).1, extension⟩
  · rintro ⟨inside, file, extension⟩
    exact ⟨inside, (same.symm.isFile inside extension file).1, extension⟩

theorem loadFolder_eq_of_sameManifests (named : t.WellNamed) (named' : t'.WellNamed)
    (shows : d.Shows t) (shows' : d'.Shows t') (same : SameManifests t t' path) :
    loadFolder d' path = loadFolder d path := by
  have lists := lists_manifestPaths named (shows.walk path)
  have lists' := lists_manifestPaths named' (shows'.walk path)
  rw [loadFolder_eq shows, loadFolder_eq shows', ← lists.eq_of_sameManifests lists' same]
  refine loadFiles_congr (fun p member => ?_) .empty
  obtain ⟨inside, file, extension⟩ := (lists.mem_iff p).mp member
  rw [shows.read, shows'.read]
  exact (same.isFile inside extension file).2

end Changing

/-- A folder is the merge of the files of manifests in it and below, whatever the order of the walk,
and no change to anything else in the tree is noticed. -/
theorem loadFolder_by_manifests (named : t.WellNamed) (shows : d.Shows t) (path : String) :
    (∃ files, Lists t path files ∧ MergesFiles t files (loadFolder d path)) ∧
    (∀ q, loadFolder d path ≠ .error (.invalid q .format)) ∧
    (∀ d', d'.Shows t → loadFolder d' path = loadFolder d path) ∧
    ∀ t' d', t'.WellNamed → d'.Shows t' → SameManifests t t' path →
      loadFolder d' path = loadFolder d path := by
  have lists := lists_manifestPaths named (shows.walk path)
  have merges := mergesFiles_of_loadFiles shows.read
    (manifestPaths ((d.walk path).run.filter t.isFile))
  rw [← loadFolder_eq shows] at merges
  refine ⟨⟨_, lists, merges⟩, merges.ne_format lists, ?_, ?_⟩
  · intro d' shows'
    exact loadFolder_eq_of_sameManifests named named shows shows' (SameManifests.refl t path)
  · intro t' d' named' shows' same
    exact loadFolder_eq_of_sameManifests named named' shows shows' same

/-- Two manifests, of which the one in the inner folder comes first, and a file and a folder that
are none. -/
def letterTree : FileTree where
  files := Table.ofList [
    (["letters", "a.json"], .text "\x7b\"sources\": [[\"Visit\", []]]\x7d"),
    (["letters", "a", "z.toml"], .text "[[sources]]\nname = \"Guest\"\nfields = [[\"name\"]]\n"),
    (["letters", "notes.txt"], .binary)]
  folders := [["letters", "old.json"]]
  workingDirectory := "/"

/-- The same manifests beside other things. -/
def tidyTree : FileTree where
  files := letterTree.files.insert ["letters", "notes.txt"] (.text "none")
  folders := [["letters", "b"]]
  workingDirectory := "/"

/-- A disk that walks backwards. -/
def backwards (t : FileTree) : Disk Id :=
  { t.disk with walk := fun path => (t.walk path).reverse }

theorem backwards_shows (t : FileTree) : (backwards t).Shows t :=
  ⟨rfl, rfl, fun _ => List.reverse_perm _⟩

theorem sameManifests_tidyTree : SameManifests letterTree tidyTree "letters" := by
  have located : letterTree.locate "letters" = .ok ["letters"] := rfl
  constructor
  case locate => rfl
  case find? =>
    intro place names here legal manifest
    cases located.symm.trans here
    apply Table.find?_insert_of_ne
    -- The one entry that was replaced is not that of a manifest.
    intro same
    cases same
    exact absurd manifest (by decide +kernel)

/-- The inner manifest can be read, the next one is no JSON, and the last one is no text. -/
def brokenTree : FileTree where
  files := (letterTree.files.insert ["letters", "a.json"] (.text "\x7b")).insert
    ["letters", "b.toml"] .binary
  folders := []
  workingDirectory := "/"

theorem loadFolder_letters : letterTree.WellNamed ∧ (backwards letterTree).Shows letterTree ∧
    (∃ files, Lists letterTree "letters" files ∧
      MergesFiles letterTree files (loadFolder (backwards letterTree) "letters")) ∧
    loadFolder letterTree.disk "letters" = loadFolder (backwards letterTree) "letters" ∧
    tidyTree.WellNamed ∧ SameManifests letterTree tidyTree "letters" ∧
    loadFolder tidyTree.disk "letters" = loadFolder (backwards letterTree) "letters" ∧
    loadFolder (backwards letterTree) "letters" =
      .ok ⟨[], [⟨"Guest", [⟨"name", false⟩]⟩, ⟨"Visit", []⟩], []⟩ ∧
    loadFolder (backwards brokenTree) "letters" =
      .error (.invalid "letters/a.json" (.json (.text .truncated))) := by
  have named : letterTree.WellNamed := by decide +kernel
  have named' : tidyTree.WellNamed := by decide +kernel
  have shows := backwards_shows letterTree
  have shown (t : FileTree) : t.disk.Shows t := ⟨rfl, rfl, fun _ => List.Perm.refl _⟩
  have same := sameManifests_tidyTree
  obtain ⟨merged, -, reordered, unchanged⟩ := loadFolder_by_manifests named shows "letters"
  have whole : loadFolder (backwards letterTree) "letters" =
      loadFiles (backwards letterTree) ["letters/a/z.toml", "letters/a.json"] .empty :=
    loadFolder_eq_loadFiles shows (by decide +kernel) (by decide +kernel)
  have broken : loadFolder (backwards brokenTree) "letters" =
      loadFiles (backwards brokenTree) ["letters/a/z.toml", "letters/a.json", "letters/b.toml"] .empty :=
    loadFolder_eq_loadFiles (backwards_shows brokenTree) (by decide +kernel) (by decide +kernel)
  refine ⟨named, shows, merged, reordered _ (shown _), named', same,
    unchanged _ _ named' (shown _) same, ?_, ?_⟩
  -- The results stand under the identity monad, where no instance is found for them.
  · rw [whole]
    change @Eq (Except LoadError Manifest) _ _
    decide +kernel
  · rw [broken]
    change @Eq (Except LoadError Manifest) _ _
    decide +kernel

end Manifest
end Letterbook
