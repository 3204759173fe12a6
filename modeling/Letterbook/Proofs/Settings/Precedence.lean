import Letterbook.Disk.Tree
import Letterbook.Json.Equality
import Letterbook.Proofs.Results
import Letterbook.Proofs.Settings.Layering
import Letterbook.Proofs.Settings.Loading

/-! Which source a setting comes from. Of the sources of settings the highest that has a key decides
it, key by key, and a key that none has stands at its standard value. -/
namespace Letterbook.Settings

/-- The layers of all sources, each empty where the source is absent. -/
structure Layers where
  environment : Layer
  asked : Layer
  user : Layer
  folder : Layer
  hidden : Layer
  plain : Layer

namespace Layers

/-- The highest source comes first. -/
def ranked (l : Layers) : List Layer :=
  [l.environment, l.asked, l.user, l.folder, l.hidden, l.plain]

/-- The value of the highest source that has the key. -/
def value? (l : Layers) (key : Key) : Option Json := l.ranked.findSome? (·.value? key)

end Layers

/-- The layers are those of the environment and of the files on the disk. -/
structure Layers.AreFound (l : Layers) (d : Disk Id) (configFolder : Option String)
    (environment : List (String × String)) (path : Option String) : Prop where
  environment : l.environment = layerOfEnvironment environment
  asked : optionalLayer d true path = .ok l.asked
  user : optionalLayer d false (userFile? d configFolder) = .ok l.user
  folder : (fileLayer d false "config/barber.toml").run = .ok l.folder
  hidden : (fileLayer d false ".barber.toml").run = .ok l.hidden
  plain : (fileLayer d false "barber.toml").run = .ok l.plain

section Loading

variable {d : Disk Id} {configFolder : Option String} {environment : List (String × String)}
  {path : Option String} {l : Layers} {s : Settings}

theorem lowerLayers_of_areFound (found : l.AreFound d configFolder environment path) :
    ∃ own, lowerLayers d configFolder = .ok ([l.plain, l.hidden, l.folder] ++ own) ∧
      ∀ root, own.foldl overlay root = overlay root l.user := by
  have names : fileNames (userFile? d configFolder) none =
      [(false, "barber.toml"), (false, ".barber.toml"), (false, "config/barber.toml")] ++
        (userFile? d configFolder).toList.map (false, ·) := by
    simp [fileNames, fixedNames]
  refine ⟨if (userFile? d configFolder).isSome then [l.user] else [], ?_, ?_⟩
  · rw [lowerLayers, names, fileLayers_append, fileLayers_optional, found.user, fileLayers_cons,
      found.plain, fileLayers_cons, found.hidden, fileLayers_cons, found.folder]
    rfl
  · intro root
    cases file : userFile? d configFolder with
    | some name => rfl
    | none =>
      have read := found.user
      rw [file, optionalLayer, Except.ok.injEq] at read
      rw [← read]
      rfl

theorem load_of_areFound (found : l.AreFound d configFolder environment path) :
    (load d configFolder environment path).run = answerOf l.ranked.reverse := by
  obtain ⟨own, lower, user⟩ := lowerLayers_of_areFound found
  rw [load_eq_lower, lower, found.asked, ← found.environment]
  change answerOf _ = answerOf _
  simp only [answerOf, ofLayers?, Layers.ranked, List.reverse_cons, List.reverse_nil,
    List.nil_append, List.cons_append, List.foldl_cons, List.foldl_nil, List.foldl_append, user]

theorem load_eq_ok_iff (found : l.AreFound d configFolder environment path)
    (keyed : ∀ layer ∈ l.ranked, layer.IsKeyed) :
    (load d configFolder environment path).run = .ok s ↔ s.Follows l.value? := by
  have keyed' : ∀ layer ∈ l.ranked.reverse, layer.IsKeyed := by simpa using keyed
  rw [load_of_areFound found, answerOf_eq_ok_iff, ofLayers?_eq_some_iff keyed', List.reverse_reverse]
  rfl

end Loading

/-- A value that some layer has by itself has a meaning if each layer alone has one. -/
theorem exists_settingOr {read? : Json → Option α} {standard : α} {key : Key} {layers : List Layer}
    (each : ∀ layer ∈ layers, ∃ a, settingOr read? standard (layer.value? key) = some a) :
    ∃ a, settingOr read? standard (layers.findSome? (·.value? key)) = some a := by
  induction layers with
  | nil => exact ⟨standard, rfl⟩
  | cons layer rest ih =>
    obtain ⟨first, later⟩ := List.forall_mem_cons.mp each
    rw [List.findSome?_cons]
    cases there : layer.value? key with
    | none => exact ih later
    | some j => rwa [there] at first

theorem exists_follows {l : Layers}
    (decode : ∀ layer ∈ l.ranked, ∃ s : Settings, s.Follows layer.value?) :
    ∃ s : Settings, s.Follows l.value? := by
  obtain ⟨defaultLocale, h₁⟩ := exists_settingOr fun layer listed =>
    (decode layer listed).imp' _ fun s follows => follows.defaultLocale
  obtain ⟨escape, h₂⟩ := exists_settingOr fun layer listed =>
    (decode layer listed).imp' _ fun s follows => follows.escape
  obtain ⟨strict, h₃⟩ := exists_settingOr fun layer listed =>
    (decode layer listed).imp' _ fun s follows => follows.strict
  obtain ⟨directory, h₄⟩ := exists_settingOr fun layer listed =>
    (decode layer listed).imp' _ fun s follows => follows.directory
  exact ⟨⟨defaultLocale, escape, strict, directory⟩, h₁, h₂, h₃, h₄⟩

/-- Settings have the values of the highest sources that have their keys, and where each layer by
itself is one of settings, so are all together. -/
theorem load_by_layers {d : Disk Id} {configFolder : Option String}
    {environment : List (String × String)} {path : Option String} {l : Layers}
    (found : l.AreFound d configFolder environment path)
    (keyed : ∀ layer ∈ l.ranked, layer.IsKeyed) :
    (∀ s, (load d configFolder environment path).run = .ok s ↔ s.Follows l.value?) ∧
    ((∀ layer ∈ l.ranked, ∃ s, ofLayers? [layer] = some s) →
      ∃ s, (load d configFolder environment path).run = .ok s) := by
  refine ⟨fun s => load_eq_ok_iff found keyed, fun decode => ?_⟩
  have each : ∀ layer ∈ l.ranked, ∃ s : Settings, s.Follows layer.value? := by
    intro layer listed
    obtain ⟨s, alone⟩ := decode layer listed
    have keyedAlone : ∀ layer' ∈ [layer], layer'.IsKeyed := by simpa using keyed layer listed
    have follows := (ofLayers?_eq_some_iff keyedAlone).mp alone
    exact ⟨s, by simpa using follows⟩
  obtain ⟨s, follows⟩ := exists_follows each
  exact ⟨s, (load_eq_ok_iff found keyed).mpr follows⟩

/-- Files that set some of the settings, each in part. -/
def deskTree : FileTree where
  files := Table.ofList [
    (["barber.toml"], .text ("[barbershop]\ndefault_locale = \"de\"\n" ++
      "[render]\nescape = \"html\"\nstrict = true\n")),
    ([".barber.toml"], .text "[Render]\nSTRICT = \"no\"\nfont = 1\n"),
    (["etc", "barber", "barber.toml"], .text "[templates]\ndir = \"mine\"\n"),
    (["own.json"], .text "\x7b\"templates\": \x7b\"dir\": \"forms\"\x7d, \"other\": []\x7d")]
  folders := []
  workingDirectory := "/"

def deskEnvironment : List (String × String) :=
  [("HOME", "/"), ("BARBER__BARBERSHOP__DEFAULT_LOCALE", "007")]

def deskLayers : Layers where
  environment := [("barbershop.default_locale", .num (.int 7))]
  asked := [("other", .arr []), ("templates", .obj [("dir", .str "forms")])]
  user := [("templates", .obj [("dir", .str "mine")])]
  folder := []
  hidden := [("Render", .obj [("STRICT", .str "no"), ("font", .num (.int 1))])]
  plain := [("barbershop", .obj [("default_locale", .str "de")]),
    ("render", .obj [("escape", .str "html"), ("strict", .bool true)])]

theorem areFound_deskLayers :
    deskLayers.AreFound deskTree.disk (some "/etc") deskEnvironment (some "own") where
  environment := by decide +kernel
  asked := Result.toOption_eq_some.mp (by decide +kernel)
  user := Result.toOption_eq_some.mp (by decide +kernel)
  folder := Result.toOption_eq_some.mp (by decide +kernel)
  hidden := Result.toOption_eq_some.mp (by decide +kernel)
  plain := Result.toOption_eq_some.mp (by decide +kernel)

theorem isKeyed_deskLayers : ∀ layer ∈ deskLayers.ranked, layer.IsKeyed := by
  have barbershop : placeOf "barbershop" = [.member "barbershop"] := placeOf_part .defaultLocale
  have render : placeOf "render" = [.member "render"] := placeOf_part .escape
  have templates : placeOf "templates" = [.member "templates"] := placeOf_part .directory
  have inside : placeOf "barbershop.default_locale" =
      [.member "barbershop", .member "default_locale"] := placeOf_setting .defaultLocale
  have other : placeOf "other" = [.member "other"] := rfl
  have capital : placeOf "Render" = [.member "Render"] := rfl
  simp only [Layers.ranked, deskLayers, Layer.IsKeyed, List.forall_mem_cons, List.not_mem_nil,
    IsEmpty.forall_iff, implies_true, and_true]
  rw [barbershop, other, render, capital, templates, inside]
  exact ⟨.setting (by decide), ⟨.outside (by decide), .table (by decide)⟩, .table (by decide),
    trivial, .table (by decide), .table (by decide), .table (by decide)⟩

theorem load_deskTree :
    deskLayers.AreFound deskTree.disk (some "/etc") deskEnvironment (some "own") ∧
    (∀ layer ∈ deskLayers.ranked, layer.IsKeyed) ∧
    (∀ layer ∈ deskLayers.ranked, ∃ s, ofLayers? [layer] = some s) ∧
    (load deskTree.disk (some "/etc") deskEnvironment (some "own")).run =
      .ok ⟨"7", .html, false, "forms"⟩ := by
  have found := areFound_deskLayers
  have keyed := isKeyed_deskLayers
  have decode : ∀ layer ∈ deskLayers.ranked, ∃ s, ofLayers? [layer] = some s := by
    have each : ∀ layer ∈ deskLayers.ranked, (ofLayers? [layer]).isSome := by decide +kernel
    exact fun layer listed => Option.isSome_iff_exists.mp (each layer listed)
  have follows : Follows ⟨"7", .html, false, "forms"⟩ deskLayers.value? := by
    constructor <;> decide +kernel
  exact ⟨found, keyed, decode, ((load_by_layers found keyed).1 _).mpr follows⟩

/-- Two files in the working directory. -/
def stackedTree (plain hidden : String) : FileTree where
  files := Table.ofList [(["barber.toml"], .text plain), ([".barber.toml"], .text hidden)]
  folders := []
  workingDirectory := "/"

/-- A table of a section under a list of its fields. -/
def listedTree : FileTree := stackedTree "[render]\nstrict = true\n" "render = [\"html\"]\n"

/-- Two ways of escaping as tables with a word for the key. -/
def wordTree : FileTree :=
  stackedTree "[render.escape]\nhtml = 1\n" "[render.escape]\nnone = 1\n"

def listedLayers : Layers :=
  ⟨[], [], [], [], [("render", .arr [.str "html"])], [("render", .obj [("strict", .bool true)])]⟩

def wordLayers : Layers :=
  ⟨[], [], [], [], [("render", .obj [("escape", .obj [("none", .num (.int 1))])])],
    [("render", .obj [("escape", .obj [("html", .num (.int 1))])])]⟩

/-- A list replaces a section with all its keys, and tables of words are merged. -/
theorem load_listed_or_words :
    (listedLayers.AreFound listedTree.disk none [] none ∧
      (∀ layer ∈ listedLayers.ranked, (ofLayers? [layer]).isSome) ∧
      listedLayers.value? .strict = some (.bool true) ∧
      (load listedTree.disk none [] none).run.toOption = some ⟨"en-US", .html, false, "templates"⟩) ∧
    wordLayers.AreFound wordTree.disk none [] none ∧
    (∀ layer ∈ wordLayers.ranked, (ofLayers? [layer]).isSome) ∧
    (wordLayers.value? .escape).bind escaping? = some .none ∧
    (load wordTree.disk none [] none).run.toOption = none := by
  have found : listedLayers.AreFound listedTree.disk none [] none := by
    constructor
    case environment => rfl
    all_goals exact Result.toOption_eq_some.mp (by decide +kernel)
  have found' : wordLayers.AreFound wordTree.disk none [] none := by
    constructor
    case environment => rfl
    all_goals exact Result.toOption_eq_some.mp (by decide +kernel)
  exact ⟨⟨found, by decide +kernel, by decide +kernel, by decide +kernel⟩, found',
    by decide +kernel, by decide +kernel, by decide +kernel⟩

end Letterbook.Settings
