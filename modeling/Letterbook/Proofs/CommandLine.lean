import Letterbook.CommandLine
import Letterbook.Proofs.DeclaredFields
import Letterbook.Proofs.ManifestText
import Letterbook.Proofs.Views

/-! Commands that agree. Every command builds the registry anew from the same files, so what one lists
another one finds: the pairs and locales that a check prints are the pairs that are printed as targets,
and the documents that can be filled from the forms declared for them. What is printed for a filled
document is JSON that is read back. -/
namespace Letterbook.CommandLine

variable {t : FileTree} {around : Surroundings} {arguments : List String} {i : Invocation}
  {config manifests : Option String} {settings : Settings} {manifest : Manifest} {r : Registry}

/-- The settings and the manifest that a run in this tree works with. -/
structure Loads (t : FileTree) (around : Surroundings) (config manifests : Option String)
    (settings : Settings) (manifest : Manifest) : Prop where
  settled : Settings.load t.disk around.configFolder around.environment config = .ok settings
  gathered : Manifest.loadFolder t.disk
    (manifests.getD (settings.manifestFolder t.workingDirectory)) = .ok manifest

section Loading

theorem exists_loads (loaded : load t.disk around i = .ok r) :
    ∃ settings manifest, Loads t around i.config i.manifests settings manifest ∧
      registryOf settings manifest = .ok r := by
  have steps : (match Settings.load t.disk around.configFolder around.environment i.config with
      | .error e => .error [e.message]
      | .ok settings =>
        match Manifest.loadFolder t.disk
            (i.manifests.getD (settings.manifestFolder t.workingDirectory)) with
        | .error e => .error (("loading manifests from " ++
            i.manifests.getD (settings.manifestFolder t.workingDirectory)) :: e.messages)
        | .ok manifest => registryOf settings manifest) = (.ok r : Except Causes Registry) := loaded
  split at steps
  · contradiction
  · next settings settled =>
    split at steps
    · contradiction
    · next manifest gathered =>
      exact ⟨settings, manifest, ⟨settled, gathered⟩, steps⟩

/-- The draft that settings and a manifest make, and the registry that it becomes. -/
structure Makes (settings : Settings) (manifest : Manifest) (d : Draft) (r : Registry) : Prop where
  installed : ∃ locale, manifest.install
    ⟨.empty, [], Markup.engine settings.options, locale⟩ = .ok d
  built : d.build = .ok r

theorem exists_makes (made : registryOf settings manifest = .ok r) :
    ∃ d, Makes settings manifest d r := by
  obtain ⟨d₀, begun, made⟩ := Result.bind_eq_ok.mp made
  obtain ⟨locale, -, rfl⟩ := Result.map_eq_ok.mp (Result.mapError_eq_ok.mp begun)
  obtain ⟨d, installed, made⟩ := Result.bind_eq_ok.mp made
  exact ⟨d, ⟨locale, Result.mapError_eq_ok.mp installed⟩, Result.mapError_eq_ok.mp made⟩

theorem Makes.engine {d : Draft} (makes : Makes settings manifest d r) :
    d.engine = Markup.engine settings.options := by
  obtain ⟨locale, installed⟩ := makes.installed
  obtain ⟨forms, -, rfl⟩ := Manifest.install_eq_ok_iff.mp installed
  exact Manifest.engine_of_install forms

theorem load_congr {j : Invocation} (config : j.config = i.config)
    (manifests : j.manifests = i.manifests) : load t.disk around j = load t.disk around i := by
  rw [load, load, config, manifests]

theorem run_of_parse (asked : parse arguments = .ok (.run i)) :
    run t.disk around arguments =
      match load t.disk around i with
      | .error causes => outcomeOf (.error causes)
      | .ok r => outcomeOf (perform t.disk r i.command) := by
  rw [run, asked]
  rfl

theorem run_of_load (asked : parse arguments = .ok (.run i))
    (loaded : load t.disk around i = .ok r) :
    run t.disk around arguments = outcomeOf (perform t.disk r i.command) := by
  rw [run_of_parse asked, loaded]

/-- A command that ends with zero had its registry. -/
theorem exists_load_of_code (asked : parse arguments = .ok (.run i))
    (succeeded : (run t.disk around arguments).code = 0) : ∃ r, load t.disk around i = .ok r := by
  cases loaded : load t.disk around i with
  | ok r => exact ⟨r, rfl⟩
  | error causes =>
    rw [run_of_parse asked, loaded] at succeeded
    contradiction

end Loading

/-- Pairs, each with the locales that it has forms for. -/
abbrev Listing := List (Pair × List Locale)

/-- The key of a pair as it is printed. -/
def keyText (pair : Pair) : String := "Barber<" ++ pair.source ++ ", " ++ pair.target ++ ">"

/-- The line of a listed pair, with the tags of its locales in brackets. -/
def listingLine (e : Pair × List Locale) : String :=
  "  " ++ keyText e.1 ++ " [" ++ String.intercalate ", " (e.2.map Locale.tag) ++ "]"

def listing (r : Registry) : Listing := r.bindings.map fun b => (b.pair, r.locales b.pair)

section Listing

theorem map_fst_listing {d : Draft} (built : d.build = .ok r) :
    (listing r).map Prod.fst = r.index.keys := by
  rw [← Registry.map_pair_bindings built, listing, List.map_map]
  rfl

theorem mem_listing {d : Draft} (built : d.build = .ok r) {pair : Pair} {locales : List Locale} :
    (pair, locales) ∈ listing r ↔ pair ∈ r.index.keys ∧ locales = r.locales pair := by
  rw [← Registry.map_pair_bindings built, listing, List.mem_map, List.mem_map]
  constructor
  · rintro ⟨b, member, same⟩
    cases same
    exact ⟨⟨b, member, rfl⟩, rfl⟩
  · rintro ⟨⟨b, member, rfl⟩, rfl⟩
    exact ⟨b, member, rfl⟩

theorem checkText_eq (r : Registry) : checkText r =
    lines (("✅ " ++ toString r.documents.size ++ " Document(s), " ++ toString (listing r).length ++
      " Barber(s)") :: (listing r).map listingLine) := by
  rw [checkText, listing, List.length_map, List.map_map]
  rfl

theorem lines_map (line : α → String) (values : List α) :
    lines (values.map line) = String.join (values.map fun a => line a ++ "\n") := by
  rw [lines, List.map_map]
  rfl

theorem checkText_eq_join (r : Registry) : checkText r = String.join
    (("✅ " ++ toString r.documents.size ++ " Document(s), " ++ toString (listing r).length ++
      " Barber(s)\n") :: (listing r).map fun e => listingLine e ++ "\n") := by
  have header (front : String) : front ++ " Barber(s)" ++ "\n" = front ++ " Barber(s)\n" :=
    String.append_assoc
  rw [checkText_eq, lines, List.map_cons, List.map_map, header]
  rfl

theorem targetsText_none (r : Registry) :
    targetsText r none = String.join ((listing r).map fun e => keyText e.1 ++ "\n") := by
  rw [← lines_map, targetsText, listing, List.map_map]
  rfl

theorem targetsText_some {d : Draft} (built : d.build = .ok r) (source : String) :
    targetsText r (some source) = String.join
      (((listing r).filter fun e => e.1.source = source).map fun e => e.1.target ++ "\n") := by
  have filtered : ((listing r).filter fun e => e.1.source = source).map Prod.fst =
      r.index.keys.filter (·.source == source) := by
    rw [← map_fst_listing built, List.filter_map]
    rfl
  rw [← lines_map, targetsText, Registry.targets, ← filtered, List.map_map]
  rfl

end Listing

section Rendering

/-- What is rendered for a pair in a locale: the entry that is declared for just this place, with the
schema and the document of the pair. -/
structure Renders (settings : Settings) (manifest : Manifest) (place : Place) (p : PreparedForm)
    (document : Schema) : Prop where
  entry : ∃ e schema, manifest.forms.filter (·.Declares place) = [e] ∧
    manifest.schemas.find? place.source = some schema ∧
    (e.form schema).PreparedAs (Markup.engine settings.options) p
  document : (manifest.documents.filter (·.name = place.target)).getLast? = some document

/-- The tag that is printed for a locale is read as this locale, which was itself read from a tag. -/
theorem Renders.parse?_tag {place : Place} {p : PreparedForm} {document : Schema}
    (renders : Renders settings manifest place p document) (read : manifest.HasReadLocales) :
    Locale.parse? place.locale.tag = some place.locale := by
  obtain ⟨e, schema, one, -, prepared⟩ := renders.entry
  have declared : e ∈ manifest.forms.filter (·.Declares place) := one ▸ List.mem_singleton_self e
  obtain ⟨listed, declares⟩ := List.mem_filter.mp declared
  obtain ⟨tag, given⟩ := read e listed
  have same : e.locale = place.locale := (of_decide_eq_true declares).2.2
  exact Locale.parse?_tag (same ▸ given)

/-- The JSON of a filled document: its locale by its tag, and each field with its text or with null. -/
def documentJson (x : Filled) : Json :=
  .obj [("fields", .obj (x.fields.entries.map fun e => (e.1, (e.2.map Json.str).getD .null))),
    ("locale", .str x.locale.tag)]

/-- A run prints the document that this form fills from the data, or it fails with the message of
the first field that does. -/
def FillsOrFails (p : PreparedForm) (document : Schema) (data : Json) (outcome : Outcome) : Prop :=
  (∃ x out, outcome = ⟨0, out, ""⟩ ∧ Json.parse out = .ok (documentJson x) ∧
    x.Shows p document data) ∨
  ∃ name message, p.FailsFirst data document.fieldNames (.field name message) ∧
    outcome = ⟨1, "", "Failed to render field [" ++ name ++ "]: " ++ message ++ "\n"⟩

/-- The same JSON as it is written, with its locale first. -/
def writtenJson (x : Filled) : Json :=
  .obj [("locale", .str x.locale.tag), ("fields", textsToJson x.fields)]

theorem filledText_eq (x : Filled) : filledText x = (writtenJson x).pretty ++ "\n" := by
  simp [filledText, writtenJson, lines, Locale.toJson]

theorem numberless_writtenJson (x : Filled) : (writtenJson x).numberless = true := by
  apply Json.numberlessMembers_iff.mpr
  simp [numberless_textsToJson]

/-- When it is read, the members stand in the order of their names. -/
theorem toJson?_writtenJson (x : Filled) :
    (writtenJson x).reading.toJson? Json.Reading.depthLimit = .ok (documentJson x) := by
  have sorted : documentJson x =
      .object [("locale", .str x.locale.tag), ("fields", textsToJson x.fields)] := by
    rw [documentJson, ← textsToJson_eq, Json.object]
    cbv
  have texts := toJson?_textsToJson x.fields 125
  rw [sorted]
  simp [writtenJson, Json.reading, Json.readingMembers, Json.Reading.depthLimit,
    Json.Reading.toJson?, Json.Reading.toMembers?, texts, bind, Except.bind, Except.map]

theorem parse_filledText (x : Filled) : Json.parse (filledText x) = .ok (documentJson x) := by
  rw [filledText_eq, Json.parse, Json.readText_pretty (numberless_writtenJson x)]
  simp only [toJson?_writtenJson, bind, Except.bind]

theorem exists_renders {d : Draft} (makes : Makes settings manifest d r) {pair : Pair}
    {l : Locale} (member : l ∈ r.locales pair) :
    ∃ b p, r.binding pair = .ok b ∧ b.resolve l = .ok p ∧ p.locale = l ∧
      Renders settings manifest (pair.place l) p b.document := by
  obtain ⟨p, held⟩ := Registry.mem_locales.mp member
  have locale := Registry.locale_of_held? makes.built held
  have key : pair ∈ r.index.keys := by
    obtain ⟨forms, indexed, -⟩ := Option.bind_eq_some_iff.mp held
    exact Table.mem_keys.mpr ⟨forms, indexed⟩
  obtain ⟨b, bound⟩ := (Registry.exists_binding_iff_mem_keys makes.built).mpr key
  have resolved : b.resolve l = .ok p := by
    apply Binding.resolve_of_find?
    rw [Registry.find?_forms bound, held]
  refine ⟨b, p, bound, resolved, locale, ?_, ?_⟩
  · obtain ⟨default, installed⟩ := makes.installed
    rw [← makes.engine]
    exact Manifest.exists_entry_of_held? installed rfl makes.built held
  · obtain ⟨default, installed⟩ := makes.installed
    obtain ⟨forms, -, rfl⟩ := Manifest.install_eq_ok_iff.mp installed
    rw [← Registry.document_of_binding makes.built bound]
    rw [Manifest.find?_documents_of_install]
    exact Option.or_none.symm

theorem outcomeOf_error (cause : String) :
    outcomeOf (.error [cause]) = ⟨1, "", cause ++ "\n"⟩ := by
  simp [outcomeOf, lines]

theorem fillText_fillsOrFails {pair : Pair} {l : Locale} {b : Binding} {p : PreparedForm}
    {text : String} {data : Json} (parsed : Json.parse text = .ok data)
    (bound : r.binding pair = .ok b) (resolved : b.resolve l = .ok p) :
    FillsOrFails p b.document data (outcomeOf (fillText r pair l text)) := by
  have filling : fillText r pair l text = match b.fill data l with
      | .ok x => .ok (filledText x)
      | .error e => .error [e.message] := by
    rw [fillText, parsed, bound]
    simp only [Except.mapError, bind, Except.bind]
    cases b.fill data l <;> rfl
  have fills := Binding.fillsBy_of_resolve resolved data
  rw [filling]
  cases filled : b.fill data l with
  | ok x => exact .inl ⟨x, filledText x, rfl, parse_filledText x, fills.filled x filled⟩
  | error e =>
    have first := (fills.fails_iff e).mp filled
    obtain ⟨name, message, rfl⟩ := first.exists_field
    exact .inr ⟨name, message, first, outcomeOf_error _⟩

theorem perform_render {pair : Pair} {l : Locale} {tag file text : String}
    (spelled : Locale.parse? tag = some l) (read : t.read file = .ok text) :
    perform t.disk r (.render pair.source pair.target tag file) = fillText r pair l text := by
  have found : t.disk.read file = .ok text := read
  simp only [perform, Locale.parse, spelled, bind, found]
  rfl

end Rendering

/-- What the commands do in a tree whose pairs and locales are those of a listing. -/
structure Serves (t : FileTree) (around : Surroundings) (config manifests : Option String)
    (settings : Settings) (manifest : Manifest) (listing : Listing) : Prop where
  check : ∃ documents : Nat, ∀ arguments, parse arguments = .ok (.run ⟨config, manifests, .check⟩) →
    run t.disk around arguments = (⟨0, String.join
      (("✅ " ++ toString documents ++ " Document(s), " ++ toString listing.length ++
        " Barber(s)\n") :: listing.map fun e => listingLine e ++ "\n"), ""⟩ : Outcome)
  targets : ∀ arguments, parse arguments = .ok (.run ⟨config, manifests, .targets none⟩) →
    run t.disk around arguments =
      (⟨0, String.join (listing.map fun e => keyText e.1 ++ "\n"), ""⟩ : Outcome)
  targetsOf : ∀ arguments source,
    parse arguments = .ok (.run ⟨config, manifests, .targets (some source)⟩) →
    run t.disk around arguments = (⟨0, String.join
      ((listing.filter fun e => e.1.source = source).map fun e => e.1.target ++ "\n"), ""⟩ : Outcome)
  render : ∀ pair locales, (pair, locales) ∈ listing → ∀ l ∈ locales,
    ∃ p document, Renders settings manifest (pair.place l) p document ∧ p.locale = l ∧
      ∀ arguments file text data, parse arguments =
        .ok (.run ⟨config, manifests, .render pair.source pair.target l.tag file⟩) →
      t.read file = .ok text → Json.parse text = .ok data →
      FillsOrFails p document data (run t.disk around arguments)

/-- The pairs and locales that a check lists are those that the other commands find in the same tree.
Every listed locale is found again under the tag that is printed for it. -/
theorem serves_of_check (asked : parse arguments = .ok (.run ⟨config, manifests, .check⟩))
    (succeeded : (run t.disk around arguments).code = 0) :
    ∃ settings manifest listing, Loads t around config manifests settings manifest ∧
      Serves t around config manifests settings manifest listing := by
  obtain ⟨r, loaded⟩ := exists_load_of_code asked succeeded
  obtain ⟨settings, manifest, loads, made⟩ := exists_loads loaded
  obtain ⟨d, makes⟩ := exists_makes made
  -- What is loaded does not depend on the command, so each of them has this registry.
  have load (c : Command) : load t.disk around ⟨config, manifests, c⟩ = .ok r := by
    rw [← loaded]
    exact load_congr rfl rfl
  refine ⟨settings, manifest, listing r, loads, ?_, ?_, ?_, ?_⟩
  · refine ⟨r.documents.size, fun arguments asked => ?_⟩
    rw [run_of_load asked (load _), ← checkText_eq_join]
    rfl
  · intro arguments asked
    rw [run_of_load asked (load _), ← targetsText_none]
    rfl
  · intro arguments source asked
    rw [run_of_load asked (load _), ← targetsText_some makes.built]
    rfl
  · intro pair locales listed l member
    obtain ⟨-, rfl⟩ := (mem_listing makes.built).mp listed
    obtain ⟨b, p, bound, resolved, locale, renders⟩ := exists_renders makes member
    refine ⟨p, b.document, renders, locale, ?_⟩
    intro arguments file text data asked read parsed
    have spelled := renders.parse?_tag (Manifest.hasReadLocales_of_loadFolder loads.gathered)
    have performed : perform t.disk r (.render pair.source pair.target l.tag file) =
        fillText r pair l text := perform_render spelled read
    rw [run_of_load asked (load _), performed]
    exact fillText_fillsOrFails parsed bound resolved

/-- A tree with one manifest, whose records are written as lists of their fields, and the data of a
guest. The letter in German calls an unknown helper. -/
def guestTree : FileTree where
  files := Table.ofList [
    (["ann.json"], .text "\x7b\"name\": \"Ann\"\x7d"),
    (["templates", "guests.json"], .text
      ("[[[\"Letter\",[[\"body\"]]]],[[\"Guest\",[[\"name\"]]],[\"Visit\",[]]]," ++
        "[[\"Guest\",[\"Letter\"],\"EN_us\",\x7b\"body\":\"Dear \x7b\x7bname\x7d\x7d\"\x7d]," ++
        "[\"Guest\",[\"Letter\"],\"de\",\x7b\"body\":\"\x7b\x7bshout name\x7d\x7d\"\x7d]," ++
        "[\"Visit\",[\"Letter\"],\"de\",\x7b\"body\":null\x7d]]]"))]
  folders := []
  workingDirectory := "/"

def guestRun (arguments : List String) : Outcome := run guestTree.disk ⟨none, []⟩ arguments

/-- Arguments of runs in this tree, each with what the run prints and the code it ends with. -/
def guestRuns : List (List String × Outcome) := [
  (["check"], ⟨0, "✅ 1 Document(s), 2 Barber(s)\n" ++
    "  Barber<Guest, Letter> [de, en-US]\n  Barber<Visit, Letter> [de]\n", ""⟩),
  (["targets"], ⟨0, "Barber<Guest, Letter>\nBarber<Visit, Letter>\n", ""⟩),
  (["targets", "--source", "Visit"], ⟨0, "Letter\n", ""⟩),
  (["render", "-s", "Guest", "-T", "Letter", "-l", "en-US", "-d", "ann.json"],
    ⟨0, "\x7b\n  \"locale\": \"en-US\",\n" ++
      "  \"fields\": \x7b\n    \"body\": \"Dear Ann\"\n  \x7d\n\x7d\n", ""⟩),
  (["render", "-s", "Guest", "-T", "Letter", "-l", "de", "-d", "ann.json"],
    ⟨1, "", "Failed to render field [body]: " ++
      "Error rendering \"Unnamed template\" line 1, col 1: Helper not found shout\n"⟩)]

theorem serves_guestTree : parse ["check"] = .ok (.run ⟨none, none, .check⟩) ∧
    (∀ e ∈ guestRuns, guestRun e.1 = e.2) ∧
    ∃ settings manifest listing, Loads guestTree ⟨none, []⟩ none none settings manifest ∧
      Serves guestTree ⟨none, []⟩ none none settings manifest listing := by
  have asked : parse ["check"] = .ok (.run ⟨none, none, .check⟩) := by decide +kernel
  have same : ∀ e ∈ guestRuns, guestRun e.1 = e.2 := by decide +kernel
  have printed : guestRun ["check"] = _ := same _ List.mem_cons_self
  have succeeded : (guestRun ["check"]).code = 0 := by rw [printed]
  exact ⟨asked, same, serves_of_check asked succeeded⟩

end Letterbook.CommandLine
