import Mathlib.Data.List.Forall2
import Letterbook.Disk.Tree
import Letterbook.Manifest.Files
import Letterbook.Proofs.Decoding
import Letterbook.Proofs.InstallOrder

/-! Manifests that are installed. Every entry becomes one form, with the schema that is declared under
its name, so what a registry holds at a place comes from the one entry that declares it. Entries that
were loaded have locales that were read from tags. -/
namespace Letterbook

open Json.Decoder (Yields yields_true yields_spelled yields_record Slot.keeps_ofField)

namespace FormEntry

/-- The entry asks for this place. -/
def Declares (e : FormEntry) (place : Place) : Prop :=
  e.source = place.source ∧ place.target ∈ e.targets.toList ∧ e.locale = place.locale

instance (e : FormEntry) (place : Place) : Decidable (e.Declares place) :=
  inferInstanceAs (Decidable (_ ∧ _ ∧ _))

/-- The form of the entry with the schema that it names. -/
def Becomes (schemas : Table String Schema) (e : FormEntry) (f : Form) : Prop :=
  ∃ source, schemas.find? e.source = some source ∧ f = e.form source

/-- The form of an entry whose source is looked up. -/
def resolve (schemas : Table String Schema) (e : FormEntry) : Except Undeclared Form :=
  match schemas.find? e.source with
  | none => .error ⟨e.source⟩
  | some source => .ok (e.form source)

theorem resolve_eq_ok_iff {schemas : Table String Schema} {e : FormEntry} {f : Form} :
    e.resolve schemas = .ok f ↔ e.Becomes schemas f := by
  unfold resolve Becomes
  cases schemas.find? e.source <;> simp [eq_comm]

/-- The locale of the entry was read from some tag. -/
def HasReadLocale (e : FormEntry) : Prop := ∃ tag, Locale.parse? tag = some e.locale

def Members.HasReadLocale (m : Members) : Prop :=
  ∀ l, m.locale = some l → ∃ tag, Locale.parse? tag = some l

theorem yields_decoder (extensible : Bool) : (decoder extensible).Yields HasReadLocale := by
  refine yields_record (show Members.HasReadLocale _ from ?start) ?keeps ?finish
  case start =>
    intro l none
    contradiction
  case keeps =>
    simp only [List.forall_mem_cons, List.not_mem_nil, false_implies, implies_true, and_true]
    refine ⟨?_, ?_, ?_, ?_⟩
    · exact Slot.keeps_ofField (yields_true _) fun s a read _ => read
    · exact Slot.keeps_ofField (yields_true _) fun s a read _ => read
    · refine Slot.keeps_ofField (yields_spelled Locale.parse?) fun s a _ spelled l same => ?_
      cases same
      exact spelled
    · exact Slot.keeps_ofField (yields_true _) fun s a read _ => read
  case finish =>
    intro m e read finished
    simp only [Members.held?, bind, Option.bind_eq_some_iff, pure, Option.some.injEq] at finished
    obtain ⟨source, -, targets, -, locale, given, rfl⟩ := finished
    exact read locale given

end FormEntry

namespace Manifest

variable {m : Manifest} {schemas : Table String Schema} {entries : List FormEntry}
  {forms : List Form}

def HasReadLocales (m : Manifest) : Prop := ∀ e ∈ m.forms, e.HasReadLocale

section Reading

def Members.HasReadLocales (m : Members) : Prop :=
  ∀ forms, m.forms = some forms → ∀ e ∈ forms, e.HasReadLocale

theorem yields_decoder (extensible : Bool) : (decoder extensible).Yields HasReadLocales := by
  refine yields_record (show Members.HasReadLocales _ from ?start) ?keeps ?finish
  case start =>
    intro forms none
    contradiction
  case keeps =>
    simp only [List.forall_mem_cons, List.not_mem_nil, false_implies, implies_true, and_true]
    refine ⟨?_, ?_, ?_⟩
    · exact Slot.keeps_ofField (yields_true _) fun s a read _ => read
    · exact Slot.keeps_ofField (yields_true _) fun s a read _ => read
    · refine Slot.keeps_ofField (FormEntry.yields_decoder extensible).list
        fun s a _ each forms same => ?_
      cases same
      exact each
  case finish =>
    intro members m read finished
    cases finished
    intro e member
    cases given : members.forms with
    | none => simp [Members.manifest, given] at member
    | some forms =>
      have listed : e ∈ forms := by simpa [Members.manifest, given] using member
      exact read forms given e listed

theorem hasReadLocales_of_ofText {extension : Option String} {text : String}
    (read : ofText extension text = .ok m) : m.HasReadLocales := by
  unfold ofText at read
  split at read
  · split at read
    · next m' found =>
      cases read
      obtain ⟨r, -, decoded⟩ := Option.bind_eq_some_iff.mp found
      exact yields_decoder true r m (Result.toOption_eq_some.mp decoded)
    · contradiction
  · obtain ⟨m', decoded, ended⟩ := Result.bind_eq_ok.mp (Result.mapError_eq_ok.mp read)
    split at ended
    · cases ended
      exact yields_decoder false _ m decoded
    · contradiction
  · contradiction

theorem HasReadLocales.merge {a b : Manifest} (first : a.HasReadLocales)
    (second : b.HasReadLocales) : (a.merge b).HasReadLocales := by
  intro e member
  rcases List.mem_append.mp member with member | member
  · exact first e member
  · exact second e member

theorem hasReadLocales_of_loadFile {t : FileTree} {path : String}
    (loaded : loadFile t.disk path = .ok m) : m.HasReadLocales := by
  cases read : t.disk.read path with
  | error e =>
    have refused : loadFile t.disk path = .error (.unread e) := by
      simp only [loadFile, bind, read]
      rfl
    rw [refused] at loaded
    contradiction
  | ok text =>
    have taken : loadFile t.disk path =
        (ofText (Path.extension? path) text).mapError (.invalid path) := by
      simp only [loadFile, bind, read]
      rfl
    rw [taken] at loaded
    exact hasReadLocales_of_ofText (Result.mapError_eq_ok.mp loaded)

/-- Files that are loaded one after the other add entries with read locales to those before. -/
theorem hasReadLocales_of_loadFiles {t : FileTree} {paths : List String} {done : Manifest}
    (before : done.HasReadLocales) (loaded : loadFiles t.disk paths done = .ok m) :
    m.HasReadLocales := by
  induction paths generalizing done with
  | nil =>
    cases loaded
    exact before
  | cons path rest ih =>
    have read : (match loadFile t.disk path with
        | .error e => .error e
        | .ok next => loadFiles t.disk rest (done.merge next)) = Except.ok m := loaded
    split at read
    · contradiction
    · next next first =>
      exact ih (before.merge (hasReadLocales_of_loadFile first)) read

theorem hasReadLocales_of_loadFolder {t : FileTree} {path : String}
    (loaded : loadFolder t.disk path = .ok m) : m.HasReadLocales := by
  have nothing : empty.HasReadLocales := by
    intro e member
    contradiction
  exact hasReadLocales_of_loadFiles nothing loaded

end Reading

section Installing

theorem find?_schemas {name : String} {schema : Schema}
    (found : m.schemas.find? name = some schema) : schema ∈ m.sources ∧ schema.name = name := by
  obtain ⟨source, member, same⟩ := List.mem_map.mp (Table.mem_of_find?_ofList found)
  cases same
  exact ⟨member, rfl⟩

theorem resolve_eq_mapM (schemas : Table String Schema) (entries : List FormEntry) :
    resolve schemas entries = entries.mapM (FormEntry.resolve schemas) := by
  induction entries with
  | nil => rfl
  | cons e rest ih =>
    rw [resolve, List.mapM_cons, FormEntry.resolve, ih]
    cases schemas.find? e.source <;> rfl

theorem resolve_eq_ok_iff : resolve schemas entries = .ok forms ↔
    List.Forall₂ (FormEntry.Becomes schemas) entries forms := by
  simp only [resolve_eq_mapM, Result.mapM_eq_ok_iff, FormEntry.resolve_eq_ok_iff]

/-- The calls that install a manifest whose forms have been resolved. -/
def installs (m : Manifest) (forms : List Form) : List Install :=
  m.documents.map .document ++ forms.map .form

theorem install_eq_ok_iff {d₀ d : Draft} : m.install d₀ = .ok d ↔
    ∃ forms, List.Forall₂ (FormEntry.Becomes m.schemas) m.forms forms ∧
      d₀.installAll (m.installs forms) = d := by
  have calls (forms : List Form) : d₀.installAll (m.installs forms) =
      forms.foldl Draft.installForm (m.documents.foldl Draft.installDocument d₀) := by
    rw [Draft.installAll, installs, List.foldl_append, List.foldl_map, List.foldl_map]
    rfl
  simp only [install, Result.map_eq_ok, resolve_eq_ok_iff, calls]

variable {d₀ d : Draft}

theorem forms_of_install (forms : List Form) :
    (d₀.installAll (m.installs forms)).forms = d₀.forms ++ forms := by
  have none : (m.documents.map Install.document).filterMap Install.form? = [] := by
    simp [Install.form?]
  have all : (forms.map Install.form).filterMap Install.form? = forms := by
    rw [List.filterMap_map]
    exact List.filterMap_some
  rw [Draft.forms_installAll, installs, List.filterMap_append, none, all, List.nil_append]

/-- Of several documents of one name the last one declared is installed. -/
theorem find?_documents_of_install (forms : List Form) (name : String) :
    (d₀.installAll (m.installs forms)).documents.find? name =
      ((m.documents.filter (·.name = name)).getLast?).or (d₀.documents.find? name) := by
  have none : (forms.map Install.form).filterMap (Install.document? name) = [] := by
    simp [Install.document?]
  have named : (m.documents.map Install.document).filterMap (Install.document? name) =
      m.documents.filter (·.name = name) := by
    rw [List.filterMap_map, ← List.filterMap_eq_filter]
    congr 1
    funext schema
    simp [Install.document?, Option.guard]
  rw [Draft.find?_documents_installAll, installs, List.filterMap_append, none, named,
    List.append_nil, List.getLast?_map]
  cases (m.documents.filter (·.name = name)).getLast? <;> rfl

theorem engine_of_install (forms : List Form) :
    (d₀.installAll (m.installs forms)).engine = d₀.engine := by
  have none : (m.installs forms).filterMap Install.engine? = [] := by
    simp [installs, Install.engine?]
  rw [Draft.engine_installAll, none]
  rfl

theorem declares_iff_mem_places {e : FormEntry} {f : Form} {place : Place}
    (becomes : e.Becomes m.schemas f) : e.Declares place ↔ place ∈ f.places := by
  obtain ⟨source, found, rfl⟩ := becomes
  obtain ⟨-, named⟩ := find?_schemas found
  rw [Form.mem_places, FormEntry.Declares, ← named]
  rfl

theorem filter_eq_singleton_of_forall₂ {R : α → β → Prop} {xs : List α} {ys : List β} {y : β}
    {p : α → Bool} {q : β → Bool} (related : List.Forall₂ R xs ys)
    (alike : ∀ x y, R x y → (p x ↔ q y)) (one : ys.filter q = [y]) :
    ∃ x, xs.filter p = [x] ∧ R x y := by
  have kept : List.Forall₂ R (xs.filter p) (ys.filter q) :=
    List.rel_filter (fun x y rel => alike x y rel) related
  rw [one] at kept
  obtain ⟨x, rest, rel, others, same⟩ := List.forall₂_cons_right_iff.mp kept
  obtain rfl := List.forall₂_nil_right_iff.mp others
  exact ⟨x, same, rel⟩

/-- What is held at a place comes from the one entry that declares it. -/
theorem exists_entry_of_held? (installed : m.install d₀ = .ok d) (fresh : d₀.forms = [])
    {r : Registry} (built : d.build = .ok r) {place : Place} {p : PreparedForm}
    (held : place.held? r.index = some p) :
    ∃ e schema, m.forms.filter (·.Declares place) = [e] ∧
      m.schemas.find? place.source = some schema ∧ (e.form schema).PreparedAs d.engine p := by
  obtain ⟨forms, resolved, rfl⟩ := install_eq_ok_iff.mp installed
  obtain ⟨f, one, prepared⟩ := (Registry.held?_eq_some_iff built).mp held
  rw [forms_of_install, fresh, List.nil_append] at one
  -- Entries and forms correspond in their order, so one entry is left over where one form is.
  have alike (e : FormEntry) (f : Form) (becomes : e.Becomes m.schemas f) :
      decide (e.Declares place) ↔ decide (place ∈ f.places) := by
    simpa using declares_iff_mem_places becomes
  obtain ⟨e, single, schema, found, rfl⟩ := filter_eq_singleton_of_forall₂ resolved alike one
  have declares : e.Declares place := by
    have member : e ∈ m.forms.filter (·.Declares place) := single ▸ List.mem_singleton_self e
    simpa using (List.mem_filter.mp member).2
  exact ⟨e, schema, single, declares.1 ▸ found, prepared⟩

end Installing

end Manifest
end Letterbook
