import Mathlib.Tactic.Choose
import Letterbook.Proofs.Table
import Letterbook.Settings.Sources

/-! What layers leave in the tree of settings. A layer writes to some of the four keys and leaves
the others as they were, if its sections are tables and its settings are none; then what stands at a
key is what the last layer that writes to it has there by itself. -/
namespace Letterbook.Settings

/-- The keys of the four settings. -/
inductive Key
  | defaultLocale
  | escape
  | strict
  | directory
  deriving DecidableEq, Repr

namespace Key

/-- The section of a key. -/
def part : Key → String
  | defaultLocale => "barbershop"
  | escape | strict => "render"
  | directory => "templates"

def name : Key → String
  | defaultLocale => "default_locale"
  | escape => "escape"
  | strict => "strict"
  | directory => "dir"

instance (P : Key → Prop) [DecidablePred P] : Decidable (∀ key, P key) :=
  decidable_of_iff (P .defaultLocale ∧ P .escape ∧ P .strict ∧ P .directory)
    ⟨fun ⟨_, _, _, _⟩ key => by cases key <;> assumption, fun all => ⟨all _, all _, all _, all _⟩⟩

end Key

/-- The value at a key of a tree. -/
def valueAt (root : Json) (key : Key) : Option Json :=
  (root.member? key.part).bind fun j => j.member? key.name

/-- A name as it is taken. -/
def folded (name : String) : String := Text.lower name.toList

def IsTable (j : Json) : Prop := ∃ members, j = .obj members

instance : DecidablePred IsTable
  | .obj members => isTrue ⟨members, rfl⟩
  | .null | .bool _ | .num _ | .str _ | .arr _ => isFalse nofun

/-- A value that is set at a place as a table of a section or as a setting of its own. Places outside
the sections, and members of sections that are no settings, may have any value. -/
inductive Keyed : List Step → Json → Prop
  | outside {s : String} {rest : List Step} {value : Json} (other : ∀ key : Key, key.part ≠ folded s) :
      Keyed (.member s :: rest) value
  | table {s : String} {members : List (String × Json)}
      (plain : ∀ key : Key, key.part = folded s →
        ∀ m ∈ members, key.name = folded m.1 → ¬ IsTable m.2) :
      Keyed [.member s] (.obj members)
  | setting {s k : String} {value : Json} (plain : ¬ IsTable value) :
      Keyed [.member s, .member k] value
  | aside {s k : String} {rest : List Step} {value : Json}
      (other : ∀ key : Key, key.part = folded s → key.name ≠ folded k) :
      Keyed (.member s :: .member k :: rest) value

namespace Layer

/-- The sections of the layer are tables, and its settings are not. -/
def IsKeyed (layer : Layer) : Prop := ∀ entry ∈ layer, Keyed (placeOf entry.1) entry.2

/-- What the layer has at a key by itself. -/
def value? (layer : Layer) (key : Key) : Option Json := valueAt (overlay (.obj []) layer) key

end Layer

section Keys

theorem Key.folded_part (key : Key) : folded key.part = key.part := by
  cases key <;> rfl

theorem Key.folded_name (key : Key) : folded key.name = key.name := by
  cases key <;> rfl

theorem placeOf_part (key : Key) : placeOf key.part = [.member key.part] := by
  cases key <;> rfl

theorem placeOf_setting (key : Key) :
    placeOf (key.part ++ "." ++ key.name) = [.member key.part, .member key.name] := by
  cases key <;> rfl

end Keys

section Members

variable {name other : String} {value root : Json} {members : List (String × Json)}

theorem member?_eq_lookup (name : String) (root : Json) :
    root.member? name = Table.lookup name (membersOf root) := by
  cases root <;> rfl

theorem member?_put_self (root : Json) :
    (Json.obj (Table.put name value (membersOf root))).member? name = some value :=
  Table.lookup_put_self name value (membersOf root)

theorem member?_put_of_ne (different : other ≠ name) (root : Json) :
    (Json.obj (Table.put name value (membersOf root))).member? other = root.member? other := by
  rw [member?_eq_lookup other root]
  exact Table.lookup_put_of_ne different

theorem setMember_eq (name : String) (value root : Json) :
    ∃ j, setMember name value root = .obj (Table.put (folded name) j (membersOf root)) ∧
      (¬ IsTable value → j = value) := by
  cases value with
  | obj more =>
    refine ⟨setMembers more ((root.member? (folded name)).getD (.obj [])), ?_, ?_⟩
    · rw [setMember, member?_eq_lookup]
      rfl
    · intro plain
      exact absurd ⟨more, rfl⟩ plain
  | null | bool | num | str | arr =>
    refine ⟨_, ?_, fun _ => rfl⟩
    rw [setMember]
    · rfl
    · intro more same
      cases same

theorem setAt_member_eq (value : Json) (name : String) (rest : List Step) (root : Json) :
    ∃ j, setAt value (.member name :: rest) root =
      .obj (Table.put (folded name) j (membersOf root)) := by
  cases rest with
  | nil =>
    obtain ⟨j, same, -⟩ := setMember_eq name value root
    exact ⟨j, by rw [setAt, same]⟩
  | cons step rest => exact ⟨_, by rw [setAt]; rfl; simp⟩

/-- The last of some members that has the name. -/
def written (members : List (String × Json)) (name : String) : Option Json :=
  (members.reverse.find? fun m => name == folded m.1).map Prod.snd

theorem member?_setMembers (plain : ∀ m ∈ members, name = folded m.1 → ¬ IsTable m.2) :
    (setMembers members root).member? name = (written members name).or (root.member? name) := by
  induction members generalizing root with
  | nil => rw [setMembers]; rfl
  | cons m rest ih =>
    obtain ⟨first, later⟩ := List.forall_mem_cons.mp plain
    obtain ⟨j, same, kept⟩ := setMember_eq m.1 m.2 root
    rw [setMembers, ih later, same, written, written, List.reverse_cons, List.find?_append]
    by_cases here : name = folded m.1
    · subst here
      rw [member?_put_self, kept (first rfl)]
      cases rest.reverse.find? fun n => folded m.1 == folded n.1 <;> simp
    · rw [member?_put_of_ne here]
      simp [here]

theorem isTable_setMembers (table : IsTable root) : IsTable (setMembers members root) := by
  induction members generalizing root with
  | nil => rwa [setMembers]
  | cons m rest ih =>
    obtain ⟨j, same, -⟩ := setMember_eq m.1 m.2 root
    rw [setMembers, same]
    exact ih ⟨_, rfl⟩

end Members

/-- A tree whose sections are tables. -/
def HasTables (root : Json) : Prop := ∀ key : Key, ∀ j, root.member? key.part = some j → IsTable j

theorem hasTables_nothing : HasTables (.obj []) := by
  intro key j found
  contradiction

theorem valueAt_nothing (key : Key) : valueAt (.obj []) key = none := rfl

/-- A change of trees that writes these values to keys, and keeps what stands at the others. -/
structure Writes (change : Json → Json) (values : Key → Option Json) : Prop where
  tables : ∀ root, HasTables root → HasTables (change root)
  valueAt : ∀ root, HasTables root → ∀ key,
    valueAt (change root) key = (values key).or (valueAt root key)

namespace Writes

variable {change change' : Json → Json} {values values' : Key → Option Json}

theorem comp (first : Writes change values) (later : Writes change' values') :
    Writes (fun root => change' (change root)) fun key => (values' key).or (values key) where
  tables root tables := later.tables _ (first.tables root tables)
  valueAt root tables key := by
    rw [later.valueAt _ (first.tables root tables), first.valueAt root tables, Option.or_assoc]

/-- What is written stands there alone where nothing was. -/
theorem eq_valueAt (writes : Writes change values) :
    values = Settings.valueAt (change (.obj [])) := by
  funext key
  rw [writes.valueAt _ hasTables_nothing, valueAt_nothing, Option.or_none]

/-- A change of one member of the root, which is a section or not. -/
theorem of_put {name : String} {inner : Json → Json} {values : Key → Option Json}
    (changes : ∀ root, change root = .obj (Table.put name (inner root) (membersOf root)))
    (tables : ∀ root, HasTables root → ∀ key : Key, key.part = name → IsTable (inner root))
    (here : ∀ root, HasTables root → ∀ key : Key, key.part = name →
      (inner root).member? key.name = (values key).or (Settings.valueAt root key))
    (elsewhere : ∀ key : Key, key.part ≠ name → values key = none) : Writes change values where
  tables root plain key j found := by
    rw [changes] at found
    by_cases same : key.part = name
    · rw [same, member?_put_self, Option.some.injEq] at found
      exact found ▸ tables root plain key same
    · rw [member?_put_of_ne same] at found
      exact plain key j found
  valueAt root plain key := by
    rw [Settings.valueAt, changes]
    by_cases same : key.part = name
    · rw [same, member?_put_self, Option.bind_some, here root plain key same]
    · rw [member?_put_of_ne same, elsewhere key same]
      rfl

end Writes

section Places

variable {s k : String} {rest : List Step} {value : Json} {members : List (String × Json)}

/-- The member that is entered on the way, where a missing one counts as a value without members. -/
def entered (name : String) (absent root : Json) : Json := (root.member? name).getD absent

theorem member?_entered {absent root : Json} {name : String} (bare : absent.member? k = none) :
    (entered name absent root).member? k = (root.member? name).bind fun j => j.member? k := by
  unfold entered
  cases root.member? name with
  | none => exact bare
  | some j => rfl

theorem setAt_member_member (value : Json) (s k : String) (rest : List Step) (root : Json) :
    setAt value (.member s :: .member k :: rest) root =
      .obj (Table.put (folded s) (setAt value (.member k :: rest) (entered (folded s) .null root))
        (membersOf root)) := by
  rw [setAt, ← folded, ← member?_eq_lookup, entered]
  simp

theorem writes_outside (other : ∀ key : Key, key.part ≠ folded s) :
    Writes (setAt value (.member s :: rest)) fun _ => none := by
  choose inner changes using setAt_member_eq value s rest
  refine .of_put changes ?_ ?_ fun _ _ => rfl
  · intro root _ key same
    exact absurd same (other key)
  · intro root _ key same
    exact absurd same (other key)

theorem setAt_table (s : String) (members : List (String × Json)) (root : Json) :
    setAt (.obj members) [.member s] root =
      .obj (Table.put (folded s) (setMembers members (entered (folded s) (.obj []) root))
        (membersOf root)) := by
  rw [setAt, setMember, ← folded, ← member?_eq_lookup]
  rfl

theorem writes_table (plain : ∀ key : Key, key.part = folded s →
    ∀ m ∈ members, key.name = folded m.1 → ¬ IsTable m.2) :
    Writes (setAt (.obj members) [.member s]) fun key =>
      if key.part = folded s then written members key.name else none := by
  refine .of_put (setAt_table s members) ?_ ?_ ?_
  · intro root tables key same
    apply isTable_setMembers
    unfold entered
    cases found : root.member? (folded s) with
    | none => exact ⟨[], rfl⟩
    | some j => exact tables key j (same ▸ found)
  · intro root _ key same
    rw [member?_setMembers (plain key same), if_pos same, member?_entered rfl, valueAt, same]
  · intro key different
    rw [if_neg different]

theorem setAt_setting (plain : ¬ IsTable value) (k : String) (there : Json) :
    setAt value [.member k] there = .obj (Table.put (folded k) value (membersOf there)) := by
  obtain ⟨j, same, kept⟩ := setMember_eq k value there
  rw [setAt, same, kept plain]

theorem writes_setting (plain : ¬ IsTable value) :
    Writes (setAt value [.member s, .member k]) fun key =>
      if key.part = folded s ∧ key.name = folded k then some value else none := by
  refine .of_put (fun root => setAt_member_member value s k [] root) ?_ ?_ ?_
  · intro root _ key _
    exact ⟨_, setAt_setting plain k _⟩
  · intro root _ key same
    rw [setAt_setting plain]
    by_cases here : key.name = folded k
    · rw [here, member?_put_self, if_pos ⟨same, rfl⟩]
      rfl
    · rw [member?_put_of_ne here, if_neg (by simp [here]), member?_entered rfl, valueAt, same]
      rfl
  · intro key different
    rw [if_neg (by simp [different])]

theorem writes_aside (other : ∀ key : Key, key.part = folded s → key.name ≠ folded k) :
    Writes (setAt value (.member s :: .member k :: rest)) fun _ => none := by
  choose inner changes using setAt_member_eq value k rest
  refine .of_put (fun root => setAt_member_member value s k rest root) ?_ ?_ fun _ _ => rfl
  · intro root _ key _
    exact ⟨_, changes _⟩
  · intro root _ key same
    rw [changes, member?_put_of_ne (other key same), member?_entered rfl, valueAt, same]
    rfl

theorem exists_writes_setAt {steps : List Step} (keyed : Keyed steps value) :
    ∃ values, Writes (setAt value steps) values := by
  cases keyed with
  | outside other => exact ⟨_, writes_outside other⟩
  | table plain => exact ⟨_, writes_table plain⟩
  | setting plain => exact ⟨_, writes_setting plain⟩
  | aside other => exact ⟨_, writes_aside other⟩

end Places

variable {layer : Layer} {layers : List Layer}

theorem exists_writes_overlay (keyed : layer.IsKeyed) :
    ∃ values, Writes (overlay · layer) values := by
  induction layer with
  | nil =>
    exact ⟨fun _ => none, fun _ tables => tables, fun _ _ _ => rfl⟩
  | cons entry rest ih =>
    obtain ⟨first, later⟩ := List.forall_mem_cons.mp keyed
    obtain ⟨values, writes⟩ := exists_writes_setAt first
    obtain ⟨values', writes'⟩ := ih later
    exact ⟨_, writes.comp writes'⟩

/-- Laid over a tree, a layer has at each key what it has there by itself, if anything. -/
theorem writes_overlay (keyed : layer.IsKeyed) : Writes (overlay · layer) layer.value? := by
  obtain ⟨values, writes⟩ := exists_writes_overlay keyed
  have same : values = layer.value? := writes.eq_valueAt
  exact same ▸ writes

theorem writes_layers (keyed : ∀ layer ∈ layers, layer.IsKeyed) :
    Writes (layers.foldl overlay ·) fun key => layers.reverse.findSome? (·.value? key) := by
  induction layers with
  | nil => exact ⟨fun _ tables => tables, fun _ _ _ => rfl⟩
  | cons layer rest ih =>
    obtain ⟨first, later⟩ := List.forall_mem_cons.mp keyed
    have writes := (writes_overlay first).comp (ih later)
    simpa [List.findSome?_append] using writes

/-- The settings have these values at their keys, as far as there are any. -/
structure Follows (s : Settings) (value? : Key → Option Json) : Prop where
  defaultLocale : settingOr text? standard.defaultLocale (value? .defaultLocale) = some s.defaultLocale
  escape : settingOr escaping? standard.escape (value? .escape) = some s.escape
  strict : settingOr truth? standard.strict (value? .strict) = some s.strict
  directory : settingOr text? standard.directory (value? .directory) = some s.directory

theorem isSection_of_hasTables {root : Json} (tables : HasTables root) (key : Key) :
    isSection (root.member? key.part) = true := by
  cases found : root.member? key.part with
  | none => rfl
  | some j =>
    obtain ⟨members, rfl⟩ := tables key j found
    rfl

theorem bind_memberOf {root : Json} (tables : HasTables root) (key : Key) (index : Nat) :
    ((root.member? key.part).bind fun j => memberOf j index key.name) = valueAt root key := by
  rw [valueAt]
  cases found : root.member? key.part with
  | none => rfl
  | some j =>
    obtain ⟨members, rfl⟩ := tables key j found
    rfl

theorem ofTree?_eq_some_iff {root : Json} (tables : HasTables root) {s : Settings} :
    ofTree? root = some s ↔ s.Follows (valueAt root) := by
  have shop := isSection_of_hasTables tables .defaultLocale
  have render := isSection_of_hasTables tables .escape
  have templates := isSection_of_hasTables tables .directory
  have defaultLocale := bind_memberOf tables .defaultLocale 0
  have escape := bind_memberOf tables .escape 0
  have strict := bind_memberOf tables .strict 1
  have directory := bind_memberOf tables .directory 0
  simp only [Key.part, Key.name, member?_eq_lookup _ root] at *
  simp only [ofTree?, shop, render, templates, defaultLocale, escape, strict, directory,
    Bool.and_self, if_true, Option.bind_eq_bind, Option.bind_eq_some_iff, Option.some.injEq]
  constructor
  · rintro ⟨locale, h₁, escape, h₂, strict, h₃, directory, h₄, rfl⟩
    exact ⟨h₁, h₂, h₃, h₄⟩
  · intro follows
    exact ⟨_, follows.defaultLocale, _, follows.escape, _, follows.strict, _, follows.directory, rfl⟩

theorem ofLayers?_eq_some_iff (keyed : ∀ layer ∈ layers, layer.IsKeyed) {s : Settings} :
    ofLayers? layers = some s ↔ s.Follows fun key => layers.reverse.findSome? (·.value? key) := by
  have writes := writes_layers keyed
  rw [ofLayers?, ofTree?_eq_some_iff (writes.tables _ hasTables_nothing), ← writes.eq_valueAt]

end Letterbook.Settings
