import Letterbook.Proofs.Settings.Layering

/-! What a source leaves at one key, whatever the tree was before. A value that is set at a key makes
its section a table and stays there until another source sets the key, and the other sections do not
depend on it. -/
namespace Letterbook.Settings

/-- A value is set where it leaves a key alone: outside the section, or at other members of it. -/
inductive Spares (key : Key) : List Step → Json → Prop
  | outside {s : String} {rest : List Step} {value : Json} (other : key.part ≠ folded s) :
      Spares key (.member s :: rest) value
  | table {s : String} {members : List (String × Json)}
      (other : ∀ m ∈ members, key.name ≠ folded m.1) : Spares key [.member s] (.obj members)
  | aside {s k : String} {rest : List Step} {value : Json} (other : key.name ≠ folded k) :
      Spares key (.member s :: .member k :: rest) value

/-- The layer does not set the key. -/
def Layer.Spares (layer : Layer) (key : Key) : Prop :=
  ∀ entry ∈ layer, Settings.Spares key (placeOf entry.1) entry.2

/-- The section of the key is a table, with this value at the key. -/
def HoldsAt (root : Json) (key : Key) (j : Json) : Prop :=
  ∃ part, root.member? key.part = some part ∧ IsTable part ∧ part.member? key.name = some j

/-- The trees have the same members, but for the section of the key. -/
def AgreeOff (key : Key) (root root' : Json) : Prop :=
  ∀ name, name ≠ key.part → root.member? name = root'.member? name

variable {key : Key} {root root' j value : Json} {s k : String} {steps rest : List Step}
  {members : List (String × Json)} {layer front back : Layer} {entry : String × Json}

theorem overlay_insert (root : Json) (front back : Layer) (entry : String × Json) :
    overlay root (front ++ entry :: back) =
      overlay (setAt entry.2 (placeOf entry.1) (overlay root front)) back :=
  List.foldl_append

theorem overlay_append (root : Json) (front back : Layer) :
    overlay root (front ++ back) = overlay (overlay root front) back :=
  List.foldl_append

section Holding

theorem HoldsAt.valueAt (holds : HoldsAt root key j) : valueAt root key = some j := by
  obtain ⟨part, found, -, there⟩ := holds
  rw [Settings.valueAt, found, Option.bind_some, there]

theorem HoldsAt.of_member (holds : HoldsAt root key j)
    (same : root'.member? key.part = root.member? key.part) : HoldsAt root' key j := by
  obtain ⟨part, found, there⟩ := holds
  exact ⟨part, same.trans found, there⟩

theorem HoldsAt.setAt (holds : HoldsAt root key j) (spares : Spares key steps value) :
    HoldsAt (setAt value steps root) key j := by
  -- In each case the section is left alone, or is entered and left as a table with the same member.
  cases spares with
  | @outside s rest _ other =>
    obtain ⟨inner, changed⟩ := setAt_member_eq value s rest root
    exact holds.of_member (by rw [changed, member?_put_of_ne other])
  | @table s members other =>
    by_cases same : key.part = folded s
    · obtain ⟨part, found, table, there⟩ := holds
      have same' : entered (folded s) (.obj []) root = part := by
        rw [entered, ← same, found]
        rfl
      refine ⟨setMembers members part, ?_, isTable_setMembers table, ?_⟩
      · rw [setAt_table, same', same, member?_put_self]
      · have unwritten : written members key.name = none := by
          simpa [written] using other
        rw [member?_setMembers fun m member equal => absurd equal (other m member), unwritten, there]
        rfl
    · exact holds.of_member (by rw [setAt_table, member?_put_of_ne same])
  | @aside s k rest _ other =>
    by_cases same : key.part = folded s
    · obtain ⟨part, found, table, there⟩ := holds
      obtain ⟨inner, changed⟩ := setAt_member_eq value k rest part
      have same' : entered (folded s) .null root = part := by
        rw [entered, ← same, found]
        rfl
      refine ⟨setAt value (.member k :: rest) part, ?_, ?_, ?_⟩
      · rw [setAt_member_member, same', same, member?_put_self]
      · rw [changed]
        exact ⟨_, rfl⟩
      · rw [changed, member?_put_of_ne other, there]
    · exact holds.of_member (by rw [setAt_member_member, member?_put_of_ne same])

theorem HoldsAt.overlay (holds : HoldsAt root key j) (spares : layer.Spares key) :
    HoldsAt (overlay root layer) key j := by
  induction layer generalizing root with
  | nil => exact holds
  | cons entry rest ih =>
    obtain ⟨first, later⟩ := List.forall_mem_cons.mp spares
    exact ih (holds.setAt first) later

/-- An entry that sets the key decides it, if no later one does. -/
theorem holdsAt_overlay_insert
    (sets : ∀ root, HoldsAt (Settings.setAt entry.2 (placeOf entry.1) root) key j)
    (spares : Layer.Spares back key) (root : Json) (front : Layer) :
    HoldsAt (Settings.overlay root (front ++ entry :: back)) key j := by
  rw [overlay_insert]
  exact (sets _).overlay spares

theorem holdsAt_table (same : key.part = folded s) (wrote : written members key.name = some j)
    (plain : ∀ m ∈ members, key.name = folded m.1 → ¬ IsTable m.2) :
    HoldsAt (setAt (.obj members) [.member s] root) key j := by
  refine ⟨setMembers members (entered (folded s) (.obj []) root), ?_, ?_, ?_⟩
  · rw [setAt_table, same, member?_put_self]
  · cases members with
    | nil => contradiction
    | cons m rest =>
      obtain ⟨inner, changed, -⟩ := setMember_eq m.1 m.2 (entered (folded s) (.obj []) root)
      rw [setMembers, changed]
      exact isTable_setMembers ⟨_, rfl⟩
  · rw [member?_setMembers plain, wrote]
    rfl

theorem holdsAt_setting (same : key.part = folded s) (named : key.name = folded k)
    (plain : ¬ IsTable value) : HoldsAt (setAt value [.member s, .member k] root) key value := by
  refine ⟨setAt value [.member k] (entered (folded s) .null root), ?_, ?_, ?_⟩
  · rw [setAt_member_member, same, member?_put_self]
  · rw [setAt_setting plain]
    exact ⟨_, rfl⟩
  · rw [setAt_setting plain, named, member?_put_self]

end Holding

section Agreeing

theorem AgreeOff.symm (agree : AgreeOff key root root') : AgreeOff key root' root :=
  fun name other => (agree name other).symm

/-- What becomes of a section depends on that section alone. -/
theorem exists_setAt_section (value : Json) (s : String) (rest : List Step) :
    ∃ inner : Option Json → Json, ∀ root, setAt value (.member s :: rest) root =
      .obj (Table.put (folded s) (inner (root.member? (folded s))) (membersOf root)) := by
  cases rest with
  | nil =>
    by_cases table : IsTable value
    · obtain ⟨members, rfl⟩ := table
      exact ⟨fun there => setMembers members (there.getD (.obj [])), setAt_table s members⟩
    · exact ⟨fun _ => value, setAt_setting table s⟩
  | cons step rest =>
    refine ⟨fun there => setAt value (step :: rest) (there.getD .null), fun root => ?_⟩
    rw [setAt, member?_eq_lookup]
    · rfl
    · simp

theorem exists_placeOf (text : String) : ∃ s rest, placeOf text = .member s :: rest := by
  unfold placeOf
  dsimp only
  split
  · exact ⟨_, [], rfl⟩
  · cases stepsOf? text.toList.length (text.toList.dropWhile isNameChar) with
    | none => exact ⟨_, [], rfl⟩
    | some steps => exact ⟨_, steps, rfl⟩

theorem AgreeOff.setAt (agree : AgreeOff key root root') (value : Json) (text : String) :
    AgreeOff key (setAt value (placeOf text) root) (setAt value (placeOf text) root') := by
  obtain ⟨s, rest, place⟩ := exists_placeOf text
  obtain ⟨inner, changes⟩ := exists_setAt_section value s rest
  intro name other
  rw [place, changes, changes]
  by_cases same : name = folded s
  · rw [same, member?_put_self, member?_put_self, agree (folded s) (same ▸ other)]
  · rw [member?_put_of_ne same, member?_put_of_ne same, agree name other]

/-- Setting something in the section of the key changes nothing elsewhere. -/
theorem AgreeOff.setAt_right (agree : AgreeOff key root root') (same : key.part = folded s) :
    AgreeOff key root (Settings.setAt value (.member s :: rest) root') := by
  obtain ⟨inner, changed⟩ := setAt_member_eq value s rest root'
  intro name other
  rw [changed, member?_put_of_ne (same ▸ other), agree name other]

theorem AgreeOff.overlay (agree : AgreeOff key root root') (layer : Layer) :
    AgreeOff key (overlay root layer) (overlay root' layer) := by
  induction layer generalizing root root' with
  | nil => exact agree
  | cons entry rest ih => exact ih (agree.setAt entry.2 entry.1)

/-- An entry in the section of the key makes no difference elsewhere. -/
theorem AgreeOff.overlay_insert (agree : AgreeOff key root root')
    (inside : ∃ s rest, placeOf entry.1 = .member s :: rest ∧ key.part = folded s) :
    AgreeOff key (Settings.overlay root (front ++ back))
      (Settings.overlay root' (front ++ entry :: back)) := by
  obtain ⟨s, rest, place, same⟩ := inside
  rw [overlay_append, Settings.overlay_insert, place]
  exact ((agree.overlay front).setAt_right same).overlay back

end Agreeing

end Letterbook.Settings
