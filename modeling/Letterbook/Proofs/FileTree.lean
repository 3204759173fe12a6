import Mathlib.Data.List.Nodup
import Letterbook.Disk.Tree
import Letterbook.Proofs.Paths
import Letterbook.Proofs.Results
import Letterbook.Proofs.Table

/-! Trees of files below a path. A path that is continued by names leads to the place at which these
names follow, so what is found there is a matter of the table of files alone. -/
namespace Letterbook

namespace FileTree

open Letterbook.Path (IsName join below)

variable {t t' : FileTree} {path name p : String} {names place q : List String} {content : Content}

section Locating

theorem enter_eq_ok_iff (legal : IsName name) : t.enter place name = .ok q ↔
    t.isFolder place = true ∧ name.utf8ByteSize ≤ Path.maxNameSize ∧ q = place ++ [name] := by
  cases folder : t.isFolder place with
  | false =>
    rw [enter, if_neg (by simp [folder])]
    split <;> simp
  | true =>
    rw [enter, if_pos folder, if_neg (by simp [legal.ne]), if_neg (by simp [legal.ne])]
    split
    · next short => simp [short, eq_comm]
    · next long => simp [long]

theorem enter_nothing : t.enter place "" = .ok q ↔ t.isFolder place = true ∧ q = place := by
  cases folder : t.isFolder place with
  | false =>
    rw [enter, if_neg (by simp [folder])]
    split <;> simp
  | true =>
    rw [enter, if_pos folder]
    simp [eq_comm]

theorem follow_join (legal : IsName name) : t.follow (join path name) = .ok q ↔
    ∃ place, t.follow path = .ok place ∧ t.enter place name = .ok q := by
  obtain ⟨base, same, joined⟩ := Path.pieces_join legal (join t.workingDirectory path)
  rw [follow, Path.join_join legal, joined, List.foldlM_append, Result.bind_eq_ok, follow]
  rcases same with same | same
  · rw [same]
    simp only [List.foldlM_cons, List.foldlM_nil, bind_pure]
  · rw [same, List.foldlM_append]
    simp only [List.foldlM_cons, List.foldlM_nil, bind_pure, Result.bind_eq_ok, enter_nothing]
    -- The slash at the end asks for a folder, and so does the name behind it.
    constructor
    · rintro ⟨place, led, entered⟩
      have folder := ((enter_eq_ok_iff legal).mp entered).1
      exact ⟨place, ⟨place, led, folder, rfl⟩, entered⟩
    · rintro ⟨_, ⟨place, led, -, rfl⟩, entered⟩
      exact ⟨_, led, entered⟩

theorem checkPath_eq_ok_iff : checkPath p = .ok () ↔
    p ≠ "" ∧ '\x00' ∉ p.toList ∧ p.utf8ByteSize ≤ Path.maxSize := by
  unfold checkPath
  split
  · next none => simp [String.isEmpty_iff.mp none]
  · next something =>
    have something : p ≠ "" := by simpa using something
    split
    · next zero => simp [show '\x00' ∈ p.toList by simpa [Path.hasZero] using zero]
    · next clean =>
      have clean : '\x00' ∉ p.toList := by simpa [Path.hasZero] using clean
      split
      · next short => simp [something, clean, short]
      · next long => simp [long]

theorem checkPath_of_append {rest : String} (something : path ≠ "")
    (checked : checkPath (path ++ rest) = .ok ()) : checkPath path = .ok () := by
  obtain ⟨-, clean, short⟩ := checkPath_eq_ok_iff.mp checked
  refine checkPath_eq_ok_iff.mpr ⟨something, ?_, ?_⟩
  · intro zero
    apply clean
    simp [zero]
  · rw [String.utf8ByteSize_append] at short
    omega

theorem checkPath_of_join (legal : IsName name) (something : path ≠ "")
    (checked : checkPath (join path name) = .ok ()) : checkPath path = .ok () := by
  obtain ⟨rest, -, joined⟩ := Path.exists_join_eq_append legal path
  rw [joined] at checked
  exact checkPath_of_append something checked

/-- From an absolute folder on, a path leads where it leads when it is joined to that folder. -/
theorem follow_join_of_absolute (absolute : Path.isAbsolute t.workingDirectory = true)
    (path : String) : t.follow (join t.workingDirectory path) = t.follow path := by
  rw [follow, Path.join_join_of_absolute absolute, follow]

theorem locate_eq_ok_iff : t.locate p = .ok q ↔ checkPath p = .ok () ∧ t.follow p = .ok q := by
  rw [locate, Result.bind_eq_ok]
  constructor
  · rintro ⟨⟨⟩, checked, led⟩
    exact ⟨checked, led⟩
  · rintro ⟨checked, led⟩
    exact ⟨(), checked, led⟩

theorem locate_join (legal : IsName name) (something : path ≠ "") :
    t.locate (join path name) = .ok q ↔ checkPath (join path name) = .ok () ∧
      ∃ place, t.locate path = .ok place ∧ t.enter place name = .ok q := by
  simp only [locate_eq_ok_iff, follow_join legal]
  constructor
  · rintro ⟨checked, place, led, entered⟩
    exact ⟨checked, place, ⟨checkPath_of_join legal something checked, led⟩, entered⟩
  · rintro ⟨checked, place, ⟨-, led⟩, entered⟩
    exact ⟨checked, place, led, entered⟩

theorem join_ne_empty (legal : IsName name) (path : String) : join path name ≠ "" := by
  obtain ⟨rest, something, joined⟩ := Path.exists_join_eq_append legal path
  simp [joined, something]

/-- What is found under names below a path stands under these names at the place of the path. -/
theorem locate_below (something : path ≠ "") (legal : ∀ name ∈ names, IsName name)
    (located : t.locate (below path names) = .ok q) :
    ∃ place, t.locate path = .ok place ∧ q = place ++ names := by
  induction names generalizing path with
  | nil => exact ⟨q, located, (List.append_nil q).symm⟩
  | cons name rest ih =>
    obtain ⟨first, others⟩ := List.forall_mem_cons.mp legal
    obtain ⟨place', entered, rfl⟩ := ih (join_ne_empty first path) others located
    obtain ⟨-, place, here, entered⟩ := (locate_join first something).mp entered
    obtain ⟨-, -, rfl⟩ := (enter_eq_ok_iff first).mp entered
    exact ⟨place, here, by simp⟩

theorem isFolder_of_mem_keys (member : place ++ name :: names ∈ t.files.keys) :
    t.isFolder place = true := by
  have leads : (t.files.keys.any fun file => place.isPrefixOf file && place != file) = true := by
    refine List.any_eq_true.mpr ⟨_, member, ?_⟩
    simp
  simp [isFolder, leads]

/-- A path that leads to a file in one tree leads there in any other with that file in which its
beginning leads to the same place. -/
theorem locate_below_transfer (something : path ≠ "") (legal : ∀ name ∈ names, IsName name)
    (same : t'.locate path = t.locate path) (located : t.locate (below path names) = .ok q)
    (member : q ∈ t'.files.keys) : t'.locate (below path names) = .ok q := by
  induction names generalizing path with
  | nil => exact same.trans located
  | cons name rest ih =>
    obtain ⟨first, others⟩ := List.forall_mem_cons.mp legal
    obtain ⟨place', entered, rfl⟩ := locate_below (join_ne_empty first path) others located
    obtain ⟨checked, place, here, step⟩ := (locate_join first something).mp entered
    obtain ⟨-, short, rfl⟩ := (enter_eq_ok_iff first).mp step
    refine ih (join_ne_empty first path) others ?_ located
    rw [entered]
    refine (locate_join first something).mpr ⟨checked, place, same.trans here, ?_⟩
    refine (enter_eq_ok_iff first).mpr ⟨?_, short, rfl⟩
    rw [List.append_assoc] at member
    exact isFolder_of_mem_keys member

end Locating

section Reading

theorem isFile_iff : t.isFile p = true ↔ ∃ q, t.locate p = .ok q ∧ q ∈ t.files.keys := by
  unfold isFile
  split
  · next place located => simp [located, Table.mem_keys_iff_contains]
  · next failed => simp [failed]

theorem read_congr (located : t.locate p = .ok q) (located' : t'.locate p = .ok q)
    (found : t.files.find? q = some content) (found' : t'.files.find? q = some content) :
    t.read p = t'.read p := by
  simp only [read, located, located', bind, Except.bind, found, found']
  cases content <;> rfl

end Reading

section Walking

/-- All names in the tree are names that files and folders can have. -/
def WellNamed (t : FileTree) : Prop :=
  ∀ place ∈ t.files.keys ++ Path.names t.workingDirectory :: t.folders, ∀ name ∈ place, IsName name

instance (t : FileTree) : Decidable t.WellNamed :=
  inferInstanceAs (Decidable (∀ place ∈ t.files.keys ++ Path.names t.workingDirectory :: t.folders,
    ∀ name ∈ place, IsName name))

theorem mem_ways_iff : q ∈ ways place ↔ q <+: place := by
  induction place generalizing q with
  | nil => simp [ways]
  | cons name rest ih =>
    rw [ways, List.mem_cons, List.mem_map, List.prefix_cons_iff]
    refine or_congr_right ?_
    simp only [ih]
    constructor
    · rintro ⟨front, leads, rfl⟩
      exact ⟨front, rfl, leads⟩
    · rintro ⟨front, rfl, leads⟩
      exact ⟨front, leads, rfl⟩

theorem mem_places_iff : q ∈ t.places ↔
    ∃ place ∈ t.files.keys ++ Path.names t.workingDirectory :: t.folders, q <+: place := by
  rw [places, Table.mem_keys_ofList]
  simp only [List.map_map, List.mem_map, List.mem_flatMap, mem_ways_iff, Function.comp_apply]
  constructor
  · rintro ⟨q, found, rfl⟩
    exact found
  · intro found
    exact ⟨q, found, rfl⟩

theorem mem_walk_iff : p ∈ t.walk path ↔ ∃ place names, t.locate path = .ok place ∧
    place ++ names ∈ t.places ∧ p = below path names := by
  unfold walk
  split
  · next failed => simp [failed]
  · next place located =>
    simp only [List.mem_map, List.mem_filter, List.isPrefixOf_iff_prefix, located]
    constructor
    · rintro ⟨_, ⟨member, names, rfl⟩, rfl⟩
      exact ⟨place, names, rfl, member, by rw [List.drop_left]⟩
    · rintro ⟨_, names, ⟨⟩, member, rfl⟩
      exact ⟨place ++ names, ⟨member, List.prefix_append place names⟩, by rw [List.drop_left]⟩

theorem WellNamed.isName (named : t.WellNamed) (member : q ∈ t.places) :
    ∀ name ∈ q, IsName name := by
  obtain ⟨whole, listed, leads⟩ := mem_places_iff.mp member
  intro name inside
  exact named whole listed name (leads.subset inside)

theorem below_of_mem_walk (named : t.WellNamed) (member : p ∈ t.walk path) :
    Path.Below path p := by
  obtain ⟨place, names, located, listed, rfl⟩ := mem_walk_iff.mp member
  refine ⟨(checkPath_eq_ok_iff.mp (locate_eq_ok_iff.mp located).1).1, names, ?_, rfl⟩
  intro name inside
  exact named.isName listed name (List.mem_append_right place inside)

theorem mem_walk_of_isFile (inside : Path.Below path p) (file : t.isFile p = true) :
    p ∈ t.walk path := by
  obtain ⟨something, names, legal, rfl⟩ := inside
  obtain ⟨q, located, member⟩ := isFile_iff.mp file
  obtain ⟨place, here, rfl⟩ := locate_below something legal located
  refine mem_walk_iff.mpr ⟨place, names, here, mem_places_iff.mpr ?_, rfl⟩
  exact ⟨_, List.mem_append_left _ member, List.prefix_refl _⟩

/-- A walk comes to nothing twice. -/
theorem walk_nodup (named : t.WellNamed) (path : String) : (t.walk path).Nodup := by
  unfold walk
  split
  · exact List.nodup_nil
  · next place located =>
    refine List.Nodup.map_on ?_ ((Table.keys_nodup _).filter _)
    intro q member q' member' same
    obtain ⟨listed, leads⟩ := List.mem_filter.mp member
    obtain ⟨listed', leads'⟩ := List.mem_filter.mp member'
    obtain ⟨names, rfl⟩ := List.isPrefixOf_iff_prefix.mp leads
    obtain ⟨names', rfl⟩ := List.isPrefixOf_iff_prefix.mp leads'
    rw [List.drop_left, List.drop_left] at same
    rw [Path.below_inj ?_ ?_ same]
    · exact fun name inside => named.isName listed name (List.mem_append_right place inside)
    · exact fun name inside => named.isName listed' name (List.mem_append_right place inside)

end Walking

end FileTree
end Letterbook
