import Letterbook.Proofs.FileTree

/-! Writing a text to a file. Every folder on the way to the file is there before, so writing makes no
folder, paths lead where they led, and all other files are as they were. -/
namespace Letterbook.FileTree

open Letterbook.Path (IsName join pieces)

variable {t t' : FileTree} {path p name text : String} {names place q : List String}

section Following

/-- All folders on the way to a place are there. -/
def Reached (t : FileTree) (place : List String) : Prop :=
  ∀ front, front <+: place → front ≠ place → t.isFolder front = true

theorem enter_cases (entered : t.enter place name = .ok q) : t.isFolder place = true ∧
    (q = place ∨ q = place.dropLast ∨ name ∉ ["", ".", ".."] ∧ q = place ++ [name]) := by
  unfold enter at entered
  split at entered
  · next folder =>
    refine ⟨folder, ?_⟩
    split at entered
    · exact .inl (Except.ok.inj entered).symm
    · next stays =>
      split at entered
      · exact .inr (.inl (Except.ok.inj entered).symm)
      · next up =>
        split at entered
        · have new : name ∉ ["", ".", ".."] := by
            simp only [Bool.or_eq_true, beq_iff_eq, not_or] at stays up
            simp [stays, up]
          exact .inr (.inr ⟨new, (Except.ok.inj entered).symm⟩)
        · contradiction
  · split at entered <;> contradiction

theorem Reached.dropLast (reached : t.Reached place) : t.Reached place.dropLast := by
  intro front leads other
  refine reached front (leads.trans (List.dropLast_prefix place)) ?_
  rintro rfl
  exact other (leads.eq_of_length_le (List.dropLast_prefix _).length_le)

theorem Reached.enter (reached : t.Reached place) (entered : t.enter place name = .ok q) :
    t.Reached q := by
  obtain ⟨folder, rfl | rfl | ⟨-, rfl⟩⟩ := enter_cases entered
  · exact reached
  · exact reached.dropLast
  · intro front leads other
    rcases List.prefix_concat_iff.mp leads with whole | leads
    · exact absurd whole other
    · by_cases same : front = place
      · rwa [same]
      · exact reached front leads same

theorem reached_of_foldlM (reached : t.Reached place) (led : names.foldlM t.enter place = .ok q) :
    t.Reached q := by
  induction names generalizing place with
  | nil =>
    cases led
    exact reached
  | cons name rest ih =>
    obtain ⟨next, entered, later⟩ := Result.bind_eq_ok.mp led
    exact ih (reached.enter entered) later

theorem reached_nothing : t.Reached [] := by
  intro front leads other
  exact absurd (List.prefix_nil.mp leads) other

theorem reached_of_follow (led : t.follow path = .ok q) : t.Reached q :=
  reached_of_foldlM reached_nothing led

theorem Reached.isFolder_dropLast (reached : t.Reached place) (folder : t.isFolder place = true) :
    t.isFolder place.dropLast = true := by
  by_cases same : place.dropLast = place
  · rwa [same]
  · exact reached _ (List.dropLast_prefix place) same

/-- The last piece of a path that leads to no folder is the last name of the place. -/
theorem last_of_follow (led : t.follow path = .ok q) (free : t.isFolder q = false) :
    ∃ name, (pieces (join t.workingDirectory path)).getLast? = some name ∧
      q.getLast? = some name ∧ IsName name := by
  have some : pieces (join t.workingDirectory path) ≠ [] := by
    simp [pieces, Text.split_ne_nil]
  obtain ⟨before, name, cut⟩ := (List.eq_nil_or_concat _).resolve_left some
  have noSlash : '/' ∉ name.toList := by
    have member : name ∈ pieces (join t.workingDirectory path) := by simp [cut]
    obtain ⟨piece, split, rfl⟩ := List.mem_map.mp member
    intro slash
    have clean := (Text.of_mem_split split '/' (by simpa using slash)).1
    contradiction
  rw [List.concat_eq_append] at cut
  rw [follow, cut, List.foldlM_append, Result.bind_eq_ok] at led
  obtain ⟨place, first, last⟩ := led
  have reached : t.Reached place := reached_of_foldlM reached_nothing first
  simp only [List.foldlM_cons, List.foldlM_nil, bind_pure] at last
  obtain ⟨folder, rfl | rfl | ⟨legal, rfl⟩⟩ := enter_cases last
  · rw [folder] at free
    contradiction
  · rw [reached.isFolder_dropLast folder] at free
    contradiction
  · exact ⟨name, by simp [cut], by simp, legal, noSlash⟩

end Following

/-- The second tree has a text at a place where the first has no folder, and is the same otherwise. -/
structure Puts (t t' : FileTree) (place : List String) (text : String) : Prop where
  files : t'.files = t.files.insert place (.text text)
  folders : t'.folders = t.folders
  workingDirectory : t'.workingDirectory = t.workingDirectory
  free : t.isFolder place = false
  reached : t.Reached place

namespace Puts

variable (puts : t.Puts t' place text)

include puts

theorem mem_keys : q ∈ t'.files.keys ↔ q = place ∨ q ∈ t.files.keys := by
  rw [puts.files, Table.mem_keys_insert]

theorem isFolder (q : List String) : t'.isFolder q = t.isFolder q := by
  rw [Bool.eq_iff_iff]
  constructor
  · intro after
    simp only [FileTree.isFolder, Bool.or_eq_true, List.any_eq_true, puts.folders,
      puts.workingDirectory] at after ⊢
    rcases after with (none | ⟨file, member, leads⟩) | declared
    · exact .inl (.inl none)
    · rcases puts.mem_keys.mp member with rfl | member
      · simp only [Bool.and_eq_true, List.isPrefixOf_iff_prefix, bne_iff_ne] at leads
        simpa [FileTree.isFolder] using puts.reached q leads.1 leads.2
      · exact .inl (.inr ⟨file, member, leads⟩)
    · exact .inr declared
  · intro before
    simp only [FileTree.isFolder, Bool.or_eq_true, List.any_eq_true, puts.folders,
      puts.workingDirectory] at before ⊢
    rcases before with (none | ⟨file, member, leads⟩) | declared
    · exact .inl (.inl none)
    · exact .inl (.inr ⟨file, puts.mem_keys.mpr (.inr member), leads⟩)
    · exact .inr declared

theorem enter (q : List String) (name : String) (r : List String) :
    t'.enter q name = .ok r ↔ t.enter q name = .ok r := by
  rw [FileTree.enter, FileTree.enter, puts.isFolder]
  split
  · rfl
  · split <;> split <;> simp

theorem foldlM_enter (names place : List String) :
    names.foldlM t'.enter place = .ok q ↔ names.foldlM t.enter place = .ok q := by
  induction names generalizing place with
  | nil => rfl
  | cons name rest ih => simp only [List.foldlM_cons, Result.bind_eq_ok, puts.enter, ih]

theorem locate : t'.locate path = .ok q ↔ t.locate path = .ok q := by
  rw [locate_eq_ok_iff, locate_eq_ok_iff, follow, follow, puts.workingDirectory, puts.foldlM_enter]

theorem isFile : t'.isFile path = true ↔ t.locate path = .ok place ∨ t.isFile path = true := by
  simp only [isFile_iff, puts.locate, puts.mem_keys]
  constructor
  · rintro ⟨q, located, rfl | member⟩
    · exact .inl located
    · exact .inr ⟨q, located, member⟩
  · rintro (located | ⟨q, located, member⟩)
    · exact ⟨place, located, .inl rfl⟩
    · exact ⟨q, located, .inr member⟩

theorem present (there : t'.present path = true) :
    t.locate path = .ok place ∨ t.present path = true := by
  unfold FileTree.present at there
  split at there
  · next q located =>
    have located := puts.locate.mp located
    rw [puts.isFolder, Bool.or_eq_true, ← Table.mem_keys_iff_contains, puts.mem_keys] at there
    rcases there with (rfl | member) | folder
    · exact .inl located
    · refine .inr ?_
      simp [FileTree.present, located, Table.mem_keys_iff_contains.mp member]
    · refine .inr ?_
      simp [FileTree.present, located, folder]
  · contradiction

theorem find? : t'.files.find? place = some (.text text) := by
  rw [puts.files, Table.find?_insert_self]

theorem read (located : t.locate path = .ok place) : t'.read path = .ok text := by
  simp only [FileTree.read, puts.locate.mpr located, bind, Except.bind, puts.find?]

theorem read_of_ne (file : t.isFile path = true) (elsewhere : t.locate path ≠ .ok place) :
    t'.read path = t.read path := by
  obtain ⟨q, located, member⟩ := isFile_iff.mp file
  obtain ⟨content, found⟩ := Table.mem_keys.mp member
  refine read_congr (puts.locate.mpr located) located ?_ found
  have different : q ≠ place := by
    rintro rfl
    exact elsewhere located
  rw [puts.files, Table.find?_insert_of_ne different, found]

end Puts

theorem locateNew_eq_ok (located : t.locateNew path = .ok place) : t.locate path = .ok place := by
  unfold locateNew at located
  obtain ⟨⟨⟩, checked, led⟩ := Result.bind_eq_ok.mp located
  split at led
  · simp only [Result.bind_eq_ok] at led
    obtain ⟨_, -, _, -, failed⟩ := led
    contradiction
  · exact locate_eq_ok_iff.mpr ⟨checked, led⟩

/-- The tree with a text at a place. -/
def withText (t : FileTree) (place : List String) (text : String) : FileTree :=
  { t with files := t.files.insert place (.text text) }

theorem write_eq_ok (located : t.locateNew path = .ok place) (free : t.isFolder place = false)
    (text : String) : t.write path text = .ok (t.withText place text) := by
  rw [write, located]
  change (if t.isFolder place = true then _ else _) = _
  rw [if_neg (by simp [free]), withText]

theorem exists_puts (written : t.write path text = .ok t') :
    ∃ place, t.Puts t' place text ∧ t.locate path = .ok place := by
  unfold write at written
  obtain ⟨place, located, put⟩ := Result.bind_eq_ok.mp written
  have located := locateNew_eq_ok located
  cases free : t.isFolder place with
  | true =>
    rw [if_pos free] at put
    contradiction
  | false =>
    rw [if_neg (by simp [free]), Except.ok.injEq] at put
    subst put
    exact ⟨place, ⟨rfl, rfl, rfl, free, reached_of_follow (locate_eq_ok_iff.mp located).2⟩, located⟩

end Letterbook.FileTree
