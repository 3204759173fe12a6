import Letterbook.Path
import Letterbook.Proofs.Pieces

/-! Paths that are continued by names. What follows a path is cut off again at its slashes, whether the
path itself ends in one or not, and stands behind the same names. -/
namespace Letterbook.Path

variable {folder path name : String} {names : List String}

/-- A name that a file or a folder can have. -/
def IsName (name : String) : Prop := name ∉ ["", ".", ".."] ∧ '/' ∉ name.toList

instance (name : String) : Decidable (IsName name) :=
  inferInstanceAs (Decidable (_ ∧ _))

theorem IsName.ne (legal : IsName name) : name ≠ "" ∧ name ≠ "." ∧ name ≠ ".." := by
  simpa using legal.1

theorem IsName.ne_slash (legal : IsName name) : ∀ c ∈ name.toList, (c == '/') = false := by
  intro c inside
  have absent := legal.2
  grind

theorem IsName.isAbsolute (legal : IsName name) : isAbsolute name = false := by
  unfold Path.isAbsolute
  cases chars : name.toList with
  | nil => rfl
  | cons c rest => simpa using legal.ne_slash c (by simp [chars])

theorem IsName.pieces (legal : IsName name) : pieces name = [name] := by
  rw [Path.pieces, Text.split_of_clean legal.ne_slash]
  simp

theorem pieces_append_slash (front path : String) :
    pieces (front ++ "/" ++ path) = pieces front ++ pieces path := by
  have chars : (front ++ "/" ++ path).toList = front.toList ++ '/' :: path.toList := by simp
  rw [pieces, chars, Text.split_append_cut rfl, List.map_append]
  rfl

/-- What a name can follow at once: nothing, or something that ends in a slash. -/
def isOpen (path : String) : Bool := path.isEmpty || path.toList.getLast? == some '/'

theorem isOpen_iff : isOpen path = true ↔ path = "" ∨ ∃ front, path = front ++ "/" := by
  simp only [isOpen, Bool.or_eq_true, String.isEmpty_iff, beq_iff_eq, List.getLast?_eq_some_iff]
  refine or_congr_right ⟨?_, ?_⟩
  · rintro ⟨front, shape⟩
    exact ⟨String.ofList front, String.toList_inj.mp (by simp [shape])⟩
  · rintro ⟨front, rfl⟩
    exact ⟨front.toList, by simp⟩

theorem isOpen_append (ahead : isOpen folder = true) (path : String) :
    isOpen (folder ++ path) = isOpen path := by
  by_cases none : path = ""
  · subst none
    rw [String.append_empty, ahead]
    rfl
  · have chars : path.toList ≠ [] := by simpa using none
    rw [Bool.eq_iff_iff]
    simp [isOpen, String.isEmpty_iff, none, List.getLast?_append,
      List.getLast?_eq_some_getLast chars]

/-- What paths from a folder begin with. -/
theorem exists_stem (folder : String) : ∃ stem, isOpen stem = true ∧
    (stem = folder ∨ folder ≠ "" ∧ stem = folder ++ "/") ∧
    ∀ path, isAbsolute path = false → join folder path = stem ++ path := by
  cases ahead : isOpen folder with
  | true =>
    refine ⟨folder, ahead, .inl rfl, fun path relative => ?_⟩
    rw [isOpen] at ahead
    rw [join, relative, if_neg Bool.false_ne_true, if_pos ahead]
  | false =>
    have something : folder ≠ "" := by
      rintro rfl
      contradiction
    refine ⟨folder ++ "/", isOpen_iff.mpr (.inr ⟨folder, rfl⟩), .inr ⟨something, rfl⟩, ?_⟩
    intro path relative
    rw [isOpen] at ahead
    rw [join, relative, if_neg Bool.false_ne_true, if_neg (by simp [ahead])]

theorem isAbsolute_append (something : folder ≠ "") (path : String) :
    isAbsolute (folder ++ path) = isAbsolute folder := by
  have chars : folder.toList ≠ [] := by simpa using something
  simp [isAbsolute, List.head?_append, List.head?_eq_some_head chars]

theorem isAbsolute_join (legal : IsName name) (path : String) :
    isAbsolute (join path name) = isAbsolute path := by
  obtain ⟨stem, -, same | ⟨something, rfl⟩, joined⟩ := exists_stem path
  all_goals rw [joined name legal.isAbsolute]
  · subst stem
    by_cases none : path = ""
    · rw [none, String.empty_append, legal.isAbsolute]
      rfl
    · exact isAbsolute_append none name
  · rw [String.append_assoc, isAbsolute_append something]

theorem join_join (legal : IsName name) (folder path : String) :
    join folder (join path name) = join (join folder path) name := by
  have absolute_join := isAbsolute_join legal path
  cases absolute : isAbsolute path with
  | true =>
    have here {path : String} (absolute : isAbsolute path = true) : join folder path = path := by
      rw [join, if_pos absolute]
    rw [here absolute, here (absolute_join.trans absolute)]
  | false =>
    obtain ⟨stem, ahead, -, joined⟩ := exists_stem folder
    rw [joined path absolute, joined _ (absolute_join.trans absolute)]
    -- The path that is continued is as open behind the stem as by itself.
    have same := isOpen_append ahead path
    simp only [join, legal.isAbsolute, Bool.false_eq_true, if_false, ← isOpen.eq_1, same]
    split
    · rw [String.append_assoc]
    · simp only [String.append_assoc]

theorem pieces_join (legal : IsName name) (folder : String) :
    ∃ base, (pieces folder = base ∨ pieces folder = base ++ [""]) ∧
      pieces (join folder name) = base ++ [name] := by
  obtain ⟨stem, ahead, same | ⟨-, rfl⟩, joined⟩ := exists_stem folder
  all_goals rw [joined name legal.isAbsolute]
  · subst stem
    rcases isOpen_iff.mp ahead with rfl | ⟨front, rfl⟩
    · exact ⟨[], .inr rfl, by simp [legal.pieces]⟩
    · refine ⟨pieces front, .inr ?_, ?_⟩
      · have cut : pieces (front ++ "/" ++ "") = pieces front ++ [""] := pieces_append_slash front ""
        rwa [String.append_empty] at cut
      · rw [pieces_append_slash, legal.pieces]
  · exact ⟨pieces folder, .inl rfl, by rw [pieces_append_slash, legal.pieces]⟩

theorem names_join (legal : IsName name) (folder : String) :
    Path.names (join folder name) = Path.names folder ++ [name] := by
  obtain ⟨base, same, joined⟩ := pieces_join legal folder
  have kept : [name].filter (fun name => name != "" && name != ".") = [name] := by
    simp [legal.ne]
  rw [Path.names, Path.names, joined, List.filter_append, kept]
  rcases same with same | same
  · rw [same]
  · rw [same, List.filter_append]
    simp

theorem exists_join_eq_append (legal : IsName name) (path : String) :
    ∃ rest, rest ≠ "" ∧ join path name = path ++ rest := by
  obtain ⟨stem, -, rfl | ⟨-, rfl⟩, joined⟩ := exists_stem path
  all_goals rw [joined name legal.isAbsolute]
  · exact ⟨name, legal.ne.1, rfl⟩
  · exact ⟨"/" ++ name, by simp, String.append_assoc⟩

theorem names_below (legal : ∀ name ∈ names, IsName name) (path : String) :
    Path.names (below path names) = Path.names path ++ names := by
  induction names generalizing path with
  | nil => rw [below, List.foldl_nil, List.append_nil]
  | cons name rest ih =>
    obtain ⟨first, others⟩ := List.forall_mem_cons.mp legal
    rw [below, List.foldl_cons, ← below, ih others, names_join first, List.append_assoc]
    rfl

theorem below_inj {names' : List String} (legal : ∀ name ∈ names, IsName name)
    (legal' : ∀ name ∈ names', IsName name) (same : below path names = below path names') :
    names = names' := by
  have listed := congrArg Path.names same
  rw [names_below legal, names_below legal'] at listed
  exact List.append_cancel_left listed

/-- The path continued by names, if it is one that can be continued. -/
def Below (path p : String) : Prop :=
  path ≠ "" ∧ ∃ names, (∀ name ∈ names, IsName name) ∧ p = below path names

/-- Paths below the same path are told apart by their names. -/
theorem Below.eq_of_names {p q : String} (inside : Below path p) (inside' : Below path q)
    (same : Path.names p = Path.names q) : p = q := by
  obtain ⟨-, names, legal, rfl⟩ := inside
  obtain ⟨-, names', legal', rfl⟩ := inside'
  rw [names_below legal, names_below legal'] at same
  rw [List.append_cancel_left same]

section LastNames

variable {before last stem : String}

theorem getLast?_pieces (ahead : isOpen before = true) (clean : '/' ∉ last.toList) :
    (pieces (before ++ last)).getLast? = some last := by
  have whole : pieces last = [last] := by
    have chars : ∀ c ∈ last.toList, (c == '/') = false := by
      intro c inside
      grind
    rw [pieces, Text.split_of_clean chars]
    simp
  rcases isOpen_iff.mp ahead with rfl | ⟨front, rfl⟩
  · rw [String.empty_append, whole]
    rfl
  · rw [pieces_append_slash, whole]
    simp

/-- A path is what a name can follow at once, and a last piece. -/
theorem exists_last (path : String) : ∃ before last, isOpen before = true ∧
    '/' ∉ last.toList ∧ path = before ++ last := by
  have whole := Text.dropEndWhile_append_takeEndWhile (· != '/') path.toList
  refine ⟨String.ofList (Text.dropEndWhile (· != '/') path.toList),
    String.ofList (Text.takeEndWhile (· != '/') path.toList), ?_, ?_, ?_⟩
  · simp only [isOpen, Text.dropEndWhile, Bool.or_eq_true, String.isEmpty_iff, beq_iff_eq,
      String.toList_ofList, List.getLast?_reverse]
    cases first : (path.toList.reverse.dropWhile (· != '/')).head? with
    | none => simp [List.head?_eq_none_iff.mp first]
    | some c =>
      have slash := Text.head?_dropWhile first
      exact .inr (by simpa using slash)
  · simp only [Text.takeEndWhile, String.toList_ofList, List.mem_reverse]
    intro slash
    have kept := List.mem_takeWhile_imp slash
    contradiction
  · rw [← String.ofList_append, whole, String.ofList_toList]

theorem exists_eq_append_last (same : (pieces path).getLast? = some last) :
    ∃ before, path = before ++ last := by
  obtain ⟨before, last', ahead, clean, rfl⟩ := exists_last path
  rw [getLast?_pieces ahead clean, Option.some.injEq] at same
  exact ⟨before, by rw [same]⟩

theorem getLast?_toList (same : (pieces path).getLast? = some last) (something : last ≠ "") :
    path.toList.getLast? = last.toList.getLast? := by
  obtain ⟨before, rfl⟩ := exists_eq_append_last same
  have chars : last.toList ≠ [] := by simpa using something
  simp [List.getLast?_append, List.getLast?_eq_some_getLast chars]

theorem getLast?_toList_join (something : path ≠ "") (folder : String) :
    (join folder path).toList.getLast? = path.toList.getLast? := by
  have chars : path.toList ≠ [] := by simpa using something
  cases absolute : isAbsolute path with
  | true => rw [join, if_pos absolute]
  | false =>
    obtain ⟨stem, -, -, joined⟩ := exists_stem folder
    simp [joined path absolute, List.getLast?_append, List.getLast?_eq_some_getLast chars]

theorem fileName?_eq (same : (pieces path).getLast? = some name) (legal : IsName name) :
    fileName? path = some name := by
  obtain ⟨front, cut⟩ := List.getLast?_eq_some_iff.mp same
  rw [fileName?, Path.names, cut, List.filter_append]
  simp [legal.ne]

theorem extension?_eq {ext : String} (same : (pieces path).getLast? = some (stem ++ "." ++ ext))
    (legal : IsName (stem ++ "." ++ ext)) (something : stem ≠ "") (plain : '.' ∉ ext.toList) :
    extension? path = some ext := by
  have dots : ∀ c ∈ ext.toList.reverse, (c != '.') = true := by
    intro c inside
    simp only [List.mem_reverse] at inside
    grind
  have back : (stem ++ "." ++ ext).toList.reverse =
      ext.toList.reverse ++ '.' :: stem.toList.reverse := by simp
  obtain ⟨c, more, front⟩ := List.exists_cons_of_ne_nil
    (show stem.toList.reverse ≠ [] by simpa using something)
  rw [extension?, fileName?_eq same legal]
  simp only [Option.bind_eq_bind, Option.bind_some, back]
  rw [List.takeWhile_append_of_pos dots, List.dropWhile_append_of_pos dots, front]
  simp

theorem intercalate_split (c : Char) (s : List Char) :
    List.intercalate [c] (Text.split (· == c) s) = s := by
  induction s with
  | nil => rfl
  | cons d rest ih =>
    obtain ⟨piece, more, cut⟩ := List.exists_cons_of_ne_nil (Text.split_ne_nil (· == c) rest)
    rw [cut] at ih
    rw [Text.split, cut]
    by_cases same : d = c
    · subst same
      rw [if_pos (beq_self_eq_true d)]
      simpa [List.intercalate, List.intersperse] using ih
    · rw [if_neg (by simpa using same), Text.consPiece]
      cases more with
      | nil => simpa [List.intercalate, List.intersperse] using ih
      | cons next more => simpa [List.intercalate, List.intersperse] using ih

theorem intercalate_pieces (path : String) : String.intercalate "/" (pieces path) = path := by
  have chars : (pieces path).map String.toList = Text.split (· == '/') path.toList := by
    simp [pieces, Function.comp_def]
  apply String.toList_inj.mp
  rw [String.toList_intercalate, chars]
  exact intercalate_split '/' path.toList

theorem upToName_eq (same : (pieces path).getLast? = some name) (legal : IsName name) :
    upToName path = path := by
  obtain ⟨front, cut⟩ := List.getLast?_eq_some_iff.mp same
  have kept : (pieces path).reverse.dropWhile (fun name => name == "" || name == ".") =
      (pieces path).reverse := by
    rw [cut, List.reverse_append, List.reverse_singleton, List.singleton_append]
    exact List.dropWhile_cons_of_neg (by simp [legal.ne])
  rw [upToName, kept, List.reverse_reverse, intercalate_pieces]

/-- From an absolute folder on, every path is absolute. -/
theorem isAbsolute_join_of_absolute (absolute : isAbsolute folder = true) (path : String) :
    isAbsolute (join folder path) = true := by
  cases relative : isAbsolute path with
  | true => rw [join, if_pos relative, relative]
  | false =>
    have something : folder ≠ "" := by
      rintro rfl
      contradiction
    obtain ⟨stem, -, rfl | ⟨-, rfl⟩, joined⟩ := exists_stem folder
    all_goals rw [joined path relative]
    · rw [isAbsolute_append something, absolute]
    · rw [String.append_assoc, isAbsolute_append something, absolute]

theorem join_join_of_absolute (absolute : isAbsolute folder = true) (path : String) :
    join folder (join folder path) = join folder path := by
  rw [join, if_pos (isAbsolute_join_of_absolute absolute path)]

/-- A path that ends in a name with something in front of it ends in that name from any folder on. -/
theorem getLast?_pieces_join (ahead : isOpen before = true) (clean : '/' ∉ last.toList)
    (folder : String) : (pieces (join folder (before ++ last))).getLast? = some last := by
  cases absolute : isAbsolute (before ++ last) with
  | true => rw [join, if_pos absolute, getLast?_pieces ahead clean]
  | false =>
    obtain ⟨stem, open', -, joined⟩ := exists_stem folder
    rw [joined _ absolute, ← String.append_assoc]
    exact getLast?_pieces (by rw [isOpen_append open', ahead]) clean

end LastNames

end Letterbook.Path
