import Letterbook.Markup.Variables
import Letterbook.Proofs.Pieces

/-! The variable of a path that starts at the context. Its root is the first item of the path, except
where trimming the spelling takes white space from that item: names may hold any character beyond
ASCII, white space among them. -/
namespace Letterbook

namespace Text

theorem stripAny_eq_self {starts : List (List Char)} {s : List Char}
    (other : ∀ start ∈ starts, ∀ rest, s ≠ start ++ rest) : stripAny starts s = s := by
  have none : starts.findSome? (strip? · s) = none := by
    refine List.findSome?_eq_none_iff.mpr fun start member => ?_
    refine Option.eq_none_iff_forall_ne_some.mpr fun rest fits => ?_
    exact other start member rest (strip?_eq_some.mp fits)
  rw [stripAny, none, Option.getD_none]

end Text

namespace Markup

/-- A plain name other than `this`. -/
def Item.IsName : Item → Prop
  | .name s => s ≠ [] ∧ s ≠ ['t', 'h', 'i', 's'] ∧ ∀ c ∈ s, isNameChar c = true
  | .bracketed _ => False

instance : DecidablePred Item.IsName
  | .name s => decidable_of_iff (s ≠ [] ∧ s ≠ ['t', 'h', 'i', 's'] ∧ s.all isNameChar = true)
    (by rw [Item.IsName, List.all_eq_true])
  | .bracketed _ => inferInstanceAs (Decidable False)

theorem Item.IsName.spelling {item : Item} (h : item.IsName) : item.spelling ≠ [] ∧
    item.spelling ≠ ['t', 'h', 'i', 's'] ∧ ∀ c ∈ item.spelling, isNameChar c = true := by
  cases item with
  | name s => exact h
  | bracketed s => exact h.elim

theorem Item.IsName.key {item : Item} (h : item.IsName) :
    item.key = String.ofList item.spelling := by
  cases item with
  | name s => rfl
  | bracketed s => exact h.elim

/-- Nothing, or a text that begins with a separator. -/
def Separated (rest : List Char) : Prop := ∀ c, rest.head? = some c → c = '.' ∨ c = '/'

section Names

variable {s rest : List Char}

theorem ne_of_isNameChar {c d : Char} (name : isNameChar c = true) (other : isNameChar d = false) :
    c ≠ d := by
  rintro rfl
  simp [name] at other

theorem Separated.takeWhile_isNameChar (separated : Separated rest)
    (name : ∀ c ∈ s, isNameChar c = true) : (s ++ rest).takeWhile isNameChar = s := by
  rw [List.takeWhile_append_of_pos name]
  cases rest with
  | nil => simp
  | cons c rest =>
    rcases separated c rfl with rfl | rfl <;> simp [show isNameChar '.' = false by decide,
      show isNameChar '/' = false by decide]

/-- The root of a dotted name is what stands before its first separator. -/
theorem rootKey_dotted (separated : Separated rest) (name : ∀ c ∈ s, isNameChar c = true) :
    rootKey (String.ofList ((s ++ rest).map fun c => if c == '/' then '.' else c)) =
      String.ofList s := by
  have same : s.map (fun c => if c == '/' then '.' else c) = s := by
    refine (List.map_congr_left fun c member => ?_).trans (List.map_id s)
    simp [ne_of_isNameChar (name c member) (show isNameChar '/' = false by decide)]
  have inside : ∀ c ∈ s, (c != '.') = true := fun c member => by
    simpa using ne_of_isNameChar (name c member) (by decide)
  rw [rootKey, String.toList_ofList, List.map_append, same, List.takeWhile_append_of_pos inside]
  cases rest with
  | nil => simp
  | cons c rest => rcases separated c rfl with rfl | rfl <;> simp

end Names

namespace Path

/-- Paths that lead from the context or the root to a field by its name: one mark or none, no block
data, no parents, and a plain name in front of the other items. -/
structure Direct (p : Path) : Prop where
  mark : p.current = none ∨ p.root = none
  data : p.data = false
  parents : p.parents = []
  first : p.first.IsName

/-- The root of the path's variable is the first item of the path. -/
def KeepsRoot (p : Path) : Prop := p.variables.map rootKey = [p.first.key]

/-- No white space stands where the spelling of the path is trimmed and its first item ends. -/
structure Unpadded (p : Path) : Prop where
  front : p.current = none → p.root = none → p.first.spelling.head?.all (!Text.isWhite ·) = true
  back : p.others = [] → p.first.spelling.getLast?.all (!Text.isWhite ·) = true

instance : DecidablePred Direct := fun p =>
  decidable_of_iff ((p.current = none ∨ p.root = none) ∧ p.data = false ∧ p.parents = [] ∧
    p.first.IsName) ⟨fun ⟨mark, data, parents, first⟩ => ⟨mark, data, parents, first⟩,
      fun h => ⟨h.mark, h.data, h.parents, h.first⟩⟩

instance : DecidablePred Unpadded := fun p =>
  decidable_of_iff ((p.current = none → p.root = none →
      p.first.spelling.head?.all (!Text.isWhite ·) = true) ∧
    (p.others = [] → p.first.spelling.getLast?.all (!Text.isWhite ·) = true))
    ⟨fun ⟨front, back⟩ => ⟨front, back⟩, fun h => ⟨h.front, h.back⟩⟩

/-- What follows the first item. -/
def tail (p : Path) : List Char :=
  p.others.flatMap fun (sep, item) => sep.spelling ++ item.spelling

/-- The mark in front of the first item, if the path has one. -/
def mark (p : Path) : List Char :=
  (p.current.map Current.spelling).getD [] ++
    (p.root.map fun sep => rootWord ++ sep.spelling).getD []

variable {p : Path}

theorem chars_of_direct (h : p.Direct) : p.chars = p.mark ++ p.first.spelling ++ p.tail := by
  simp [chars, mark, tail, h.data, h.parents]

theorem tail_separated (p : Path) : Separated p.tail := by
  intro c head
  cases others : p.others with
  | nil => simp [tail, others] at head
  | cons e rest =>
    obtain ⟨sep, item⟩ := e
    cases sep <;> simp [tail, others, Separator.spelling] at head
    · exact .inl head.symm
    · exact .inr head.symm

theorem tail_eq_nil_iff : p.tail = [] ↔ p.others = [] := by
  cases others : p.others with
  | nil => simp [tail, others]
  | cons e rest =>
    obtain ⟨sep, item⟩ := e
    cases sep <;> simp [tail, others, Separator.spelling]

/-- A mark of the root, then one of the current context, as far as there are such. -/
def marks (root : Option Separator) (current : Option Current) : List Char :=
  (root.map fun sep => rootWord ++ sep.spelling).getD [] ++ (current.map Current.spelling).getD []

theorem mark_of_direct (h : p.Direct) : p.mark = marks p.root p.current := by
  rcases h.mark with none | none
  · simp [mark, marks, none]
  · simp [mark, marks, none]

section Trimming

variable {root : Option Separator} {current : Option Current} {name tail : List Char}

theorem head_marked_not_white (nonempty : name ≠ [])
    (front : current = none → root = none → name.head?.all (!Text.isWhite ·) = true) {c : Char}
    (head : (marks root current ++ name ++ tail).head? = some c) : Text.isWhite c = false := by
  match root, current with
  | some sep, _ =>
    obtain rfl : '@' = c := by simpa [marks, rootWord] using head
    decide
  | none, some mark =>
    cases mark with
    | thisDot | thisSlash =>
      obtain rfl : 't' = c := by simpa [marks, Current.spelling] using head
      decide
    | dotSlash =>
      obtain rfl : '.' = c := by simpa [marks, Current.spelling] using head
      decide
  | none, none =>
    obtain ⟨first, rest, rfl⟩ := List.exists_cons_of_ne_nil nonempty
    obtain rfl : first = c := by simpa [marks] using head
    simpa using front rfl rfl

/-- Where the name is not padded, trimming leaves all but an end of what follows the name. -/
theorem trim_marked (nonempty : name ≠ []) (separated : Separated tail)
    (front : current = none → root = none → name.head?.all (!Text.isWhite ·) = true)
    (back : tail = [] → name.getLast?.all (!Text.isWhite ·) = true) : ∃ rest, Separated rest ∧
      Text.trim (marks root current ++ name ++ tail) = marks root current ++ name ++ rest := by
  have first {c : Char} (head : (marks root current ++ name ++ tail).head? = some c) :
      Text.isWhite c = false := head_marked_not_white nonempty front head
  cases tail with
  | nil =>
    obtain ⟨init, last, rfl⟩ := (List.eq_nil_or_concat name).resolve_left nonempty
    rw [List.concat_eq_append, List.append_nil, ← List.append_assoc] at first
    rw [List.concat_eq_append] at back ⊢
    have kept : Text.isWhite last = false := by simpa using back rfl
    refine ⟨[], fun c head => by simp at head, ?_⟩
    rw [List.append_nil, ← List.append_assoc, Text.trim_append_cons kept fun d => first]
    simp [Text.dropEndWhile]
  | cons c rest =>
    have kept : Text.isWhite c = false := by
      rcases separated c rfl with rfl | rfl <;> decide
    refine ⟨c :: Text.dropEndWhile Text.isWhite rest, fun d head => ?_,
      Text.trim_append_cons kept fun d => first⟩
    exact separated d (by simpa using head)

end Trimming

theorem variableOf_eq_some {spelling s body : List Char}
    (unrooted : Text.stripAny [rootWord ++ ['.'], rootWord ++ ['/']] (Text.trim spelling) = s)
    (data : s.head? ≠ some '@') (parents : ['.', '.'].isPrefixOf s = false)
    (unmarked : Text.stripAny (Current.spelling <$> [.thisDot, .thisSlash, .dotSlash]) s = body)
    (nonempty : body ≠ []) (notThis : body ≠ ['t', 'h', 'i', 's']) (notDot : body ≠ ['.']) :
    variableOf spelling =
      some (String.ofList (body.map fun c => if c == '/' then '.' else c)) := by
  simp only [variableOf, unrooted, unmarked, parents]
  simp [data, nonempty, notThis, notDot]

/-- The text begins with a name other than `this`. -/
structure Named (body : List Char) : Prop where
  name : body.takeWhile isNameChar ≠ []
  notThis : body.takeWhile isNameChar ≠ ['t', 'h', 'i', 's']

namespace Named

variable {body : List Char}

theorem ne_of_sign (h : Named body) {s : List Char} (sign : s.takeWhile isNameChar = []) :
    body ≠ s := by
  rintro rfl
  exact h.name sign

theorem ne_of_this (h : Named body) {s : List Char}
    (this : s.takeWhile isNameChar = ['t', 'h', 'i', 's']) : body ≠ s := by
  rintro rfl
  exact h.notThis this

theorem head?_ne (h : Named body) : body.head? ≠ some '@' := by
  intro first
  obtain ⟨rest, same⟩ := List.head?_eq_some_iff.mp first
  exact h.ne_of_sign rfl same

theorem not_parents (h : Named body) : ['.', '.'].isPrefixOf body = false := by
  refine Bool.eq_false_iff.mpr fun begins => ?_
  obtain ⟨rest, same⟩ := List.isPrefixOf_iff_prefix.mp begins
  exact h.ne_of_sign rfl same.symm

theorem stripRoot (h : Named body) :
    Text.stripAny [rootWord ++ ['.'], rootWord ++ ['/']] body = body := by
  refine Text.stripAny_eq_self fun start member rest => ?_
  simp only [List.mem_cons, List.not_mem_nil, or_false] at member
  rcases member with rfl | rfl <;> exact h.ne_of_sign rfl

theorem stripCurrent (h : Named body) :
    Text.stripAny (Current.spelling <$> [.thisDot, .thisSlash, .dotSlash]) body = body := by
  refine Text.stripAny_eq_self fun start member rest => ?_
  obtain ⟨mark, -, rfl⟩ := List.mem_map.mp member
  cases mark with
  | thisDot | thisSlash => exact h.ne_of_this rfl
  | dotSlash => exact h.ne_of_sign rfl

end Named

/-- Behind its marks, a text that begins with a name is all of the variable. -/
theorem variableOf_marked {root : Option Separator} {current : Option Current}
    {spelling body : List Char} (h : Named body)
    (trimmed : Text.trim spelling = marks root current ++ body) :
    variableOf spelling =
      some (String.ofList (body.map fun c => if c == '/' then '.' else c)) := by
  have nonempty : body ≠ [] := h.ne_of_sign rfl
  have notThis : body ≠ ['t', 'h', 'i', 's'] := h.ne_of_this rfl
  have notDot : body ≠ ['.'] := h.ne_of_sign rfl
  have unrooted : Text.stripAny [rootWord ++ ['.'], rootWord ++ ['/']] (Text.trim spelling) =
      (current.map Current.spelling).getD [] ++ body := by
    rw [trimmed, marks]
    match root, current with
    | some sep, _ => cases sep <;> rfl
    | none, some mark => cases mark <;> rfl
    | none, none => exact h.stripRoot
  cases current with
  | none =>
    exact variableOf_eq_some unrooted h.head?_ne h.not_parents h.stripCurrent nonempty notThis
      notDot
  | some mark =>
    refine variableOf_eq_some unrooted ?_ ?_ ?_ nonempty notThis notDot
    · cases mark <;> simp [Current.spelling]
    · cases mark <;> rfl
    · cases mark <;> rfl

/-- Behind marks, the root of the variable is the name, unless the name is padded. -/
theorem map_rootKey_variableOf {root : Option Separator} {current : Option Current} {item : Item}
    {tail : List Char} (name : item.IsName) (separated : Separated tail)
    (front : current = none → root = none → item.spelling.head?.all (!Text.isWhite ·) = true)
    (back : tail = [] → item.spelling.getLast?.all (!Text.isWhite ·) = true) :
    (variableOf (marks root current ++ item.spelling ++ tail)).toList.map rootKey = [item.key] := by
  obtain ⟨nonempty, notThis, chars⟩ := name.spelling
  obtain ⟨rest, separated, trimmed⟩ := trim_marked nonempty separated front back
  have taken := separated.takeWhile_isNameChar chars
  rw [List.append_assoc (marks root current) item.spelling rest] at trimmed
  have named : Named (item.spelling ++ rest) := ⟨by rwa [taken], by rwa [taken]⟩
  rw [variableOf_marked named trimmed, Option.toList_some, List.map_singleton,
    rootKey_dotted separated chars, name.key]

/-- The variable of a path whose first item is not padded has that item for its root. -/
theorem keepsRoot_of_unpadded (h : p.Direct) (unpadded : p.Unpadded) : p.KeepsRoot := by
  rw [KeepsRoot, Path.variables, chars_of_direct h, mark_of_direct h]
  apply map_rootKey_variableOf h.first p.tail_separated unpadded.front
  intro none
  exact unpadded.back (tail_eq_nil_iff.mp none)

end Path
end Markup
end Letterbook
