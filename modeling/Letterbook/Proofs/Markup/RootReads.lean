import Letterbook.Proofs.Markup.Noninterference
import Letterbook.Proofs.Markup.ParsedPaths
import Letterbook.Proofs.Results

/-! What the variables of a template tell. A path that leads from the context or the root to a field
by its name has that name for the root of its variable, and a path to block data or to a parent has
no variable. Nothing is told of the bodies of blocks other than `if` and `unless`. -/
namespace Letterbook.Markup

namespace Path

variable {p : Path}

/-- The path without a `this` behind the mark of the root, where it is read as an item. -/
def withoutThis (p : Path) : Path :=
  match p.root, p.first, p.others with
  | some _, .name ['t', 'h', 'i', 's'], (_, item) :: others => { p with first := item, others }
  | _, _, _ => p

/-- The spelling of the current context by its word. -/
def thisMark : Separator → Current
  | .dot => .thisDot
  | .slash => .thisSlash

theorem withoutThis_cases (p : Path) : p.withoutThis = p ∨ ∃ sep sep' item others,
    p.root = some sep ∧ p.first = .name ['t', 'h', 'i', 's'] ∧ p.others = (sep', item) :: others ∧
      p.withoutThis = { p with first := item, others } := by
  unfold withoutThis
  split
  · next sep sep' item others root first behind =>
    exact .inr ⟨sep, sep', item, others, root, first, behind, rfl⟩
  · exact .inl rfl

theorem keys_withoutThis (p : Path) : p.withoutThis.keys = p.keys := by
  rcases p.withoutThis_cases with same | ⟨sep, sep', item, others, root, first, behind, same⟩
  · rw [same]
  · rw [same]
    simp [keys, first, behind, Item.key]

/-- The variable of a path to a field has the name of the field for its root. -/
theorem map_rootKey_variables (direct : p.withoutThis.Direct) (unpadded : p.withoutThis.Unpadded) :
    p.variables.map rootKey = [p.withoutThis.first.key] := by
  rcases p.withoutThis_cases with same | ⟨sep, sep', item, others, root, first, behind, same⟩
  · rw [same] at direct unpadded ⊢
    exact keepsRoot_of_unpadded direct unpadded
  · rw [same] at direct unpadded ⊢
    have bare : p.current = none := direct.mark.resolve_right (by simp [root])
    -- The item that is left out is spelled as the mark of the context that is stripped.
    have chars : p.chars = marks (some sep) (some (thisMark sep')) ++ item.spelling ++
        ({ p with first := item, others } : Path).tail := by
      have data : p.data = false := direct.data
      have level : p.parents = [] := direct.parents
      cases sep' <;> simp [Path.chars, marks, tail, bare, root, data, level, first, behind,
        Item.spelling, thisMark, Current.spelling, Separator.spelling]
    rw [Path.variables, chars]
    apply map_rootKey_variableOf direct.first (tail_separated _)
    · intro none
      contradiction
    · intro none
      exact unpadded.back (tail_eq_nil_iff.mp none)

/-- Such a path leads from the root: by its mark anywhere, or where the context is the root. -/
theorem resolve_eq_atPlace (direct : p.withoutThis.Direct) {s : Scope}
    (rooted : p.root.isSome ∨ s.frames = [.top]) : s.resolve p = s.atPlace [] p.keys := by
  by_cases root : p.root.isSome
  · rw [Scope.resolve, if_pos root]
  · have frames : s.frames = [.top] := rooted.resolve_left root
    rcases p.withoutThis_cases with same | ⟨sep, sep', item, others, marked, -⟩
    · rw [same] at direct
      have unnamed : p.keys.head?.bind s.named? = none := by
        apply Option.bind_eq_none_iff.mpr
        intro key _
        rw [Scope.named?, frames]
        rfl
      have outermost : s.ancestor 0 = .top := by
        rw [Scope.ancestor, frames]
        rfl
      simp only [Scope.resolve, root, direct.data, direct.parents, unnamed, List.length_nil,
        outermost]
      rfl
    · simp [marked] at root

/-- Behind the mark of the root, block data and parents are no variables. -/
theorem variableOf_eq_none {root : Option Separator} {s rest : List Char}
    (trimmed : Text.trim s = marks root none ++ rest)
    (bare : root = none → ∀ sep behind, rest ≠ rootWord ++ Separator.spelling sep ++ behind)
    (sign : rest.head? = some '@' ∨ ['.', '.'] <+: rest) : variableOf s = none := by
  have unrooted : Text.stripAny [rootWord ++ ['.'], rootWord ++ ['/']] (Text.trim s) = rest := by
    rw [trimmed, marks]
    cases root with
    | some sep => cases sep <;> rfl
    | none =>
      refine Text.stripAny_eq_self fun start member behind same => ?_
      simp only [List.mem_cons, List.not_mem_nil, or_false] at member
      rcases member with rfl | rfl
      · exact bare rfl .dot behind same
      · exact bare rfl .slash behind same
  rw [variableOf, unrooted, if_pos]
  rcases sign with at' | up
  · simp [at']
  · simp [List.isPrefixOf_iff_prefix.mpr up]

section Signs

variable {sign : Char} {more : List Char}

theorem head_signed_not_white (solid : Text.isWhite sign = false) (c : Char)
    (head : (marks p.root none ++ [sign] ++ more).head? = some c) : Text.isWhite c = false := by
  apply head_marked_not_white (List.cons_ne_nil sign []) _ head
  simp [solid]

theorem variables_eq_nil_of_data (read : p.WasRead) (bare : p.current = none)
    (data : p.data = true) : p.variables = [] := by
  obtain ⟨more, chars⟩ : ∃ more, p.chars = marks p.root none ++ '@' :: more := by
    simp [Path.chars, marks, bare, data]
  have solid : Text.isWhite '@' = false := by decide
  have front (c : Char) (head : (marks p.root none ++ '@' :: more).head? = some c) :
      Text.isWhite c = false := by
    rw [List.append_cons] at head
    exact head_signed_not_white solid c head
  have trimmed := Text.trim_append_cons solid front
  rw [← chars] at trimmed
  rw [Path.variables, Option.toList_eq_nil_iff]
  refine variableOf_eq_none trimmed (fun unmarked sep behind same => ?_) (.inl rfl)
  -- What trimming leaves begins as the path does.
  have whole := Text.dropEndWhile_append_takeEndWhile Text.isWhite more
  refine read.chars_ne_marked bare unmarked data sep
    (behind ++ Text.takeEndWhile Text.isWhite more) ?_
  rw [chars, unmarked, ← List.append_assoc, ← same, List.cons_append, whole]
  rfl

theorem variables_eq_nil_of_parents (bare : p.current = none) (data : p.data = false)
    (up : p.parents ≠ []) : p.variables = [] := by
  obtain ⟨sep, ups, parents⟩ := List.exists_cons_of_ne_nil up
  obtain ⟨more, chars⟩ : ∃ more, p.chars = marks p.root none ++ ['.'] ++ '.' :: more := by
    simp [Path.chars, marks, bare, data, parents]
  have solid : Text.isWhite '.' = false := by decide
  have trimmed : Text.trim (marks p.root none ++ ['.'] ++ '.' :: more) =
      marks p.root none ++ ['.'] ++ '.' :: Text.dropEndWhile Text.isWhite more :=
    Text.trim_append_cons solid (head_signed_not_white solid)
  rw [← chars, List.append_assoc] at trimmed
  rw [Path.variables, Option.toList_eq_nil_iff]
  refine variableOf_eq_none trimmed (fun unmarked sep behind same => ?_) (.inr ⟨_, rfl⟩)
  simp [rootWord] at same

end Signs

theorem variables_eq_nil (read : p.WasRead) (bare : p.current = none)
    (other : p.data = true ∨ p.parents ≠ []) : p.variables = [] := by
  cases data : p.data with
  | true => exact variables_eq_nil_of_data read bare data
  | false =>
    have up : p.parents ≠ [] := other.resolve_left (by simp [data])
    exact variables_eq_nil_of_parents bare data up

end Path

/-- What variables tell of a template: of each path that leads to a field the name of the field, of
no path to block data or to a parent anything, and nothing of what the template does not mention. -/
structure Template.Reports (t : Template) (names : NameSet) : Prop where
  fields : ∀ p, t.Mentions p → p.withoutThis.Direct → p.withoutThis.Unpadded → ∃ k rest,
    p.keys = k :: rest ∧
    (∀ s : Scope, p.root.isSome ∨ s.frames = [.top] → s.resolve p = s.atPlace [] (k :: rest)) ∧
    ∃ v ∈ names.toList, v ∈ p.variables ∧ rootKey v = k
  others : ∀ p, t.Mentions p → p.current = none → p.data = true ∨ p.parents ≠ [] → p.variables = []
  only : ∀ v ∈ names.toList, ∃ p, t.Mentions p ∧ v ∈ p.variables

theorem Template.reports_variables {t : Template} (read : ∀ p, t.Mentions p → p.WasRead) :
    t.Reports t.variables where
  fields p mentions direct unpadded := by
    obtain ⟨rest, keys⟩ := Path.keys_of_direct direct
    rw [Path.keys_withoutThis] at keys
    have root := Path.map_rootKey_variables direct unpadded
    obtain ⟨v, listed, same⟩ := List.mem_map.mp (root ▸ List.mem_singleton_self _)
    refine ⟨_, rest, keys, fun s rooted => ?_, v, ?_, listed, same⟩
    · rw [Path.resolve_eq_atPlace direct rooted, keys]
    · exact mem_variables_iff.mpr ⟨p, mentions, listed⟩
  others p mentions bare other := Path.variables_eq_nil (read p mentions) bare other
  only v listed := mem_variables_iff.mp listed

/-- The variables of a compiled text report what it reads at the root. -/
theorem reports_of_compile {o : Options} {text : String} {e : Executable}
    (compiled : (engine o).compile text = .ok e) :
    ∃ t, Template.parse text = .ok t ∧ t.Reports e.names := by
  cases parsed : Template.parse text with
  | error refusal => simp [engine, parsed] at compiled
  | ok t =>
    rw [compile_of_parse parsed] at compiled
    cases compiled
    exact ⟨t, rfl, Template.reports_variables fun p => Template.wasRead_of_parse parsed⟩

/-- Fields behind different marks, a tag with block data, one with a parent, a named argument. -/
def noticeText : String :=
  "\x7b\x7b#if @root.n\x7d\x7d\x7b\x7bthis.name\x7d\x7d\x7b\x7belse\x7d\x7d" ++
    "\x7b\x7b@index\x7d\x7d\x7b\x7b../up\x7d\x7d\x7b\x7b@root/this.x\x7d\x7d" ++
    "\x7b\x7b/if\x7d\x7d\x7b\x7blookup ./m k=key\x7d\x7d"

theorem reports_notice : ∃ e, (engine ⟨.none, false⟩).compile noticeText = .ok e ∧
    e.names.toList = ["key", "m", "n", "name", "x"] ∧
    ∃ t, Template.parse noticeText = .ok t ∧ t.Reports e.names := by
  have names : ((engine ⟨.none, false⟩).compile noticeText).toOption.map (·.names.toList) =
      some ["key", "m", "n", "name", "x"] := by decide +kernel
  obtain ⟨e, made, listed⟩ := Option.map_eq_some_iff.mp names
  have compiled := Result.toOption_eq_some.mp made
  exact ⟨e, compiled, listed, reports_of_compile compiled⟩

/-- A path to a field of the root. -/
def ghost : Path := ⟨none, some .dot, false, [], .name "ghost".toList, []⟩

/-- A block that changes the context, with such a path in its body. -/
def haunted : Template :=
  [.block (some ⟨1, 1⟩) "each" [.path (.ofName "xs".toList)] [] .none
    [.output ⟨1, 13⟩ (.path ghost) [] [] true] none false]

def hauntedText : String :=
  "\x7b\x7b#each xs\x7d\x7d\x7b\x7b@root.ghost\x7d\x7d\x7b\x7b/each\x7d\x7d"

/-- A name in brackets, and paths that have a mark of the context in front of more than a name. -/
def maskedText : String :=
  "\x7b\x7b[x]\x7d\x7d\x7b\x7bthis.@index\x7d\x7d" ++
    "\x7b\x7bthis.this.y\x7d\x7d\x7b\x7bthis.@root.z\x7d\x7d"

/-- The body of a block prints a field of the root that no variable names. The variables of a masked
path keep its brackets, or what stands behind the mark of the context. -/
theorem haunted_unreported : Template.parse hauntedText = .ok haunted ∧
    (∀ s : Scope, s.resolve ghost = s.atPlace [] ["ghost"]) ∧
    (∃ e, (engine ⟨.none, false⟩).compile hauntedText = .ok e ∧
      (e.execute (.obj [("ghost", .str "boo"), ("xs", .arr [.null])])).toOption = some "boo" ∧
      ¬ ∃ v ∈ e.names.toList, rootKey v = "ghost") ∧
    ((engine ⟨.none, false⟩).compile maskedText).toOption.map (·.names.toList) =
      some ["@index", "@root.z", "[x]", "this.y"] := by
  have parsed : Template.parse hauntedText = .ok haunted := by cbv
  have compiled := compile_of_parse (o := ⟨.none, false⟩) parsed
  have names : haunted.variables.toList = ["xs"] := by decide +kernel
  have printed : ((haunted.executable ⟨.none, false⟩).execute
      (.obj [("ghost", .str "boo"), ("xs", .arr [.null])])).toOption = some "boo" := by
    decide +kernel
  refine ⟨parsed, fun s => rfl, ⟨_, compiled, printed, ?_⟩, by decide +kernel⟩
  rintro ⟨v, listed, root⟩
  have same : v = "xs" := by
    rw [Template.names_executable, names] at listed
    exact List.mem_singleton.mp listed
  rw [same] at root
  exact absurd root (by decide)

end Letterbook.Markup
