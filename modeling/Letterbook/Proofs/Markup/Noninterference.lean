import Mathlib
import Letterbook.Markup.Engine
import Letterbook.Proofs.Table
import Letterbook.Proofs.Markup.Agreement
import Letterbook.Proofs.Markup.RootKey

/-! A plain template depends on no more of the object that fills it than the fields at the roots of
its variables, as far as its paths keep their roots. A path that does not keep its root reads a field
that no variable names. -/
namespace Letterbook

/-- Two values with the same members at the roots of these names. -/
def AgreeOn (names : NameSet) (x y : Json) : Prop :=
  ∀ name ∈ names.toList, x.member? (rootKey name) = y.member? (rootKey name)

/-- Objects that agree on the variables of a text fill it alike. -/
def Executable.ReadsOnlyNames (e : Executable) : Prop :=
  ∀ x y, AgreeOn e.names (.obj x) (.obj y) → e.execute (.obj x) = e.execute (.obj y)

namespace Markup

theorem mem_variables {t : Template} {name : String} :
    name ∈ t.variables.toList ↔ name ∈ Element.listVariables t := NameSet.mem_toList_ofList

theorem follow_congr {x y : List (String × Json)} {key : String}
    (same : Table.lookup key x = Table.lookup key y) (rest : List String) :
    follow (.obj x) (key :: rest) = follow (.obj y) (key :: rest) := by
  simp only [follow, lookupKey, same]

namespace Path

variable {p : Path}

theorem keys_eq_of_direct (h : p.Direct) : p.keys =
    p.first.key :: (p.others.map fun e => e.2.key).filter (· != "this") := by
  have other : p.first.key ≠ "this" := by
    rw [h.first.key]
    exact fun same => h.first.spelling.2.1 (String.ofList_injective same)
  rw [keys, List.map_cons, List.filter_cons_of_pos (by simpa using other), List.map_map]
  rfl

theorem keys_of_direct (h : p.Direct) : ∃ rest, p.keys = p.first.key :: rest :=
  ⟨_, keys_eq_of_direct h⟩

/-- At the root every mark of a path leads to the same place. -/
theorem resolve_of_direct (h : p.Direct) (root : Json) :
    (Scope.ofRoot root).resolve p = (Scope.ofRoot root).atPlace [] p.keys := by
  have unnamed : p.keys.head?.bind (Scope.ofRoot root).named? = none := by
    cases p.keys.head? <;> rfl
  simp only [Scope.resolve, h.data, h.parents, unnamed]
  split <;> rfl

theorem KeepsRoot.exists_variable (keeps : p.KeepsRoot) :
    ∃ name ∈ p.variables, rootKey name = p.first.key :=
  List.mem_map.mp (keeps ▸ List.mem_singleton_self _)

theorem resolve_congr (h : p.Direct) {x y : List (String × Json)}
    (same : Table.lookup p.first.key x = Table.lookup p.first.key y) :
    (Scope.ofRoot (.obj x)).resolve p = (Scope.ofRoot (.obj y)).resolve p := by
  obtain ⟨rest, spelled⟩ := keys_of_direct h
  rw [resolve_of_direct h, resolve_of_direct h, spelled, Scope.atPlace, Scope.atPlace]
  simp only [List.nil_append, Scope.ofRoot, follow_congr same]

end Path

namespace Template

/-- The first key of every path that the template reads is the root of a variable. -/
def Covers (t : Template) : Prop :=
  ∀ p ∈ t.paths, ∃ name ∈ t.variables.toList, rootKey name = p.first.key

variable {t : Template} {o : Options}

theorem variables_subset (plain : t.IsPlain) {p : Path} (read : p ∈ t.paths) {name : String}
    (listed : name ∈ p.variables) : name ∈ t.variables.toList :=
  mem_variables.mpr (Element.listVariables_subset plain read listed)

theorem covers_of_keepsRoot (plain : t.IsPlain) (keeps : ∀ p ∈ t.paths, p.KeepsRoot) :
    t.Covers := by
  intro p read
  obtain ⟨name, listed, root⟩ := (keeps p read).exists_variable
  exact ⟨name, variables_subset plain read listed, root⟩

theorem agree_of_covers (covers : t.Covers) (direct : ∀ p ∈ t.paths, p.Direct)
    {x y : List (String × Json)} (agree : AgreeOn t.variables (.obj x) (.obj y)) :
    Scope.Agree t.paths (Scope.ofRoot (.obj x)) (Scope.ofRoot (.obj y)) := by
  refine ⟨rfl, fun p read => ?_⟩
  obtain ⟨name, listed, root⟩ := covers p read
  exact Path.resolve_congr (direct p read) (root ▸ agree name listed)

theorem names_executable (o : Options) (t : Template) : (t.executable o).names = t.variables := rfl

/-- Rendering reads nothing behind the paths of the template. -/
theorem render_congr (plain : t.IsPlain) {x y : Json}
    (agree : Scope.Agree t.paths (Scope.ofRoot x) (Scope.ofRoot y)) :
    t.render o x = t.render o y := by
  rw [render, render, Render.maxDepth, Render.template, Render.template,
    Render.elements_congr plain agree]

theorem readsOnlyNames_of_covers (plain : t.IsPlain) (direct : ∀ p ∈ t.paths, p.Direct)
    (covers : t.Covers) : (t.executable o).ReadsOnlyNames := by
  intro x y agree
  have same : t.render o (.obj x) = t.render o (.obj y) :=
    render_congr plain (agree_of_covers covers direct agree)
  simp only [executable, same]

/-- The template of one block, which prints a text if the path leads to something true. -/
def whether (p : Path) : Template :=
  [.block (some ⟨1, 1⟩) "if" [.path p] [] .none [.text "x"] none false]

end Template

/-- The object in which these keys lead to a truth, and nothing else does. -/
def nested : List String → Json
  | [] => .bool true
  | key :: rest => .obj [(key, nested rest)]

theorem follow_nested (keys : List String) :
    follow (nested keys) keys = .ok (some (.bool true)) := by
  induction keys with
  | nil => rfl
  | cons key rest ih =>
    have found : lookupKey key (nested (key :: rest)) = .ok (some (nested rest)) := by
      rw [nested, lookupKey, Table.lookup_cons_self]
    rw [follow, found]
    exact ih

section Whether

variable {p : Path} {o : Options} {s : Scope} {root : Json} {found : Found}

theorem paths_whether : (Template.whether p).paths = [p] := rfl

theorem block_whether (resolved : s.resolve p = .ok found) (body : Body) :
    Render.block o s "if" [.path p] [] .none body none =
      Render.choose s (Value.truthy false found.json) body none := by
  have actuals : evalActuals o s [.path p] [] = .ok ⟨[⟨found, some p.spelling⟩], []⟩ := by
    simp only [evalActuals, Arg.evalList, Arg.evalHash, Arg.eval, resolved]
    rfl
  rw [Render.block, actuals]
  rfl

theorem execute_whether (resolved : (Scope.ofRoot root).resolve p = .ok found) :
    ((Template.whether p).executable o).execute root =
      .ok (if Value.truthy false found.json then "x" else "") := by
  simp only [Template.executable, Template.whether, Template.render, Render.maxDepth,
    Render.template, Render.elements, Render.element, Render.optionalBody, block_whether resolved]
  cases Value.truthy false found.json <;> rfl

theorem execute_whether_nested (direct : p.Direct) :
    ((Template.whether p).executable o).execute (nested p.keys) = .ok "x" := by
  have resolved : (Scope.ofRoot (nested p.keys)).resolve p = .ok (.at p.keys (.bool true)) := by
    rw [Path.resolve_of_direct direct, Scope.atPlace]
    simp only [List.nil_append, Scope.ofRoot, follow_nested]
    rfl
  rw [execute_whether resolved]
  rfl

theorem execute_whether_nothing (direct : p.Direct) :
    ((Template.whether p).executable o).execute (.obj []) = .ok "" := by
  have resolved : (Scope.ofRoot (.obj [])).resolve p = .ok .missing := by
    obtain ⟨rest, spelled⟩ := Path.keys_of_direct direct
    rw [Path.resolve_of_direct direct, spelled]
    rfl
  rw [execute_whether resolved]
  rfl

/-- Where a path alone decides what is printed, its first key has to be the root of a variable. -/
theorem covers_of_readsOnlyNames (direct : p.Direct)
    (reads : ((Template.whether p).executable o).ReadsOnlyNames) : (Template.whether p).Covers := by
  intro q read
  obtain rfl := List.mem_singleton.mp (paths_whether ▸ read)
  obtain ⟨rest, spelled⟩ := Path.keys_of_direct direct
  refine Classical.byContradiction fun uncovered => ?_
  -- The object that only this path can tell from the empty one differs from it in no variable.
  have agree : AgreeOn ((Template.whether q).executable o).names
      (.obj [(q.first.key, nested rest)]) (.obj []) := by
    intro name listed
    rw [Template.names_executable] at listed
    have other : rootKey name ≠ q.first.key := fun same => uncovered ⟨name, listed, same⟩
    rw [Json.member?, Table.lookup_cons_of_ne other, Json.member?]
  have same := reads _ _ agree
  have printed : ((Template.whether q).executable o).execute (nested q.keys) = .ok "x" :=
    execute_whether_nested direct
  rw [spelled, nested, same, execute_whether_nothing direct] at printed
  simp at printed

theorem readsOnlyNames_whether_iff (direct : p.Direct) :
    ((Template.whether p).executable o).ReadsOnlyNames ↔ (Template.whether p).Covers := by
  refine ⟨covers_of_readsOnlyNames direct, Template.readsOnlyNames_of_covers rfl fun q read => ?_⟩
  obtain rfl := List.mem_singleton.mp (paths_whether ▸ read)
  exact direct

end Whether

theorem compile_of_parse {text : String} {t : Template} {o : Options}
    (parsed : Template.parse text = .ok t) : (engine o).compile text = .ok (t.executable o) := by
  simp only [engine, parsed]

/-- A plain template of direct paths depends only on the fields at the roots of its variables if the
first key of every path is such a root, as it is where no first item is padded. For the template that
asks for a single path, this is also necessary. -/
theorem compile_readsOnlyNames {text : String} {t : Template}
    (parsed : Template.parse text = .ok t) (plain : t.IsPlain)
    (direct : ∀ p ∈ t.paths, p.Direct) :
    (t.Covers → ∀ o, ∃ e, (engine o).compile text = .ok e ∧ e.names = t.variables ∧
      e.ReadsOnlyNames) ∧
    ((∀ p ∈ t.paths, p.Unpadded) → t.Covers) ∧
    ∀ p : Path, p.Direct → ∀ o,
      ((Template.whether p).executable o).ReadsOnlyNames ↔ (Template.whether p).Covers := by
  refine ⟨fun covers o => ?_, fun unpadded => ?_, fun p direct o =>
    readsOnlyNames_whether_iff direct⟩
  · exact ⟨t.executable o, compile_of_parse parsed, rfl,
      Template.readsOnlyNames_of_covers plain direct covers⟩
  · exact Template.covers_of_keepsRoot plain fun p read =>
      Path.keepsRoot_of_unpadded (direct p read) (unpadded p read)

/-- A salutation to one or to several, read from three fields with a different mark each. -/
def salutation : Template :=
  [.text "Dear ", .output ⟨1, 6⟩ (.path ⟨some .thisDot, none, false, [], .name "name".toList, []⟩)
      [] [] true,
    .block (some ⟨1, 19⟩) "if"
      [.call (.ofName "gt".toList)
        [.path ⟨none, some .dot, false, [], .name "n".toList, []⟩, .literal (.num (.int 1))] []]
      [] .none [.text ", all"]
      (some [.output ⟨1, 54⟩ (.path (.ofName "from".toList)) [] [] false]) false]

def salutationText : String :=
  "Dear \x7b\x7bthis.name\x7d\x7d\x7b\x7b#if (gt @root.n 1)\x7d\x7d, all" ++
    "\x7b\x7belse\x7d\x7d\x7b\x7b\x7bfrom\x7d\x7d\x7d\x7b\x7b/if\x7d\x7d"

theorem salutation_readsOnlyNames : Template.parse salutationText = .ok salutation ∧
    salutation.IsPlain ∧ (∀ p ∈ salutation.paths, p.Direct) ∧ salutation.Covers ∧
      ∀ o, ∃ e, (engine o).compile salutationText = .ok e ∧ e.names = salutation.variables ∧
        e.ReadsOnlyNames := by
  have parsed : Template.parse salutationText = .ok salutation := by cbv
  have direct : ∀ p ∈ salutation.paths, p.Direct := by decide
  have unpadded : ∀ p ∈ salutation.paths, p.Unpadded := by decide
  obtain ⟨reads, covers, -⟩ := compile_readsOnlyNames parsed rfl direct
  exact ⟨parsed, rfl, direct, covers unpadded, reads (covers unpadded)⟩

/-- A tag whose path begins with a no-break space, as its variable does not. -/
def padded : Template := [.output ⟨1, 1⟩ (.path (.ofName ['\u00a0', 'x'])) [] [] true]

theorem padded_not_readsOnlyNames :
    Template.parse "\x7b\x7b\u00a0x\x7d\x7d" = .ok padded ∧ padded.IsPlain ∧
      (∀ p ∈ padded.paths, p.Direct) ∧ ∀ o, ¬ (padded.executable o).ReadsOnlyNames := by
  refine ⟨by cbv, rfl, by decide, fun o reads => ?_⟩
  have names : padded.variables.toList = ["x"] := by cbv
  have agree : AgreeOn padded.variables (.obj [("x", .str "w")])
      (.obj [("x", .str "w"), ("\u00a0x", .str "v")]) := by
    intro name listed
    rw [names] at listed
    obtain rfl := List.mem_singleton.mp listed
    rfl
  have same := congrArg Except.toOption (reads _ _ agree)
  obtain ⟨escape, strict⟩ := o
  cases escape <;> cases strict <;> exact absurd same (by decide)

end Markup
end Letterbook
