/-! Tables with one value per key, kept in ascending order of the keys, so that equal contents
are equal tables and walking a table meets its keys in order. -/
namespace Letterbook

/-- Entries in strictly ascending order of their keys. -/
structure Table (κ : Type u) (ν : Type v) [Ord κ] where
  entries : List (κ × ν)
  ascending : entries.Pairwise fun a b => compare a.1 b.1 = .lt
  deriving DecidableEq, Repr

namespace Table

/-- Puts a key at its place among ascending entries; a value already there is replaced. -/
def put [Ord κ] (k : κ) (v : ν) : List (κ × ν) → List (κ × ν)
  | [] => [(k, v)]
  | (k', v') :: rest =>
    match compare k k' with
    | .lt => (k, v) :: (k', v') :: rest
    | .eq => (k, v) :: rest
    | .gt => (k', v') :: put k v rest

/-- The value of the first entry with this key. -/
def lookup [Ord κ] (k : κ) (entries : List (κ × ν)) : Option ν :=
  (entries.find? fun e => compare k e.1 == .eq).map Prod.snd

variable {κ : Type u} {ν : Type v} [Ord κ]

theorem key_of_mem_put {k : κ} {v : ν} {entries : List (κ × ν)} {e : κ × ν}
    (h : e ∈ put k v entries) : e = (k, v) ∨ e ∈ entries := by
  induction entries with
  | nil => simpa [put] using h
  | cons f rest ih =>
    obtain ⟨k', v'⟩ := f
    rw [put] at h
    split at h
    · simpa using h
    · rcases List.mem_cons.mp h with h | h
      · exact .inl h
      · exact .inr (List.mem_cons_of_mem _ h)
    · rcases List.mem_cons.mp h with h | h
      · exact .inr (h ▸ List.mem_cons_self)
      · exact (ih h).imp_right (List.mem_cons_of_mem _)

theorem ascending_put [Std.TransOrd κ] (k : κ) (v : ν) {entries : List (κ × ν)}
    (h : entries.Pairwise fun a b => compare a.1 b.1 = .lt) :
    (put k v entries).Pairwise fun a b => compare a.1 b.1 = .lt := by
  induction entries with
  | nil => simp [put]
  | cons f rest ih =>
    obtain ⟨k', v'⟩ := f
    obtain ⟨head, tail⟩ := List.pairwise_cons.mp h
    rw [put]
    split
    next below =>
      refine List.pairwise_cons.mpr ⟨fun e he => ?_, h⟩
      rcases List.mem_cons.mp he with rfl | he
      · exact below
      · exact Std.TransCmp.lt_trans below (head e he)
    next same =>
      exact List.pairwise_cons.mpr
        ⟨fun e he => Std.TransCmp.lt_of_eq_of_lt same (head e he), tail⟩
    next above =>
      refine List.pairwise_cons.mpr ⟨fun e he => ?_, ih tail⟩
      rcases key_of_mem_put he with rfl | he
      · exact Std.OrientedCmp.lt_of_gt above
      · exact head e he

/-- The table without entries. -/
def empty : Table κ ν := ⟨[], .nil⟩

instance : Inhabited (Table κ ν) := ⟨empty⟩

/-- The table with `v` at `k`, whatever was there. -/
def insert [Std.TransOrd κ] (t : Table κ ν) (k : κ) (v : ν) : Table κ ν :=
  ⟨put k v t.entries, ascending_put k v t.ascending⟩

/-- The table of a list; of several values for one key the last stays. -/
def ofList [Std.TransOrd κ] (pairs : List (κ × ν)) : Table κ ν :=
  pairs.foldl (fun t e => t.insert e.1 e.2) empty

def find? (t : Table κ ν) (k : κ) : Option ν := lookup k t.entries

def contains (t : Table κ ν) (k : κ) : Bool := (t.find? k).isSome

/-- The table with the value at `k` changed; where there is none, `start` is changed. -/
def update [Std.TransOrd κ] (t : Table κ ν) (k : κ) (start : ν) (f : ν → ν) : Table κ ν :=
  t.insert k (f ((t.find? k).getD start))

/-- The same keys with other values. -/
def mapValues (t : Table κ ν) (f : ν → μ) : Table κ μ :=
  ⟨t.entries.map fun e => (e.1, f e.2), List.pairwise_map.mpr t.ascending⟩

def keys (t : Table κ ν) : List κ := t.entries.map Prod.fst

def values (t : Table κ ν) : List ν := t.entries.map Prod.snd

def size (t : Table κ ν) : Nat := t.entries.length

@[simp] theorem keys_mapValues (t : Table κ ν) (f : ν → μ) : (t.mapValues f).keys = t.keys := by
  simp [keys, mapValues]

@[simp] theorem find?_mapValues (t : Table κ ν) (f : ν → μ) (k : κ) :
    (t.mapValues f).find? k = (t.find? k).map f := by
  simp only [find?, mapValues, lookup, List.find?_map, Option.map_map]
  rfl

theorem ext {s t : Table κ ν} (h : s.entries = t.entries) : s = t := by
  cases s; cases t; cases h; rfl

end Table

/-- A set of names in ascending order. -/
abbrev NameSet := Table String Unit

namespace NameSet

def ofList (names : List String) : NameSet := Table.ofList (names.map fun name => (name, ()))

def toList (names : NameSet) : List String := names.keys

def isEmpty (names : NameSet) : Bool := names.toList.isEmpty

end NameSet
end Letterbook
