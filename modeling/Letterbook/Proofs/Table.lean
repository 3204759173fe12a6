import Letterbook.Table

/-! What tables hold. A table is determined by what is found at each key, so the operations are
described by what is found after them, and sets of names by their members. -/
namespace Letterbook
namespace Table

variable {κ : Type u} {ν : Type v} [Ord κ]

section Entries

variable [Std.LawfulEqOrd κ] {k : κ} {v : ν} {entries : List (κ × ν)}

theorem lookup_cons_self : lookup k ((k, v) :: entries) = some v := by
  simp [lookup]

theorem lookup_cons_of_ne {j : κ} (different : k ≠ j) :
    lookup k ((j, v) :: entries) = lookup k entries := by
  have unequal : compare k j ≠ .eq := mt Std.LawfulEqOrd.eq_of_compare different
  simp [lookup, unequal]

theorem mem_of_lookup_eq_some (found : lookup k entries = some v) : (k, v) ∈ entries := by
  obtain ⟨e, first, rfl⟩ := Option.map_eq_some_iff.mp found
  have same : k = e.1 := Std.LawfulEqOrd.eq_of_compare (by simpa using List.find?_some first)
  exact same ▸ List.mem_of_find?_eq_some first

theorem lookup_eq_some_iff (ascending : entries.Pairwise fun a b => compare a.1 b.1 = .lt) :
    lookup k entries = some v ↔ (k, v) ∈ entries := by
  refine ⟨mem_of_lookup_eq_some, fun member => ?_⟩
  induction entries with
  | nil => contradiction
  | cons e rest ih =>
    obtain ⟨j, w⟩ := e
    obtain ⟨head, tail⟩ := List.pairwise_cons.mp ascending
    rcases List.mem_cons.mp member with same | later
    · cases same
      exact lookup_cons_self
    · have different : k ≠ j := by
        rintro rfl
        simpa using head _ later
      rw [lookup_cons_of_ne different]
      exact ih tail later

theorem lookup_put_self (k : κ) (v : ν) (entries : List (κ × ν)) :
    lookup k (put k v entries) = some v := by
  induction entries with
  | nil => exact lookup_cons_self
  | cons e rest ih =>
    obtain ⟨j, w⟩ := e
    rw [put]
    split
    · exact lookup_cons_self
    · exact lookup_cons_self
    · next above =>
      have different : k ≠ j := by
        rintro rfl
        simp at above
      rw [lookup_cons_of_ne different, ih]

theorem lookup_put_of_ne {j : κ} (different : j ≠ k) :
    lookup j (put k v entries) = lookup j entries := by
  induction entries with
  | nil => exact lookup_cons_of_ne different
  | cons e rest ih =>
    obtain ⟨i, w⟩ := e
    rw [put]
    split
    · exact lookup_cons_of_ne different
    · next same =>
      obtain rfl := Std.LawfulEqOrd.eq_of_compare same
      rw [lookup_cons_of_ne different, lookup_cons_of_ne different]
    · by_cases here : j = i
      · subst i
        rw [lookup_cons_self, lookup_cons_self]
      · rw [lookup_cons_of_ne here, lookup_cons_of_ne here, ih]

end Entries

section Finding

variable {t : Table κ ν} {k : κ} {v : ν}

theorem contains_iff : t.contains k ↔ ∃ v, t.find? k = some v := by
  rw [contains, Option.isSome_iff_exists]

@[simp] theorem find?_empty : (empty : Table κ ν).find? k = none := rfl

variable [Std.LawfulEqOrd κ]

theorem find?_eq_some_iff : t.find? k = some v ↔ (k, v) ∈ t.entries :=
  lookup_eq_some_iff t.ascending

theorem mem_keys : k ∈ t.keys ↔ ∃ v, t.find? k = some v := by
  simp only [find?_eq_some_iff, keys, List.mem_map, Prod.exists]
  constructor
  · rintro ⟨_, v, member, rfl⟩
    exact ⟨v, member⟩
  · rintro ⟨v, member⟩
    exact ⟨k, v, member, rfl⟩

theorem mem_keys_iff_contains : k ∈ t.keys ↔ t.contains k := mem_keys.trans contains_iff.symm

/-- A table in which something is found is not empty. -/
theorem size_pos_of_find? (found : t.find? k = some v) : 0 < t.size :=
  List.length_pos_of_mem (find?_eq_some_iff.mp found)

variable [Std.TransOrd κ]

@[simp] theorem find?_insert_self : (t.insert k v).find? k = some v := lookup_put_self k v t.entries

theorem find?_insert_of_ne {j : κ} (different : j ≠ k) :
    (t.insert k v).find? j = t.find? j :=
  lookup_put_of_ne different

@[simp] theorem find?_update_self (start : ν) (f : ν → ν) :
    (t.update k start f).find? k = some (f ((t.find? k).getD start)) := find?_insert_self

theorem find?_update_of_ne {j : κ} (different : j ≠ k) (start : ν) (f : ν → ν) :
    (t.update k start f).find? j = t.find? j := find?_insert_of_ne different

theorem mem_keys_insert {j : κ} : j ∈ (t.insert k v).keys ↔ j = k ∨ j ∈ t.keys := by
  by_cases same : j = k
  · subst j
    simp [mem_keys]
  · simp [mem_keys, find?_insert_of_ne same, same]

theorem mem_keys_foldl_insert {pairs : List (κ × ν)} : ∀ {t : Table κ ν},
    k ∈ (pairs.foldl (fun t e => t.insert e.1 e.2) t).keys ↔
      k ∈ t.keys ∨ k ∈ pairs.map Prod.fst := by
  induction pairs with
  | nil => simp
  | cons e rest ih =>
    intro t
    rw [List.foldl_cons, ih, mem_keys_insert, or_assoc, or_left_comm, List.map_cons, List.mem_cons]

theorem mem_keys_ofList {pairs : List (κ × ν)} :
    k ∈ (ofList pairs).keys ↔ k ∈ pairs.map Prod.fst := by
  rw [ofList, mem_keys_foldl_insert]
  simp [keys, empty]

/-- Of several values that are inserted at one key the last one stays. -/
theorem find?_foldl_insert [DecidableEq κ] {pairs : List (κ × ν)} {t : Table κ ν} :
    (pairs.foldl (fun t e => t.insert e.1 e.2) t).find? k =
      (((pairs.filter (·.1 = k)).getLast?).map Prod.snd).or (t.find? k) := by
  induction pairs generalizing t with
  | nil => rfl
  | cons e rest ih =>
    rw [List.foldl_cons, ih]
    by_cases here : e.1 = k
    · rw [List.filter_cons_of_pos (by simpa using here), List.getLast?_cons, ← here,
        find?_insert_self]
      cases (rest.filter (·.1 = e.1)).getLast? <;> rfl
    · rw [List.filter_cons_of_neg (by simpa using here), find?_insert_of_ne (Ne.symm here)]

theorem find?_ofList [DecidableEq κ] {pairs : List (κ × ν)} :
    (ofList pairs).find? k = ((pairs.filter (·.1 = k)).getLast?).map Prod.snd := by
  rw [ofList, find?_foldl_insert, find?_empty, Option.or_none]

theorem mem_of_find?_foldl_insert {pairs : List (κ × ν)} : ∀ {t : Table κ ν},
    (pairs.foldl (fun t e => t.insert e.1 e.2) t).find? k = some v →
      t.find? k = some v ∨ (k, v) ∈ pairs := by
  induction pairs with
  | nil => exact .inl
  | cons e rest ih =>
    intro t found
    rcases ih found with first | later
    · by_cases same : k = e.1
      · rw [same, find?_insert_self, Option.some.injEq] at first
        exact .inr (same ▸ first ▸ List.mem_cons_self)
      · rw [find?_insert_of_ne same] at first
        exact .inl first
    · exact .inr (List.mem_cons_of_mem _ later)

/-- What is found in the table of a list stands in the list. -/
theorem mem_of_find?_ofList {pairs : List (κ × ν)} (found : (ofList pairs).find? k = some v) :
    (k, v) ∈ pairs := by
  rcases mem_of_find?_foldl_insert found with nothing | member
  · contradiction
  · exact member

end Finding

section Selecting

/-- The entries that `f` keeps, with the values that it gives them. -/
def filterMap (t : Table κ ν) (f : κ → ν → Option μ) : Table κ μ where
  entries := t.entries.filterMap fun e => (f e.1 e.2).map fun v => (e.1, v)
  ascending := by
    refine t.ascending.filterMap _ fun a b below c hc d hd => ?_
    obtain ⟨v, -, rfl⟩ := Option.map_eq_some_iff.mp hc
    obtain ⟨w, -, rfl⟩ := Option.map_eq_some_iff.mp hd
    exact below

theorem find?_filterMap [Std.LawfulEqOrd κ] (t : Table κ ν) (f : κ → ν → Option μ) (k : κ) :
    (t.filterMap f).find? k = (t.find? k).bind (f k) := by
  apply Option.ext
  intro v
  rw [find?_eq_some_iff, Option.bind_eq_some_iff]
  simp only [filterMap, List.mem_filterMap, Option.map_eq_some_iff, Prod.mk.injEq,
    find?_eq_some_iff]
  constructor
  · rintro ⟨⟨_, w⟩, member, _, kept, rfl, rfl⟩
    exact ⟨w, member, kept⟩
  · rintro ⟨w, member, kept⟩
    exact ⟨(k, w), member, v, kept, rfl, rfl⟩

end Selecting

section Refilling

variable {done pairs : List (κ × ν)} {k : κ} {v : ν}

theorem put_of_below [Std.OrientedOrd κ] (below : ∀ e ∈ done, compare e.1 k = .lt) :
    put k v done = done ++ [(k, v)] := by
  induction done with
  | nil => rfl
  | cons e rest ih =>
    obtain ⟨first, others⟩ := List.forall_mem_cons.mp below
    have above : compare k e.1 = .gt := Std.OrientedCmp.gt_of_lt first
    rw [put, above]
    dsimp only
    rw [ih others, List.cons_append]

/-- Ascending entries are put where they stand. -/
theorem foldl_put_of_ascending [Std.OrientedOrd κ]
    (ascending : (done ++ pairs).Pairwise fun a b => compare a.1 b.1 = .lt) :
    pairs.foldl (fun entries e => put e.1 e.2 entries) done = done ++ pairs := by
  induction pairs generalizing done with
  | nil => rw [List.foldl_nil, List.append_nil]
  | cons e rest ih =>
    obtain ⟨-, -, across⟩ := List.pairwise_append.mp ascending
    have below : ∀ f ∈ done, compare f.1 e.1 = .lt := by
      intro f member
      exact across f member e List.mem_cons_self
    rw [List.append_cons] at ascending
    rw [List.foldl_cons, put_of_below below, ih ascending, ← List.append_cons]

theorem entries_foldl_insert [Std.TransOrd κ] (pairs : List (κ × ν)) (t : Table κ ν) :
    (pairs.foldl (fun t e => t.insert e.1 e.2) t).entries =
      pairs.foldl (fun entries e => put e.1 e.2 entries) t.entries := by
  induction pairs generalizing t with
  | nil => rfl
  | cons e rest ih =>
    rw [List.foldl_cons, ih]
    rfl

/-- A table is the table of its entries. -/
theorem ofList_entries [Std.TransOrd κ] (t : Table κ ν) : ofList t.entries = t := by
  have ascending : (([] : List (κ × ν)) ++ t.entries).Pairwise
      fun a b => compare a.1 b.1 = .lt := t.ascending
  apply ext
  rw [ofList, entries_foldl_insert]
  exact foldl_put_of_ascending ascending

end Refilling

variable [Std.TransOrd κ]

theorem keys_nodup (t : Table κ ν) : t.keys.Nodup := by
  refine List.pairwise_map.mpr (t.ascending.imp fun {a b} below same => ?_)
  simp [same] at below

theorem entries_nodup (t : Table κ ν) : t.entries.Nodup := by
  refine t.ascending.imp fun {a b} below same => ?_
  simp [same] at below

/-- Two tables in which the same is found are the same table. -/
theorem ext_find? [Std.LawfulEqOrd κ] {s t : Table κ ν} (same : ∀ k, s.find? k = t.find? k) :
    s = t := by
  have members : ∀ e, e ∈ s.entries ↔ e ∈ t.entries := by
    rintro ⟨k, v⟩
    rw [← find?_eq_some_iff, ← find?_eq_some_iff, same]
  have perm := (List.perm_ext_iff_of_nodup s.entries_nodup t.entries_nodup).mpr members
  refine ext (perm.eq_of_pairwise (fun a b _ _ below above => ?_) s.ascending t.ascending)
  simp [Std.OrientedCmp.gt_of_lt above] at below

/-- Tables with the same keys list them alike, whatever their values. -/
theorem keys_congr [Std.LawfulEqOrd κ] {μ : Type w} {s : Table κ ν} {t : Table κ μ}
    (same : ∀ k, k ∈ s.keys ↔ k ∈ t.keys) : s.keys = t.keys := by
  have bare : s.mapValues (fun _ => ()) = t.mapValues (fun _ => ()) := by
    refine ext_find? fun k => Option.ext fun u => ?_
    have found := same k
    simp only [mem_keys] at found
    simpa using found
  have keys := congrArg Table.keys bare
  rwa [keys_mapValues, keys_mapValues] at keys

end Table

theorem NameSet.ofList_toList (names : NameSet) : NameSet.ofList names.toList = names := by
  have entries : names.toList.map (fun name => (name, ())) = names.entries := by
    rw [NameSet.toList, Table.keys, List.map_map]
    exact List.map_id names.entries
  rw [NameSet.ofList, entries, Table.ofList_entries]

theorem NameSet.mem_toList_ofList {name : String} {names : List String} :
    name ∈ (NameSet.ofList names).toList ↔ name ∈ names := by
  rw [NameSet.ofList, NameSet.toList, Table.mem_keys_ofList]
  simp

end Letterbook
