import Letterbook.Json.Decoder
import Letterbook.Proofs.Results
import Letterbook.Proofs.Table

/-! What decoders yield. A property of all values that a decoder yields comes from the decoders that
it is made of: a list from its items, and a record from its fields, whichever of them are met and in
which order. Likewise a record or a list is decoded if its parts are. -/
namespace Letterbook.Json.Decoder

variable {α σ : Type} {d : Decoder α} {P : α → Prop} {Inv : σ → Prop}

def Yields (d : Decoder α) (P : α → Prop) : Prop := ∀ r a, d r = .ok a → P a

theorem yields_true (d : Decoder α) : d.Yields fun _ => True := fun _ _ _ => trivial

theorem yields_spelled (read? : String → Option α) :
    (spelled read?).Yields fun a => ∃ s, read? s = some a := by
  intro r a decoded
  rw [spelled] at decoded
  split at decoded
  · contradiction
  · next s text =>
    split at decoded
    · next b read =>
      cases decoded
      exact ⟨s, read⟩
    · contradiction

theorem forall_mem_items (yields : d.Yields P) {rs : List Reading} {tail : Option Flaw}
    {values : List α} (decoded : items d rs tail = .ok values) : ∀ v ∈ values, P v := by
  induction rs generalizing values with
  | nil =>
    obtain ⟨-, -, rfl⟩ := Result.map_eq_ok.mp decoded
    simp
  | cons r rest ih =>
    obtain ⟨value, first, decoded⟩ := Result.bind_eq_ok.mp decoded
    obtain ⟨later, others, same⟩ := Result.bind_eq_ok.mp decoded
    cases same
    exact List.forall_mem_cons.mpr ⟨yields r value first, ih others⟩

theorem Yields.list (yields : d.Yields P) : (list d).Yields fun values => ∀ v ∈ values, P v := by
  intro r values decoded
  cases r with
  | arr rs tail => exact forall_mem_items yields decoded
  | null | bool | num | str | obj | broken => contradiction

/-- What holds of the known fields still holds when this one is known. -/
def Slot.Keeps (slot : Slot σ) (Inv : σ → Prop) : Prop :=
  ∀ s r s', Inv s → slot.learn s r = .ok s' → Inv s'

theorem Slot.keeps_ofField {name : String} {get : σ → Option α} {set : σ → Option α → σ}
    (yields : d.Yields P) (kept : ∀ s a, Inv s → P a → Inv (set s (some a))) :
    (Slot.ofField name d get set).Keeps Inv := by
  intro s r s' inv learned
  obtain ⟨a, value, rfl⟩ := Result.map_eq_ok.mp learned
  exact kept s a inv (yields r a value)

section Records

variable {slots : List (Slot σ)} {s s' : σ}

theorem invariant_learnMember (keeps : ∀ slot ∈ slots, slot.Keeps Inv) {key : String}
    {r : Reading} (inv : Inv s) (learned : learnMember slots s key r = .ok s') : Inv s' := by
  rw [learnMember] at learned
  split at learned
  · obtain ⟨-, -, rfl⟩ := Result.map_eq_ok.mp learned
    exact inv
  · next slot found =>
    split at learned
    · contradiction
    · exact keeps slot (List.mem_of_find?_eq_some found) s r s' inv learned

theorem invariant_learnMembers (keeps : ∀ slot ∈ slots, slot.Keeps Inv)
    {members : List (Option String × Reading)} {tail : Option Flaw} (inv : Inv s)
    (learned : learnMembers slots s members tail = .ok s') : Inv s' := by
  induction members generalizing s with
  | nil =>
    obtain ⟨-, -, rfl⟩ := Result.map_eq_ok.mp learned
    exact inv
  | cons member rest ih =>
    obtain ⟨key, r⟩ := member
    cases key with
    | none => contradiction
    | some key =>
      obtain ⟨next, first, learned⟩ := Result.bind_eq_ok.mp learned
      exact ih (invariant_learnMember keeps inv first) learned

theorem invariant_learnItems (keeps : ∀ slot ∈ slots, slot.Keeps Inv) {extensible : Bool}
    {rs : List Reading} {tail : Option Flaw} (inv : Inv s)
    (learned : learnItems extensible slots s rs tail = .ok s') : Inv s' := by
  -- Fields are learned in the order of their slots, so each step uses up a slot and an item.
  induction slots generalizing s rs with
  | nil =>
    cases rs with
    | nil =>
      obtain ⟨-, -, rfl⟩ := Result.map_eq_ok.mp learned
      exact inv
    | cons r rest =>
      rw [learnItems] at learned
      split at learned
      · cases learned
        exact inv
      · contradiction
  | cons slot slots ih =>
    cases rs with
    | nil =>
      obtain ⟨-, -, rfl⟩ := Result.map_eq_ok.mp learned
      exact inv
    | cons r rest =>
      obtain ⟨here, others⟩ := List.forall_mem_cons.mp keeps
      obtain ⟨next, first, learned⟩ := Result.bind_eq_ok.mp learned
      exact ih others (here s r next inv first) learned

theorem yields_record {extensible : Bool} {start : σ} {finish? : σ → Option α}
    (inv : Inv start) (keeps : ∀ slot ∈ slots, slot.Keeps Inv)
    (finish : ∀ s a, Inv s → finish? s = some a → P a) :
    (record extensible slots start finish?).Yields P := by
  intro r a decoded
  have finished {known : σ} (inv : Inv known)
      (ended : (match finish? known with
        | some a => .ok a
        | none => .error .shape) = (.ok a : Except Misfit α)) : P a := by
    split at ended
    · next b finished =>
      cases ended
      exact finish known _ inv finished
    · contradiction
  cases r with
  | obj ms tail =>
    obtain ⟨known, learned, ended⟩ := Result.bind_eq_ok.mp decoded
    exact finished (invariant_learnMembers keeps inv learned) ended
  | arr rs tail =>
    obtain ⟨known, learned, ended⟩ := Result.bind_eq_ok.mp decoded
    exact finished (invariant_learnItems keeps inv learned) ended
  | null | bool | num | str | broken => contradiction

end Records

section Written

variable {slots : List (Slot σ)} {s s' : σ} {w : α → Json}

theorem record_obj {extensible : Bool} {start : σ} {finish? : σ → Option α} {a : α}
    {members : List (Option String × Reading)}
    (learned : learnMembers slots start members none = .ok s) (finished : finish? s = some a) :
    record extensible slots start finish? (.obj members none) = .ok a := by
  simp only [record, learned, bind, Except.bind, finished]

/-- A member whose field is not known yet adds that field to what is known. -/
theorem learnMembers_field {get : σ → Option α} {set : σ → Option α → σ} {name key : String}
    {r : Reading} {rest : List (Option String × Reading)} {tail : Option Flaw} {a : α}
    (found : slots.find? (·.name == key) = some (Slot.ofField name d get set))
    (unknown : get s = none) (read : d r = .ok a)
    (others : learnMembers slots (set s (some a)) rest tail = .ok s') :
    learnMembers slots s ((some key, r) :: rest) tail = .ok s' := by
  have member : learnMember slots s key r = .ok (set s (some a)) := by
    rw [learnMember, found]
    simp only [Slot.ofField, unknown, read]
    rfl
  rw [learnMembers, member]
  exact others

theorem list_arr {values : List α} (each : ∀ a ∈ values, d (w a).reading = .ok a) :
    list d (Json.arr (values.map w)).reading = .ok values := by
  have read : items d (readingItems (values.map w)) none = .ok values := by
    induction values with
    | nil => rfl
    | cons a rest ih =>
      obtain ⟨first, others⟩ := List.forall_mem_cons.mp each
      rw [List.map_cons, readingItems, items, first, ih others]
      rfl
  exact read

theorem table_obj (t : Table String α) (each : ∀ e ∈ t.entries, d (w e.2).reading = .ok e.2) :
    table d (Json.obj (t.entries.map fun e => (e.1, w e.2))).reading = .ok t := by
  have read {entries : List (String × α)} (each : ∀ e ∈ entries, d (w e.2).reading = .ok e.2) :
      members d (readingMembers (entries.map fun e => (e.1, w e.2))) none = .ok entries := by
    induction entries with
    | nil => rfl
    | cons e rest ih =>
      obtain ⟨first, others⟩ := List.forall_mem_cons.mp each
      rw [List.map_cons, readingMembers, members, first, ih others]
      rfl
  rw [reading, table, read each]
  exact congrArg Except.ok (Table.ofList_entries t)

end Written
end Letterbook.Json.Decoder
