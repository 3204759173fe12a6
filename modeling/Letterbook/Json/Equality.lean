import Letterbook.Json

/-! Equality of JSON values as data, which can be decided. Numbers are equal only if they are of one
kind and one form, and `nan` equals itself. -/
namespace Letterbook.Json

mutual

def eqb : Json → Json → Bool
  | .null, .null => true
  | .bool a, .bool b => a == b
  | .num m, .num n => m == n
  | .str s, .str t => s == t
  | .arr xs, .arr ys => eqbItems xs ys
  | .obj xs, .obj ys => eqbMembers xs ys
  | _, _ => false

def eqbItems : List Json → List Json → Bool
  | [], [] => true
  | x :: xs, y :: ys => eqb x y && eqbItems xs ys
  | _, _ => false

def eqbMembers : List (String × Json) → List (String × Json) → Bool
  | [], [] => true
  | (k, x) :: xs, (l, y) :: ys => k == l && eqb x y && eqbMembers xs ys
  | _, _ => false

end

mutual

theorem eqb_iff (a b : Json) : eqb a b = true ↔ a = b := by
  cases a with
  | arr xs =>
    cases b with
    | arr ys => rw [eqb, eqbItems_iff, arr.injEq]
    | null | bool | num | str | obj => simp [eqb]
  | obj xs =>
    cases b with
    | obj ys => rw [eqb, eqbMembers_iff, obj.injEq]
    | null | bool | num | str | arr => simp [eqb]
  | null | bool | num | str => cases b <;> simp [eqb]

theorem eqbItems_iff (xs ys : List Json) : eqbItems xs ys = true ↔ xs = ys := by
  cases xs with
  | nil => cases ys <;> simp [eqbItems]
  | cons x xs =>
    cases ys with
    | nil => simp [eqbItems]
    | cons y ys => rw [eqbItems, Bool.and_eq_true, eqb_iff, eqbItems_iff, List.cons.injEq]

theorem eqbMembers_iff (xs ys : List (String × Json)) : eqbMembers xs ys = true ↔ xs = ys := by
  rcases xs with _ | ⟨⟨k, x⟩, xs⟩
  · cases ys <;> simp [eqbMembers]
  · rcases ys with _ | ⟨⟨l, y⟩, ys⟩
    · simp [eqbMembers]
    · rw [eqbMembers, Bool.and_eq_true, Bool.and_eq_true, beq_iff_eq, eqb_iff, eqbMembers_iff,
        List.cons.injEq, Prod.mk.injEq]

end

instance : DecidableEq Json := fun a b => decidable_of_iff _ (eqb_iff a b)

end Letterbook.Json
