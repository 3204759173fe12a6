import Mathlib.Data.List.Forall2

/-! Results with errors. A computation gives a value exactly if each of its steps does, and else the
error of the first that fails. -/
namespace Letterbook.Result

variable {ε ε' α β : Type} {x : Except ε α}

theorem bind_eq_ok {f : α → Except ε β} {b : β} :
    x >>= f = .ok b ↔ ∃ a, x = .ok a ∧ f a = .ok b := by
  cases x with
  | error e => simp [bind, Except.bind]
  | ok a => simp [bind, Except.bind]

theorem bind_eq_error {f : α → Except ε β} {e : ε} :
    x >>= f = .error e ↔ x = .error e ∨ ∃ a, x = .ok a ∧ f a = .error e := by
  cases x with
  | error e' => simp [bind, Except.bind]
  | ok a => simp [bind, Except.bind]

theorem map_eq_ok {f : α → β} {b : β} : x.map f = .ok b ↔ ∃ a, x = .ok a ∧ f a = b := by
  cases x with
  | error e => simp [Except.map]
  | ok a => simp [Except.map]

theorem map_eq_error {f : α → β} {e : ε} : x.map f = .error e ↔ x = .error e := by
  cases x with
  | error e' => simp [Except.map]
  | ok a => simp [Except.map]

theorem mapError_eq_ok {f : ε → ε'} {a : α} : x.mapError f = .ok a ↔ x = .ok a := by
  cases x with
  | error e =>
    constructor
    · intro same
      cases same
    · intro same
      cases same
  | ok b =>
    constructor
    · intro same
      cases same
      rfl
    · intro same
      cases same
      rfl

theorem toOption_eq_some {a : α} : x.toOption = some a ↔ x = .ok a := by
  cases x with
  | error e => simp [Except.toOption]
  | ok b => simp [Except.toOption]

section Lists

variable {f : α → Except ε β} {xs : List α} {ys : List β} {e : ε}

theorem mapM_eq_ok_iff : xs.mapM f = .ok ys ↔ List.Forall₂ (fun x y => f x = .ok y) xs ys := by
  induction xs generalizing ys with
  | nil => simp [pure, Except.pure, eq_comm]
  | cons x rest ih =>
    simp only [List.mapM_cons, bind_eq_ok, pure, Except.pure, Except.ok.injEq,
      List.forall₂_cons_left_iff]
    constructor
    · rintro ⟨y, first, later, others, rfl⟩
      exact ⟨y, later, first, ih.mp others, rfl⟩
    · rintro ⟨y, later, first, others, rfl⟩
      exact ⟨y, first, later, ih.mpr others, rfl⟩

/-- Going through a list stops at the first member that fails. -/
theorem mapM_eq_error_iff : xs.mapM f = .error e ↔ ∃ before x after, xs = before ++ x :: after ∧
    (∀ y ∈ before, ∃ b, f y = .ok b) ∧ f x = .error e := by
  constructor
  · intro failed
    induction xs with
    | nil => contradiction
    | cons x rest ih =>
      rw [List.mapM_cons] at failed
      rcases bind_eq_error.mp failed with fails | ⟨b, first, failed⟩
      · exact ⟨[], x, rest, rfl, by simp, fails⟩
      · rcases bind_eq_error.mp failed with failed | ⟨bs, -, none⟩
        · obtain ⟨before, y, after, rfl, fine, fails⟩ := ih failed
          exact ⟨x :: before, y, after, rfl, List.forall_mem_cons.mpr ⟨⟨b, first⟩, fine⟩, fails⟩
        · contradiction
  · rintro ⟨before, x, after, rfl, fine, fails⟩
    induction before with
    | nil =>
      rw [List.nil_append, List.mapM_cons]
      exact bind_eq_error.mpr (.inl fails)
    | cons y rest ih =>
      obtain ⟨⟨b, first⟩, others⟩ := List.forall_mem_cons.mp fine
      rw [List.cons_append, List.mapM_cons]
      exact bind_eq_error.mpr (.inr ⟨b, first, bind_eq_error.mpr (.inl (ih others))⟩)

theorem exists_mapM_iff : (∃ ys, xs.mapM f = .ok ys) ↔ ∀ x ∈ xs, ∃ y, f x = .ok y := by
  constructor
  · rintro ⟨ys, went⟩
    have each := (mapM_eq_ok_iff.mp went).imp fun x y same =>
      show (∃ y, f x = .ok y) ∧ True from ⟨⟨y, same⟩, trivial⟩
    exact ((List.forall₂_and_left _ ys).mp each).1
  · intro each
    cases went : xs.mapM f with
    | ok ys => exact ⟨ys, rfl⟩
    | error e =>
      obtain ⟨before, x, after, rfl, -, fails⟩ := mapM_eq_error_iff.mp went
      obtain ⟨y, fine⟩ := each x (by simp)
      rw [fails] at fine
      contradiction

end Lists

end Letterbook.Result
