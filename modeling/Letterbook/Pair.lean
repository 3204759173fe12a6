import Letterbook.Table

/-! Pairs of a record schema and a document: the keys under which forms are looked up. -/
namespace Letterbook

structure Pair where
  source : String
  target : String
  deriving DecidableEq, Repr, Inhabited

namespace Pair

/-- The name of what fills the target from the source. -/
def text (p : Pair) : String := "Barber<" ++ p.source ++ ", " ++ p.target ++ ">"

/-- Pairs are ordered by source, then target. -/
instance : Ord Pair := ⟨compareLex (compareOn source) (compareOn target)⟩

instance : Std.TransOrd Pair :=
  inferInstanceAs (Std.TransCmp (compareLex (compareOn source) (compareOn target)))

theorem compare_eq_then (p q : Pair) :
    compare p q = (compare p.source q.source).then (compare p.target q.target) := rfl

instance : Std.LawfulEqOrd Pair where
  eq_of_compare {p q} h := by
    obtain ⟨source, target⟩ := p
    obtain ⟨source', target'⟩ := q
    rw [compare_eq_then, Ordering.then_eq_eq] at h
    obtain ⟨h₁, h₂⟩ := h
    simp only [Std.LawfulEqOrd.compare_eq_iff_eq] at h₁ h₂
    rw [h₁, h₂]

end Pair
end Letterbook
