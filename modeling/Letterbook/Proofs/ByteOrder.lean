import Mathlib.Data.String.Basic

/-! The order of texts. Texts are compared character by character. UTF-8 keeps the order of characters,
so this is the order of their bytes. -/
namespace Letterbook.Text

/-- The bytes of a text in UTF-8. -/
def bytes (s : String) : List UInt8 := s.toByteArray.data.toList

/-- Texts of which each is below all later ones, byte by byte. -/
def Ascending (texts : List String) : Prop :=
  texts.Pairwise fun s t => compare (bytes s) (bytes t) = .lt

variable {c d : Char}

theorem bytes_eq_flatMap (s : String) : bytes s = s.toList.flatMap String.utf8EncodeChar := by
  rw [bytes, ← String.utf8Encode_toList, List.utf8Encode, List.toList_data_toByteArray]

@[simp] theorem bytes_append (s t : String) : bytes (s ++ t) = bytes s ++ bytes t := by
  rw [bytes, String.toByteArray_append, ByteArray.toList_data_append]
  rfl

/-- Two bytes decide, and where they are the same what follows them does. -/
theorem compare_cons_ofNat_eq_lt {m n : Nat} (small : m < 256) (small' : n < 256)
    {xs ys : List UInt8} : compare (UInt8.ofNat m :: xs) (UInt8.ofNat n :: ys) = .lt ↔
      m < n ∨ m = n ∧ compare xs ys = .lt := by
  have value : (UInt8.ofNat m).toNat = m := UInt8.toNat_ofNat_of_lt' small
  have value' : (UInt8.ofNat n).toNat = n := UInt8.toNat_ofNat_of_lt' small'
  rw [List.compare_cons_cons, Ordering.then_eq_lt, Std.compare_eq_lt,
    Std.LawfulEqOrd.compare_eq_iff_eq, UInt8.lt_iff_toNat_lt, ← UInt8.toNat_inj, value, value']

/-- A lower character has lower bytes, whatever bytes follow. -/
theorem compare_utf8EncodeChar_append (lower : c < d) (xs ys : List UInt8) :
    compare (String.utf8EncodeChar c ++ xs) (String.utf8EncodeChar d ++ ys) = .lt := by
  have less : c.val.toNat < d.val.toNat := UInt32.lt_iff_toNat_lt.mp lower
  have bound : d.val.toNat < 0x110000 := by
    rcases d.valid with low | ⟨-, high⟩ <;> omega
  -- The first of four bytes holds all digits that the other three leave.
  have rest {v : Nat} (low : v < 0x110000) : v / 262144 % 8 = v / 262144 := by omega
  have first := rest (less.trans bound)
  have first' := rest bound
  -- Fewer bytes begin with a lower one, and as many bytes hold the digits to base 64 one by one.
  simp only [String.utf8EncodeChar]
  split_ifs <;>
    simp (disch := omega) only [List.cons_append, compare_cons_ofNat_eq_lt] <;> omega

theorem compare_append_left (xs : List UInt8) {ys zs : List UInt8} :
    compare (xs ++ ys) (xs ++ zs) = compare ys zs := by
  induction xs with
  | nil => rfl
  | cons x xs ih =>
    rw [List.cons_append, List.cons_append, List.compare_cons_cons, ih, Std.ReflOrd.compare_self]
    rfl

theorem compare_flatMap_of_lt {cs ds : List Char} (lower : cs < ds) :
    compare (cs.flatMap String.utf8EncodeChar) (ds.flatMap String.utf8EncodeChar) = .lt := by
  induction lower with
  | @nil d ds =>
    obtain ⟨x, xs, encoded⟩ := List.exists_cons_of_ne_nil (String.utf8EncodeChar_ne_nil (c := d))
    rw [List.flatMap_nil, List.flatMap_cons, encoded]
    rfl
  | rel lower =>
    rw [List.flatMap_cons, List.flatMap_cons]
    exact compare_utf8EncodeChar_append lower _ _
  | cons _ ih => rw [List.flatMap_cons, List.flatMap_cons, compare_append_left, ih]

/-- Texts are in the order of their bytes. -/
theorem compare_bytes (s t : String) : compare (bytes s) (bytes t) = compare s t := by
  have lower {s t : String} (less : s < t) : compare (bytes s) (bytes t) = .lt := by
    rw [bytes_eq_flatMap, bytes_eq_flatMap]
    exact compare_flatMap_of_lt (String.lt_iff_toList_lt.mp less)
  cases order : compare s t with
  | lt => exact lower (compare_lt_iff_lt.mp order)
  | eq =>
    obtain rfl := compare_eq_iff_eq.mp order
    exact Std.ReflOrd.compare_self
  | gt =>
    rw [@Std.OrientedOrd.eq_swap _ _ _ (bytes s), lower (compare_gt_iff_gt.mp order)]
    rfl

example : compare "é" "z" = .gt ∧ compare (bytes "é") (bytes "z") = .gt := by decide +kernel

end Letterbook.Text
