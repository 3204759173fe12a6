/-! Integers that fit 64 bits, with a sign and without one. -/
namespace Letterbook

def isInt64 (i : Int) : Bool := -9223372036854775808 ≤ i && i ≤ 9223372036854775807

def isNat64 (n : Nat) : Bool := n ≤ 18446744073709551615

end Letterbook
