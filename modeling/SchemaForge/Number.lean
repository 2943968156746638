/-! Numbers with 53 significant binary digits. -/
namespace SchemaForge
namespace Number

/-- How many significant binary digits a number keeps. -/
def precision : Nat := 53

/-- The nearest number with no more digits. Of two that are equally near it is the one whose last
digit is even. -/
def nearestNat (n : Nat) : Nat :=
  let unit := 1 <<< (n.log2 + 1 - precision)
  let count := n / unit
  let rest := n % unit
  let isUp := unit < 2 * rest || (unit == 2 * rest && count % 2 == 1)
  (if isUp then count + 1 else count) * unit

def nearest (n : Int) : Int := n.sign * nearestNat n.natAbs

/-- A number with few digits is its own nearest one. -/
theorem nearestNat_of_log2_lt {n : Nat} (h : n.log2 < precision) : nearestNat n = n := by
  have h : n.log2 + 1 - precision = 0 := by omega
  simp [nearestNat, h, Nat.mod_one]

end Number
end SchemaForge
