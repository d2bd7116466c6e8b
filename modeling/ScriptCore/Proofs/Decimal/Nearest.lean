import Mathlib.Data.Nat.Log
import Mathlib.Tactic.Ring

/-!
# Integers with 53 significant bits

`nearest` rounds an integer to 53 significant bits: to the nearest such number, and to the one with
an even last bit if two are as near. It keeps the order of integers, and those up to `2 ^ 53` it
keeps as they are; but from there on it merges neighbours.
-/
namespace ScriptCore.Decimal

/-- `n / d` as a whole number: the nearest one, and the even one of two that are as near. -/
def divNearest (n d : Nat) : Nat :=
  if 2 * (n % d) < d ∨ 2 * (n % d) = d ∧ n / d % 2 = 0 then n / d else n / d + 1

/-- The distance of the numbers with 53 significant bits that are next to a number. -/
def spacing (n : Nat) : Nat := 2 ^ (n.log2 - 52)

def nearestNat (n : Nat) : Nat := divNearest n (spacing n) * spacing n

/-- The nearest number with 53 significant bits. -/
def nearest (n : Int) : Int := n.sign * nearestNat n.natAbs

variable {m n d k : Nat}

theorem div_le_divNearest : n / d ≤ divNearest n d := by
  rw [divNearest]
  split
  · exact le_rfl
  · exact Nat.le_succ _

theorem divNearest_le : divNearest n d ≤ n / d + 1 := by
  rw [divNearest]
  split
  · exact Nat.le_succ _
  · exact le_rfl

theorem divNearest_of_dvd (positive : 0 < d) (divides : d ∣ n) : divNearest n d = n / d := by
  have exact : n % d = 0 := Nat.mod_eq_zero_of_dvd divides
  rw [divNearest, if_pos]
  left
  omega

theorem divNearest_mul_right (positive : 0 < k) : divNearest (n * k) (d * k) = divNearest n d := by
  have strict : 2 * (n % d * k) < d * k ↔ 2 * (n % d) < d := by
    rw [← Nat.mul_assoc]
    exact Nat.mul_lt_mul_right positive
  have tie : 2 * (n % d * k) = d * k ↔ 2 * (n % d) = d := by
    rw [← Nat.mul_assoc]
    exact Nat.mul_left_inj (Nat.ne_of_gt positive)
  simp only [divNearest, Nat.mul_div_mul_right _ _ positive, Nat.mul_mod_mul_right, strict, tie]

theorem divNearest_mono (less : m ≤ n) : divNearest m d ≤ divNearest n d := by
  rcases Nat.lt_or_ge (m / d) (n / d) with apart | close
  · have above := div_le_divNearest (n := n) (d := d)
    have below := divNearest_le (n := m) (d := d)
    omega
  -- With one quotient it is the remainders that decide, and they are in the same order.
  · have same : m / d = n / d := Nat.le_antisymm (Nat.div_le_div_right less) close
    have first := Nat.div_add_mod m d
    have second := Nat.div_add_mod n d
    rw [same] at first
    have order : m % d ≤ n % d := by omega
    rw [divNearest, divNearest, same]
    split <;> split <;> omega

theorem spacing_pos : 0 < spacing n := Nat.two_pow_pos _

theorem spacing_of_log2_le (small : n.log2 ≤ 52) : spacing n = 1 := by
  rw [spacing, Nat.sub_eq_zero_of_le small, pow_zero]

theorem pow_log2_of_le_log2 (large : 52 ≤ n.log2) : 2 ^ n.log2 = 2 ^ 52 * spacing n := by
  rw [spacing, ← pow_add, Nat.add_sub_cancel' large]

theorem nearestNat_of_log2_le (small : n.log2 ≤ 52) : nearestNat n = n := by
  have whole : divNearest n 1 = n := by
    rw [divNearest_of_dvd Nat.one_pos (Nat.one_dvd n), Nat.div_one]
  rw [nearestNat, spacing_of_log2_le small, whole, Nat.mul_one]

/-- The quotient of a number by its spacing has 53 bits, and rounding may bring it to `2 ^ 53`. -/
theorem divNearest_spacing_bounds (large : 52 ≤ n.log2) :
    2 ^ 52 ≤ divNearest n (spacing n) ∧ divNearest n (spacing n) ≤ 2 ^ 53 := by
  have positive : n ≠ 0 := by
    rintro rfl
    simp at large
  have power := pow_log2_of_le_log2 large
  have low : 2 ^ 52 * spacing n ≤ n := power ▸ Nat.log2_self_le positive
  have high : n < 2 ^ 53 * spacing n := by
    have below : n < 2 ^ (n.log2 + 1) := Nat.lt_log2_self
    have double : 2 ^ (n.log2 + 1) = 2 ^ 53 * spacing n := by
      rw [pow_succ, power]
      ring
    exact double ▸ below
  have fits : 2 ^ 52 ≤ n / spacing n := (Nat.le_div_iff_mul_le spacing_pos).mpr low
  have bounded : n / spacing n < 2 ^ 53 := (Nat.div_lt_iff_lt_mul spacing_pos).mpr high
  exact ⟨fits.trans div_le_divNearest, divNearest_le.trans bounded⟩

/-- Rounding stays between the powers of two around a number. -/
theorem nearestNat_bounds (positive : n ≠ 0) :
    2 ^ n.log2 ≤ nearestNat n ∧ nearestNat n ≤ 2 ^ (n.log2 + 1) := by
  rcases Nat.le_total n.log2 52 with small | large
  · rw [nearestNat_of_log2_le small]
    exact ⟨Nat.log2_self_le positive, Nat.le_of_lt Nat.lt_log2_self⟩
  · obtain ⟨low, high⟩ := divNearest_spacing_bounds large
    have power := pow_log2_of_le_log2 large
    have double : 2 ^ (n.log2 + 1) = 2 ^ 53 * spacing n := by
      rw [pow_succ, power]
      ring
    rw [power, double, nearestNat]
    exact ⟨Nat.mul_le_mul_right _ low, Nat.mul_le_mul_right _ high⟩

theorem log2_mono (less : m ≤ n) : m.log2 ≤ n.log2 := by
  rw [Nat.log2_eq_log_two, Nat.log2_eq_log_two]
  exact Nat.log_mono_right less

theorem nearestNat_mono (less : m ≤ n) : nearestNat m ≤ nearestNat n := by
  rcases Nat.eq_or_lt_of_le (log2_mono less) with same | apart
  · rw [nearestNat, nearestNat, spacing, spacing, same]
    exact Nat.mul_le_mul_right _ (divNearest_mono less)
  · by_cases zero : m = 0
    · subst zero
      rw [nearestNat_of_log2_le (by simp)]
      exact Nat.zero_le _
    · have positive : n ≠ 0 := by omega
      calc nearestNat m ≤ 2 ^ (m.log2 + 1) := (nearestNat_bounds zero).2
        _ ≤ 2 ^ n.log2 := Nat.pow_le_pow_right Nat.two_pos apart
        _ ≤ nearestNat n := (nearestNat_bounds positive).1

theorem nearestNat_of_le (small : n ≤ 2 ^ 53) : nearestNat n = n := by
  rcases Nat.eq_or_lt_of_le small with rfl | below
  · decide +kernel
  · by_cases zero : n = 0
    · subst zero
      exact nearestNat_of_log2_le (by simp)
    · exact nearestNat_of_log2_le (Nat.le_of_lt_succ ((Nat.log2_lt zero).mpr below))

theorem nearest_natCast : nearest n = nearestNat n := by
  cases n with
  | zero => rfl
  | succ n => rw [nearest, Int.sign_natCast_of_ne_zero n.succ_ne_zero, one_mul, Int.natAbs_natCast]

theorem nearest_neg (a : Int) : nearest (-a) = -nearest a := by
  rw [nearest, Int.sign_neg, Int.natAbs_neg, neg_mul, ← nearest]

theorem nearest_mono {a b : Int} (less : a ≤ b) : nearest a ≤ nearest b := by
  have nonneg (n : Nat) : 0 ≤ nearest n := nearest_natCast ▸ Int.natCast_nonneg _
  obtain ⟨m, rfl | rfl⟩ := a.eq_nat_or_neg <;> obtain ⟨n, rfl | rfl⟩ := b.eq_nat_or_neg
  · rw [nearest_natCast, nearest_natCast]
    exact Int.ofNat_le.mpr (nearestNat_mono (Int.ofNat_le.mp less))
  · obtain ⟨rfl, rfl⟩ : m = 0 ∧ n = 0 := by omega
    exact le_rfl
  · rw [nearest_neg]
    exact (Int.neg_nonpos_of_nonneg (nonneg m)).trans (nonneg n)
  · rw [nearest_neg, nearest_neg, nearest_natCast, nearest_natCast]
    have ordered := nearestNat_mono (show n ≤ m by omega)
    omega

theorem nearest_of_natAbs_le {a : Int} (small : a.natAbs ≤ 2 ^ 53) : nearest a = a := by
  rw [nearest, nearestNat_of_le small, Int.sign_mul_natAbs]

/-- Numbers that are not merged are in the order that they are in when they are rounded. -/
theorem nearest_lt_iff {a b : Int} (apart : a ≠ b → nearest a ≠ nearest b) :
    nearest a < nearest b ↔ a < b := by
  constructor
  · intro less
    by_contra reverse
    have := nearest_mono (Int.not_lt.mp reverse)
    omega
  · intro less
    exact lt_of_le_of_ne (nearest_mono (Int.le_of_lt less)) (apart (Int.ne_of_lt less))

/-- A number below `2 ^ 53` is not merged with any other. -/
theorem eq_of_nearest_eq {a b : Int} (small : a.natAbs < 2 ^ 53) (merged : nearest a = nearest b) :
    a = b := by
  rw [nearest_of_natAbs_le (Nat.le_of_lt small)] at merged
  have limit : nearest (2 ^ 53) = 2 ^ 53 := nearest_of_natAbs_le le_rfl
  by_cases near : b.natAbs ≤ 2 ^ 53
  · rw [merged, nearest_of_natAbs_le near]
  · exfalso
    rcases Int.le_total b 0 with negative | positive
    · have below : nearest b ≤ nearest (-2 ^ 53) := nearest_mono (by omega)
      rw [nearest_neg, limit] at below
      omega
    · have above : nearest (2 ^ 53) ≤ nearest b := nearest_mono (by omega)
      rw [limit] at above
      omega

end ScriptCore.Decimal
