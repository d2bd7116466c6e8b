import Mathlib
import ScriptCore.Proofs.Decimal.Nearest

/-!
# The double of an integer

A double of an integer is computed as a significand of 53 bits and an exponent. It is exactly
`nearest` of the integer (`shows_ofInt`), so doubles of integers compare like the integers that they
are rounded to (`ofInt_lt_iff`, `ofInt_le_iff`).
-/
namespace ScriptCore.Decimal

open Float.Model Float.Model.UnpackedFloat

/-- A double that is this integer. Its significand has all 53 bits, and its exponent is in range. -/
inductive Shows : UnpackedFloat → Int → Prop
  | zero (sign : Sign) : Shows (.zero sign) 0
  | finite {sign : Sign} {mantissa : Nat} {exponent n : Int} {positive : 0 < mantissa}
      (full : mantissa.log2 = 52) (low : -52 ≤ exponent) (high : exponent ≤ 971)
      (value : sign.apply (mantissa * 2 ^ (exponent + 52).toNat) = n * 2 ^ 52) :
      Shows (.finite sign mantissa exponent positive) n

section Packing

/-- The first bit of a full significand is left out of the packed form, and it is put back. -/
theorem toNat_implicit_append {mantissa : Nat} (positive : 0 < mantissa)
    (full : mantissa.log2 = 52) : (1#1 ++ BitVec.ofNat 52 mantissa).toNat = mantissa := by
  obtain ⟨low, high⟩ := (Nat.log2_eq_iff (Nat.ne_of_gt positive)).mp full
  rw [BitVec.toNat_append, ← Nat.shiftLeft_add_eq_or_of_lt (BitVec.isLt _), BitVec.toNat_ofNat,
    Nat.shiftLeft_eq]
  simp only [BitVec.toNat_ofNat]
  omega

/-- What is packed with a full significand and an exponent in range is unpacked as it was. -/
theorem unpack_pack_finite {sign : Sign} {mantissa : Nat} {exponent : Int} (positive : 0 < mantissa)
    (full : mantissa.log2 = 52) (low : -1074 ≤ exponent) (high : exponent ≤ 971) :
    (Float.Model.pack (.finite sign mantissa exponent positive)).unpack =
      .finite sign mantissa exponent positive := by
  have biased : (exponent + Format.binary64.exponentBias +
      Format.binary64.mantissaBitsWithoutImplicit).toNat = (exponent + 1075).toNat := by
    change (exponent + (1023 : Nat) + (52 : Nat)).toNat = (exponent + 1075).toNat
    omega
  have inRange : (BitVec.ofNat 11 (exponent + 1075).toNat).toNat = (exponent + 1075).toNat := by
    rw [BitVec.toNat_ofNat]
    omega
  have notLast : BitVec.ofNat 11 (exponent + 1075).toNat ≠ -1#11 := by
    intro same
    have := congrArg BitVec.toNat same
    rw [inRange, show (-1#11).toNat = 2047 from rfl] at this
    omega
  have notZero : BitVec.ofNat 11 (exponent + 1075).toNat ≠ 0#11 := by
    intro same
    have := congrArg BitVec.toNat same
    rw [inRange, BitVec.toNat_ofNat] at this
    omega
  change UnpackedFloat.unpack _ (UnpackedFloat.pack _ _) = _
  rw [UnpackedFloat.pack]
  simp only [full, biased]
  rw [if_neg (by omega), if_pos (show 52 + 1 = Format.binary64.mantissaBits from rfl),
    UnpackedFloat.unpack]
  simp only [unpackMantissa_packComponents, unpackExponent_packComponents,
    unpackSign_packComponents, Sign.ofBitVec_toBitVec, if_neg notLast, if_neg notZero,
    toNat_implicit_append positive full, inRange]
  congr 1
  change ((exponent + 1075).toNat : Int) - ((1023 : Nat) + (52 : Nat)) = exponent
  omega

/-- A double of an integer is unpacked to what has been packed. -/
theorem Shows.unpack_pack {double : UnpackedFloat} {n : Int} (shows : Shows double n) :
    (Float.Model.pack double).unpack = double := by
  cases shows with
  | zero sign => cases sign <;> rfl
  | finite full low high value => exact unpack_pack_finite _ full (by omega) high

end Packing

section Comparing

theorem Shows.neg {double : UnpackedFloat} {n : Int} (shows : Shows double n) :
    Shows double.neg (-n) := by
  cases shows with
  | zero sign => exact .zero _
  | @finite sign mantissa exponent n positive full low high value =>
    refine .finite full low high ?_
    rw [Int.neg_mul, ← value]
    cases sign with
    | positive => rfl
    | negative => exact (Int.neg_neg _).symm

theorem compare_mul_right {a b c : Int} (positive : 0 < c) :
    compare (a * c) (b * c) = compare a b := by
  rcases lt_trichotomy a b with less | rfl | greater
  · rw [Int.compare_eq_lt.mpr less,
      Int.compare_eq_lt.mpr (Int.mul_lt_mul_of_pos_right less positive)]
  · rw [Int.compare_eq_eq.mpr rfl, Int.compare_eq_eq.mpr rfl]
  · rw [Int.compare_eq_gt.mpr greater,
      Int.compare_eq_gt.mpr (Int.mul_lt_mul_of_pos_right greater positive)]

theorem compare_neg_neg {a b : Int} : compare (-a) (-b) = (compare a b).swap := by
  rw [Int.compare_swap]
  rcases lt_trichotomy a b with less | rfl | greater
  · rw [Int.compare_eq_gt.mpr less, Int.compare_eq_gt.mpr (Int.neg_lt_neg less)]
  · rw [Int.compare_eq_eq.mpr rfl, Int.compare_eq_eq.mpr rfl]
  · rw [Int.compare_eq_lt.mpr greater, Int.compare_eq_lt.mpr (Int.neg_lt_neg greater)]

theorem compare_natCast {a b : Nat} : compare (a : Int) b = compare a b := by
  rcases lt_trichotomy a b with less | rfl | greater
  · rw [Nat.compare_eq_lt.mpr less, Int.compare_eq_lt.mpr (Int.ofNat_lt.mpr less)]
  · rw [Nat.compare_eq_eq.mpr rfl, Int.compare_eq_eq.mpr rfl]
  · rw [Nat.compare_eq_gt.mpr greater, Int.compare_eq_gt.mpr (Int.ofNat_lt.mpr greater)]

/-- Of two numbers with full significands the one with the smaller exponent is smaller. -/
theorem scaled_lt {first second low high : Nat} (firstFull : first.log2 = 52)
    (secondFull : second.log2 = 52) (apart : low < high) :
    first * 2 ^ low < second * 2 ^ high := by
  have positive : second ≠ 0 := by
    rintro rfl
    simp at secondFull
  have above : first < 2 ^ (first.log2 + 1) := Nat.lt_log2_self
  have below : 2 ^ second.log2 ≤ second := Nat.log2_self_le positive
  rw [firstFull] at above
  rw [secondFull] at below
  calc first * 2 ^ low < 2 ^ 53 * 2 ^ low := Nat.mul_lt_mul_of_pos_right above (Nat.two_pow_pos _)
    _ = 2 ^ 52 * 2 ^ (low + 1) := by ring
    _ ≤ second * 2 ^ high := Nat.mul_le_mul below (Nat.pow_le_pow_right Nat.two_pos apart)

/-- Numbers with full significands are in the order of their exponents, and with one exponent in the
order of their significands. -/
theorem compare_scaled {first second : Nat} {low high : Int} (firstFull : first.log2 = 52)
    (secondFull : second.log2 = 52) (firstLow : -52 ≤ low) (secondLow : -52 ≤ high) :
    compare (first * 2 ^ (low + 52).toNat : Int) (second * 2 ^ (high + 52).toNat) =
      (compare low high).then (compare first second) := by
  rcases lt_trichotomy low high with less | rfl | greater
  · have order : (low + 52).toNat < (high + 52).toNat := by omega
    have smaller := scaled_lt firstFull secondFull order
    rw [Int.compare_eq_lt.mpr less, Ordering.lt_then, Int.compare_eq_lt]
    exact_mod_cast smaller
  · rw [compare_mul_right (Int.pow_pos (by decide)), compare_natCast, Int.compare_eq_eq.mpr rfl,
      Ordering.eq_then]
  · have order : (high + 52).toNat < (low + 52).toNat := by omega
    have smaller := scaled_lt secondFull firstFull order
    rw [Int.compare_eq_gt.mpr greater, Ordering.gt_then, Int.compare_eq_gt]
    exact_mod_cast smaller

theorem scaled_pos {mantissa exponent : Nat} (positive : 0 < mantissa) :
    (0 : Int) < mantissa * 2 ^ exponent :=
  Int.mul_pos (Int.ofNat_lt.mpr positive) (Int.pow_pos (by decide))

/-- Doubles of integers are in the order of the integers. -/
theorem Shows.compare_eq {first second : UnpackedFloat} {m n : Int} (shows : Shows first m)
    (other : Shows second n) : first.compare second = some (compare m n) := by
  have scale : (0 : Int) < 2 ^ 52 := by decide
  rw [← compare_mul_right scale]
  cases shows with
  | zero =>
    cases other with
    | zero => rfl
    | @finite sign _ exponent _ positive _ _ _ value =>
      have above : (0 : Int) < _ * 2 ^ (exponent + 52).toNat := scaled_pos positive
      rw [Int.zero_mul, ← value]
      cases sign with
      | positive => rw [Sign.apply, Int.compare_eq_lt.mpr above]; rfl
      | negative => rw [Sign.apply, Int.compare_eq_gt.mpr (Int.neg_neg_of_pos above)]; rfl
  | @finite sign _ exponent _ positive full low _ value =>
    have above : (0 : Int) < _ * 2 ^ (exponent + 52).toNat := scaled_pos positive
    rw [← value]
    cases other with
    | zero =>
      rw [Int.zero_mul]
      cases sign with
      | positive => rw [Sign.apply, Int.compare_eq_gt.mpr above]; rfl
      | negative => rw [Sign.apply, Int.compare_eq_lt.mpr (Int.neg_neg_of_pos above)]; rfl
    | @finite sign' _ exponent' _ positive' full' low' _ value' =>
      have above' : (0 : Int) < _ * 2 ^ (exponent' + 52).toNat := scaled_pos positive'
      have order := compare_scaled full full' low low'
      rw [← value']
      cases sign <;> cases sign' <;> simp only [Sign.apply]
      · rw [compare_neg_neg, order]
        rfl
      · rw [Int.compare_eq_lt.mpr (by omega)]
        rfl
      · rw [Int.compare_eq_gt.mpr (by omega)]
        rfl
      · rw [order]
        rfl

end Comparing

section Rounding

variable {n d : Nat}

/-- What a shift to the right leaves of a number that is divided by `d`: the quotient, whether the
remainder is at least one half of `d`, and whether it is anything but nothing or one half. -/
structure Quotient (shifted : ExtendedMantissa) (n d : Nat) : Prop where
  mantissa : shifted.mantissa = n / d
  roundBit : shifted.roundBit = true ↔ d ≤ 2 * (n % d)
  stickyBit : shifted.stickyBit = true ↔ n % d ≠ 0 ∧ 2 * (n % d) ≠ d

theorem Quotient.start (n : Nat) : Quotient ⟨n, false, false⟩ n 1 where
  mantissa := (Nat.div_one n).symm
  roundBit := by simp [Nat.mod_one]
  stickyBit := by simp [Nat.mod_one]

theorem Quotient.shiftRightOne {shifted : ExtendedMantissa} (quotient : Quotient shifted n d)
    (positive : 0 < d) : Quotient shifted.shiftRightOne n (d * 2) := by
  obtain ⟨mantissa, roundBit, stickyBit⟩ := quotient
  have within := Nat.mod_lt n positive
  -- The last bit of the quotient joins the remainder as its first one.
  have remainder : n / d % 2 = 0 ∧ n % (d * 2) = n % d ∨
      n / d % 2 = 1 ∧ n % (d * 2) = n % d + d := by
    rw [Nat.mod_mul]
    rcases Nat.mod_two_eq_zero_or_one (n / d) with even | odd
    · exact .inl ⟨even, by rw [even, Nat.mul_zero, Nat.add_zero]⟩
    · exact .inr ⟨odd, by rw [odd, Nat.mul_one]⟩
  refine ⟨?_, ?_, ?_⟩
  · rw [ExtendedMantissa.shiftRightOne, mantissa, Nat.div_div_eq_div_mul]
  · simp only [ExtendedMantissa.shiftRightOne, mantissa, bne_iff_ne, ne_eq]
    omega
  · simp only [ExtendedMantissa.shiftRightOne, Bool.or_eq_true, roundBit, stickyBit]
    omega

theorem Quotient.shiftRight (n shift : Nat) :
    Quotient ((⟨n, false, false⟩ : ExtendedMantissa) >>> shift) n (2 ^ shift) := by
  induction shift with
  | zero => exact .start n
  | succ shift ih => exact ih.shiftRightOne (Nat.two_pow_pos shift)

theorem Quotient.roundedMantissa_eq {shifted : ExtendedMantissa} (quotient : Quotient shifted n d)
    (positive : 0 < d) : shifted.roundedMantissa = divNearest n d := by
  obtain ⟨mantissa, roundBit, stickyBit⟩ := quotient
  obtain ⟨_, rounds, sticks⟩ := shifted
  subst mantissa
  have within := Nat.mod_lt n positive
  rw [divNearest]
  cases rounds <;> cases sticks <;>
    simp only [reduceCtorEq, false_iff, true_iff] at roundBit stickyBit
  · rw [if_pos (by omega)]
    rfl
  · rw [if_pos (by omega)]
    rfl
  · change n / d + n / d % 2 = _
    split <;> omega
  · rw [if_neg (by omega)]
    rfl

theorem targetExponent_eq {mantissa : Nat} {exponent : Int} {k : Nat}
    (bits : mantissa.log2 = 52 + k) (low : -1074 ≤ exponent + k) :
    Format.binary64.targetExponent (totalExponent mantissa exponent) = exponent + k := by
  change max ((mantissa.log2 : Int) + 1 + exponent - 53) (-1074) = exponent + k
  omega

/-- A number with more than 53 bits is shifted until 53 are left. -/
theorem shiftToTargetExponent_eq {mantissa : Nat} {exponent : Int} {k : Nat}
    (bits : mantissa.log2 = 52 + k) (low : -1074 ≤ exponent + k) :
    shiftToTargetExponent Format.binary64 mantissa exponent .exact =
      ((⟨mantissa, false, false⟩ : ExtendedMantissa) >>> k, exponent + k) := by
  have shift : (exponent + k - exponent).toNat = k := by omega
  rw [shiftToTargetExponent, targetExponent_eq bits low, shiftToExponent, shift]
  rfl

/-- A number with more than 53 bits is rounded to `divNearest` of it. Rounding may carry into one
more bit, and the significand is then the least full one. -/
theorem roundWithAccuracy_eq {sign : Sign} {mantissa : Nat} {exponent : Int} {k : Nat}
    (bits : mantissa.log2 = 52 + k) (low : -1074 ≤ exponent + k) :
    ∃ mantissa' exponent' positive,
      roundWithAccuracy Format.binary64 sign mantissa exponent .exact =
        .finite sign mantissa' exponent' positive ∧ mantissa'.log2 = 52 ∧
      exponent + k ≤ exponent' ∧ exponent' ≤ exponent + k + 1 ∧
      mantissa' * 2 ^ (exponent' - (exponent + k)).toNat = divNearest mantissa (2 ^ k) := by
  have spaced : spacing mantissa = 2 ^ k := by rw [spacing, bits, Nat.add_sub_cancel_left]
  obtain ⟨above, below⟩ := divNearest_spacing_bounds (show 52 ≤ mantissa.log2 by omega)
  rw [spaced] at above below
  have rounded := (Quotient.shiftRight mantissa k).roundedMantissa_eq (Nat.two_pow_pos k)
  rw [roundWithAccuracy, shiftToTargetExponent_eq bits low]
  dsimp only
  rw [rounded]
  generalize divNearest mantissa (2 ^ k) = quotient at above below
  rcases Nat.eq_or_lt_of_le below with rfl | fits
  · have carried : Nat.log2 (2 ^ 53) = 52 + 1 := Nat.log2_two_pow
    rw [shiftToTargetExponent_eq carried (by omega)]
    refine ⟨2 ^ 52, exponent + k + 1, by decide, rfl, Nat.log2_two_pow, by omega, by omega, ?_⟩
    rw [show (exponent + k + 1 - (exponent + k)).toNat = 1 by omega]
    rfl
  · have full : quotient.log2 = 52 + 0 := (Nat.log2_eq_iff (by omega)).mpr ⟨above, fits⟩
    rw [shiftToTargetExponent_eq full (by omega)]
    have positive : quotient ≠ 0 := by omega
    refine ⟨quotient, exponent + k, Nat.pos_of_ne_zero positive, ?_, full, by omega, by omega, ?_⟩
    · have whole : ((⟨quotient, false, false⟩ : ExtendedMantissa) >>> 0).mantissa ≠ 0 := positive
      simp only [dif_neg whole]
      rw [Nat.cast_zero, Int.add_zero]
      rfl
    · rw [Int.sub_self]
      exact Nat.mul_one _

end Rounding

section Converting

variable {n shift : Nat}

theorem log2_mul_two_pow (positive : n ≠ 0) : (n * 2 ^ shift).log2 = n.log2 + shift := by
  have scaled : n * 2 ^ shift ≠ 0 := Nat.mul_ne_zero positive (Nat.two_pow_pos shift).ne'
  rw [Nat.log2_eq_iff scaled, pow_add, Nat.add_right_comm, pow_add _ (n.log2 + 1)]
  exact ⟨Nat.mul_le_mul_right _ (Nat.log2_self_le positive),
    Nat.mul_lt_mul_of_pos_right Nat.lt_log2_self (Nat.two_pow_pos shift)⟩

/-- Bits that a number gets at its end make no difference to how it is rounded. -/
theorem divNearest_mul_two_pow (enough : 52 ≤ n.log2 + shift) :
    divNearest (n * 2 ^ shift) (2 ^ (n.log2 + shift - 52)) * 2 ^ n.log2 =
      nearestNat n * 2 ^ 52 := by
  rcases Nat.le_total 52 n.log2 with large | small
  · have scale : 2 ^ (n.log2 + shift - 52) = spacing n * 2 ^ shift := by
      rw [spacing, ← pow_add]
      congr 1
      omega
    rw [scale, divNearest_mul_right (Nat.two_pow_pos shift), pow_log2_of_le_log2 large, nearestNat]
    ring
  · have split : n * 2 ^ shift = n * 2 ^ (52 - n.log2) * 2 ^ (n.log2 + shift - 52) := by
      rw [Nat.mul_assoc, ← pow_add]
      congr 2
      omega
    rw [divNearest_of_dvd (Nat.two_pow_pos _) ⟨_, split.trans (Nat.mul_comm _ _)⟩, split,
      Nat.mul_div_cancel _ (Nat.two_pow_pos _), Nat.mul_assoc, ← pow_add, Nat.sub_add_cancel small,
      nearestNat_of_log2_le small]

theorem apply_mul (sign : Sign) (a b : Int) : sign.apply (a * b) = sign.apply a * b := by
  cases sign with
  | positive => rfl
  | negative => exact (Int.neg_mul a b).symm

/-- A number that is shifted to the left until it has 53 bits or more, and then rounded, is rounded
to `nearestNat` of it. -/
theorem shows_round {sign : Sign} (positive : n ≠ 0) (small : n.log2 < 1000)
    (enough : 52 ≤ n.log2 + shift) :
    Shows (roundWithAccuracy Format.binary64 sign (n * 2 ^ shift) (-shift) .exact)
      (sign.apply (nearestNat n)) := by
  have bits : (n * 2 ^ shift).log2 = 52 + (n.log2 + shift - 52) := by
    rw [log2_mul_two_pow positive]
    omega
  have exponent : -(shift : Int) + (n.log2 + shift - 52 : Nat) = n.log2 - 52 := by omega
  have inRange : -1074 ≤ -(shift : Int) + (n.log2 + shift - 52 : Nat) := by omega
  obtain ⟨mantissa, exponent', pos, rounded, full, low, high, value⟩ :=
    @roundWithAccuracy_eq sign _ _ _ bits inRange
  rw [exponent] at low high value
  rw [rounded]
  refine .finite full (by omega) (by omega) ?_
  have split : (exponent' + 52).toNat = (exponent' - (n.log2 - 52)).toNat + n.log2 := by omega
  have scaled : mantissa * 2 ^ (exponent' + 52).toNat = nearestNat n * 2 ^ 52 := by
    rw [split, pow_add, ← Nat.mul_assoc, value, divNearest_mul_two_pow enough]
  rw [← apply_mul]
  congr 1
  exact_mod_cast scaled

theorem shows_normalize (small : n < 2 ^ 64) :
    Shows (UnpackedFloat.normalize Format.binary64 n 0 .positive) (nearestNat n) := by
  by_cases zero : n = 0
  · subst zero
    exact .zero _
  · have bits : n.log2 < 64 := (Nat.log2_lt zero).mpr small
    have shift : (0 - Format.binary64.targetExponent (totalExponent n 0)).toNat = 52 - n.log2 := by
      change (0 - max ((n.log2 : Int) + 1 + 0 - 53) (-1074)).toNat = 52 - n.log2
      omega
    have positive : compare (n : Int) 0 = .gt := Int.compare_eq_gt.mpr (by omega)
    rw [UnpackedFloat.normalize, positive]
    dsimp only
    rw [Int.toNat_natCast, UnpackedFloat.round, decreaseExponent, shift, Nat.shiftLeft_eq,
      Int.zero_sub]
    exact shows_round zero (by omega) (by omega)

/-- The double of one. -/
def one : UnpackedFloat := .finite .positive (2 ^ 52) (-52) (Nat.two_pow_pos 52)

theorem unpack_one : (Float.ofBits 0x3FF0000000000000).toModel.unpack = one := rfl

/-- Multiplication by one keeps the double of an integer. -/
theorem Shows.mul_one {double : UnpackedFloat} {a : Int} (shows : Shows double a) :
    Shows (UnpackedFloat.mul Format.binary64 double one) a := by
  cases shows with
  | zero sign => exact .zero _
  | @finite sign mantissa exponent _ positive full low high value =>
    have nonzero := Nat.ne_of_gt positive
    have bits : (mantissa * 2 ^ 52).log2 = 52 + 52 := by rw [log2_mul_two_pow nonzero, full]
    have inRange : -1074 ≤ exponent + -52 + (52 : Nat) := by omega
    have same : sign * .positive = sign := by cases sign <;> rfl
    obtain ⟨mantissa', exponent', pos, rounded, full', low', high', value'⟩ :=
      @roundWithAccuracy_eq sign _ _ _ bits inRange
    rw [divNearest_of_dvd (Nat.two_pow_pos 52) (Nat.dvd_mul_left _ _),
      Nat.mul_div_cancel _ (Nat.two_pow_pos 52)] at value'
    have back : exponent + -52 + (52 : Nat) = exponent := by omega
    rw [back] at low' high' value'
    -- Nothing is carried, because both significands have 53 bits.
    have exact : exponent' = exponent := by
      by_contra moved
      have carried : (exponent' - exponent).toNat = 1 := by omega
      rw [carried] at value'
      rw [← value', log2_mul_two_pow (Nat.ne_of_gt pos), full'] at full
      omega
    rw [exact, Int.sub_self, Int.toNat_zero, pow_zero, Nat.mul_one] at value'
    subst exact value'
    change Shows (roundWithAccuracy Format.binary64 (sign * .positive) _ _ _) a
    rw [same, rounded]
    exact .finite full low high value

theorem shows_ofNat (small : n < 2 ^ 64) : Shows (Float.ofNat n).toModel.unpack (nearest n) := by
  rw [nearest_natCast]
  change Shows (Float.ofScientific n false 0).toModel.unpack _
  rw [Float.ofScientific]
  split
  · rename_i exact
    have word : n.toUInt64.toNat = n := UInt64.toNat_ofNat_of_lt small
    have converted : Shows (Float.Model.pack (UnpackedFloat.normalize Format.binary64
        n.toUInt64.toNat 0 .positive)).unpack (nearestNat n) := by
      rw [word, (shows_normalize small).unpack_pack]
      exact shows_normalize small
    have product := converted.mul_one
    rw [← product.unpack_pack] at product
    change Shows (Float.Model.pack (UnpackedFloat.mul Format.binary64
      n.toUInt64.toFloat.toModel.unpack (Float.ofBits 0x3FF0000000000000).toModel.unpack)).unpack _
    rw [unpack_one]
    exact product
  · rename_i wide
    have positive : n ≠ 0 := by omega
    have bits : n.log2 < 64 := (Nat.log2_lt positive).mpr small
    have rounded : Shows (roundWithAccuracy Format.binary64 .positive (n * 2 ^ 53) (-(53 : Nat))
        .exact) (Sign.apply .positive (nearestNat n)) :=
      shows_round positive (by omega) (by omega)
    rw [← rounded.unpack_pack] at rounded
    change Shows (Float.Model.ofScientific n 0).unpack _
    rw [Float.Model.ofScientific, UnpackedFloat.ofScientific, dif_neg positive, if_neg (by decide),
      if_neg (by change ¬(0 : Int) < -(2048 + n.log2); omega), if_pos (by decide)]
    have scaled : n <<< Format.binary64.mantissaBits * 10 ^ (0 : Int).toNat = n * 2 ^ 53 := by
      rw [Nat.shiftLeft_eq, Int.toNat_zero, pow_zero, Nat.mul_one]
      rfl
    have exponent : -(Format.binary64.mantissaBits : Int) + 0 = -(53 : Nat) := rfl
    rw [UnpackedFloat.mul, scaled, exponent]
    exact rounded

theorem shows_ofInt {a : Int} (small : a.natAbs < 2 ^ 64) :
    Shows (Float.ofInt a).toModel.unpack (nearest a) := by
  cases a with
  | ofNat n => exact shows_ofNat small
  | negSucc n =>
    have magnitude := shows_ofNat (n := n + 1) small
    change Shows (Float.Model.pack (Float.ofNat (n + 1)).toModel.unpack.neg).unpack _
    rw [magnitude.neg.unpack_pack, Int.negSucc_eq, ← Int.natCast_succ, nearest_neg]
    exact magnitude.neg

theorem ofInt_lt_iff {a b : Int} (smallA : a.natAbs < 2 ^ 64) (smallB : b.natAbs < 2 ^ 64) :
    Float.ofInt a < Float.ofInt b ↔ nearest a < nearest b := by
  have order := (shows_ofInt smallA).compare_eq (shows_ofInt smallB)
  change decide (((Float.ofInt a).toModel.unpack.compare (Float.ofInt b).toModel.unpack ==
    some .lt) = true) = true ↔ _
  rw [order, decide_eq_true_eq, beq_iff_eq, Option.some_inj, Int.compare_eq_lt]

theorem ofInt_le_iff {a b : Int} (smallA : a.natAbs < 2 ^ 64) (smallB : b.natAbs < 2 ^ 64) :
    Float.ofInt a ≤ Float.ofInt b ↔ nearest a ≤ nearest b := by
  have order := (shows_ofInt smallA).compare_eq (shows_ofInt smallB)
  change decide (((Float.ofInt a).toModel.unpack.compare (Float.ofInt b).toModel.unpack).any
    (·.isLE) = true) = true ↔ _
  rw [order, decide_eq_true_eq, Option.any_some, Int.isLE_compare]

end Converting

end ScriptCore.Decimal
