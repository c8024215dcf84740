import ApiDescription.Expression.Number
import Mathlib

/-!
# Values of doubles

Every double but one is a number: a rational, or infinite with a sign.  Two doubles are equal
exactly when they are the same number, and an integer is equal to a double exactly when it is that
number; the one value that is not a number is equal to nothing.  Rounding a quotient always gives a
number.
-/

namespace ApiDescription.Decimal

open Float.Model Float.Model.UnpackedFloat UnpackedFloat Format Magnitude

/-! ## Exact values -/

/-- The number that a double is. -/
inductive Exact where
  | finite (value : ℚ)
  | infinite (negative : Bool)
  deriving DecidableEq

def Magnitude.value (number : Magnitude) : ℚ :=
  number.mantissa * (2 : ℚ) ^ number.exponent

def signed (negative : Bool) (value : ℚ) : ℚ :=
  if negative then -value else value

def valueOf? (value : Float) : Option Exact :=
  if value.isNaN then none
  else if value.isInf then some (.infinite (isNegative value))
  else some (.finite (signed (isNegative value) (magnitude value).value))

/-! ## Bits -/

def signOf (value : Float) : Sign :=
  if isNegative value then .negative else .positive

theorem toNat_unpackMantissa (bits : BitVec 64) :
    (@unpackMantissa binary64 bits).toNat = bits.toNat % 2 ^ 52 := by
  simp [unpackMantissa]

theorem toNat_unpackExponent (bits : BitVec 64) :
    (@unpackExponent binary64 bits).toNat = bits.toNat / 2 ^ 52 % 2 ^ 11 := by
  simp [unpackExponent, Nat.shiftRight_eq_div_pow]

theorem toNat_unpackSign (bits : BitVec 64) :
    (@unpackSign binary64 bits).toNat = bits.toNat / 2 ^ 63 := by
  have bound : bits.toNat < 2 ^ 64 := bits.isLt
  simp [unpackSign, Nat.shiftRight_eq_div_pow]
  omega

/-- A magnitude in the form that the bits of a double give it: subnormal or normal. -/
def Magnitude.Canonical (number : Magnitude) : Prop :=
  0 < number.mantissa ∧ number.mantissa < 2 ^ 53 ∧ -1074 ≤ number.exponent ∧
    (number.mantissa < 2 ^ 52 → number.exponent = -1074)

/-- What the bits of a double stand for. -/
inductive Reading (value : Float) : UnpackedFloat → Prop
  | notANumber : Reading value .notANumber
  | infinity : Reading value (.infinity (signOf value))
  | zero : (magnitude value).mantissa = 0 → Reading value (.zero (signOf value))
  | finite {mantissa : Nat} {exponent : Int} (positive : 0 < mantissa) :
      magnitude value = ⟨mantissa, exponent⟩ → Canonical ⟨mantissa, exponent⟩ →
      Reading value (.finite (signOf value) mantissa exponent positive)

theorem ofBitVec_unpackSign (value : Float) :
    Sign.ofBitVec (@unpackSign binary64 value.toBits.toBitVec) = signOf value := by
  have sign := toNat_unpackSign value.toBits.toBitVec
  have bound := (@unpackSign binary64 value.toBits.toBitVec).isLt
  have isZero : @unpackSign binary64 value.toBits.toBitVec = 0#1 ↔
      value.toBits.toNat / 2 ^ 63 = 0 := by
    rw [← BitVec.toNat_inj, sign]
    rfl
  have atMostOne : value.toBits.toNat / 2 ^ 63 < 2 := by
    rw [sign] at bound
    exact bound
  unfold Sign.ofBitVec signOf isNegative
  simp only [isZero, Nat.pow_eq]
  generalize value.toBits.toNat / 2 ^ 63 = high at atMostOne ⊢
  interval_cases high <;> rfl

theorem magnitude_of_subnormal {value : Float}
    (low : @unpackExponent binary64 value.toBits.toBitVec = 0#11) :
    magnitude value = ⟨(@unpackMantissa binary64 value.toBits.toBitVec).toNat, -1074⟩ := by
  have exponent := toNat_unpackExponent value.toBits.toBitVec
  rw [low] at exponent
  have biased : value.toBits.toNat / 2 ^ 52 % 2 ^ 11 = 0 := exponent.symm
  simp only [magnitude, Nat.pow_eq]
  rw [if_pos biased, toNat_unpackMantissa]
  rfl

theorem magnitude_of_normal {value : Float}
    (high : @unpackExponent binary64 value.toBits.toBitVec ≠ 0#11) :
    magnitude value = ⟨(@unpackMantissa binary64 value.toBits.toBitVec).toNat + 2 ^ 52,
        ((@unpackExponent binary64 value.toBits.toBitVec).toNat : Int) - 1075⟩ := by
  have exponent := toNat_unpackExponent value.toBits.toBitVec
  have biased : value.toBits.toNat / 2 ^ 52 % 2 ^ 11 ≠ 0 := by
    intro zero
    refine high (BitVec.eq_of_toNat_eq ?_)
    rw [exponent]
    exact zero
  simp only [magnitude, Nat.pow_eq]
  rw [if_neg biased, toNat_unpackMantissa, toNat_unpackExponent]
  rfl

theorem reading (value : Float) : Reading value value.toModel.unpack := by
  have unpacked : value.toModel.unpack = UnpackedFloat.unpack binary64 value.toBits.toBitVec := rfl
  have bound : (@unpackMantissa binary64 value.toBits.toBitVec).toNat < 2 ^ 52 :=
    (@unpackMantissa binary64 value.toBits.toBitVec).isLt
  rw [unpacked, UnpackedFloat.unpack]
  simp only [ofBitVec_unpackSign]
  split
  · split
    · exact .infinity
    · exact .notANumber
  · split
    next low =>
      have parts := magnitude_of_subnormal low
      split
      next empty =>
        refine .zero ?_
        rw [parts, empty]
        rfl
      next filled =>
        have positive : 0 < (@unpackMantissa binary64 value.toBits.toBitVec).toNat := by
          simpa [BitVec.toNat_pos, BitVec.pos_iff_ne_zero] using filled
        have exponent : ((@unpackExponent binary64 value.toBits.toBitVec).toNat : Int) -
            ((binary64.exponentBias : Int) + binary64.mantissaBitsWithoutImplicit) + 1 =
              -1074 := by
          rw [low]
          rfl
        refine .finite positive (parts.trans (by rw [exponent])) ⟨positive, ?_, ?_,
          fun _ => exponent⟩
        · exact bound.trans (by decide)
        · exact exponent.ge
    next high =>
      have parts := magnitude_of_normal high
      have mantissa : (1#1 ++ @unpackMantissa binary64 value.toBits.toBitVec).toNat =
          (@unpackMantissa binary64 value.toBits.toBitVec).toNat + 2 ^ 52 := by
        rw [BitVec.toNat_append, ← Nat.shiftLeft_add_eq_or_of_lt bound, Nat.add_comm]
        rfl
      have notZero : 0 < (@unpackExponent binary64 value.toBits.toBitVec).toNat := by
        simpa [BitVec.toNat_pos, BitVec.pos_iff_ne_zero] using high
      have exponent : ((@unpackExponent binary64 value.toBits.toBitVec).toNat : Int) -
          ((binary64.exponentBias : Int) + binary64.mantissaBitsWithoutImplicit) =
            ((@unpackExponent binary64 value.toBits.toBitVec).toNat : Int) - 1075 := rfl
      refine .finite _ (parts.trans (by rw [mantissa, exponent])) ?_
      rw [mantissa, exponent]
      refine ⟨?_, ?_, ?_, ?_⟩ <;> simp only <;> omega

/-! ## Equality of doubles -/

theorem Magnitude.Canonical.eq_of_value_eq {left right : Magnitude} (canonical : left.Canonical)
    (canonicalRight : right.Canonical) (same : left.value = right.value) : left = right := by
  wlog ordered : left.exponent ≤ right.exponent generalizing left right
  · exact (this canonicalRight canonical same.symm (by omega)).symm
  obtain ⟨leftMantissa, leftExponent⟩ := left
  obtain ⟨rightMantissa, rightExponent⟩ := right
  obtain ⟨shift, rfl⟩ : ∃ shift : Nat, rightExponent = leftExponent + shift :=
    ⟨(rightExponent - leftExponent).toNat, by simp only at ordered; omega⟩
  have scaled : leftMantissa = rightMantissa * 2 ^ shift := by
    have positive : (2 : ℚ) ^ leftExponent ≠ 0 := zpow_ne_zero _ two_ne_zero
    simp only [value] at same
    rw [zpow_add₀ two_ne_zero, zpow_natCast, mul_left_comm, mul_comm] at same
    exact_mod_cast mul_left_cancel₀ positive same
  cases shift with
  | zero => simp [scaled]
  | succ shift =>
    -- Of two different exponents the larger belongs to a normal number, whose mantissa is long.
    obtain ⟨-, short, low, -⟩ := canonical
    obtain ⟨-, -, -, normal⟩ := canonicalRight
    simp only at short low normal
    have long : 2 ^ 52 ≤ rightMantissa := by
      by_contra less
      have := normal (by omega)
      omega
    have atLeast : rightMantissa * 2 ≤ leftMantissa := by
      rw [scaled, pow_succ, ← mul_assoc]
      have := Nat.le_mul_of_pos_right rightMantissa (Nat.two_pow_pos shift)
      omega
    omega

theorem isNaN_eq (value : Float) : value.isNaN = value.toModel.unpack.isNaN := rfl

theorem isInf_eq (value : Float) : value.isInf = value.toModel.unpack.isInf := rfl

theorem beq_eq (left right : Float) :
    (left == right) = left.toModel.unpack.beq right.toModel.unpack := rfl

def isMinus : Sign → Bool
  | .negative => true
  | .positive => false

def exactOf : UnpackedFloat → Option Exact
  | .notANumber => none
  | .infinity sign => some (.infinite (isMinus sign))
  | .zero _ => some (.finite 0)
  | .finite sign mantissa exponent _ =>
    some (.finite (signed (isMinus sign) (value ⟨mantissa, exponent⟩)))

def IsCanonical : UnpackedFloat → Prop
  | .finite _ mantissa exponent _ => Canonical ⟨mantissa, exponent⟩
  | _ => True

theorem isCanonical_unpack (value : Float) : IsCanonical value.toModel.unpack := by
  have read := reading value
  generalize value.toModel.unpack = bits at read ⊢
  cases read with
  | notANumber => trivial
  | infinity => trivial
  | zero => trivial
  | finite positive parts canonical => exact canonical

theorem isMinus_signOf (value : Float) : isMinus (signOf value) = isNegative value := by
  unfold signOf
  cases isNegative value <;> rfl

theorem valueOf?_eq_exactOf (value : Float) : valueOf? value = exactOf value.toModel.unpack := by
  rw [valueOf?, isNaN_eq, isInf_eq]
  have read := reading value
  generalize value.toModel.unpack = bits at read ⊢
  cases read with
  | notANumber => rfl
  | infinity => simp [UnpackedFloat.isNaN, UnpackedFloat.isInf, exactOf, isMinus_signOf]
  | zero empty =>
    simp [UnpackedFloat.isNaN, UnpackedFloat.isInf, exactOf, Magnitude.value, empty, signed]
  | finite positive parts canonical =>
    simp [UnpackedFloat.isNaN, UnpackedFloat.isInf, exactOf, parts, isMinus_signOf]

variable {number : Magnitude} {numerator denominator : Nat}

theorem Magnitude.Canonical.value_pos (canonical : number.Canonical) : 0 < number.value :=
  mul_pos (Nat.cast_pos.mpr canonical.1) (zpow_pos two_pos _)

theorem signed_ne_zero (canonical : number.Canonical) (negative : Bool) :
    signed negative number.value ≠ 0 := by
  have positive := canonical.value_pos
  cases negative <;> simp [signed, positive.ne']

theorem signed_eq_signed {negative negativeRight : Bool} {left right : Magnitude}
    (canonical : left.Canonical) (canonicalRight : right.Canonical) :
    signed negative left.value = signed negativeRight right.value ↔
      negative = negativeRight ∧ left = right := by
  have positive := canonical.value_pos
  have positiveRight := canonicalRight.value_pos
  constructor
  · intro same
    cases negative <;> cases negativeRight <;> simp only [signed] at same
    · exact ⟨rfl, canonical.eq_of_value_eq canonicalRight same⟩
    · simp at same
      linarith
    · simp at same
      linarith
    · exact ⟨rfl, canonical.eq_of_value_eq canonicalRight (neg_injective same)⟩
  · rintro ⟨rfl, rfl⟩
    rfl

theorem compare_eq_iff {left right : UnpackedFloat} (canonical : IsCanonical left)
    (canonicalRight : IsCanonical right) :
    left.compare right = some .eq ↔
      ∃ number, exactOf left = some number ∧ exactOf right = some number := by
  cases left with
  | notANumber => cases right <;> simp [UnpackedFloat.compare, exactOf]
  | infinity sign =>
    cases sign <;> cases right with
    | infinity other => cases other <;> simp [UnpackedFloat.compare, exactOf, isMinus, compare]
    | notANumber | zero | finite => simp [UnpackedFloat.compare, exactOf]
  | zero sign =>
    cases right with
    | infinity other => cases other <;> simp [UnpackedFloat.compare, exactOf]
    | notANumber | zero => simp [UnpackedFloat.compare, exactOf]
    | finite other mantissa exponent positive =>
      have nonzero := signed_ne_zero canonicalRight (isMinus other)
      cases other <;> simp [UnpackedFloat.compare, exactOf, nonzero]
  | finite sign mantissa exponent positive =>
    cases right with
    | infinity other => cases sign <;> cases other <;> simp [UnpackedFloat.compare, exactOf]
    | notANumber => simp [UnpackedFloat.compare, exactOf]
    | zero other =>
      have nonzero := signed_ne_zero canonical (isMinus sign)
      cases sign <;> simp [UnpackedFloat.compare, exactOf, nonzero.symm]
    | finite other mantissaRight exponentRight positiveRight =>
      have same := @signed_eq_signed (isMinus other) (isMinus sign) _ _ canonicalRight canonical
      simp only [exactOf, Option.some.injEq, exists_eq_left', Exact.finite.injEq, same]
      cases sign <;> cases other <;>
        simp [UnpackedFloat.compare, isMinus, Ordering.then_eq_eq, and_comm,
          @eq_comm _ mantissaRight, @eq_comm _ exponentRight]

/-- Two doubles are equal when they are the same number. -/
theorem beq_iff_exact (left right : Float) :
    (left == right) = true ↔ ∃ number, valueOf? left = some number ∧
      valueOf? right = some number := by
  rw [beq_eq, UnpackedFloat.beq, beq_iff_eq, valueOf?_eq_exactOf, valueOf?_eq_exactOf]
  exact compare_eq_iff (isCanonical_unpack left) (isCanonical_unpack right)

/-! ## Integers and doubles -/

theorem Magnitude.value_eq_div (number : Magnitude) :
    number.value = number.numerator / number.denominator := by
  obtain ⟨mantissa, exponent⟩ := number
  simp only [value, numerator, denominator, Nat.pow_eq]
  push_cast
  rcases Int.le_total 0 exponent with nonneg | nonpos
  · obtain ⟨places, rfl⟩ := Int.eq_ofNat_of_zero_le nonneg
    simp
  · obtain ⟨places, rfl⟩ := Int.exists_eq_neg_ofNat nonpos
    simp [div_eq_mul_inv]

theorem Magnitude.denominator_ne_zero (number : Magnitude) : (number.denominator : ℚ) ≠ 0 := by
  simp [denominator]

theorem compareInt_eq_iff {left : Int} {right : Float} (isNumber : right.isNaN = false) :
    compareInt left right = .eq ↔ valueOf? right = some (.finite left) := by
  unfold compareInt valueOf?
  rw [isNumber]
  by_cases infinite : right.isInf
  · cases isNegative right <;> simp [infinite]
  · have denominator := (magnitude right).denominator_ne_zero
    have asRational : (left : ℚ) = (magnitude right).value ↔
        left * ((magnitude right).denominator : Int) = (magnitude right).numerator := by
      rw [value_eq_div, eq_div_iff denominator]
      exact_mod_cast Iff.rfl
    have asNegative : (left : ℚ) = -(magnitude right).value ↔
        left * ((magnitude right).denominator : Int) = -((magnitude right).numerator : Int) := by
      rw [value_eq_div, ← neg_div, eq_div_iff denominator]
      exact_mod_cast Iff.rfl
    cases isNegative right <;>
      simp [infinite, signed, @eq_comm ℚ _ left, asRational, asNegative]

/-! ## Rounding gives a number -/

theorem isNaN_unpack (bits : BitVec 64) :
    (UnpackedFloat.unpack binary64 bits).isNaN = true ↔
      @unpackExponent binary64 bits = -1#11 ∧ @unpackMantissa binary64 bits ≠ 0#52 := by
  simp only [UnpackedFloat.unpack]
  split
  · split <;> simp_all [UnpackedFloat.isNaN]
  · split
    · split <;> simp_all [UnpackedFloat.isNaN]
    · simp_all [UnpackedFloat.isNaN]

theorem isNaN_unpack_pack (value : UnpackedFloat) :
    (unpack binary64 (pack binary64 value)).isNaN =
      value.isNaN := by
  rw [Bool.eq_iff_iff, isNaN_unpack]
  fun_cases pack binary64 value with
  | case1 => simp [packedNaN, UnpackedFloat.isNaN]
  | case2 sign => simp [packedInfinity, UnpackedFloat.isNaN]
  | case3 sign => simp [packedZero, UnpackedFloat.isNaN]
  | case4 sign mantissa exponent positive biased tooLarge =>
    simp [packedInfinity, UnpackedFloat.isNaN]
  | case5 sign mantissa exponent positive length biased inRange normal =>
    have small : ¬ 2 ^ 11 ≤ biased + 1 := inRange
    have notFull : BitVec.ofNat 11 biased ≠ 2047#11 := by
      intro full
      have bits := congrArg BitVec.toNat full
      simp at bits
      omega
    simp [UnpackedFloat.isNaN, notFull]
  | case6 sign mantissa exponent positive length biased inRange subnormal =>
    simp [UnpackedFloat.isNaN]

theorem isNaN_neg (value : Float) : (-value).isNaN = value.isNaN := by
  have stored : (-value).isNaN = (unpack binary64
        (pack binary64 value.toModel.unpack.neg)).isNaN := rfl
  rw [stored, isNaN_unpack_pack, isNaN_eq]
  cases value.toModel.unpack <;> rfl

theorem isNaN_ofBits {bits : UInt64}
    (number : bits.toNat / 2 ^ 52 % 2 ^ 11 = 2047 → bits.toNat % 2 ^ 52 = 0) :
    (Float.ofBits bits).isNaN = false := by
  have stored : (Float.ofBits bits).isNaN = (unpack binary64 (pack binary64
          (unpack binary64 bits.toBitVec))).isNaN := rfl
  rw [stored, isNaN_unpack_pack, ← Bool.not_eq_true, isNaN_unpack]
  rintro ⟨full, filled⟩
  refine filled (BitVec.eq_of_toNat_eq ?_)
  rw [toNat_unpackMantissa]
  refine number ?_
  have exponent := toNat_unpackExponent bits.toBitVec
  rw [full] at exponent
  exact exponent.symm

theorem lt_leadingPlace (positive : 0 < denominator) (nonzero : numerator ≠ 0) :
    (numerator : ℚ) < denominator * 2 ^ (leadingPlace numerator denominator + 1) := by
  have two : (2 : ℚ) ≠ 0 := two_ne_zero
  unfold leadingPlace
  generalize place : (Nat.log2 numerator : Int) - (Nat.log2 denominator : Int) = difference
  simp only [Nat.pow_eq]
  split
  next less =>
    rw [Int.sub_add_cancel]
    have less : (numerator : ℚ) * 2 ^ (-difference).toNat < denominator * 2 ^ difference.toNat := by
      exact_mod_cast less
    rcases Int.le_total 0 difference with nonneg | nonpos
    · obtain ⟨places, rfl⟩ := Int.eq_ofNat_of_zero_le nonneg
      simpa using less
    · obtain ⟨places, rfl⟩ := Int.exists_eq_neg_ofNat nonpos
      rw [zpow_neg, ← div_eq_mul_inv, lt_div_iff₀ (by positivity)]
      simpa using less
  next =>
    have below : (numerator : ℚ) < 2 ^ (Nat.log2 numerator + 1) := by
      exact_mod_cast (Nat.log2_lt nonzero).mp (Nat.lt_succ_self _)
    have above : (2 : ℚ) ^ Nat.log2 denominator ≤ denominator := by
      exact_mod_cast (Nat.le_log2 (by omega)).mp le_rfl
    calc (numerator : ℚ)
        < 2 ^ (Nat.log2 numerator + 1) := below
      _ = 2 ^ Nat.log2 denominator * 2 ^ (difference + 1) := by
          rw [← zpow_natCast, ← zpow_natCast, ← zpow_add₀ two, ← place]
          congr 1
          push_cast
          ring
      _ ≤ denominator * 2 ^ (difference + 1) := by gcongr

theorem roundQuotient_le {bound : Nat} (positive : 0 < denominator)
    (below : numerator ≤ bound * denominator) :
    roundQuotient numerator denominator ≤ bound := by
  have division := Nat.div_add_mod numerator denominator
  have remainder := Nat.mod_lt numerator positive
  rcases Nat.lt_or_ge (numerator / denominator) bound with less | most
  · unfold roundQuotient
    simp only
    split_ifs <;> omega
  · have whole : numerator / denominator = bound :=
      le_antisymm (Nat.div_le_of_le_mul (by rwa [Nat.mul_comm])) most
    have exact : numerator % denominator = 0 := by
      rw [whole, Nat.mul_comm] at division
      omega
    simp [roundQuotient, whole, exact, positive]

theorem mantissa_le {numerator denominator : Nat} (positive : 0 < denominator)
    (nonzero : numerator ≠ 0) {exponent : Int}
    (enough : leadingPlace numerator denominator - 52 ≤ exponent) :
    roundQuotient (numerator * Nat.pow 2 (-exponent).toNat)
      (denominator * Nat.pow 2 exponent.toNat) ≤ 2 ^ 53 := by
  simp only [Nat.pow_eq]
  refine roundQuotient_le (by positivity) ?_
  have below := lt_leadingPlace positive nonzero
  have bound : (numerator : ℚ) ≤ denominator * 2 ^ (exponent + 53) :=
    below.le.trans (mul_le_mul_of_nonneg_left (zpow_le_zpow_right₀ one_le_two (by omega))
      (Nat.cast_nonneg _))
  have scaled : (numerator : ℚ) * 2 ^ (-exponent).toNat ≤
      2 ^ 53 * (denominator * 2 ^ exponent.toNat) := by
    rcases Int.le_total 0 exponent with nonneg | nonpos
    · obtain ⟨places, rfl⟩ := Int.eq_ofNat_of_zero_le nonneg
      calc (numerator : ℚ) * 2 ^ (-(places : Int)).toNat
          = numerator := by simp
        _ ≤ denominator * 2 ^ ((places : Int) + 53) := bound
        _ = 2 ^ 53 * (denominator * 2 ^ ((places : Int)).toNat) := by
            rw [zpow_add₀ two_ne_zero, Int.toNat_natCast, zpow_natCast]
            norm_num
            ring
    · obtain ⟨places, rfl⟩ := Int.exists_eq_neg_ofNat nonpos
      rw [zpow_add₀ two_ne_zero, zpow_neg, zpow_natCast] at bound
      have power : (0 : ℚ) < 2 ^ places := by positivity
      calc (numerator : ℚ) * 2 ^ (-(-(places : Int))).toNat
          = numerator * 2 ^ places := by simp
        _ ≤ denominator * ((2 ^ places)⁻¹ * 2 ^ (53 : Int)) * 2 ^ places := by gcongr
        _ = 2 ^ 53 * (denominator * 2 ^ ((-(places : Int))).toNat) := by
            simp
            field_simp
  exact_mod_cast scaled

theorem isNaN_ofQuotient (negative : Bool) (numerator : Nat) (positive : 0 < denominator) :
    (ofQuotient negative numerator denominator).isNaN = false := by
  refine isNaN_ofBits ?_
  have sign : (if negative then Nat.pow 2 63 else 0) = 0 ∨
      (if negative then Nat.pow 2 63 else 0) = 2 ^ 63 := by
    cases negative <;> simp
  generalize (if negative then Nat.pow 2 63 else 0) = high at sign ⊢
  by_cases zero : numerator = 0
  · rcases sign with rfl | rfl <;> simp [zero]
  · have enough := @mantissa_le numerator denominator positive zero
      (max (leadingPlace numerator denominator - 52) (-1074)) (le_max_left _ _)
    have low : (-1074 : Int) ≤ max (leadingPlace numerator denominator - 52) (-1074) :=
      le_max_right _ _
    simp only [if_neg zero]
    generalize max (leadingPlace numerator denominator - 52) (-1074) = exponent at enough low ⊢
    generalize roundQuotient _ _ = mantissa at enough ⊢
    simp only [Nat.pow_eq, UInt64.toNat_ofNat']
    split
    · rcases sign with rfl | rfl <;> norm_num
    next inRange =>
      intro full
      rcases sign with rfl | rfl <;> omega

theorem isNaN_ofScientific (digits : Nat) (exponent : Int) :
    (ofScientific digits exponent).isNaN = false := by
  unfold ofScientific
  split
  · exact isNaN_ofQuotient _ _ Nat.one_pos
  · split
    · exact isNaN_ofQuotient _ _ Nat.one_pos
    · exact isNaN_ofQuotient _ _ (Nat.pow_pos (by decide))

end ApiDescription.Decimal

/-! ## Numbers of the expression language -/

namespace ApiDescription.Number

open Decimal (Exact valueOf?)

def value? : Number → Option (Exact × Exact)
  | int value => some (.finite value, .finite 0)
  | float value => (valueOf? value).map (·, .finite 0)
  | complex real imaginary => (valueOf? real).bind fun first => (valueOf? imaginary).map (first, ·)

theorem valueOf?_zero : valueOf? 0.0 = some (.finite 0) := by
  rw [Decimal.valueOf?_eq_exactOf]
  rfl

theorem valueOf?_eq_none {value : Float} (noNumber : value.isNaN = true) : valueOf? value = none :=
  if_pos noNumber

theorem isSome_valueOf? {value : Float} : (valueOf? value).isSome = !value.isNaN := by
  unfold valueOf?
  cases value.isNaN <;> cases value.isInf <;> rfl

theorem sameIntFloat_iff (left : Int) (right : Float) :
    sameIntFloat left right = true ↔ valueOf? right = some (.finite left) := by
  unfold sameIntFloat
  cases isNumber : right.isNaN with
  | true => simp [valueOf?_eq_none isNumber]
  | false => simp [Decimal.compareInt_eq_iff isNumber]

/-- Numbers of whatever kinds are equal when they have the same value. -/
theorem same_iff (left right : Number) :
    left.same right = true ↔ ∃ value, left.value? = some value ∧ right.value? = some value := by
  cases left <;> cases right <;>
    simp only [same, value?, sameIntFloat_iff, Decimal.beq_iff_exact, valueOf?_zero,
      Bool.and_eq_true,
      beq_iff_eq, Option.map_eq_some_iff, Option.bind_eq_some_iff, Option.some.injEq]
  case int.int => simp [eq_comm]
  all_goals grind

end ApiDescription.Number
