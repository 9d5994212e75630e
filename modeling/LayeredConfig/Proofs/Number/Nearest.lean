/-
  LayeredConfig/Proofs/Number/Nearest.lean
  ========================================
  **Whole numbers that become floats.**

  A document may give a whole number that 64 bits hold only without a sign.  It needs all
  64 of them, and a float has 53: the last eleven are rounded away, to the nearest
  multiple of 2048 and to the even one of two (`quotient`).  No finite float is nearer to
  the number than that one (`isNearest_ofInt`), since floats at least as large as the
  number's greatest power of two are multiples of 2048 themselves.
-/
import LayeredConfig.Document.Numeral
import LayeredConfig.Proofs.Number.FloatText

namespace LayeredConfig.Number

/-! ### Floats as numbers -/

def floatValue (x : Float) : ℚ :=
  (if isNegative x then -1 else 1) *
    ((Binary.ofBits (magnitude x)).m * 2 ^ (Binary.ofBits (magnitude x)).q)

def IsFinite (x : Float) : Prop := x.isNaN = false ∧ x.isInf = false

/-- No float is nearer to the number, and of two that are equally near it is the one with an even
    last bit. -/
structure IsNearest (x : Float) (r : ℚ) : Prop where
  finite : IsFinite x
  closest : ∀ y, IsFinite y → |floatValue x - r| ≤ |floatValue y - r|
  even : ∀ y, IsFinite y → floatValue y ≠ floatValue x →
    |floatValue y - r| = |floatValue x - r| → x.toBits.toNat % 2 = 0

theorem isFinite_of_magnitude {x : Float} (h : magnitude x < 0x7FF0000000000000) : IsFinite x := by
  constructor
  · rw [← Bool.not_eq_true]
    intro hnan
    have hmagnitude := (magnitude_nan hnan).2
    omega
  · rw [← Bool.not_eq_true]
    intro hinf
    have hmagnitude := magnitude_infinite hinf
    omega

theorem m_ofBits_lt (bits : Nat) : (Binary.ofBits bits).m < 2 ^ 53 := by
  rw [Binary.ofBits]
  split <;> simp only <;> omega

/-- A float is a multiple of 2048, unless it is less than `2 ^ 63`. -/
theorem floatValue_cases (x : Float) :
    (∃ a : Int, floatValue x = 2048 * a) ∨ floatValue x < 2 ^ 63 := by
  let b := Binary.ofBits (magnitude x)
  have hvalue : floatValue x = (if isNegative x then -1 else 1) * (b.m * 2 ^ b.q) := rfl
  rcases le_or_gt 11 b.q with hq | hq
  · left
    obtain ⟨k, hk⟩ := Int.le.dest hq
    refine ⟨(if isNegative x then -1 else 1) * (b.m * 2 ^ k), ?_⟩
    rw [hvalue, ← hk, zpow_add₀ two_ne_zero, zpow_natCast]
    split <;> push_cast <;> norm_num <;> ring
  · right
    have hm : (b.m : ℚ) < 2 ^ 53 := by exact_mod_cast m_ofBits_lt (magnitude x)
    have hpow : (2 : ℚ) ^ b.q ≤ 2 ^ (10 : Int) := zpow_le_zpow_right₀ one_le_two (by omega)
    have hpos : (0 : ℚ) ≤ b.m * 2 ^ b.q := by positivity
    have hsize : (b.m : ℚ) * 2 ^ b.q < 2 ^ 63 := by
      calc (b.m : ℚ) * 2 ^ b.q ≤ b.m * 2 ^ (10 : Int) :=
            mul_le_mul_of_nonneg_left hpow (Nat.cast_nonneg _)
        _ < 2 ^ 53 * 2 ^ (10 : Int) := mul_lt_mul_of_pos_right hm (by positivity)
        _ = 2 ^ 63 := by norm_num
    rw [hvalue]
    split
    · linarith
    · linarith

/-! ### The rounding of whole numbers -/

/-- The number divided by 2048 and rounded to the nearest whole number, the even one of two. -/
def quotient (n : Nat) : Nat :=
  if n % 2048 < 1024 then n / 2048
  else if n % 2048 = 1024 then n / 2048 + n / 2048 % 2
  else n / 2048 + 1

section Quotient

variable {n : Nat}

theorem quotient_bounds (h : 2 ^ 63 ≤ n) (h' : n < 2 ^ 64) :
    2 ^ 52 ≤ quotient n ∧ quotient n ≤ 2 ^ 53 := by
  rw [quotient]
  split
  · omega
  · split <;> omega

/-- No multiple of 2048 is nearer, and if one is as near the quotient is even. -/
theorem quotient_nearest (n : Nat) (a : Int) :
    |2048 * (quotient n : Int) - n| ≤ |2048 * a - n| ∧
      (a ≠ quotient n → |2048 * a - n| = |2048 * (quotient n : Int) - n| → quotient n % 2 = 0) := by
  rw [Int.abs_eq_natAbs, Int.abs_eq_natAbs, quotient]
  split
  · omega
  · split <;> omega

end Quotient

section Rounding

open Float.Model Float.Model.UnpackedFloat

/-- The places that are cut off leave the first of them, and whether there is any bit in the
    others. -/
theorem shiftRight_succ (m s : Nat) :
    (⟨m, false, false⟩ : ExtendedMantissa) >>> (s + 1) =
      ⟨m / 2 ^ (s + 1), m / 2 ^ s % 2 != 0, m % 2 ^ s != 0⟩ := by
  induction s with
  | zero =>
    change ExtendedMantissa.shiftRightOne ⟨m, false, false⟩ = _
    simp [ExtendedMantissa.shiftRightOne, Nat.mod_one]
  | succ s ih =>
    change ExtendedMantissa.shiftRightOne ((⟨m, false, false⟩ : ExtendedMantissa) >>> (s + 1)) = _
    have hpow : 2 ^ s ≠ 0 := (Nat.two_pow_pos s).ne'
    have hrest : (m / 2 ^ s % 2 != 0 || m % 2 ^ s != 0) = (m % 2 ^ (s + 1) != 0) := by
      rw [Bool.eq_iff_iff, Nat.mod_pow_succ]
      simp only [Bool.or_eq_true, bne_iff_ne, ne_eq, Nat.add_eq_zero_iff, Nat.mul_eq_zero]
      tauto
    rw [ih, ExtendedMantissa.shiftRightOne, hrest, Nat.div_div_eq_div_mul, ← Nat.pow_succ]

variable {n : Nat}

/-- 64 places are cut off: the 53 that were put behind the number, and eleven of its own. -/
theorem roundedMantissa_shiftRight (n : Nat) :
    ((⟨n * 2 ^ 53, false, false⟩ : ExtendedMantissa) >>> 64).roundedMantissa = quotient n := by
  have hshift : (⟨n * 2 ^ 53, false, false⟩ : ExtendedMantissa) >>> 64 =
      ⟨n / 2048, n / 1024 % 2 != 0, n % 1024 != 0⟩ := by
    have h := shiftRight_succ (n * 2 ^ 53) 63
    have hkept : n * 2 ^ 53 / 2 ^ (63 + 1) = n / 2048 := by omega
    have hround : n * 2 ^ 53 / 2 ^ 63 % 2 = n / 1024 % 2 := by omega
    have hsticky : (n * 2 ^ 53 % 2 ^ 63 != 0) = (n % 1024 != 0) := by
      rw [Bool.eq_iff_iff, bne_iff_ne, bne_iff_ne]
      omega
    rw [hkept, hround, hsticky] at h
    exact h
  rw [hshift, quotient]
  cases hround : n / 1024 % 2 != 0 with
  | false =>
    have hround : n / 1024 % 2 = 0 := by simpa using hround
    rw [if_pos (by omega)]
    cases n % 1024 != 0 <;> rfl
  | true =>
    have hround : n / 1024 % 2 ≠ 0 := by simpa using hround
    rw [if_neg (by omega)]
    cases hsticky : n % 1024 != 0 with
    | false =>
      have hsticky : n % 1024 = 0 := by simpa using hsticky
      exact (if_pos (by omega)).symm
    | true =>
      have hsticky : n % 1024 ≠ 0 := by simpa using hsticky
      exact (if_neg (by omega)).symm

theorem shiftToTarget_whole (h : 2 ^ 63 ≤ n) (h' : n < 2 ^ 64) :
    shiftToTargetExponent Format.binary64 (n * 2 ^ 53) (-53) .exact =
      ((⟨n * 2 ^ 53, false, false⟩ : ExtendedMantissa) >>> 64, 11) := by
  have hlog : (n * 2 ^ 53).log2 = 116 := (Nat.log2_eq_iff (by omega)).2 (by omega)
  rw [shiftToTargetExponent, totalExponent, hlog]
  rfl

theorem shiftToTarget_rounded {m : Nat} (h : 2 ^ 52 ≤ m) (h' : m < 2 ^ 53) :
    shiftToTargetExponent Format.binary64 m 11 .exact = (⟨m, false, false⟩, 11) := by
  have hlog : m.log2 = 52 := (Nat.log2_eq_iff (by omega)).2 (by omega)
  rw [shiftToTargetExponent, totalExponent, hlog]
  rfl

/-- Rounding upwards may lead to one place more. -/
theorem shiftToTarget_carried :
    shiftToTargetExponent Format.binary64 (2 ^ 53) 11 .exact = (⟨2 ^ 52, false, false⟩, 12) := by
  have hlog : (2 ^ 53).log2 = 53 := Nat.log2_two_pow
  rw [shiftToTargetExponent, totalExponent, hlog]
  rfl

theorem ofScientific_eq_round (h : 2 ^ 63 ≤ n) :
    UnpackedFloat.ofScientific Format.binary64 n 0 =
      roundWithAccuracy Format.binary64 .positive (n * 2 ^ 53) (-53) .exact := by
  have hzero : n ≠ 0 := by omega
  have hgreat : ¬ (0 : Int) > 2 ^ Format.binary64.exponentBits := by decide
  have hsmall : ¬ (0 : Int) < -((2 ^ Format.binary64.exponentBits : Int) + n.log2) := by
    have hpow : (0 : Int) < 2 ^ Format.binary64.exponentBits := by decide
    omega
  have hbits : Format.binary64.mantissaBits = 53 := rfl
  have hmantissa : (n <<< Format.binary64.mantissaBits) * 10 ^ (0 : Int).toNat = n * 2 ^ 53 := by
    rw [hbits, Nat.shiftLeft_eq, Int.toNat_zero, Nat.pow_zero, Nat.mul_one]
  have hexponent : -(Format.binary64.mantissaBits : Int) + 0 = -53 := by decide
  rw [UnpackedFloat.ofScientific, dif_neg hzero, if_neg hgreat, if_neg hsmall,
    if_pos (Int.le_refl 0), UnpackedFloat.mul, hmantissa, hexponent]
  rfl

/-- The float before it is packed: the quotient and its place, which follow one another in the
    bits. -/
theorem ofScientific_eq_finite (h : 2 ^ 63 ≤ n) (h' : n < 2 ^ 64) :
    ∃ (m e : Nat) (hpos : 0 < m),
      UnpackedFloat.ofScientific Format.binary64 n 0 = .finite .positive m e hpos ∧
        2 ^ 52 ≤ m ∧ m < 2 ^ 53 ∧ e ≤ 12 ∧
        (e + 1074) * 2 ^ 52 + m = 1085 * 2 ^ 52 + quotient n := by
  obtain ⟨hlow, hhigh⟩ := quotient_bounds h h'
  rw [ofScientific_eq_round h, roundWithAccuracy]
  simp only [shiftToTarget_whole h h', roundedMantissa_shiftRight]
  rcases Nat.lt_or_eq_of_le hhigh with hlt | heq
  · have hne : quotient n ≠ 0 := by omega
    simp only [shiftToTarget_rounded hlow hlt, dif_neg hne]
    exact ⟨quotient n, 11, by omega, rfl, hlow, hlt, by omega, by omega⟩
  · simp only [heq, shiftToTarget_carried]
    exact ⟨2 ^ 52, 12, by decide, rfl, by omega, by omega, by omega, by omega⟩

theorem toNat_pack {m e : Nat} (h : 2 ^ 52 ≤ m) (h' : m < 2 ^ 53) (he : e ≤ 12) (hpos : 0 < m) :
    (UnpackedFloat.pack Format.binary64 (.finite .positive m e hpos)).toNat =
      (e + 1074) * 2 ^ 52 + m := by
  have hlog : m.log2 = 52 := (Nat.log2_eq_iff (by omega)).2 (by omega)
  have hbiased : ((e : Int) + Format.binary64.exponentBias +
      Format.binary64.mantissaBitsWithoutImplicit).toNat = e + 1075 := by
    have hbias : Format.binary64.exponentBias = 1023 := by decide
    have hbits : Format.binary64.mantissaBitsWithoutImplicit = 52 := rfl
    rw [hbias, hbits]
    omega
  have hfits : ¬ 2 ^ Format.binary64.exponentBits ≤ e + 1075 + 1 := by
    change ¬ 2 ^ 11 ≤ _
    omega
  have hexponent : (BitVec.ofNat 11 (e + 1075)).toNat = e + 1075 := by
    rw [BitVec.toNat_ofNat]
    omega
  have hmantissa : (BitVec.ofNat 52 m).toNat = m - 2 ^ 52 := by
    rw [BitVec.toNat_ofNat]
    omega
  have hsign : (0#1).toNat = 0 := rfl
  rw [UnpackedFloat.pack]
  simp only [hbiased, if_neg hfits, hlog]
  rw [if_pos (by rfl)]
  change (0#1 ++ BitVec.ofNat 11 (e + 1075) ++ BitVec.ofNat 52 m).toNat = _
  rw [BitVec.toNat_append, ← Nat.shiftLeft_add_eq_or_of_lt (BitVec.isLt _), BitVec.toNat_append,
    ← Nat.shiftLeft_add_eq_or_of_lt (BitVec.isLt _), hsign, hexponent, hmantissa,
    Nat.shiftLeft_eq, Nat.shiftLeft_eq]
  omega

theorem toBits_ofInt (h : 2 ^ 63 ≤ n) (h' : n < 2 ^ 64) :
    (Float.ofInt n).toBits.toNat = 1085 * 2 ^ 52 + quotient n := by
  obtain ⟨m, e, hpos, heq, hlow, hhigh, he, hbits⟩ := ofScientific_eq_finite h h'
  have hslow : ¬ (n < 2 ^ 53 ∧ 0 ≤ 22) := by omega
  have hfloat : Float.ofInt n = Float.ofModel (Float.Model.pack (.finite .positive m e hpos)) := by
    change Float.ofScientific n false 0 = _
    rw [Float.ofScientific, dif_neg hslow, ← heq]
    rfl
  have hpacked (f : UnpackedFloat) : (Float.ofModel (Float.Model.pack f)).toBits.toNat =
      (UnpackedFloat.pack Format.binary64 f).toNat := rfl
  rw [hfloat, ← hbits, hpacked, toNat_pack hlow hhigh he hpos]

end Rounding

/-! ### The nearest float -/

theorem floatValue_of_toBits {x : Float} {k : Nat} (h : 2 ^ 52 ≤ k) (h' : k ≤ 2 ^ 53)
    (hbits : x.toBits.toNat = 1085 * 2 ^ 52 + k) : IsFinite x ∧ floatValue x = 2048 * k := by
  have hmagnitude : magnitude x = 1085 * 2 ^ 52 + k := by
    rw [magnitude, hbits]
    omega
  have hsign : isNegative x = false := by
    rw [isNegative, hbits, decide_eq_false_iff_not]
    omega
  refine ⟨isFinite_of_magnitude (by omega), ?_⟩
  rw [floatValue, hsign, hmagnitude]
  rcases Nat.lt_or_eq_of_le h' with hlt | rfl
  · have hfields : (Binary.ofBits (1085 * 2 ^ 52 + k)).m = k ∧
        (Binary.ofBits (1085 * 2 ^ 52 + k)).q = 11 := by
      rw [Binary.ofBits, if_neg (by omega)]
      simp only
      omega
    rw [hfields.1, hfields.2]
    norm_num
    ring
  · have hfields : Binary.ofBits (1085 * 2 ^ 52 + 2 ^ 53) = ⟨2 ^ 52, 12, true⟩ := by decide
    rw [hfields]
    norm_num

/-- **A whole number that 64 bits hold only without a sign becomes the nearest float.** -/
theorem isNearest_ofInt {n : Int} (h : maxInt < n) (h' : n ≤ Document.maxWhole) :
    IsNearest (Float.ofInt n) n := by
  rw [maxInt] at h
  rw [Document.maxWhole] at h'
  obtain ⟨k, rfl⟩ := Int.eq_ofNat_of_zero_le (by omega : 0 ≤ n)
  have hk : 2 ^ 63 ≤ k := by omega
  have hk' : k < 2 ^ 64 := by omega
  obtain ⟨hlow, hhigh⟩ := quotient_bounds hk hk'
  have hbits := toBits_ofInt hk hk'
  obtain ⟨hfinite, hvalue⟩ := floatValue_of_toBits hlow hhigh hbits
  -- floats below the greatest power of two are farther away than that power is
  have hfar : ∀ y, floatValue y < 2 ^ 63 →
      |floatValue (Float.ofInt k) - k| < |floatValue y - k| := by
    intro y hy
    have hnear := (quotient_nearest k (2 ^ 52)).1
    have hk : (2 ^ 63 : ℚ) ≤ k := by exact_mod_cast hk
    have hnear : |2048 * (quotient k : ℚ) - k| ≤ |2048 * (2 ^ 52 : ℚ) - k| := by
      exact_mod_cast hnear
    rw [hvalue]
    refine hnear.trans_lt ?_
    rw [abs_of_nonpos (by linarith), abs_of_neg (by linarith)]
    linarith
  refine ⟨hfinite, fun y _ => ?_, fun y _ hne heq => ?_⟩
  · rcases floatValue_cases y with ⟨a, ha⟩ | hy
    · rw [hvalue, ha]
      exact_mod_cast (quotient_nearest k a).1
    · exact (hfar y hy).le
  · rcases floatValue_cases y with ⟨a, ha⟩ | hy
    · rw [hvalue, ha] at hne heq
      have hother : a ≠ quotient k := by
        rintro rfl
        exact hne (by push_cast; rfl)
      have heven := (quotient_nearest k a).2 hother (by exact_mod_cast heq)
      rw [hbits]
      omega
    · exact absurd heq (hfar y hy).ne'

end LayeredConfig.Number
