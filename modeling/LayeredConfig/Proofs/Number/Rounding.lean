/-
  LayeredConfig/Proofs/Number/Rounding.lean
  =========================================
  **The decimal of a float stands for no other one.**

  The search for the shortest decimal comes to an end, and the decimal that it
  finds rounds to the float (`rounds_shortest`): seventeen digits are enough,
  since the last grid is finer than the interval.  What rounds to one float rounds
  to no other (`eq_of_rounds`), since the intervals of neighbours touch in one
  point, and of two neighbours just one has an even last bit and takes it.
-/
import LayeredConfig.Number.Shortest
import Mathlib

namespace LayeredConfig.Number

def Decimal.value (d : Decimal) : ℚ := d.mantissa * 10 ^ d.exponent

namespace Binary

/-! ### Intervals -/

/-- How far the interval reaches down, in quarters of the last place. -/
def reach (b : Binary) : Nat := if b.wide then 1 else 2

/-- The ends of the interval of a float. -/
def low (b : Binary) : ℚ := (4 * b.m - b.reach : Nat) * 2 ^ (b.q - 2)

def high (b : Binary) : ℚ := (4 * b.m + 2 : Nat) * 2 ^ (b.q - 2)

/-- The number rounds to the float: it lies in the interval, which has its ends if `m` is even. -/
def Rounds (b : Binary) (x : ℚ) : Prop :=
  if b.m % 2 = 0 then b.low ≤ x ∧ x ≤ b.high else b.low < x ∧ x < b.high

/-! ### One grid -/

section Grid

variable (b : Binary) (j : Int)

/-- Quarters of the last place, and the step of the grid, in units in which both are whole. -/
def scaled (x : Nat) : Nat := x * Nat.pow 2 (b.q - 2).toNat * Nat.pow 10 (-j).toNat

def step : Nat := Nat.pow 10 j.toNat * Nat.pow 2 (2 - b.q).toNat

def isInside (x : Nat) : Bool :=
  if b.m % 2 = 0 then b.scaled j (4 * b.m - b.reach) ≤ x && x ≤ b.scaled j (4 * b.m + 2)
  else b.scaled j (4 * b.m - b.reach) < x && x < b.scaled j (4 * b.m + 2)

variable {b j} {tie : Tie} {n : Nat}

theorem isInside_of_onGrid? (h : b.onGrid? tie j = some n) :
    b.isInside j (n * b.step j) = true := by
  simp only [onGrid?] at h
  split at h
  next hdown hup =>
    obtain rfl := Option.some.inj h
    split
    · exact hdown
    · rw [Nat.add_mul, Nat.one_mul]
      exact hup
  next hdown _ =>
    obtain rfl := Option.some.inj h
    exact hdown
  next _ hup =>
    obtain rfl := Option.some.inj h
    rw [Nat.add_mul, Nat.one_mul]
    exact hup
  next => cases h

theorem strictMono_scaled (b : Binary) (j : Int) : StrictMono (b.scaled j) := by
  intro x y h
  have htwo : 0 < Nat.pow 2 (b.q - 2).toNat := Nat.pow_pos (by decide)
  have hten : 0 < Nat.pow 10 (-j).toNat := Nat.pow_pos (by decide)
  exact Nat.mul_lt_mul_of_pos_right (Nat.mul_lt_mul_of_pos_right h htwo) hten

theorem scaled_add (x y : Nat) : b.scaled j (x + y) = b.scaled j x + b.scaled j y := by
  rw [scaled, scaled, scaled, ← Nat.add_mul, ← Nat.add_mul]

theorem step_pos (b : Binary) (j : Int) : 0 < b.step j :=
  Nat.mul_pos (Nat.pow_pos (by decide)) (Nat.pow_pos (by decide))

/-- The interval reaches down by one quarter at least. -/
theorem scaled_low_le (hm : 0 < b.m) :
    b.scaled j (4 * b.m - b.reach) + b.scaled j 1 ≤ b.scaled j (4 * b.m) := by
  rw [← scaled_add]
  apply (strictMono_scaled b j).monotone
  rw [reach]
  split <;> omega

/-- A grid that is fine enough has a point in the interval. -/
theorem onGrid?_isSome (hm : 0 < b.m) (hfine : b.step j ≤ b.scaled j 1) (tie : Tie) :
    (b.onGrid? tie j).isSome = true := by
  -- the lower of the two points lies less than a step below the float
  have hdown : b.isInside j (b.scaled j (4 * b.m) / b.step j * b.step j) = true := by
    have hlow : b.scaled j (4 * b.m - b.reach) <
        b.scaled j (4 * b.m) / b.step j * b.step j := by
      have hreach := scaled_low_le (j := j) hm
      have hstep : _ < b.scaled j (4 * b.m) / b.step j * b.step j + b.step j :=
        Nat.lt_div_mul_add (b.step_pos j)
      omega
    have hhigh : b.scaled j (4 * b.m) / b.step j * b.step j < b.scaled j (4 * b.m + 2) :=
      (Nat.div_mul_le_self _ _).trans_lt
        (strictMono_scaled b j (Nat.lt_add_of_pos_right Nat.two_pos))
    rw [isInside]
    split
    · simp [hlow.le, hhigh.le]
    · simp [hlow, hhigh]
  simp only [onGrid?]
  split
  next => rfl
  next => rfl
  next => rfl
  next hnone _ => exact absurd (hdown.symm.trans hnone) nofun

/-! ### The grid and the interval as numbers -/

theorem pow_toNat {a : ℚ} (ha : a ≠ 0) (k : Int) : a ^ k.toNat = a ^ k * a ^ (-k).toNat := by
  rw [← zpow_natCast, ← zpow_natCast, ← zpow_add₀ ha]
  congr 1
  omega

variable (b j) in
/-- What makes the units whole. -/
def common : ℚ := 2 ^ (2 - b.q).toNat * 10 ^ (-j).toNat

theorem common_pos : 0 < b.common j := by
  unfold common
  positivity

theorem scaled_cast (x : Nat) : (b.scaled j x : ℚ) = x * 2 ^ (b.q - 2) * b.common j := by
  have hpow := pow_toNat (two_ne_zero (α := ℚ)) (b.q - 2)
  rw [neg_sub] at hpow
  simp only [scaled, Nat.pow_eq, Nat.cast_mul, Nat.cast_pow, Nat.cast_ofNat, common, hpow]
  ring

theorem step_cast : (b.step j : ℚ) = 10 ^ j * b.common j := by
  have hpow := pow_toNat (by norm_num : (10 : ℚ) ≠ 0) j
  simp only [step, Nat.pow_eq, Nat.cast_mul, Nat.cast_pow, Nat.cast_ofNat, common, hpow]
  ring

/-- The point that is found on a grid rounds to the float. -/
theorem rounds_of_onGrid? (h : b.onGrid? tie j = some n) : b.Rounds (n * 10 ^ j) := by
  have hinside := isInside_of_onGrid? h
  have hpoint : ((n * b.step j : Nat) : ℚ) = n * 10 ^ j * b.common j := by
    rw [Nat.cast_mul, step_cast, mul_assoc]
  have hpos := common_pos (b := b) (j := j)
  rw [isInside] at hinside
  rw [Rounds]
  split at hinside
  next heven =>
    obtain ⟨hlow, hhigh⟩ := Bool.and_eq_true_iff.1 hinside
    have hlow := Nat.cast_le (α := ℚ).2 (of_decide_eq_true hlow)
    have hhigh := Nat.cast_le (α := ℚ).2 (of_decide_eq_true hhigh)
    rw [hpoint, scaled_cast] at hlow hhigh
    rw [if_pos heven]
    exact ⟨le_of_mul_le_mul_right hlow hpos, le_of_mul_le_mul_right hhigh hpos⟩
  next hodd =>
    obtain ⟨hlow, hhigh⟩ := Bool.and_eq_true_iff.1 hinside
    have hlow := Nat.cast_lt (α := ℚ).2 (of_decide_eq_true hlow)
    have hhigh := Nat.cast_lt (α := ℚ).2 (of_decide_eq_true hhigh)
    rw [hpoint, scaled_cast] at hlow hhigh
    rw [if_neg hodd]
    exact ⟨lt_of_mul_lt_mul_right hlow hpos.le, lt_of_mul_lt_mul_right hhigh hpos.le⟩

theorem step_le_scaled (h : (10 : ℚ) ^ j ≤ 2 ^ (b.q - 2)) : b.step j ≤ b.scaled j 1 := by
  apply Nat.cast_le (α := ℚ).1
  rw [step_cast, scaled_cast, Nat.cast_one, one_mul]
  exact mul_le_mul_of_nonneg_right h common_pos.le

end Grid

/-! ### The search -/

/-- The search finds a point if one of its grids has one. -/
theorem rounds_search {b : Binary} {tie : Tie} {steps : Nat} {j : Int} {k : Nat} (hk : k < steps)
    (hpoint : (b.onGrid? tie (j - k)).isSome = true) : b.Rounds (b.search tie steps j).value := by
  induction steps generalizing j k with
  | zero => cases hk
  | succ steps ih =>
    rw [search]
    split
    next n hn => exact rounds_of_onGrid? hn
    next hnone =>
      cases k with
      | zero =>
        rw [Nat.cast_zero, Int.sub_zero, hnone] at hpoint
        cases hpoint
      | succ k =>
        have hplace : j - ((k + 1 : Nat) : Int) = j - 1 - k := by omega
        exact ih (Nat.lt_of_succ_lt_succ hk) (hplace ▸ hpoint)

/-- Powers of ten against powers of two: `10 ^ 3` is below `2 ^ 10`, and `10 ^ 10` above
    `2 ^ 33`. -/
theorem ten_zpow_le_two_zpow {j k : Int} (h : 0 ≤ j ∧ 10 * j ≤ 3 * k ∨ j ≤ 0 ∧ 33 * j ≤ 10 * k) :
    (10 : ℚ) ^ j ≤ 2 ^ k := by
  rcases h with ⟨hj, hle⟩ | ⟨hj, hle⟩
  · apply (zpow_le_zpow_iff_left₀ (by positivity) (by positivity) (by decide : (0 : Int) < 3)).1
    calc ((10 : ℚ) ^ j) ^ (3 : Int) = (10 ^ (3 : Int)) ^ j := by rw [← zpow_mul, zpow_mul']
      _ ≤ (2 ^ (10 : Int)) ^ j := zpow_le_zpow_left₀ hj (by positivity) (by norm_num)
      _ = 2 ^ (10 * j) := by rw [← zpow_mul]
      _ ≤ 2 ^ (3 * k) := zpow_le_zpow_right₀ one_le_two hle
      _ = (2 ^ k) ^ (3 : Int) := by rw [zpow_mul']
  · have hneg : ((2 : ℚ) ^ (33 : Int)) ^ (-j) ≤ (10 ^ (10 : Int)) ^ (-j) :=
      zpow_le_zpow_left₀ (Int.neg_nonneg_of_nonpos hj) (by positivity) (by norm_num)
    apply (zpow_le_zpow_iff_left₀ (by positivity) (by positivity) (by decide : (0 : Int) < 10)).1
    calc ((10 : ℚ) ^ j) ^ (10 : Int) = ((10 ^ (10 : Int)) ^ (-j))⁻¹ := by
          rw [← zpow_neg, neg_neg, ← zpow_mul, zpow_mul']
      _ ≤ ((2 ^ (33 : Int)) ^ (-j))⁻¹ := inv_anti₀ (by positivity) hneg
      _ = 2 ^ (33 * j) := by rw [← zpow_neg, neg_neg, ← zpow_mul]
      _ ≤ 2 ^ (10 * k) := zpow_le_zpow_right₀ one_le_two hle
      _ = (2 ^ k) ^ (10 : Int) := by rw [zpow_mul']

/-- **The shortest decimal rounds to the float.**  The last of the 24 grids is fine enough for every
    float. -/
theorem rounds_shortest {b : Binary} (hm : 0 < b.m) (hbits : b.m < 2 ^ 53) (hleast : -1074 ≤ b.q)
    (hgreatest : b.q ≤ 972) (tie : Tie) : b.Rounds (b.shortest tie).value := by
  have hlog : b.m.log2 < 53 := (Nat.log2_lt (Nat.ne_of_gt hm)).2 hbits
  have hfine : ∀ j : Int, j = (b.q + (b.m.log2 + 1 : Nat)) * 30103 / 100000 + 2 - (23 : Nat) →
      (10 : ℚ) ^ j ≤ 2 ^ (b.q - 2) := by
    intro j hj
    apply ten_zpow_le_two_zpow
    omega
  exact rounds_search (by decide : 23 < 24)
    (onGrid?_isSome hm (step_le_scaled (hfine _ rfl)) tie)

/-! ### Neighbours -/

theorem Rounds.low_le {b : Binary} {x : ℚ} (h : b.Rounds x) : b.low ≤ x := by
  rw [Rounds] at h
  split at h
  · exact h.1
  · exact h.1.le

theorem Rounds.le_high {b : Binary} {x : ℚ} (h : b.Rounds x) : x ≤ b.high := by
  rw [Rounds] at h
  split at h
  · exact h.2
  · exact h.2.le

theorem low_lt_high (b : Binary) : b.low < b.high := by
  have hpow : (0 : ℚ) < 2 ^ (b.q - 2) := by positivity
  have hends : 4 * b.m - b.reach < 4 * b.m + 2 := by omega
  exact mul_lt_mul_of_pos_right (Nat.cast_lt.2 hends) hpow

theorem high_eq_low {b c : Binary}
    (h : c.q = b.q ∧ 4 * c.m - c.reach = 4 * b.m + 2 ∨
      c.q = b.q + 1 ∧ 2 * (4 * c.m - c.reach) = 4 * b.m + 2) : b.high = c.low := by
  rw [high, low]
  rcases h with ⟨hq, hm⟩ | ⟨hq, hm⟩
  · rw [hq, hm]
  · have hplace : b.q + 1 - 2 = b.q - 2 + 1 := by omega
    rw [hq, ← hm, hplace, zpow_add_one₀ two_ne_zero]
    push_cast
    ring

/-- The intervals of neighbours touch, also where the last place changes. -/
theorem high_ofBits {bits : Nat} (h : bits + 1 < 2 ^ 63) :
    (ofBits bits).high = (ofBits (bits + 1)).low := by
  have hplace : bits / 0x10000000000000 % 0x800 = bits / 0x10000000000000 :=
    Nat.mod_eq_of_lt (by omega)
  have hplace' : (bits + 1) / 0x10000000000000 % 0x800 = (bits + 1) / 0x10000000000000 :=
    Nat.mod_eq_of_lt (by omega)
  apply high_eq_low
  simp only [ofBits, reach, hplace, hplace']
  split <;> split <;>
    simp only [Bool.and_eq_true, decide_eq_true_eq, Bool.false_eq_true, if_false, true_and]
  · omega
  · omega
  · split <;> omega
  · split <;> omega

theorem m_ofBits_mod_two (bits : Nat) : (ofBits bits).m % 2 = bits % 2 := by
  rw [ofBits]
  split <;> simp only <;> omega

theorem low_ofBits_le {x y : Nat} (hle : x ≤ y) (hy : y < 2 ^ 63) :
    (ofBits x).low ≤ (ofBits y).low := by
  induction y, hle using Nat.le_induction with
  | base => exact le_refl _
  | succ y _ ih =>
    rw [← high_ofBits hy]
    exact (ih (Nat.lt_of_succ_lt hy)).trans (low_lt_high _).le

/-- **What rounds to a float rounds to no other one.** -/
theorem eq_of_rounds {x y : Nat} (hx : x < 2 ^ 63) (hy : y < 2 ^ 63) {r : ℚ}
    (hrx : (ofBits x).Rounds r) (hry : (ofBits y).Rounds r) : x = y := by
  wlog hlt : x < y generalizing x y with hwlog
  · rcases Nat.eq_or_lt_of_le (Nat.le_of_not_lt hlt) with heq | hgt
    · exact heq.symm
    · exact (hwlog hy hx hry hrx hgt).symm
  have htouch := high_ofBits (Nat.lt_of_le_of_lt hlt hy)
  have hnext : x + 1 ≤ y := hlt
  rcases Nat.eq_or_lt_of_le hnext with rfl | hfar
  · -- just one of the neighbours has the point between them
    have hr : r = (ofBits x).high := le_antisymm hrx.le_high (htouch ▸ hry.low_le)
    have hmx := m_ofBits_mod_two x
    have hmy := m_ofBits_mod_two (x + 1)
    rw [Rounds] at hrx hry
    split at hrx
    · split at hry
      · omega
      · exact absurd hry.1 (not_lt.2 (hr.trans htouch).le)
    · exact absurd hrx.2 (not_lt.2 hr.ge)
  · have hgap : (ofBits (x + 1)).low < (ofBits (x + 1 + 1)).low := by
      rw [← high_ofBits (Nat.lt_of_le_of_lt hfar hy)]
      exact low_lt_high _
    have hbetween : (ofBits (x + 1 + 1)).low ≤ r := (low_ofBits_le hfar hy).trans hry.low_le
    exact absurd hrx.le_high (not_le.2 (htouch ▸ hgap.trans_le hbetween))

end Binary

end LayeredConfig.Number
