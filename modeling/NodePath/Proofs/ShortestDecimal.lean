import NodePath.Number.Shortest
import NodePath.Proofs.Rounding

/-!
# The shortest decimal reads back

The decimal that is chosen for a finite number lies in the interval that the number owns, so it is
rounded to that number again. There always is such a decimal: the finest grid that is searched is
finer than half the smallest distance of two patterns.
-/

namespace NodePath.Number

open Binary64

section Pattern

variable {x : Binary64}

theorem magnitude_eq (h : x.bits.toNat < infinityBits) : x.magnitude = x.bits.toNat :=
  Nat.mod_eq_of_lt (Nat.lt_trans h (by decide))

theorem isScaled (hpos : 0 < x.magnitude) : IsScaled x.significand x.exponent := by
  have hmod := Nat.mod_lt x.magnitude (by decide : 0 < leadingDigit)
  have hdiv := Nat.div_add_mod x.magnitude leadingDigit
  unfold Binary64.significand Binary64.exponent
  generalize x.magnitude / leadingDigit = b at *
  generalize x.magnitude % leadingDigit = m at *
  unfold leadingDigit at *
  split
  · next hz =>
    subst hz
    exact ⟨le_refl _, hpos, by omega, .inl rfl⟩
  · exact ⟨by omega, by omega, by omega, .inr (by omega)⟩

theorem pattern_eq (x : Binary64) :
    (x.exponent + 1074).toNat * leadingDigit + x.significand = x.magnitude := by
  have hdiv := Nat.div_add_mod x.magnitude leadingDigit
  unfold Binary64.significand Binary64.exponent
  generalize x.magnitude / leadingDigit = b at *
  generalize x.magnitude % leadingDigit = m at *
  unfold leadingDigit at *
  split
  · simp
  · have : ((b : Int) - 1075 + 1074).toNat = b - 1 := by omega
    rw [this]
    omega

end Pattern

/-- Multiples of powers of ten and quarters of powers of two, compared on one scale. -/
theorem gridScale_spec (k q : Int) :
    0 < (gridScale k q).1 ∧ 0 < (gridScale k q).2 ∧
      ((gridScale k q).1 : ℚ) * 2 ^ (q - 2) = (gridScale k q).2 * 10 ^ k := by
  have h10 : (10 : ℚ) ^ k.toNat = 10 ^ (-k).toNat * 10 ^ k := by
    rw [← zpow_natCast, ← zpow_natCast, ← zpow_add₀ (by norm_num)]
    congr 1
    omega
  have h2 : (2 : ℚ) ^ (2 - q).toNat * 2 ^ (q - 2) = 2 ^ (q - 2).toNat := by
    rw [← zpow_natCast, ← zpow_natCast, ← zpow_add₀ (by norm_num)]
    congr 1
    omega
  simp only [gridScale, Nat.pow_eq]
  refine ⟨by positivity, by positivity, ?_⟩
  push_cast
  rw [h10, mul_assoc, h2]
  ring

theorem grid_le_iff (k q : Int) (y d : Nat) :
    (y * (gridScale k q).2 ≤ d * (gridScale k q).1 ↔ (y : ℚ) * 2 ^ (q - 2) ≤ d * 10 ^ k) ∧
      (d * (gridScale k q).1 ≤ y * (gridScale k q).2 ↔ (d : ℚ) * 10 ^ k ≤ y * 2 ^ (q - 2)) := by
  obtain ⟨-, htwo, hscale⟩ := gridScale_spec k q
  generalize (gridScale k q).1 = ten at *
  generalize (gridScale k q).2 = two at *
  have htwo' : (0 : ℚ) < two := by exact_mod_cast htwo
  have hpow : (0 : ℚ) < 2 ^ (q - 2) := zpow_pos (by norm_num) _
  have hd : (d : ℚ) * 10 ^ k * two = ((d * ten : Nat) : ℚ) * 2 ^ (q - 2) := by
    push_cast
    rw [mul_assoc, mul_assoc, hscale, mul_comm ((10 : ℚ) ^ k)]
  have hy : (y : ℚ) * 2 ^ (q - 2) * two = ((y * two : Nat) : ℚ) * 2 ^ (q - 2) := by
    push_cast
    ring
  constructor
  · rw [← mul_le_mul_iff_left₀ htwo', hd, hy, mul_le_mul_iff_left₀ hpow, Nat.cast_le]
  · rw [← mul_le_mul_iff_left₀ htwo', hd, hy, mul_le_mul_iff_left₀ hpow, Nat.cast_le]

theorem holds_iff {i : Interval} {k q : Int} {d : Nat} :
    i.holds (gridScale k q).1 (gridScale k q).2 d = true ↔
      ((i.low : ℚ) * 2 ^ (q - 2) ≤ d * 10 ^ k ∧ (d : ℚ) * 10 ^ k ≤ i.high * 2 ^ (q - 2)) ∧
      (i.closed = false →
        (i.low : ℚ) * 2 ^ (q - 2) < d * 10 ^ k ∧ (d : ℚ) * 10 ^ k < i.high * 2 ^ (q - 2)) := by
  have hlow := grid_le_iff k q i.low d
  have hhigh := grid_le_iff k q i.high d
  unfold Interval.holds
  cases i.closed with
  | true => simp [hlow.1, hhigh.2]
  | false =>
    simp only [Bool.false_eq_true, if_false, Bool.and_eq_true, decide_eq_true_eq, true_implies,
      ← not_le, hlow.2, hhigh.1]
    simp only [not_le]
    constructor
    · rintro ⟨hl, hh⟩
      exact ⟨⟨hl.le, hh.le⟩, hl, hh⟩
    · exact And.right

theorem interval_high (x : Binary64) : (x.interval.high : ℚ) = 4 * x.significand + 2 := by
  simp only [Binary64.interval]
  push_cast
  rfl

theorem interval_low (x : Binary64) : 4 * (x.significand : ℚ) - 2 ≤ x.interval.low := by
  have hlow : 4 * x.significand ≤ x.interval.low + 2 := by
    unfold Binary64.interval
    dsimp only
    split <;> omega
  have hlow' : 4 * (x.significand : ℚ) ≤ x.interval.low + 2 := by exact_mod_cast hlow
  linarith

/-- Below a power of two the interval is half as wide, unless the number has the least exponent. -/
theorem interval_dense {x : Binary64} (hm : x.significand = leadingDigit)
    (hq : -1074 < x.exponent) : (x.interval.low : ℚ) = 4 * x.significand - 1 := by
  have hlow : x.interval.low + 1 = 4 * x.significand := by
    unfold Binary64.interval
    dsimp only
    rw [if_pos ⟨hm, hq⟩, hm]
    decide
  have hlow' : (x.interval.low : ℚ) + 1 = 4 * x.significand := by exact_mod_cast hlow
  linarith

/-- The points of the interval of a number are the rationals that the number owns. -/
theorem owns_of_holds {x : Binary64} {k : Int} {d : Nat}
    (h : x.interval.holds (gridScale k x.exponent).1 (gridScale k x.exponent).2 d = true) :
    Owns x.significand x.exponent (d * 10 ^ k) := by
  obtain ⟨⟨hlo, hhi⟩, hopen⟩ := holds_iff.mp h
  have hunit : (2 : ℚ) ^ x.exponent = 4 * 2 ^ (x.exponent - 2) := by
    rw [zpow_sub₀ (by norm_num)]
    norm_num
    ring
  have hpow : (0 : ℚ) < 2 ^ (x.exponent - 2) := zpow_pos (by norm_num) _
  have hlow := interval_low x
  rw [interval_high] at hhi hopen
  refine ⟨?_, ?_, ?_, ?_⟩
  all_goals rw [hunit]
  · nlinarith
  · linarith
  · intro hm hq
    rw [interval_dense hm hq] at hlo
    linarith
  · intro hodd
    have hclosed : x.interval.closed = false := by simp [Binary64.interval, hodd]
    obtain ⟨hl, hh⟩ := hopen hclosed
    constructor
    · nlinarith
    · linarith

theorem holds_of_onGrid {x : Binary64} {k : Int} {d : Nat} (h : onGrid x k = some d) :
    x.interval.holds (gridScale k x.exponent).1 (gridScale k x.exponent).2 d = true := by
  unfold onGrid at h
  dsimp only at h
  split at h
  · next hb ha =>
    split at h
    · cases h
      exact hb
    · split at h
      · cases h
        exact ha
      · split at h
        · cases h
          exact hb
        · cases h
          exact ha
  · next hb _ =>
    cases h
    exact hb
  · next _ ha =>
    cases h
    exact ha
  · cases h

theorem coarsestFrom_holds {x : Binary64} {steps : Nat} {k k' : Int} {d : Nat}
    (h : coarsestFrom x steps k = some (d, k')) :
    x.interval.holds (gridScale k' x.exponent).1 (gridScale k' x.exponent).2 d = true := by
  induction steps generalizing k with
  | zero => cases h
  | succ steps ih =>
    unfold coarsestFrom at h
    split at h
    · next d hd =>
      cases h
      exact holds_of_onGrid hd
    · exact ih h

theorem coarsestFrom_isSome {x : Binary64} {steps : Nat} {k : Int}
    (h : (onGrid x (k - steps)).isSome = true) : (coarsestFrom x (steps + 1) k).isSome = true := by
  induction steps generalizing k with
  | zero =>
    unfold coarsestFrom
    simp only [Nat.cast_zero, sub_zero] at h
    obtain ⟨d, hd⟩ := Option.isSome_iff_exists.mp h
    rw [hd]
    rfl
  | succ steps ih =>
    unfold coarsestFrom
    split
    · rfl
    · refine ih ?_
      convert h using 3
      push_cast
      ring

theorem holds_of_strict {i : Interval} {ten two d : Nat} (hlow : i.low * two < d * ten)
    (hhigh : d * ten < i.high * two) : i.holds ten two d = true := by
  unfold Interval.holds
  split
  · simp [hlow.le, hhigh.le]
  · simp [hlow, hhigh]

/-- The multiple just above a number lies in its interval as soon as the grid is fine enough. -/
theorem onGrid_isSome {x : Binary64} {k : Int}
    (h : (gridScale k x.exponent).1 < 2 * (gridScale k x.exponent).2) :
    (onGrid x k).isSome = true := by
  have hten := (gridScale_spec k x.exponent).1
  have hhigh : x.interval.high = 4 * x.significand + 2 := rfl
  have hlow : x.interval.low ≤ 4 * x.significand := by
    unfold Binary64.interval
    dsimp only
    split <;> omega
  unfold onGrid
  dsimp only
  generalize (gridScale k x.exponent).1 = ten at *
  generalize (gridScale k x.exponent).2 = two at *
  have hlow' : x.interval.low * two ≤ 4 * x.significand * two := Nat.mul_le_mul_right two hlow
  have hhigh' : x.interval.high * two = 4 * x.significand * two + 2 * two := by
    rw [hhigh, Nat.add_mul]
  generalize 4 * x.significand * two = value at *
  have habove : value < (value / ten + 1) * ten ∧ (value / ten + 1) * ten ≤ value + ten := by
    have hdiv := Nat.div_add_mod value ten
    have hmod := Nat.mod_lt value hten
    rw [Nat.add_mul, Nat.mul_comm]
    omega
  rw [holds_of_strict (d := value / ten + 1) (by omega) (by omega)]
  split
  · split
    · rfl
    · split
      · rfl
      · split <;> rfl
  · rfl
  · rfl
  · next h => cases h

theorem finest_grid {q : Int} (hq : -1074 ≤ q) :
    (gridScale (309 - 659) q).1 < 2 * (gridScale (309 - 659) q).2 := by
  have hexp : (2 - q).toNat ≤ 33 * 35 := by omega
  have hpos : 0 < 2 ^ (q - 2).toNat := Nat.pow_pos (by decide)
  obtain ⟨places, hplaces⟩ : ∃ n : Nat, n = 10 * 35 := ⟨_, rfl⟩
  have htwo : (gridScale (309 - 659) q).2 = 2 ^ (q - 2).toNat * 10 ^ places := by
    have : (-(309 - 659) : Int).toNat = places := by omega
    simp only [gridScale, this, Nat.pow_eq]
  calc (gridScale (309 - 659) q).1 = 2 ^ (2 - q).toNat := Nat.one_mul _
    _ ≤ 2 ^ (33 * 35) := Nat.pow_le_pow_right (by decide) hexp
    _ = (2 ^ 33) ^ 35 := Nat.pow_mul 2 33 35
    _ < (10 ^ 10) ^ 35 := Nat.pow_lt_pow_left (by norm_num) (by decide)
    _ = 10 ^ places := by rw [hplaces, Nat.pow_mul]
    _ ≤ (gridScale (309 - 659) q).2 := htwo ▸ Nat.le_mul_of_pos_left _ hpos
    _ ≤ 2 * (gridScale (309 - 659) q).2 := Nat.le_mul_of_pos_left _ (by decide)

theorem shortest_owned {x : Binary64} (hpos : 0 < x.magnitude) :
    Owns x.significand x.exponent ((shortest x).1 * 10 ^ (shortest x).2) := by
  have hscaled := isScaled hpos
  have hhit : (coarsestFrom x (659 + 1) 309).isSome = true :=
    coarsestFrom_isSome (onGrid_isSome (finest_grid hscaled.least))
  obtain ⟨⟨d, k⟩, hdk⟩ := Option.isSome_iff_exists.mp hhit
  rw [shortest, if_neg hpos.ne', hdk]
  exact owns_of_holds (coarsestFrom_holds hdk)

/-- Every quotient with the value of the shortest decimal of a finite number is rounded to it. -/
theorem nearestBits_shortest {x : Binary64} (hfin : x.magnitude < infinityBits) {num den : Nat}
    (hden : 0 < den) (hvalue : (num : ℚ) / den = (shortest x).1 * 10 ^ (shortest x).2) :
    nearestBits num den = some x.magnitude := by
  rcases Nat.eq_zero_or_pos x.magnitude with hzero | hpos
  · rw [shortest, if_pos hzero] at hvalue
    have hnum : num = 0 := by
      have : (den : ℚ) ≠ 0 := by positivity
      simpa [this] using hvalue
    rw [nearestBits, if_pos hnum, hzero]
  · have hpattern := pattern_eq x
    have hown := shortest_owned hpos
    rw [← hvalue] at hown
    rw [← hpattern] at hfin ⊢
    exact nearestBits_of_owns hden (isScaled hpos) hown hfin

end NodePath.Number
