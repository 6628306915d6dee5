import Mathlib.Algebra.Order.Field.Power
import Mathlib.Data.Rat.Cast.Order
import Mathlib.Tactic.FieldSimp
import Mathlib.Tactic.Linarith
import Mathlib.Tactic.NormNum
import Mathlib.Tactic.Positivity
import Mathlib.Tactic.Ring
import NodePath.Number.Binary64

/-!
# Rounding to the nearest pattern

A positive rational belongs to one binade, and in that binade it is rounded to the nearest multiple
of the binade's unit. Every rational in the interval that a finite pattern owns is therefore rounded
to that pattern.
-/

namespace NodePath.Number

open Binary64

theorem scaleDown_den_pos {num den : Nat} (hden : 0 < den) (e : Int) :
    0 < (scaleDown num den e).2 := by
  unfold scaleDown
  split
  · exact Nat.mul_pos hden (Nat.pow_pos (by decide))
  · exact hden

theorem scaleDown_value {num den : Nat} (hden : 0 < den) (e : Int) :
    ((scaleDown num den e).1 : ℚ) / (scaleDown num den e).2 = num / den / 2 ^ e := by
  have hden' : (den : ℚ) ≠ 0 := by positivity
  unfold scaleDown
  split
  · next he =>
    have hpow : (2 : ℚ) ^ e = 2 ^ e.toNat := by
      rw [← zpow_natCast, Int.toNat_of_nonneg he]
    simp only [Nat.pow_eq, Nat.cast_mul, Nat.cast_pow, Nat.cast_ofNat]
    rw [hpow, div_div]
  · next he =>
    have hpow : (2 : ℚ) ^ e = (2 ^ (-e).toNat)⁻¹ := by
      rw [← zpow_natCast, ← zpow_neg, Int.toNat_of_nonneg (by omega), neg_neg]
    simp only [Nat.pow_eq, Nat.cast_mul, Nat.cast_pow, Nat.cast_ofNat]
    rw [hpow]
    field_simp

/-- Rounding gives the natural number within one half, the even one at a tie. -/
theorem roundQuotient_of_near {num den r : Nat} (hlo : 2 * r * den ≤ 2 * num + den)
    (hhi : 2 * num ≤ 2 * r * den + den)
    (htie : 2 * r * den = 2 * num + den ∨ 2 * num = 2 * r * den + den → r % 2 = 0)
    (hden : 0 < den) : roundQuotient num den = r := by
  have hsplit := Nat.div_add_mod num den
  have hmod := Nat.mod_lt num hden
  unfold roundQuotient
  dsimp only
  generalize num / den = q at *
  generalize num % den = s at *
  subst hsplit
  have hr : r ≤ q + 1 := by
    by_contra hlt
    have : (q + 2) * den ≤ r * den := Nat.mul_le_mul_right den (by omega)
    nlinarith
  have hq : q ≤ r := by
    by_contra hlt
    have : (r + 1) * den ≤ q * den := Nat.mul_le_mul_right den (by omega)
    nlinarith
  obtain rfl | rfl : r = q ∨ r = q + 1 := by omega
  · have hs : 2 * s ≤ den := by nlinarith
    have heven : 2 * s = den → r % 2 = 0 := fun h => htie (.inr (by nlinarith))
    split
    · rfl
    · rw [if_neg (by omega), if_pos (heven (by omega))]
  · have hs : den ≤ 2 * s := by nlinarith
    have heven : den = 2 * s → (q + 1) % 2 = 0 := fun h => htie (.inl (by nlinarith))
    rw [if_neg (by omega)]
    split
    · rfl
    · have := heven (by omega)
      rw [if_neg (by omega)]

/-- The same for the quotient itself. -/
theorem roundQuotient_eq {num den r : Nat} (hden : 0 < den) (hlo : (r : ℚ) - 1 / 2 ≤ num / den)
    (hhi : (num : ℚ) / den ≤ r + 1 / 2)
    (htie : (num : ℚ) / den = r - 1 / 2 ∨ (num : ℚ) / den = r + 1 / 2 → r % 2 = 0) :
    roundQuotient num den = r := by
  have hpos : (0 : ℚ) < den := by exact_mod_cast hden
  rw [le_div_iff₀ hpos] at hlo
  rw [div_le_iff₀ hpos] at hhi
  rw [div_eq_iff hpos.ne', div_eq_iff hpos.ne'] at htie
  have hlo' : 2 * (r : ℚ) * den ≤ 2 * num + den := by linarith
  have hhi' : 2 * (num : ℚ) ≤ 2 * r * den + den := by linarith
  refine roundQuotient_of_near (by exact_mod_cast hlo') (by exact_mod_cast hhi') ?_ hden
  rintro (h | h)
  · have : 2 * (r : ℚ) * den = 2 * num + den := by exact_mod_cast h
    exact htie (.inl (by linarith))
  · have : 2 * (num : ℚ) = 2 * r * den + den := by exact_mod_cast h
    exact htie (.inr (by linarith))

/-- A quotient is rounded below an even number exactly when it lies more than one half below it. -/
theorem roundQuotient_lt_even {num den m : Nat} (hden : 0 < den) (hm : m % 2 = 0) :
    roundQuotient num den < m ↔ (num : ℚ) / den < m - 1 / 2 := by
  have hpos : (0 : ℚ) < den := by exact_mod_cast hden
  have hcast : (num : ℚ) / den < m - 1 / 2 ↔ 2 * num + den < 2 * m * den := by
    rw [div_lt_iff₀ hpos, ← Nat.cast_lt (α := ℚ)]
    push_cast
    constructor <;> intro h <;> linarith
  have hsplit := Nat.div_add_mod num den
  have hmod := Nat.mod_lt num hden
  rw [hcast]
  unfold roundQuotient
  dsimp only
  generalize num / den = q at *
  generalize num % den = s at *
  subst hsplit
  rcases Nat.lt_trichotomy (q + 1) m with hlt | rfl | hgt
  · have hbelow : (q + 2) * den ≤ m * den := Nat.mul_le_mul_right den hlt
    refine iff_of_true ?_ (by nlinarith)
    split_ifs <;> omega
  · rw [show 2 * (q + 1) * den = 2 * (den * q) + 2 * den by ring]
    split_ifs <;> omega
  · have habove : m * den ≤ q * den := Nat.mul_le_mul_right den (by omega)
    refine iff_of_false ?_ (by nlinarith)
    split_ifs <;> omega

/-- The binade of a positive number: the exponent `e` with 53 binary digits before the point, or the
least exponent for the numbers below. -/
structure InBinade (v : ℚ) (e : Int) : Prop where
  least : -1074 ≤ e
  below : v < 2 ^ 53 * 2 ^ e
  above : e = -1074 ∨ 2 ^ 52 * 2 ^ e ≤ v

theorem two_zpow_succ (e : Int) : (2 : ℚ) ^ (e + 1) = 2 * 2 ^ e := by
  rw [zpow_add₀ (by norm_num), zpow_one, mul_comm]

theorem InBinade.le_of_below {v : ℚ} {e q : Int} (h : InBinade v e) (hq : -1074 ≤ q)
    (hbelow : v < 2 ^ 53 * 2 ^ q) : e ≤ q := by
  by_contra hlt
  rcases h.above with he | habove
  · omega
  · have hpow : (2 : ℚ) ^ (q + 1) ≤ 2 ^ e := zpow_le_zpow_right₀ (by norm_num) (by omega)
    rw [two_zpow_succ] at hpow
    linarith

theorem InBinade.unique {v : ℚ} {e q : Int} (h : InBinade v e) (h' : InBinade v q) : e = q :=
  le_antisymm (h.le_of_below h'.least h'.below) (h'.le_of_below h.least h.below)

theorem log2_bounds {n : Nat} (hn : n ≠ 0) :
    (2 : ℚ) ^ (n.log2 : Int) ≤ n ∧ (n : ℚ) < 2 ^ (n.log2 + 1 : Int) := by
  have hlo : 2 ^ n.log2 ≤ n := Nat.log2_self_le hn
  have hhi : n < 2 ^ (n.log2 + 1) := Nat.lt_log2_self
  constructor
  · rw [zpow_natCast]
    exact_mod_cast hlo
  · have : ((n.log2 : Int) + 1) = ((n.log2 + 1 : Nat) : Int) := by push_cast; rfl
    rw [this, zpow_natCast]
    exact_mod_cast hhi

/-- The quotient of two numbers by their binary lengths. -/
theorem quotient_bounds {num den : Nat} (hnum : num ≠ 0) (hden : den ≠ 0) :
    (2 : ℚ) ^ ((num.log2 : Int) - den.log2 - 1) < num / den ∧
      (num : ℚ) / den < 2 ^ ((num.log2 : Int) - den.log2 + 1) := by
  obtain ⟨hn, hn'⟩ := log2_bounds hnum
  obtain ⟨hd, hd'⟩ := log2_bounds hden
  have hpos : (0 : ℚ) < den := by positivity
  constructor
  · rw [lt_div_iff₀ hpos]
    calc (2 : ℚ) ^ ((num.log2 : Int) - den.log2 - 1) * den
        < 2 ^ ((num.log2 : Int) - den.log2 - 1) * 2 ^ (den.log2 + 1 : Int) := by gcongr
      _ = 2 ^ (num.log2 : Int) := by rw [← zpow_add₀ (by norm_num)]; congr 1; omega
      _ ≤ num := hn
  · rw [div_lt_iff₀ hpos]
    calc (num : ℚ) < 2 ^ (num.log2 + 1 : Int) := hn'
      _ = 2 ^ ((num.log2 : Int) - den.log2 + 1) * 2 ^ (den.log2 : Int) := by
        rw [← zpow_add₀ (by norm_num)]; congr 1; omega
      _ ≤ 2 ^ ((num.log2 : Int) - den.log2 + 1) * den := by gcongr

theorem scaleDown_lt_iff {num den : Nat} (hden : 0 < den) (e : Int) :
    (scaleDown num den e).1 / (scaleDown num den e).2 < 2 * leadingDigit ↔
      (num : ℚ) / den < 2 ^ 53 * 2 ^ e := by
  have hpos : 0 < (scaleDown num den e).2 := scaleDown_den_pos hden e
  have hpos' : (0 : ℚ) < (scaleDown num den e).2 := by exact_mod_cast hpos
  have htwo : (0 : ℚ) < 2 ^ e := zpow_pos (by norm_num) e
  have hfifty : (2 * leadingDigit : Nat) = 2 ^ 53 := by decide
  rw [← div_lt_iff₀ htwo, ← scaleDown_value hden, Nat.div_lt_iff_lt_mul hpos, div_lt_iff₀ hpos',
    hfifty]
  norm_cast

theorem binade_spec {num den : Nat} (hnum : num ≠ 0) (hden : 0 < den) :
    InBinade (num / den) (binade num den) := by
  obtain ⟨hlo, hhi⟩ := quotient_bounds hnum hden.ne'
  unfold binade
  dsimp only
  generalize hguess : max (-1074) ((num.log2 : Int) - den.log2 - 53) = g
  have hscale : ∀ k : Nat, (2 : ℚ) ^ k * 2 ^ g = 2 ^ (g + k) := by
    intro k
    rw [← zpow_natCast, ← zpow_add₀ (by norm_num), add_comm]
  split
  · next hlt =>
    refine ⟨by omega, (scaleDown_lt_iff hden g).mp hlt, ?_⟩
    by_cases hg : g = -1074
    · exact .inl hg
    · refine .inr ?_
      have hexp : g + (52 : Nat) = (num.log2 : Int) - den.log2 - 1 := by omega
      rw [hscale, hexp]
      exact hlo.le
  · next hge =>
    have hge := not_lt.mp (mt (scaleDown_lt_iff hden g).mpr hge)
    refine ⟨by omega, ?_, .inr ?_⟩
    · calc (num : ℚ) / den < 2 ^ ((num.log2 : Int) - den.log2 + 1) := hhi
        _ ≤ 2 ^ (g + (54 : Nat)) := zpow_le_zpow_right₀ (by norm_num) (by omega)
        _ = 2 ^ 53 * 2 ^ (g + 1) := by rw [← hscale, two_zpow_succ]; ring
    · rw [two_zpow_succ]
      linarith

/-- The significand and the exponent of a finite pattern other than zero. -/
structure IsScaled (m : Nat) (q : Int) : Prop where
  least : -1074 ≤ q
  pos : 0 < m
  small : m < 2 ^ 53
  normal : q = -1074 ∨ 2 ^ 52 ≤ m

/-- The numbers `v` with `v / 2 ^ q` within one half of `m` are rounded to `m * 2 ^ q`, the ends
only when `m` is even. Below a power of two the patterns are twice as dense. -/
structure Owns (m : Nat) (q : Int) (v : ℚ) : Prop where
  low : ((m : ℚ) - 1 / 2) * 2 ^ q ≤ v
  high : v ≤ ((m : ℚ) + 1 / 2) * 2 ^ q
  dense : m = 2 ^ 52 → -1074 < q → ((m : ℚ) - 1 / 4) * 2 ^ q ≤ v
  ends : m % 2 = 1 → ((m : ℚ) - 1 / 2) * 2 ^ q < v ∧ v < ((m : ℚ) + 1 / 2) * 2 ^ q

theorem nearestBits_of_inBinade {num den r : Nat} {q : Int} (hnum : num ≠ 0) (hden : 0 < den)
    (hq : InBinade (num / den) q) (hlo : ((r : ℚ) - 1 / 2) * 2 ^ q ≤ num / den)
    (hhi : (num : ℚ) / den ≤ ((r : ℚ) + 1 / 2) * 2 ^ q)
    (hends : r % 2 = 1 → ((r : ℚ) - 1 / 2) * 2 ^ q < num / den ∧
      (num : ℚ) / den < ((r : ℚ) + 1 / 2) * 2 ^ q)
    (hfinite : (q + 1074).toNat * leadingDigit + r < infinityBits) :
    nearestBits num den = some ((q + 1074).toNat * leadingDigit + r) := by
  have he : binade num den = q := (binade_spec hnum hden).unique hq
  have htwo : (0 : ℚ) < 2 ^ q := zpow_pos (by norm_num) q
  have hround : roundQuotient (scaleDown num den q).1 (scaleDown num den q).2 = r := by
    refine roundQuotient_eq (scaleDown_den_pos hden q) ?_ ?_ ?_
    all_goals rw [scaleDown_value hden]
    · rwa [le_div_iff₀ htwo]
    · rwa [div_le_iff₀ htwo]
    · rw [div_eq_iff htwo.ne', div_eq_iff htwo.ne']
      intro htie
      by_contra hodd
      obtain ⟨hl, hh⟩ := hends (by omega)
      rcases htie with h | h <;> linarith
  simp only [nearestBits, if_neg hnum, he, hround, if_pos hfinite]

/-- A number just below a power of two belongs to the binade before, and there it is rounded up to
the end of that binade. -/
theorem nearestBits_below_power {num den m : Nat} {q : Int} (hnum : num ≠ 0) (hden : 0 < den)
    (hm : IsScaled m q) (hown : Owns m q (num / den)) (hq : q ≠ -1074)
    (hlt : (num : ℚ) / den < 2 ^ 52 * 2 ^ q)
    (hfinite : (q + 1074).toNat * leadingDigit + m < infinityBits) :
    nearestBits num den = some ((q + 1074).toNat * leadingDigit + m) := by
  have htwo : (0 : ℚ) < 2 ^ q := zpow_pos (by norm_num) q
  have hleast := hm.least
  have hpow : m = 2 ^ 52 := by
    have hge := hm.normal.resolve_left hq
    have hlow := hown.low
    have : (m : ℚ) < 2 ^ 52 + 1 := by nlinarith
    have : m < 2 ^ 52 + 1 := by exact_mod_cast this
    omega
  have hdense := hown.dense hpow (by omega)
  have hhalf : (2 : ℚ) ^ q = 2 * 2 ^ (q - 1) := by rw [← two_zpow_succ, sub_add_cancel]
  have hbits : (q - 1 + 1074).toNat * leadingDigit + 2 ^ 53 =
      (q + 1074).toNat * leadingDigit + m := by
    have : (q + 1074).toNat = (q - 1 + 1074).toNat + 1 := by omega
    rw [this, hpow, leadingDigit]
    omega
  rw [hpow] at hdense
  push_cast at hdense
  rw [hhalf] at hdense hlt
  rw [← hbits]
  have hunit : (0 : ℚ) < 2 ^ (q - 1) := zpow_pos (by norm_num) _
  refine nearestBits_of_inBinade hnum hden ⟨by omega, by linarith, .inr (by linarith)⟩ ?_ ?_
    (by norm_num) (by rwa [hbits])
  · push_cast
    linarith
  · push_cast
    linarith

/-- Every rational that a finite pattern owns is rounded to that pattern. -/
theorem nearestBits_of_owns {num den m : Nat} {q : Int} (hden : 0 < den) (hm : IsScaled m q)
    (hown : Owns m q (num / den)) (hfinite : (q + 1074).toNat * leadingDigit + m < infinityBits) :
    nearestBits num den = some ((q + 1074).toNat * leadingDigit + m) := by
  have htwo : (0 : ℚ) < 2 ^ q := zpow_pos (by norm_num) q
  have hone : (1 : ℚ) ≤ m := by exact_mod_cast hm.pos
  have hmax : (m : ℚ) ≤ 2 ^ 53 - 1 := by
    have : m + 1 ≤ 2 ^ 53 := hm.small
    have : (m : ℚ) + 1 ≤ 2 ^ 53 := by exact_mod_cast this
    linarith
  have hnum : num ≠ 0 := by
    rintro rfl
    have hlow := hown.low
    simp only [Nat.cast_zero, zero_div] at hlow
    nlinarith
  have hbelow : (num : ℚ) / den < 2 ^ 53 * 2 ^ q := by
    have hhigh := hown.high
    nlinarith
  -- Only what the least number of a binade owns can lie outside the binade.
  by_cases hin : q = -1074 ∨ 2 ^ 52 * 2 ^ q ≤ (num : ℚ) / den
  · exact nearestBits_of_inBinade hnum hden ⟨hm.least, hbelow, hin⟩ hown.low hown.high hown.ends
      hfinite
  · obtain ⟨hq, hlt⟩ := not_or.mp hin
    exact nearestBits_below_power hnum hden hm hown hq (not_le.mp hlt) hfinite

theorem nearestBits_lt {num den bits : Nat} (h : nearestBits num den = some bits) :
    bits < infinityBits := by
  unfold nearestBits at h
  split at h
  · cases h
    decide
  · dsimp only at h
    split at h
    · next hlt =>
      cases h
      exact hlt
    · cases h

/-- Half a unit above the largest finite number, which is `(2 ^ 53 - 1) * 2 ^ 971`. -/
def overflow : ℚ := (2 ^ 53 - 1 / 2) * 2 ^ (971 : Int)

/-- A quotient has a nearest pattern unless it is rounded past the largest finite number. -/
theorem nearestBits_isSome_iff {num den : Nat} (hden : 0 < den) :
    (nearestBits num den).isSome ↔ (num : ℚ) / den < overflow := by
  have hunit : (0 : ℚ) < 2 ^ (971 : Int) := zpow_pos (by norm_num) _
  by_cases hnum : num = 0
  · subst hnum
    simp only [nearestBits, if_true, Option.isSome_some, Nat.cast_zero, zero_div, true_iff]
    exact mul_pos (by norm_num) hunit
  obtain ⟨hleast, hbelow, habove⟩ := binade_spec hnum hden
  generalize he : binade num den = e at *
  have htwo : (0 : ℚ) < 2 ^ e := zpow_pos (by norm_num) e
  have hround : ∀ m : Nat, m % 2 = 0 →
      (roundQuotient (scaleDown num den e).1 (scaleDown num den e).2 < m ↔
        (num : ℚ) / den < (m - 1 / 2) * 2 ^ e) := by
    intro m hm
    rw [roundQuotient_lt_even (scaleDown_den_pos hden e) hm, scaleDown_value hden,
      div_lt_iff₀ htwo]
  have hbits : (nearestBits num den).isSome ↔ (e + 1074).toNat * leadingDigit +
      roundQuotient (scaleDown num den e).1 (scaleDown num den e).2 < infinityBits := by
    simp only [nearestBits, if_neg hnum, he]
    split <;> simp [*]
  rw [hbits, leadingDigit, infinityBits, overflow]
  rcases lt_trichotomy e 971 with hlow | rfl | hhigh
  · have hup := (hround (2 ^ 53 + 2) (by norm_num)).mpr (by push_cast; linarith)
    have hpow : (2 : ℚ) ^ (e + 1) ≤ 2 ^ (971 : Int) :=
      zpow_le_zpow_right₀ (by norm_num) (by omega)
    rw [two_zpow_succ] at hpow
    generalize (2 : ℚ) ^ (971 : Int) = u at *
    exact iff_of_true (by omega) (by linarith)
  · have hmax := hround (2 ^ 53) (by norm_num)
    simp only [Nat.cast_pow, Nat.cast_ofNat] at hmax
    rw [← hmax]
    omega
  · have hlo : 2 ^ 52 * (2 : ℚ) ^ e ≤ num / den := habove.resolve_left (by omega)
    have hdown := mt (hround (2 ^ 52) (by norm_num)).mp (by push_cast; linarith)
    have hpow : (2 : ℚ) ^ ((971 : Int) + 1) ≤ 2 ^ e := zpow_le_zpow_right₀ (by norm_num) (by omega)
    rw [two_zpow_succ] at hpow
    generalize (2 : ℚ) ^ (971 : Int) = u at *
    exact iff_of_false (by omega) (not_lt.mpr (by linarith))

end NodePath.Number
