import NodePath.Expr.Basic
import NodePath.Number.Numeral
import NodePath.Proofs.Lexemes
import NodePath.Proofs.ShortestDecimal

/-!
# Numerals read back

The text of a number is a run of digits, with a point and a second run for a floating point number,
and it reads back as that number. For floating point numbers this is where the shortest decimal and
the rounding of quotients meet: the text has the value of the shortest decimal.
-/

namespace NodePath.Number

open NodePath.Text Binary64

theorem digit_byte {n : Nat} (h : n < 10) :
    isDigit (byteOf (48 + n)) = true ∧ digitValue (byteOf (48 + n)) = n := by
  have hbyte : (byteOf (48 + n)).toNat = 48 + n := byteOf_toNat (by omega)
  rw [isDigit_iff, digitValue, hbyte]
  omega

theorem foldl_digits (es : Bytes) (n : Nat) :
    es.foldl (fun n d => n * 10 + digitValue d) n = n * 10 ^ es.length + natOfDigits es := by
  induction es generalizing n with
  | nil => simp [natOfDigits]
  | cons e es ih =>
    simp only [natOfDigits, List.foldl_cons, List.length_cons]
    rw [ih (n * 10 + digitValue e), ih (0 * 10 + digitValue e), Nat.pow_succ]
    ring

theorem natOfDigits_append (ds es : Bytes) :
    natOfDigits (ds ++ es) = natOfDigits ds * 10 ^ es.length + natOfDigits es := by
  rw [natOfDigits, List.foldl_append, foldl_digits]
  rfl

theorem natOfDigits_cons (e : UInt8) (es : Bytes) :
    natOfDigits (e :: es) = digitValue e * 10 ^ es.length + natOfDigits es := by
  rw [natOfDigits, List.foldl_cons, foldl_digits, Nat.zero_mul, Nat.zero_add]

theorem isNumeral_decimal (n : Nat) : IsNumeral (decimal n) := by
  fun_induction decimal n with
  | case1 n h => exact ⟨by simp, by simpa using (digit_byte h).1⟩
  | case2 n h ih =>
    refine ⟨by simp, ?_⟩
    intro d hd
    rcases List.mem_append.mp hd with hd | hd
    · exact ih.2 d hd
    · rw [List.mem_singleton.mp hd]
      exact (digit_byte (Nat.mod_lt n (by decide))).1

theorem natOfDigits_decimal (n : Nat) : natOfDigits (decimal n) = n := by
  fun_induction decimal n with
  | case1 n h => simpa [natOfDigits] using (digit_byte h).2
  | case2 n h ih =>
    have hlast := (digit_byte (Nat.mod_lt n (by decide : 0 < 10))).2
    rw [natOfDigits_append, ih]
    simp only [natOfDigits, List.length_singleton, List.foldl_cons, List.foldl_nil, hlast]
    omega

theorem ne_of_isDigit {a b : UInt8} (ha : isDigit a = true) (hb : isDigit b = false) : a ≠ b := by
  rintro rfl
  rw [ha] at hb
  cases hb

theorem takeSign_digit {d : UInt8} (hd : isDigit d = true) (rest : Bytes) :
    takeSign (d :: rest) = (false, false, d :: rest) := by
  rw [takeSign, if_neg (ne_of_isDigit hd (by decide)), if_neg (ne_of_isDigit hd (by decide))]

theorem integer?_numeral {ds : Bytes} (hds : IsNumeral ds) :
    integer? ds = if natOfDigits ds < 2 ^ 63 then some (natOfDigits ds : Int) else none := by
  obtain ⟨d, ds, rfl⟩ := List.exists_cons_of_ne_nil hds.1
  have hall : (d :: ds).all isDigit = true := List.all_eq_true.mpr hds.2
  simp only [integer?, takeSign_digit (hds.2 d (by simp)), hall, List.isEmpty_cons, Bool.not_true,
    Bool.or_self, Bool.false_eq_true, if_false, fitsInt64, Bool.and_eq_true, decide_eq_true_eq]
  congr 1
  rw [eq_iff_iff]
  omega

theorem integer?_decimal {n : Nat} (h : n < 2 ^ 63) : integer? (decimal n) = some (n : Int) := by
  rw [integer?_numeral (isNumeral_decimal n), natOfDigits_decimal, if_pos h]

theorem integer?_bounds {ds : Bytes} (hds : IsNumeral ds) {i : Int} (h : integer? ds = some i) :
    0 ≤ i ∧ i < 2 ^ 63 := by
  rw [integer?_numeral hds] at h
  split at h
  · cases h
    omega
  · cases h

theorem scanSignificand_digits (acc : Significand) {ds : Bytes}
    (hds : ∀ d ∈ ds, isDigit d = true) (rest : Bytes) :
    scanSignificand .ten acc (ds ++ rest) =
      scanSignificand .ten
        { value := acc.value * 10 ^ ds.length + natOfDigits ds
          digits := acc.digits + ds.length
          point := acc.point
          fraction := acc.fraction + if acc.point then ds.length else 0 } rest := by
  induction ds generalizing acc with
  | nil => simp [natOfDigits]
  | cons d ds ih =>
    have hd : isDigit d = true := hds d (by simp)
    have hdigit : Base.ten.digit? d = some (digitValue d) := by
      simp only [Base.digit?, hd, if_true]
    rw [List.cons_append, scanSignificand, if_neg (ne_of_isDigit hd (by decide)),
      if_neg (ne_of_isDigit hd (by decide)), hdigit]
    dsimp only
    rw [ih _ fun e he => hds e (by simp [he]), natOfDigits_cons]
    congr 2
    · simp only [Base.size, List.length_cons, Nat.pow_succ]
      ring
    · simp only [List.length_cons]
      ring
    · split
      · simp only [List.length_cons]
        ring
      · rfl

section Point

variable {ws ds : Bytes}

theorem plain_of_mem (hws : IsNumeral ws) (hds : IsNumeral ds) {b : UInt8}
    (hb : b ∈ ws ++ ascii '.' :: ds) : isDigit b = true ∨ b = ascii '.' := by
  rcases List.mem_append.mp hb with hb | hb
  · exact .inl (hws.2 b hb)
  · rcases List.mem_cons.mp hb with rfl | hb
    · exact .inr rfl
    · exact .inl (hds.2 b hb)

theorem lowerCase_plain {b : UInt8} (hb : isDigit b = true ∨ b = ascii '.') : lowerCase b = b := by
  rcases hb with hb | rfl
  · unfold lowerCase
    rw [if_neg]
    simp only [Bool.and_eq_true, decide_eq_true_eq, UInt8.le_iff_toNat_le, not_and]
    intro hlo
    have hhi := (isDigit_iff.mp hb).2
    have : 65 ≤ b.toNat := hlo
    omega
  · decide

theorem takeBase_plain {s : Bytes} (hs : ∀ b ∈ s, isDigit b = true ∨ b = ascii '.') :
    takeBase s = (.ten, s) := by
  unfold takeBase
  split
  · next z x c rest =>
    have hx := hs x (by simp)
    rw [if_neg]
    rw [lowerCase_plain hx]
    simp only [Bool.and_eq_true, decide_eq_true_eq, not_and]
    rintro - rfl
    rcases hx with hx | hx
    · exact absurd hx (by decide)
    · exact absurd hx (by decide)
  · rfl

theorem named?_digit {d : UInt8} (hd : isDigit d = true) (rest : Bytes) :
    named? (d :: rest) = none := by
  have hword : ∀ {c : UInt8} {cs : Bytes}, isDigit c = false →
      (d :: rest).map lowerCase ≠ c :: cs := by
    intro c cs hc he
    rw [List.map_cons, lowerCase_plain (.inl hd)] at he
    exact ne_of_isDigit hd hc (List.cons.inj he).1
  have hinf : (d :: rest).map lowerCase ≠ utf8 "inf" := hword (by decide)
  have hinfinity : (d :: rest).map lowerCase ≠ utf8 "infinity" := hword (by decide)
  have hnan : (d :: rest).map lowerCase ≠ utf8 "nan" := hword (by decide)
  simp only [named?, takeSign_digit hd, hinf, hinfinity, hnan, decide_false, Bool.or_self,
    Bool.false_and, Bool.false_eq_true, if_false]

theorem scanSignificand_point (hws : IsNumeral ws) (hds : IsNumeral ds) :
    scanSignificand .ten ⟨0, 0, false, 0⟩ (ws ++ ascii '.' :: ds) =
      (⟨natOfDigits (ws ++ ds), ws.length + ds.length, true, ds.length⟩, []) := by
  have hpoint : ascii '.' ≠ ascii '_' := by decide
  have hend := fun acc => scanSignificand_digits acc hds.2 []
  simp only [List.append_nil] at hend
  rw [scanSignificand_digits _ hws.2, scanSignificand, if_neg hpoint, if_pos rfl,
    if_neg Bool.false_ne_true, hend, scanSignificand, natOfDigits_append]
  simp

/-- Digits, a point and digits are read as the quotient of all digits and a power of ten. -/
theorem float?_numeral (hws : IsNumeral ws) (hds : IsNumeral ds) :
    float? (ws ++ ascii '.' :: ds) =
      ofQuotient false (natOfDigits (ws ++ ds)) (10 ^ ds.length) := by
  have hplain : ∀ b ∈ ws ++ ascii '.' :: ds, isDigit b = true ∨ b = ascii '.' :=
    fun b hb => plain_of_mem hws hds hb
  have hscore : (ws ++ ascii '.' :: ds).contains (ascii '_') = false := by
    rw [Bool.eq_false_iff, ne_eq, List.contains_iff_mem]
    intro hmem
    exact absurd (hplain _ hmem) (by decide)
  have hsign : takeSign (ws ++ ascii '.' :: ds) = (false, false, ws ++ ascii '.' :: ds) := by
    obtain ⟨w, ws', rfl⟩ := List.exists_cons_of_ne_nil hws.1
    exact takeSign_digit (hws.2 w (by simp)) _
  have hname : named? (ws ++ ascii '.' :: ds) = none := by
    obtain ⟨w, ws', rfl⟩ := List.exists_cons_of_ne_nil hws.1
    exact named?_digit (hws.2 w (by simp)) _
  have hdigits : ws.length + ds.length ≠ 0 := by
    have := List.length_pos_iff.mpr hws.1
    omega
  have hlen : 0 < ds.length := List.length_pos_iff.mpr hds.1
  have hread : readFloat (ws ++ ascii '.' :: ds) =
      some (.quotient false (natOfDigits (ws ++ ds)) (10 ^ ds.length)) := by
    rw [readFloat, hname]
    simp only [hsign, takeBase_plain hplain, scanSignificand_point hws hds, hscore, hdigits]
    simp [takeExponent, powerQuotient, hlen.ne']
  rw [float?, hread]

/-- Digits, a point and digits are a number unless their value is too large. -/
theorem float?_isSome_iff (hws : IsNumeral ws) (hds : IsNumeral ds) :
    (float? (ws ++ ascii '.' :: ds)).isSome ↔
      (natOfDigits ws + natOfDigits ds / 10 ^ ds.length : ℚ) < overflow := by
  have hpow : (0 : ℚ) < 10 ^ ds.length := by positivity
  have hvalue : (natOfDigits (ws ++ ds) : ℚ) / (10 ^ ds.length : Nat) =
      natOfDigits ws + natOfDigits ds / 10 ^ ds.length := by
    rw [natOfDigits_append]
    push_cast
    field_simp
  rw [float?_numeral hws hds, ofQuotient, Option.isSome_map,
    nearestBits_isSome_iff (Nat.pow_pos (by decide)), hvalue]

end Point

theorem toNat_ofMagnitude {bits : Nat} (h : bits < infinityBits) :
    (ofMagnitude false bits).bits.toNat = bits := by
  have hmax : bits < 2 ^ 64 := Nat.lt_trans h (by decide)
  simp only [ofMagnitude, Bool.false_eq_true, if_false, Nat.add_zero, UInt64.toNat_ofNat',
    Nat.mod_eq_of_lt hmax]

/-- What a numeral is read as is finite and not negative. -/
theorem float?_finite {ws ds : Bytes} (hws : IsNumeral ws) (hds : IsNumeral ds) {x : Binary64}
    (h : float? (ws ++ ascii '.' :: ds) = some x) : x.bits.toNat < infinityBits := by
  rw [float?_numeral hws hds, ofQuotient] at h
  obtain ⟨bits, hbits, rfl⟩ := Option.map_eq_some_iff.mp h
  have hlt := nearestBits_lt hbits
  rwa [toNat_ofMagnitude hlt]

theorem natOfDigits_zeros (n : Nat) : natOfDigits (List.replicate n (ascii '0')) = 0 := by
  induction n with
  | zero => rfl
  | succ n ih =>
    rw [List.replicate_succ, natOfDigits_cons, ih]
    simp [show digitValue (ascii '0') = 0 from rfl]

theorem digits_zeros_append (n : Nat) {ds : Bytes} (hds : ∀ d ∈ ds, isDigit d = true) :
    ∀ d ∈ List.replicate n (ascii '0') ++ ds, isDigit d = true := by
  intro d hd
  rcases List.mem_append.mp hd with hd | hd
  · rw [List.eq_of_mem_replicate hd]
    decide
  · exact hds d hd

theorem positional_whole {k : Int} (hk : 0 ≤ k) (d : Nat) :
    IsNumeral (positional d k) ∧ natOfDigits (positional d k) = d * 10 ^ k.toNat := by
  have hd := isNumeral_decimal d
  rw [positional, if_pos hk]
  refine ⟨⟨List.append_ne_nil_of_left_ne_nil hd.1 _, ?_⟩, ?_⟩
  · intro b hb
    rcases List.mem_append.mp hb with hb | hb
    · exact hd.2 b hb
    · rw [List.eq_of_mem_replicate hb]
      decide
  · rw [natOfDigits_append, natOfDigits_zeros, natOfDigits_decimal, List.length_replicate,
      Nat.add_zero]

/-- With a negative exponent the digits are cut so that the fraction has the places it needs. -/
theorem positional_fraction {k : Int} (hk : k < 0) (d : Nat) :
    ∃ ws ds, positional d k = ws ++ ascii '.' :: ds ∧ IsNumeral ws ∧ IsNumeral ds ∧
      ds.length = (-k).toNat ∧ natOfDigits (ws ++ ds) = d := by
  have hd := isNumeral_decimal d
  rw [positional, if_neg (by omega)]
  dsimp only
  generalize hpad : List.replicate ((-k).toNat + 1 - (decimal d).length) (ascii '0') ++ decimal d =
    padded
  have hlen : (-k).toNat + 1 ≤ padded.length := by
    rw [← hpad, List.length_append, List.length_replicate]
    omega
  have hall : ∀ b ∈ padded, isDigit b = true := hpad ▸ digits_zeros_append _ hd.2
  have hvalue : natOfDigits padded = d := by
    rw [← hpad, natOfDigits_append, natOfDigits_zeros, natOfDigits_decimal, Nat.zero_mul,
      Nat.zero_add]
  refine ⟨padded.take (padded.length - (-k).toNat), padded.drop (padded.length - (-k).toNat),
    by simp, ⟨?_, ?_⟩, ⟨?_, ?_⟩, ?_, ?_⟩
  · rw [← List.length_pos_iff, List.length_take]
    omega
  · exact fun b hb => hall b (List.mem_of_mem_take hb)
  · rw [← List.length_pos_iff, List.length_drop]
    omega
  · exact fun b hb => hall b (List.mem_of_mem_drop hb)
  · rw [List.length_drop]
    omega
  · rw [List.take_append_drop, hvalue]

theorem point_not_mem {ds : Bytes} (hds : IsNumeral ds) : ds.contains (ascii '.') = false := by
  rw [Bool.eq_false_iff, ne_eq, List.contains_iff_mem]
  intro hmem
  exact absurd (hds.2 _ hmem) (by decide)

theorem text_finite {x : Binary64} (h : x.bits.toNat < infinityBits) :
    x.text = positional (shortest x).1 (shortest x).2 := by
  have hmag := magnitude_eq h
  have hnan : x.isNan = false := by
    simp only [isNan, hmag, decide_eq_false_iff_not]
    omega
  have hinf : x.isInfinite = false := by
    simp only [isInfinite, hmag, decide_eq_false_iff_not]
    omega
  have hsign : x.isNegative = false := by
    simp only [isNegative, decide_eq_false_iff_not]
    have : infinityBits ≤ signBit := by decide
    omega
  rw [Binary64.text, hnan, hinf, hsign]
  rfl

/-- A numeral with the value of the shortest decimal is read as the number. -/
theorem float?_shortest {x : Binary64} (h : x.bits.toNat < infinityBits) {ws ds : Bytes}
    (hws : IsNumeral ws) (hds : IsNumeral ds)
    (hvalue : (natOfDigits (ws ++ ds) : ℚ) / (10 ^ ds.length : Nat) =
      (shortest x).1 * 10 ^ (shortest x).2) :
    float? (ws ++ ascii '.' :: ds) = some x := by
  have hmag := magnitude_eq h
  have hself : ofMagnitude false x.magnitude = x := by
    rw [hmag, ofMagnitude]
    simp
  rw [float?_numeral hws hds, ofQuotient,
    nearestBits_shortest (hmag ▸ h) (Nat.pow_pos (by decide)) hvalue, Option.map_some, hself]

/-- The text of a finite number that is not negative is read back as that number. -/
theorem text_reads_back {x : Binary64} (h : x.bits.toNat < infinityBits) :
    ∃ ws ds, (NumberLit.ofFloat x).text = ws ++ ascii '.' :: ds ∧ IsNumeral ws ∧ IsNumeral ds ∧
      float? (ws ++ ascii '.' :: ds) = some x := by
  have hback := @float?_shortest x h
  have htext : (NumberLit.ofFloat x).text =
      if x.text.contains (ascii '.') then x.text else x.text ++ utf8 ".0" := rfl
  rw [text_finite h] at htext
  generalize (shortest x).1 = d at *
  generalize (shortest x).2 = k at *
  rcases lt_or_ge k 0 with hk | hk
  · obtain ⟨ws, ds, hpos, hws, hds, hlen, hvalue⟩ := positional_fraction hk d
    refine ⟨ws, ds, ?_, hws, hds, hback hws hds ?_⟩
    · rw [htext, hpos, if_pos (by simp)]
    · have hpow : (10 : ℚ) ^ k = (10 ^ (-k).toNat)⁻¹ := by
        rw [← zpow_natCast, ← zpow_neg, Int.toNat_of_nonneg (by omega), neg_neg]
      rw [hvalue, hlen, hpow, div_eq_mul_inv]
      push_cast
      rfl
  · obtain ⟨hnum, hvalue⟩ := positional_whole hk d
    have hzero : IsNumeral [ascii '0'] := ⟨by simp, List.all_iff_forall_prop.mp (by decide)⟩
    refine ⟨positional d k, [ascii '0'], ?_, hnum, hzero, hback hnum hzero ?_⟩
    · rw [htext, if_neg (Bool.eq_false_iff.mp (point_not_mem hnum))]
      rfl
    · have hpow : (10 : ℚ) ^ k = 10 ^ k.toNat := by
        rw [← zpow_natCast, Int.toNat_of_nonneg hk]
      rw [natOfDigits_append, hvalue, hpow, show natOfDigits [ascii '0'] = 0 from rfl]
      push_cast
      simp

end NodePath.Number
