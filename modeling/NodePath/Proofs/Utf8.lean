import NodePath.Text.Glyph

/-!
# Glyphs and their bytes

Cutting a text into glyphs loses nothing, and a text that begins with the encoding of a character
is cut after that encoding. Both directions rest on one case analysis each: the bytes of the glyph
that `leading` finds, and the glyph that `leading` finds in an encoding.
-/

namespace NodePath.Text

theorem byteOf_toNat {n : Nat} (h : n < 256) : (byteOf n).toNat = n := by
  rw [byteOf, UInt8.toNat_ofNat', Nat.mod_eq_of_lt h]

theorem byteOf_eq {n : Nat} {b : UInt8} (h : n = b.toNat) : byteOf n = b := by
  rw [byteOf, h, UInt8.ofNat_toNat]

theorem toNat_scalar (c : Char) : c.toNat < 0xD800 ∨ (0xDFFF < c.toNat ∧ c.toNat < 0x110000) :=
  c.valid

theorem toNat_ofNat_scalar {n : Nat} (h : n < 0xD800 ∨ (0xDFFF < n ∧ n < 0x110000)) :
    (Char.ofNat n).toNat = n := by
  rw [Char.ofNat, dif_pos h]
  rfl

theorem isTail_iff {b : UInt8} : isTail b = true ↔ 0x80 ≤ b.toNat ∧ b.toNat ≤ 0xBF := by
  simp [isTail, UInt8.le_iff_toNat_le]

theorem secondOfThree_bounds {a b : UInt8} (h : secondOfThree a b = true) :
    0x80 ≤ b.toNat ∧ b.toNat ≤ 0xBF ∧ (a.toNat = 0xE0 → 0xA0 ≤ b.toNat) ∧
      (a.toNat = 0xED → b.toNat ≤ 0x9F) := by
  unfold secondOfThree at h
  split at h
  · next ha =>
    simp [UInt8.le_iff_toNat_le] at h
    subst ha
    exact ⟨by omega, by omega, fun _ => h.1, fun he => absurd he (by decide)⟩
  · next ha =>
    have ha' : a.toNat ≠ 0xE0 := fun he => ha (UInt8.toNat_inj.mp he)
    split at h
    · simp [UInt8.le_iff_toNat_le] at h
      exact ⟨by omega, by omega, fun he => absurd he ha', fun _ => h.2⟩
    · next hb =>
      have hb' : a.toNat ≠ 0xED := fun he => hb (UInt8.toNat_inj.mp he)
      have := isTail_iff.mp h
      exact ⟨this.1, this.2, fun he => absurd he ha', fun he => absurd he hb'⟩

theorem secondOfFour_bounds {a b : UInt8} (h : secondOfFour a b = true) :
    0x80 ≤ b.toNat ∧ b.toNat ≤ 0xBF ∧ (a.toNat = 0xF0 → 0x90 ≤ b.toNat) ∧
      (a.toNat = 0xF4 → b.toNat ≤ 0x8F) := by
  unfold secondOfFour at h
  split at h
  · next ha =>
    simp [UInt8.le_iff_toNat_le] at h
    subst ha
    exact ⟨by omega, by omega, fun _ => h.1, fun he => absurd he (by decide)⟩
  · next ha =>
    have ha' : a.toNat ≠ 0xF0 := fun he => ha (UInt8.toNat_inj.mp he)
    split at h
    · simp [UInt8.le_iff_toNat_le] at h
      exact ⟨by omega, by omega, fun he => absurd he ha', fun _ => h.2⟩
    · next hb =>
      have hb' : a.toNat ≠ 0xF4 := fun he => hb (UInt8.toNat_inj.mp he)
      have := isTail_iff.mp h
      exact ⟨this.1, this.2, fun he => absurd he ha', fun he => absurd he hb'⟩

section Forms

-- The arithmetic of the forms is stated on plain numbers, where `omega` has only these to look at.
variable {n a b c d : Nat}

theorem two_bytes (hn : n = (a - 0xC0) * 0x40 + (b - 0x80)) (ha : 0xC2 ≤ a) (ha' : a ≤ 0xDF)
    (hb : 0x80 ≤ b ∧ b ≤ 0xBF) :
    0x80 ≤ n ∧ n < 0x800 ∧ 0xC0 + n / 0x40 = a ∧ 0x80 + n % 0x40 = b := by
  omega

theorem three_bytes (hn : n = ((a - 0xE0) * 0x40 + (b - 0x80)) * 0x40 + (c - 0x80))
    (ha : 0xE0 ≤ a) (ha' : a ≤ 0xEF) (hb : 0x80 ≤ b ∧ b ≤ 0xBF) (hab : a = 0xE0 → 0xA0 ≤ b)
    (hab' : a = 0xED → b ≤ 0x9F) (hc : 0x80 ≤ c ∧ c ≤ 0xBF) :
    0x800 ≤ n ∧ n < 0x10000 ∧ (n < 0xD800 ∨ 0xDFFF < n) ∧ 0xE0 + n / 0x1000 = a ∧
      0x80 + n / 0x40 % 0x40 = b ∧ 0x80 + n % 0x40 = c := by
  omega

theorem four_bytes
    (hn : n = (((a - 0xF0) * 0x40 + (b - 0x80)) * 0x40 + (c - 0x80)) * 0x40 + (d - 0x80))
    (ha : 0xF0 ≤ a) (ha' : a ≤ 0xF4) (hb : 0x80 ≤ b ∧ b ≤ 0xBF) (hab : a = 0xF0 → 0x90 ≤ b)
    (hab' : a = 0xF4 → b ≤ 0x8F) (hc : 0x80 ≤ c ∧ c ≤ 0xBF) (hd : 0x80 ≤ d ∧ d ≤ 0xBF) :
    0x10000 ≤ n ∧ n < 0x110000 ∧ 0xF0 + n / 0x40000 = a ∧ 0x80 + n / 0x1000 % 0x40 = b ∧
      0x80 + n / 0x40 % 0x40 = c ∧ 0x80 + n % 0x40 = d := by
  omega

end Forms

theorem encode_one {ch : Char} (h : ch.toNat < 0x80) : encode ch = [byteOf ch.toNat] := by
  simp only [encode, if_pos h]

theorem encode_two {ch : Char} (h : 0x80 ≤ ch.toNat) (h' : ch.toNat < 0x800) :
    encode ch = [byteOf (0xC0 + ch.toNat / 0x40), byteOf (0x80 + ch.toNat % 0x40)] := by
  simp only [encode, if_neg (Nat.not_lt.mpr h), if_pos h']

theorem encode_three {ch : Char} (h : 0x800 ≤ ch.toNat) (h' : ch.toNat < 0x10000) :
    encode ch = [byteOf (0xE0 + ch.toNat / 0x1000), byteOf (0x80 + ch.toNat / 0x40 % 0x40),
      byteOf (0x80 + ch.toNat % 0x40)] := by
  have h₁ : ¬ch.toNat < 0x80 := by omega
  simp only [encode, if_neg h₁, if_neg (Nat.not_lt.mpr h), if_pos h']

theorem encode_four {ch : Char} (h : 0x10000 ≤ ch.toNat) :
    encode ch = [byteOf (0xF0 + ch.toNat / 0x40000), byteOf (0x80 + ch.toNat / 0x1000 % 0x40),
      byteOf (0x80 + ch.toNat / 0x40 % 0x40), byteOf (0x80 + ch.toNat % 0x40)] := by
  have h₁ : ¬ch.toNat < 0x80 := by omega
  have h₂ : ¬ch.toNat < 0x800 := by omega
  simp only [encode, if_neg h₁, if_neg h₂, if_neg (Nat.not_lt.mpr h)]

theorem encode_ne_nil (ch : Char) : encode ch ≠ [] := by
  unfold encode
  dsimp only
  repeat' split
  all_goals simp

section Decoding

variable {a b c d : UInt8}

theorem encode_ofNat_one (ha : a.toNat < 0x80) : encode (Char.ofNat a.toNat) = [a] := by
  have hn : (Char.ofNat a.toNat).toNat = a.toNat :=
    toNat_ofNat_scalar (.inl (Nat.lt_trans ha (by decide)))
  generalize Char.ofNat a.toNat = ch at hn
  rw [encode_one (hn ▸ ha), byteOf_eq hn]

theorem encode_ofNat_two (ha : 0xC2 ≤ a.toNat ∧ a.toNat ≤ 0xDF)
    (hb : 0x80 ≤ b.toNat ∧ b.toNat ≤ 0xBF) :
    encode (Char.ofNat (extend (a.toNat - 0xC0) b)) = [a, b] := by
  have hn := fun h => toNat_ofNat_scalar (n := extend (a.toNat - 0xC0) b) (.inl h)
  generalize Char.ofNat (extend (a.toNat - 0xC0) b) = ch at hn
  generalize hx : extend (a.toNat - 0xC0) b = x at hn
  obtain ⟨hlo, hhi, hA, hB⟩ := two_bytes hx.symm ha.1 ha.2 hb
  have hn := hn (Nat.lt_trans hhi (by decide))
  subst hn
  rw [encode_two hlo hhi, byteOf_eq hA, byteOf_eq hB]

theorem encode_ofNat_three (ha : 0xE0 ≤ a.toNat ∧ a.toNat ≤ 0xEF) (hb : secondOfThree a b = true)
    (hc : 0x80 ≤ c.toNat ∧ c.toNat ≤ 0xBF) :
    encode (Char.ofNat (extend (extend (a.toNat - 0xE0) b) c)) = [a, b, c] := by
  have hn := fun h => toNat_ofNat_scalar (n := extend (extend (a.toNat - 0xE0) b) c) h
  generalize Char.ofNat (extend (extend (a.toNat - 0xE0) b) c) = ch at hn
  generalize hx : extend (extend (a.toNat - 0xE0) b) c = x at hn
  obtain ⟨hb1, hb2, hb3, hb4⟩ := secondOfThree_bounds hb
  obtain ⟨hlo, hhi, hgap, hA, hB, hC⟩ := three_bytes hx.symm ha.1 ha.2 ⟨hb1, hb2⟩ hb3 hb4 hc
  have hn := hn (hgap.imp_right fun h => ⟨h, Nat.lt_trans hhi (by decide)⟩)
  subst hn
  rw [encode_three hlo hhi, byteOf_eq hA, byteOf_eq hB, byteOf_eq hC]

theorem encode_ofNat_four (ha : 0xF0 ≤ a.toNat ∧ a.toNat ≤ 0xF4) (hb : secondOfFour a b = true)
    (hc : 0x80 ≤ c.toNat ∧ c.toNat ≤ 0xBF) (hd : 0x80 ≤ d.toNat ∧ d.toNat ≤ 0xBF) :
    encode (Char.ofNat (extend (extend (extend (a.toNat - 0xF0) b) c) d)) = [a, b, c, d] := by
  have hn := fun h => toNat_ofNat_scalar (n := extend (extend (extend (a.toNat - 0xF0) b) c) d) h
  generalize Char.ofNat (extend (extend (extend (a.toNat - 0xF0) b) c) d) = ch at hn
  generalize hx : extend (extend (extend (a.toNat - 0xF0) b) c) d = x at hn
  obtain ⟨hb1, hb2, hb3, hb4⟩ := secondOfFour_bounds hb
  obtain ⟨hlo, hhi, hA, hB, hC, hD⟩ := four_bytes hx.symm ha.1 ha.2 ⟨hb1, hb2⟩ hb3 hb4 hc hd
  have hn := hn (.inr ⟨Nat.lt_of_lt_of_le (by decide) hlo, hhi⟩)
  subst hn
  rw [encode_four hlo, byteOf_eq hA, byteOf_eq hB, byteOf_eq hC, byteOf_eq hD]

end Decoding

/-- The glyph that begins with a byte has that byte and the ones that belong to it as its bytes. -/
theorem leading_bytes (a : UInt8) (rest : Bytes) :
    (leading a rest).1.bytes = a :: rest.take (leading a rest).2 := by
  unfold leading
  split
  · next h1 => exact encode_ofNat_one h1
  · split
    · next b rest =>
      split
      · next h2 =>
        simp only [Bool.and_eq_true, decide_eq_true_eq, UInt8.le_iff_toNat_le,
          UInt8.reduceToNat, isTail_iff] at h2
        show encode (Char.ofNat (extend (a.toNat - 0xC0) b)) = [a, b]
        exact encode_ofNat_two h2.1 h2.2
      · split
        · next c rest =>
          split
          · next h3 =>
            simp only [Bool.and_eq_true, decide_eq_true_eq, UInt8.le_iff_toNat_le,
              UInt8.reduceToNat, isTail_iff] at h3
            show encode (Char.ofNat (extend (extend (a.toNat - 0xE0) b) c)) = [a, b, c]
            exact encode_ofNat_three h3.1.1 h3.1.2 h3.2
          · split
            · next d rest =>
              split
              · next h4 =>
                simp only [Bool.and_eq_true, decide_eq_true_eq, UInt8.le_iff_toNat_le,
                  UInt8.reduceToNat, isTail_iff] at h4
                show encode (Char.ofNat (extend (extend (extend (a.toNat - 0xF0) b) c) d)) =
                  [a, b, c, d]
                exact encode_ofNat_four h4.1.1.1 h4.1.1.2 h4.1.2 h4.2
              · rfl
            · rfl
        · rfl
    · rfl

/-- The glyphs after the first `taken` bytes hold exactly the other bytes. -/
theorem bytesOf_glyphsAfter (taken : Nat) (s : Bytes) :
    bytesOf (glyphsAfter taken s) = s.drop taken := by
  induction s generalizing taken with
  | nil => simp [glyphsAfter, bytesOf]
  | cons a rest ih =>
    cases taken with
    | zero =>
      have hrest := ih (leading a rest).2
      rw [bytesOf] at hrest
      rw [glyphsAfter, bytesOf, List.flatMap_cons, hrest, leading_bytes, List.cons_append,
        List.take_append_drop, List.drop_zero]
    | succ taken => exact ih taken

theorem bytesOf_glyphs (s : Bytes) : bytesOf (glyphs s) = s := bytesOf_glyphsAfter 0 s

theorem secondOfThree_of_bounds {a b : UInt8} (hb : 0x80 ≤ b.toNat ∧ b.toNat ≤ 0xBF)
    (hab : a.toNat = 0xE0 → 0xA0 ≤ b.toNat) (hab' : a.toNat = 0xED → b.toNat ≤ 0x9F) :
    secondOfThree a b = true := by
  unfold secondOfThree
  split
  · next ha =>
    have := hab (congrArg UInt8.toNat ha)
    simp only [Bool.and_eq_true, decide_eq_true_eq, UInt8.le_iff_toNat_le, UInt8.reduceToNat]
    exact ⟨this, hb.2⟩
  · split
    · next ha =>
      have := hab' (congrArg UInt8.toNat ha)
      simp only [Bool.and_eq_true, decide_eq_true_eq, UInt8.le_iff_toNat_le, UInt8.reduceToNat]
      exact ⟨hb.1, this⟩
    · exact isTail_iff.mpr hb

theorem secondOfFour_of_bounds {a b : UInt8} (hb : 0x80 ≤ b.toNat ∧ b.toNat ≤ 0xBF)
    (hab : a.toNat = 0xF0 → 0x90 ≤ b.toNat) (hab' : a.toNat = 0xF4 → b.toNat ≤ 0x8F) :
    secondOfFour a b = true := by
  unfold secondOfFour
  split
  · next ha =>
    have := hab (congrArg UInt8.toNat ha)
    simp only [Bool.and_eq_true, decide_eq_true_eq, UInt8.le_iff_toNat_le, UInt8.reduceToNat]
    exact ⟨this, hb.2⟩
  · split
    · next ha =>
      have := hab' (congrArg UInt8.toNat ha)
      simp only [Bool.and_eq_true, decide_eq_true_eq, UInt8.le_iff_toNat_le, UInt8.reduceToNat]
      exact ⟨hb.1, this⟩
    · exact isTail_iff.mpr hb

section Leading

variable {a b c d : UInt8} {rest : Bytes}

theorem leading_one (ha : a.toNat < 0x80) : leading a rest = (.char (Char.ofNat a.toNat), 0) := by
  unfold leading
  rw [if_pos (UInt8.lt_iff_toNat_lt.mpr ha)]

theorem leading_two (ha : 0xC2 ≤ a.toNat ∧ a.toNat ≤ 0xDF) (hb : 0x80 ≤ b.toNat ∧ b.toNat ≤ 0xBF) :
    leading a (b :: rest) = (.char (Char.ofNat (extend (a.toNat - 0xC0) b)), 1) := by
  have h1 : ¬a < 0x80 := by
    simp only [UInt8.lt_iff_toNat_lt, UInt8.reduceToNat]
    omega
  simp only [leading, if_neg h1, UInt8.le_iff_toNat_le, UInt8.reduceToNat, isTail_iff.mpr hb, ha.1,
    ha.2, decide_true, Bool.and_true, if_true]

theorem leading_three (ha : 0xE0 ≤ a.toNat ∧ a.toNat ≤ 0xEF) (hb : secondOfThree a b = true)
    (hc : 0x80 ≤ c.toNat ∧ c.toNat ≤ 0xBF) :
    leading a (b :: c :: rest) =
      (.char (Char.ofNat (extend (extend (a.toNat - 0xE0) b) c)), 2) := by
  have h1 : ¬a < 0x80 := by
    simp only [UInt8.lt_iff_toNat_lt, UInt8.reduceToNat]
    omega
  have h2 : ¬a.toNat ≤ 0xDF := by omega
  simp only [leading, if_neg h1, UInt8.le_iff_toNat_le, UInt8.reduceToNat, isTail_iff.mpr hc, h2,
    ha.1, ha.2, hb, decide_true, decide_false, Bool.and_true, Bool.and_false, Bool.false_and,
    Bool.false_eq_true, if_true, if_false]

theorem leading_four (ha : 0xF0 ≤ a.toNat ∧ a.toNat ≤ 0xF4) (hb : secondOfFour a b = true)
    (hc : 0x80 ≤ c.toNat ∧ c.toNat ≤ 0xBF) (hd : 0x80 ≤ d.toNat ∧ d.toNat ≤ 0xBF) :
    leading a (b :: c :: d :: rest) =
      (.char (Char.ofNat (extend (extend (extend (a.toNat - 0xF0) b) c) d)), 3) := by
  have h1 : ¬a < 0x80 := by
    simp only [UInt8.lt_iff_toNat_lt, UInt8.reduceToNat]
    omega
  have h2 : ¬a.toNat ≤ 0xDF := by omega
  have h3 : ¬a.toNat ≤ 0xEF := by omega
  simp only [leading, if_neg h1, UInt8.le_iff_toNat_le, UInt8.reduceToNat, isTail_iff.mpr hc,
    isTail_iff.mpr hd, h2, h3, ha.1, ha.2, hb, decide_true, decide_false, Bool.and_true,
    Bool.and_false, Bool.false_and, Bool.false_eq_true, if_true, if_false]

end Leading

section Numbers

variable {n : Nat}

theorem two_digits (h : 0x80 ≤ n) (h' : n < 0x800) :
    (0xC2 ≤ 0xC0 + n / 0x40 ∧ 0xC0 + n / 0x40 ≤ 0xDF) ∧
      (0x80 ≤ 0x80 + n % 0x40 ∧ 0x80 + n % 0x40 ≤ 0xBF) ∧
      (0xC0 + n / 0x40 - 0xC0) * 0x40 + (0x80 + n % 0x40 - 0x80) = n := by
  omega

theorem three_digits (h : 0x800 ≤ n) (h' : n < 0x10000) (hgap : n < 0xD800 ∨ 0xDFFF < n) :
    (0xE0 ≤ 0xE0 + n / 0x1000 ∧ 0xE0 + n / 0x1000 ≤ 0xEF) ∧
      (0x80 ≤ 0x80 + n / 0x40 % 0x40 ∧ 0x80 + n / 0x40 % 0x40 ≤ 0xBF) ∧
      (0xE0 + n / 0x1000 = 0xE0 → 0xA0 ≤ 0x80 + n / 0x40 % 0x40) ∧
      (0xE0 + n / 0x1000 = 0xED → 0x80 + n / 0x40 % 0x40 ≤ 0x9F) ∧
      (0x80 ≤ 0x80 + n % 0x40 ∧ 0x80 + n % 0x40 ≤ 0xBF) ∧
      ((0xE0 + n / 0x1000 - 0xE0) * 0x40 + (0x80 + n / 0x40 % 0x40 - 0x80)) * 0x40 +
        (0x80 + n % 0x40 - 0x80) = n := by
  omega

theorem four_digits (h : 0x10000 ≤ n) (h' : n < 0x110000) :
    (0xF0 ≤ 0xF0 + n / 0x40000 ∧ 0xF0 + n / 0x40000 ≤ 0xF4) ∧
      (0x80 ≤ 0x80 + n / 0x1000 % 0x40 ∧ 0x80 + n / 0x1000 % 0x40 ≤ 0xBF) ∧
      (0xF0 + n / 0x40000 = 0xF0 → 0x90 ≤ 0x80 + n / 0x1000 % 0x40) ∧
      (0xF0 + n / 0x40000 = 0xF4 → 0x80 + n / 0x1000 % 0x40 ≤ 0x8F) ∧
      (0x80 ≤ 0x80 + n / 0x40 % 0x40 ∧ 0x80 + n / 0x40 % 0x40 ≤ 0xBF) ∧
      (0x80 ≤ 0x80 + n % 0x40 ∧ 0x80 + n % 0x40 ≤ 0xBF) ∧
      (((0xF0 + n / 0x40000 - 0xF0) * 0x40 + (0x80 + n / 0x1000 % 0x40 - 0x80)) * 0x40 +
        (0x80 + n / 0x40 % 0x40 - 0x80)) * 0x40 + (0x80 + n % 0x40 - 0x80) = n := by
  omega

end Numbers

theorem exists_byte {n : Nat} (h : n ≤ 255) : ∃ b : UInt8, byteOf n = b ∧ b.toNat = n :=
  ⟨byteOf n, rfl, byteOf_toNat (Nat.lt_succ_of_le h)⟩

-- The bytes of an encoding, given by the number of the character alone.
section Encoded

variable {n : Nat} (rest : Bytes)

theorem leading_encoded_one (h : n < 0x80) :
    leading (byteOf n) rest = (.char (Char.ofNat n), 0) := by
  have hA : (byteOf n).toNat = n := byteOf_toNat (Nat.lt_trans h (by decide))
  rw [leading_one (hA.symm ▸ h), hA]

theorem leading_encoded_two (h : 0x80 ≤ n) (h' : n < 0x800) :
    leading (byteOf (0xC0 + n / 0x40)) (byteOf (0x80 + n % 0x40) :: rest) =
      (.char (Char.ofNat n), 1) := by
  obtain ⟨ha, hb, hn⟩ := two_digits h h'
  obtain ⟨a, hea, hA⟩ := exists_byte (Nat.le_trans ha.2 (by decide))
  obtain ⟨b, heb, hB⟩ := exists_byte (Nat.le_trans hb.2 (by decide))
  rw [← hA] at ha
  rw [← hB] at hb
  rw [hea, heb, leading_two ha hb]
  unfold extend
  rw [hA, hB, hn]

theorem leading_encoded_three (h : 0x800 ≤ n) (h' : n < 0x10000) (hgap : n < 0xD800 ∨ 0xDFFF < n) :
    leading (byteOf (0xE0 + n / 0x1000))
        (byteOf (0x80 + n / 0x40 % 0x40) :: byteOf (0x80 + n % 0x40) :: rest) =
      (.char (Char.ofNat n), 2) := by
  obtain ⟨ha, hb, hab, hab', hc, hn⟩ := three_digits h h' hgap
  obtain ⟨a, hea, hA⟩ := exists_byte (Nat.le_trans ha.2 (by decide))
  obtain ⟨b, heb, hB⟩ := exists_byte (Nat.le_trans hb.2 (by decide))
  obtain ⟨c, hec, hC⟩ := exists_byte (Nat.le_trans hc.2 (by decide))
  rw [← hA] at ha hab hab'
  rw [← hB] at hb hab hab'
  rw [← hC] at hc
  rw [hea, heb, hec, leading_three ha (secondOfThree_of_bounds hb hab hab') hc]
  unfold extend
  rw [hA, hB, hC, hn]

theorem leading_encoded_four (h : 0x10000 ≤ n) (h' : n < 0x110000) :
    leading (byteOf (0xF0 + n / 0x40000)) (byteOf (0x80 + n / 0x1000 % 0x40) ::
        byteOf (0x80 + n / 0x40 % 0x40) :: byteOf (0x80 + n % 0x40) :: rest) =
      (.char (Char.ofNat n), 3) := by
  obtain ⟨ha, hb, hab, hab', hc, hd, hn⟩ := four_digits h h'
  obtain ⟨a, hea, hA⟩ := exists_byte (Nat.le_trans ha.2 (by decide))
  obtain ⟨b, heb, hB⟩ := exists_byte (Nat.le_trans hb.2 (by decide))
  obtain ⟨c, hec, hC⟩ := exists_byte (Nat.le_trans hc.2 (by decide))
  obtain ⟨d, hed, hD⟩ := exists_byte (Nat.le_trans hd.2 (by decide))
  rw [← hA] at ha hab hab'
  rw [← hB] at hb hab hab'
  rw [← hC] at hc
  rw [← hD] at hd
  rw [hea, heb, hec, hed, leading_four ha (secondOfFour_of_bounds hb hab hab') hc hd]
  unfold extend
  rw [hA, hB, hC, hD, hn]

end Encoded

theorem glyphs_of_leading {a : UInt8} (tail : Bytes) {rest : Bytes} {g : Glyph}
    (h : leading a (tail ++ rest) = (g, tail.length)) :
    glyphs (a :: (tail ++ rest)) = g :: glyphs rest := by
  have skip : ∀ tail : Bytes, glyphsAfter tail.length (tail ++ rest) = glyphsAfter 0 rest := by
    intro tail
    induction tail with
    | nil => rfl
    | cons b tail ih => exact ih
  rw [glyphs, glyphsAfter, h, skip, glyphs]

/-- A text that begins with the encoding of a character is cut behind it. -/
theorem glyphs_encode_append (ch : Char) (rest : Bytes) :
    glyphs (encode ch ++ rest) = .char ch :: glyphs rest := by
  have hself : Char.ofNat ch.toNat = ch := Char.ofNat_toNat ch
  have hscalar := toNat_scalar ch
  by_cases h1 : ch.toNat < 0x80
  · have hlead := leading_encoded_one rest h1
    rw [hself] at hlead
    rw [encode_one h1]
    exact glyphs_of_leading [] hlead
  by_cases h2 : ch.toNat < 0x800
  · have hlead := leading_encoded_two rest (Nat.le_of_not_lt h1) h2
    rw [hself] at hlead
    rw [encode_two (Nat.le_of_not_lt h1) h2]
    exact glyphs_of_leading [_] hlead
  by_cases h3 : ch.toNat < 0x10000
  · have hlead := leading_encoded_three rest (Nat.le_of_not_lt h2) h3
      (hscalar.imp_right And.left)
    rw [hself] at hlead
    rw [encode_three (Nat.le_of_not_lt h2) h3]
    exact glyphs_of_leading [_, _] hlead
  · have hlead := leading_encoded_four rest (Nat.le_of_not_lt h3) (by omega)
    rw [hself] at hlead
    rw [encode_four (Nat.le_of_not_lt h3)]
    exact glyphs_of_leading [_, _, _] hlead

theorem glyphs_flatMap_encode (cs : List Char) (rest : Bytes) :
    glyphs (cs.flatMap encode ++ rest) = cs.map .char ++ glyphs rest := by
  induction cs with
  | nil => rfl
  | cons c cs ih =>
    rw [List.flatMap_cons, List.append_assoc, glyphs_encode_append, ih]
    rfl

theorem glyphs_chars (cs : List Char) : glyphs (cs.flatMap encode) = cs.map .char := by
  have hnil : glyphs [] = [] := by rw [glyphs, glyphsAfter]
  have hcut := glyphs_flatMap_encode cs []
  rwa [hnil, List.append_nil, List.append_nil] at hcut

theorem bytesOf_chars (cs : List Char) : bytesOf (cs.map .char) = cs.flatMap encode := by
  rw [bytesOf, List.flatMap_map]
  rfl

theorem exists_chars {gs : List Glyph} (h : gs.all Glyph.isChar = true) :
    ∃ cs : List Char, gs = cs.map .char := by
  induction gs with
  | nil => exact ⟨[], rfl⟩
  | cons g gs ih =>
    simp only [List.all_cons, Bool.and_eq_true] at h
    obtain ⟨cs, rfl⟩ := ih h.2
    cases g with
    | char c => exact ⟨c :: cs, rfl⟩
    | stray b => exact absurd h.1 Bool.false_ne_true

/-- Glyphs that are not all characters have a first stray byte. -/
theorem exists_stray {gs : List Glyph} (h : gs.all Glyph.isChar ≠ true) :
    ∃ (cs : List Char) (b : UInt8) (rest : List Glyph), gs = cs.map .char ++ .stray b :: rest ∧
      gs.takeWhile Glyph.isChar = cs.map .char := by
  induction gs with
  | nil => exact absurd rfl h
  | cons g gs ih =>
    cases g with
    | stray b => exact ⟨[], b, gs, rfl, rfl⟩
    | char c =>
      have htail : gs.all Glyph.isChar ≠ true := fun hall => h (by simpa [Glyph.isChar] using hall)
      obtain ⟨cs, b, rest, hgs, htake⟩ := ih htail
      refine ⟨c :: cs, b, rest, congrArg _ hgs, ?_⟩
      rw [List.takeWhile_cons_of_pos rfl, htake]
      rfl

/-- A text is well-formed exactly when it is the encoding of some characters. -/
theorem isWellFormed_iff {s : Bytes} :
    isWellFormed s = true ↔ ∃ cs : List Char, s = cs.flatMap encode := by
  constructor
  · intro h
    obtain ⟨cs, hcs⟩ := exists_chars h
    exact ⟨cs, by rw [← bytesOf_chars, ← hcs, bytesOf_glyphs]⟩
  · rintro ⟨cs, rfl⟩
    rw [isWellFormed, glyphs_chars]
    simp [Glyph.isChar]

@[simp]
theorem isWellFormed_utf8 (s : String) : isWellFormed (utf8 s) = true :=
  isWellFormed_iff.mpr ⟨s.toList, rfl⟩

theorem isWellFormed_encode (c : Char) : isWellFormed (encode c) = true :=
  isWellFormed_iff.mpr ⟨[c], (List.append_nil _).symm⟩

theorem isWellFormed_append {s t : Bytes} (hs : isWellFormed s = true)
    (ht : isWellFormed t = true) : isWellFormed (s ++ t) = true := by
  obtain ⟨cs, rfl⟩ := isWellFormed_iff.mp hs
  obtain ⟨ds, rfl⟩ := isWellFormed_iff.mp ht
  exact isWellFormed_iff.mpr ⟨cs ++ ds, List.flatMap_append.symm⟩

theorem le_byteOf {n : Nat} (h : 0x80 ≤ n) (h' : n ≤ 255) : 0x80 ≤ (byteOf n).toNat := by
  rw [byteOf_toNat (Nat.lt_succ_of_le h')]
  exact h

/-- The bytes of longer encodings are no ASCII characters. -/
theorem le_of_mem_encode {d : Char} {b : UInt8} (hd : 0x80 ≤ d.toNat) (h : b ∈ encode d) :
    0x80 ≤ b.toNat := by
  have hscalar := toNat_scalar d
  by_cases h2 : d.toNat < 0x800
  · obtain ⟨ha, hb, -⟩ := two_digits hd h2
    rw [encode_two hd h2] at h
    simp only [List.mem_cons, List.not_mem_nil, or_false] at h
    rcases h with rfl | rfl
    · exact le_byteOf (Nat.le_trans (by decide) ha.1) (Nat.le_trans ha.2 (by decide))
    · exact le_byteOf hb.1 (Nat.le_trans hb.2 (by decide))
  have h2 := Nat.le_of_not_lt h2
  by_cases h3 : d.toNat < 0x10000
  · obtain ⟨ha, hb, -, -, hc, -⟩ := three_digits h2 h3 (hscalar.imp_right And.left)
    rw [encode_three h2 h3] at h
    simp only [List.mem_cons, List.not_mem_nil, or_false] at h
    rcases h with rfl | rfl | rfl
    · exact le_byteOf (Nat.le_trans (by decide) ha.1) (Nat.le_trans ha.2 (by decide))
    · exact le_byteOf hb.1 (Nat.le_trans hb.2 (by decide))
    · exact le_byteOf hc.1 (Nat.le_trans hc.2 (by decide))
  have h3 := Nat.le_of_not_lt h3
  obtain ⟨ha, hb, -, -, hc, hd', -⟩ := four_digits h3 (by omega)
  rw [encode_four h3] at h
  simp only [List.mem_cons, List.not_mem_nil, or_false] at h
  rcases h with rfl | rfl | rfl | rfl
  · exact le_byteOf (Nat.le_trans (by decide) ha.1) (Nat.le_trans ha.2 (by decide))
  · exact le_byteOf hb.1 (Nat.le_trans hb.2 (by decide))
  · exact le_byteOf hc.1 (Nat.le_trans hc.2 (by decide))
  · exact le_byteOf hd'.1 (Nat.le_trans hd'.2 (by decide))

theorem isTail_byteOf {n : Nat} (h : 0x80 ≤ n ∧ n ≤ 0xBF) : isTail (byteOf n) = true := by
  rw [isTail_iff, byteOf_toNat (Nat.lt_of_le_of_lt h.2 (by decide))]
  exact h

theorem not_isTail_byteOf {n : Nat} (h : n < 0x80 ∨ 0xBF < n) (h' : n ≤ 255) :
    isTail (byteOf n) = false := by
  rw [Bool.eq_false_iff, ne_eq, isTail_iff, byteOf_toNat (Nat.lt_succ_of_le h')]
  omega

/-- Only the first byte of an encoding can begin one. -/
theorem encode_lead (c : Char) :
    ∃ a tail, encode c = a :: tail ∧ isTail a = false ∧ ∀ b ∈ tail, isTail b = true := by
  have hscalar := toNat_scalar c
  by_cases h1 : c.toNat < 0x80
  · exact ⟨_, [], encode_one h1, not_isTail_byteOf (.inl h1) (by omega), by simp⟩
  have h1 := Nat.le_of_not_lt h1
  by_cases h2 : c.toNat < 0x800
  · obtain ⟨ha, hb, -⟩ := two_digits h1 h2
    refine ⟨_, _, encode_two h1 h2, not_isTail_byteOf (.inr ?_) (Nat.le_trans ha.2 (by decide)), ?_⟩
    · exact Nat.lt_of_lt_of_le (by decide) ha.1
    · simpa using isTail_byteOf hb
  have h2 := Nat.le_of_not_lt h2
  by_cases h3 : c.toNat < 0x10000
  · obtain ⟨ha, hb, -, -, hc, -⟩ := three_digits h2 h3 (hscalar.imp_right And.left)
    refine ⟨_, _, encode_three h2 h3,
      not_isTail_byteOf (.inr ?_) (Nat.le_trans ha.2 (by decide)), ?_⟩
    · exact Nat.lt_of_lt_of_le (by decide) ha.1
    · simpa using ⟨isTail_byteOf hb, isTail_byteOf hc⟩
  have h3 := Nat.le_of_not_lt h3
  obtain ⟨ha, hb, -, -, hc, hd, -⟩ := four_digits h3 (by omega)
  refine ⟨_, _, encode_four h3, not_isTail_byteOf (.inr ?_) (Nat.le_trans ha.2 (by decide)), ?_⟩
  · exact Nat.lt_of_lt_of_le (by decide) ha.1
  · simpa using ⟨isTail_byteOf hb, isTail_byteOf hc, isTail_byteOf hd⟩

/-- No encoding is a proper beginning of another. -/
theorem encode_append_inj {c d : Char} {rest : Bytes} (h : encode c = encode d ++ rest) :
    rest = [] := by
  have hcut : glyphs (encode c) = .char d :: glyphs rest := by rw [h, glyphs_encode_append]
  have hself : glyphs (encode c) = [.char c] := by
    have hone := glyphs_encode_append c []
    rwa [List.append_nil] at hone
  have hrest : glyphs rest = [] := (List.cons.inj (hcut.symm.trans hself)).2
  rw [← bytesOf_glyphs rest, hrest]
  rfl

/-- A well-formed text falls into two before each byte that can begin an encoding. -/
theorem isWellFormed_split {s rest : Bytes} {a : UInt8} (ha : isTail a = false)
    (h : isWellFormed (s ++ a :: rest) = true) :
    isWellFormed s = true ∧ isWellFormed (a :: rest) = true := by
  obtain ⟨cs, hcs⟩ := isWellFormed_iff.mp h
  clear h
  induction cs generalizing s with
  | nil => simp at hcs
  | cons d cs ih =>
    have hwhole : isWellFormed (s ++ a :: rest) = true := isWellFormed_iff.mpr ⟨_, hcs⟩
    rw [List.flatMap_cons] at hcs
    rcases List.append_eq_append_iff.mp hcs with ⟨more, hs, hmore⟩ | ⟨more, rfl, hmore⟩
    · cases more with
      | nil =>
        rw [List.append_nil] at hs
        exact ⟨hs ▸ isWellFormed_encode d, isWellFormed_iff.mpr ⟨cs, hmore⟩⟩
      | cons m more =>
        obtain ⟨rfl, -⟩ := List.cons.inj hmore
        cases s with
        | nil => exact ⟨rfl, hwhole⟩
        | cons b s =>
          obtain ⟨b', tail, hlead, -, htail⟩ := encode_lead d
          rw [hlead] at hs
          have hmem : a ∈ tail := by
            rw [(List.cons.inj hs).2]
            simp
          rw [htail a hmem] at ha
          cases ha
    · obtain ⟨hleft, hright⟩ := ih hmore.symm
      exact ⟨isWellFormed_append (isWellFormed_encode d) hleft, hright⟩

/-- No well-formed text ends inside the encoding of a character, whatever stands before that. -/
theorem not_isWellFormed_cut {c : Char} {part rest : Bytes} (hc : encode c = part ++ rest)
    (hpart : part ≠ []) (hrest : rest ≠ []) (before : Bytes) :
    isWellFormed (before ++ part) = false := by
  obtain ⟨a, tail, hlead, ha, -⟩ := encode_lead c
  obtain ⟨b, part, rfl⟩ := List.exists_cons_of_ne_nil hpart
  obtain rfl : a = b := (List.cons.inj (hlead.symm.trans hc)).1
  rw [Bool.eq_false_iff]
  intro hwell
  obtain ⟨cs, hcs⟩ := isWellFormed_iff.mp (isWellFormed_split ha hwell).2
  cases cs with
  | nil => cases hcs
  | cons d cs =>
    have hwhole : encode c = encode d ++ (cs.flatMap encode ++ rest) := by
      rw [hc, hcs, List.flatMap_cons, List.append_assoc]
    exact hrest (List.append_eq_nil_iff.mp (encode_append_inj hwhole)).2

theorem ascii_toNat {c : Char} (hc : c.toNat < 0x80) : (ascii c).toNat = c.toNat :=
  byteOf_toNat (Nat.lt_trans hc (by decide))

theorem encode_ascii {c : Char} (hc : c.toNat < 0x80) : encode c = [ascii c] := encode_one hc

theorem ascii_mem_encode {c d : Char} (hc : c.toNat < 0x80) : ascii c ∈ encode d ↔ d = c := by
  constructor
  · intro h
    by_cases hd : d.toNat < 0x80
    · rw [encode_ascii hd, List.mem_singleton] at h
      have he : c.toNat = d.toNat := by rw [← ascii_toNat hc, h, ascii_toNat hd]
      exact (Char.toNat_inj.mp he).symm
    · have hle := le_of_mem_encode (Nat.le_of_not_lt hd) h
      rw [ascii_toNat hc] at hle
      exact absurd hc (Nat.not_lt.mpr hle)
  · rintro rfl
    rw [encode_ascii hc]
    exact List.mem_singleton.mpr rfl

theorem ascii_mem_flatMap_encode {c : Char} {cs : List Char} (hc : c.toNat < 0x80) :
    ascii c ∈ cs.flatMap encode ↔ c ∈ cs := by
  rw [List.mem_flatMap]
  constructor
  · rintro ⟨d, hd, hmem⟩
    exact (ascii_mem_encode hc).mp hmem ▸ hd
  · intro h
    exact ⟨c, h, (ascii_mem_encode hc).mpr rfl⟩

end NodePath.Text
