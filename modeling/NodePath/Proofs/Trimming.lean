import Mathlib.Data.List.DropRight
import Mathlib.Data.List.TakeWhile
import NodePath.Proofs.Scanning
import NodePath.Text.Blank

/-!
# Cutting and trimming texts

A text is cut at a byte into the part before its first occurrence and the part after it, or into all
the pieces between its occurrences. Glyphs are cut apart at every byte that continues no encoding, so
white space is trimmed on either side of such a byte without a look at the other side.
-/

namespace NodePath.Text

section Cuts

variable {sep : UInt8} {s before after : Bytes}

theorem cutAt_append (h : sep ∉ before) (after : Bytes) :
    cutAt sep (before ++ sep :: after) = some (before, after) := by
  induction before with
  | nil => simp [cutAt]
  | cons b before ih =>
    rw [List.mem_cons, not_or] at h
    rw [List.cons_append, cutAt, if_neg (Ne.symm h.1), ih h.2]
    rfl

theorem cutAt_eq_some_iff :
    cutAt sep s = some (before, after) ↔ s = before ++ sep :: after ∧ sep ∉ before := by
  refine ⟨fun h => ?_, fun ⟨hs, hbefore⟩ => hs ▸ cutAt_append hbefore after⟩
  induction s generalizing before with
  | nil => cases h
  | cons b s ih =>
    rw [cutAt] at h
    split at h
    · next hb =>
      cases h
      exact ⟨by rw [hb]; rfl, List.not_mem_nil⟩
    · next hb =>
      obtain ⟨⟨front, back⟩, hcut, heq⟩ := Option.map_eq_some_iff.mp h
      cases heq
      obtain ⟨rfl, hfront⟩ := ih hcut
      exact ⟨rfl, by simp [Ne.symm hb, hfront]⟩

theorem cutAt_eq_none_iff : cutAt sep s = none ↔ sep ∉ s := by
  induction s with
  | nil => simp [cutAt]
  | cons b s ih =>
    rw [cutAt]
    by_cases hb : b = sep
    · simp [hb]
    · simp [hb, ih, Ne.symm hb]

theorem splitAt_eq_splitOn (sep : UInt8) (s : Bytes) : splitAt sep s = s.splitOn sep := by
  induction s with
  | nil => rfl
  | cons b s ih =>
    rw [List.splitOn_cons_eq_if_modifyHead, splitAt, ih]
    by_cases hb : b = sep
    · simp [hb]
    · obtain ⟨piece, pieces, hsplit⟩ := List.exists_cons_of_ne_nil (List.splitOn_ne_nil sep s)
      simp [hb, hsplit]

end Cuts

section Glyphs

variable {s rest : Bytes}

theorem secondOfThree_of_not_tail {a b : UInt8} (h : isTail b = false) :
    secondOfThree a b = false := by
  rw [Bool.eq_false_iff] at h ⊢
  intro hb
  obtain ⟨hlow, hhigh, -⟩ := secondOfThree_bounds hb
  exact h (isTail_iff.mpr ⟨hlow, hhigh⟩)

theorem secondOfFour_of_not_tail {a b : UInt8} (h : isTail b = false) :
    secondOfFour a b = false := by
  rw [Bool.eq_false_iff] at h ⊢
  intro hb
  obtain ⟨hlow, hhigh, -⟩ := secondOfFour_bounds hb
  exact h (isTail_iff.mpr ⟨hlow, hhigh⟩)

/-- A glyph ends before a byte that continues no encoding. -/
theorem leading_append (a : UInt8) (s : Bytes) (h : ∀ b ∈ rest.head?, isTail b = false) :
    leading a (s ++ rest) = leading a s := by
  cases rest with
  | nil => rw [List.append_nil]
  | cons r rest =>
    have hr : isTail r = false := h r rfl
    have hthree := secondOfThree_of_not_tail (a := a) hr
    have hfour := secondOfFour_of_not_tail (a := a) hr
    match s with
    | [] => rcases rest with _ | ⟨c, _ | ⟨d, rest⟩⟩ <;> simp [leading, hr, hthree, hfour]
    | [b] => rcases rest with _ | ⟨d, rest⟩ <;> simp [leading, hr]
    | [b, c] => simp [leading, hr]
    | b :: c :: d :: s => rfl

theorem leading_le (a : UInt8) (s : Bytes) : (leading a s).2 ≤ s.length := by
  unfold leading
  repeat' split
  all_goals simp

theorem glyphsAfter_append (h : ∀ b ∈ rest.head?, isTail b = false) {s : Bytes} {taken : Nat}
    (htaken : taken ≤ s.length) :
    glyphsAfter taken (s ++ rest) = glyphsAfter taken s ++ glyphs rest := by
  induction s generalizing taken with
  | nil =>
    obtain rfl : taken = 0 := Nat.le_zero.mp htaken
    rfl
  | cons a s ih =>
    cases taken with
    | succ taken => exact ih (Nat.le_of_succ_le_succ htaken)
    | zero =>
      rw [List.cons_append, glyphsAfter, glyphsAfter, leading_append a s h, ih (leading_le a s)]
      rfl

theorem glyphs_append (h : ∀ b ∈ rest.head?, isTail b = false) (s : Bytes) :
    glyphs (s ++ rest) = glyphs s ++ glyphs rest :=
  glyphsAfter_append h (Nat.zero_le _)

end Glyphs

section Trim

variable {s name value : Bytes}

/-- What is left between the blanks at the two ends. -/
def inner (gs : List Glyph) : List Glyph :=
  (gs.dropWhile (Glyph.satisfies isBlank)).rdropWhile (Glyph.satisfies isBlank)

theorem trim_eq (s : Bytes) : trim s = bytesOf (inner (glyphs s)) := rfl

theorem bytes_ne_nil (g : Glyph) : g.bytes ≠ [] := by
  cases g with
  | char c => exact encode_ne_nil c
  | stray b => exact List.cons_ne_nil b []

theorem eq_nil_of_bytesOf {gs : List Glyph} (h : bytesOf gs = []) : gs = [] := by
  cases gs with
  | nil => rfl
  | cons g gs => exact absurd (List.append_eq_nil_iff.mp h).1 (bytes_ne_nil g)

/-- A text is trimmed when no glyph falls away on either side. -/
theorem trim_eq_self_iff : trim s = s ↔
    (glyphs s).dropWhile (Glyph.satisfies isBlank) = glyphs s ∧
      (glyphs s).rdropWhile (Glyph.satisfies isBlank) = glyphs s := by
  constructor
  · intro h
    obtain ⟨front, hfront⟩ : (glyphs s).dropWhile (Glyph.satisfies isBlank) <:+ glyphs s :=
      List.dropWhile_suffix _
    obtain ⟨back, hback⟩ : inner (glyphs s) <+: (glyphs s).dropWhile (Glyph.satisfies isBlank) :=
      List.rdropWhile_prefix _ _
    have hwhole : bytesOf front ++ (s ++ bytesOf back) = s := by
      calc bytesOf front ++ (s ++ bytesOf back)
          = bytesOf front ++ (bytesOf (inner (glyphs s)) ++ bytesOf back) := by rw [← trim_eq, h]
        _ = bytesOf (glyphs s) := by rw [← bytesOf_append, hback, ← bytesOf_append, hfront]
        _ = s := bytesOf_glyphs s
    -- Nothing is left for the two ends, since the middle is the whole text.
    have hlength := congrArg List.length hwhole
    rw [List.length_append, List.length_append] at hlength
    have hnofront : front = [] := eq_nil_of_bytesOf (List.length_eq_zero_iff.mp (by omega))
    have hnoback : back = [] := eq_nil_of_bytesOf (List.length_eq_zero_iff.mp (by omega))
    rw [hnofront, List.nil_append] at hfront
    rw [hnoback, List.append_nil, inner, hfront] at hback
    exact ⟨hfront, hback⟩
  · rintro ⟨hleft, hright⟩
    rw [trim_eq, inner, hleft, hright, bytesOf_glyphs]

/-- Two trimmed texts, of which the first is not empty, are trimmed with a sign between them. -/
theorem trim_joined {c : Char} (hc : c.toNat < 0x80) (hblank : isBlank c = false) (hne : name ≠ [])
    (hname : trim name = name) (hvalue : trim value = value) :
    trim (name ++ ascii c :: value) = name ++ ascii c :: value := by
  rw [trim_eq_self_iff] at hname hvalue ⊢
  have htail : ∀ b ∈ (ascii c :: value).head?, isTail b = false := by
    rintro _ ⟨⟩
    exact not_isTail_byteOf (.inl hc) (by omega)
  rw [glyphs_append htail, glyphs_ascii hc]
  constructor
  · have hsome : glyphs name ≠ [] := by
      intro hnil
      rw [← bytesOf_glyphs name, hnil] at hne
      exact hne rfl
    rw [List.dropWhile_append, hname.1, if_neg (by simpa using hsome)]
  · have hsign : Glyph.satisfies isBlank (.char c) = false := hblank
    have hvalue := hvalue.2
    rw [List.rdropWhile, List.reverse_eq_iff] at hvalue ⊢
    rw [List.reverse_append, List.reverse_cons, List.append_assoc, List.dropWhile_append, hvalue]
    split
    · next hnil => simp [hsign, List.isEmpty_iff.mp hnil]
    · rfl

end Trim

end NodePath.Text
