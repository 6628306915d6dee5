import NodePath.Diagnostic
import NodePath.Proofs.Numerals

/-!
# Texts that stand on one line

Quoting keeps every line end out of a text, and numerals and the words of the library hold none. So
whatever a message is made of, it stands on one line, and so do the line of the source that is shown
with it and the caret below.
-/

namespace NodePath

open NodePath.Text NodePath.Number

/-- A text without a line end. -/
def IsLine (s : Bytes) : Prop := newline ∉ s

instance (s : Bytes) : Decidable (IsLine s) := inferInstanceAs (Decidable (newline ∉ s))

section Lines

variable {s t : Bytes}

@[simp]
theorem isLine_append : IsLine (s ++ t) ↔ IsLine s ∧ IsLine t := by
  simp [IsLine, not_or]

theorem IsLine.of_subset (h : IsLine t) (hst : s ⊆ t) : IsLine s := fun hmem => h (hst hmem)

/-- A text of printable characters. -/
def Printed (s : Bytes) : Prop :=
  ∃ cs : List Char, s = cs.flatMap encode ∧ ∀ c ∈ cs, isPrintable c = true

theorem Printed.isLine (h : Printed s) : IsLine s := by
  obtain ⟨cs, rfl, hcs⟩ := h
  intro hmem
  have hnewline : '\n' ∈ cs := (ascii_mem_flatMap_encode (by decide)).mp hmem
  exact absurd (hcs _ hnewline) (by decide)

theorem Printed.append (hs : Printed s) (ht : Printed t) : Printed (s ++ t) := by
  obtain ⟨cs, rfl, hcs⟩ := hs
  obtain ⟨ds, rfl, hds⟩ := ht
  exact ⟨cs ++ ds, List.flatMap_append.symm, List.forall_mem_append.mpr ⟨hcs, hds⟩⟩

theorem printed_flatMap {α : Type} {f : α → Bytes} {items : List α}
    (h : ∀ item ∈ items, Printed (f item)) : Printed (items.flatMap f) := by
  induction items with
  | nil => exact ⟨[], rfl, nofun⟩
  | cons item items ih =>
    rw [List.flatMap_cons]
    exact (h item List.mem_cons_self).append
      (ih fun other hother => h other (List.mem_cons_of_mem item hother))

theorem printed_encode {c : Char} (hc : isPrintable c = true) : Printed (encode c) :=
  ⟨[c], (List.flatMap_singleton ..).symm, by simpa using hc⟩

/-- The printable ASCII characters, of one byte each. -/
def isPlainByte (b : UInt8) : Bool := 0x20 ≤ b && b < 0x7F

theorem printed_ascii (h : s.all isPlainByte = true) : Printed s := by
  have hall : ∀ n < 0x7F, 0x20 ≤ n →
      encode (Char.ofNat n) = [byteOf n] ∧ isPrintable (Char.ofNat n) = true := by decide
  have hbyte : ∀ b ∈ s, Printed [b] := by
    intro b hb
    obtain ⟨hlow, hhigh⟩ : 0x20 ≤ b ∧ b < 0x7F := by
      simpa [isPlainByte] using List.all_eq_true.mp h b hb
    obtain ⟨hencode, hprintable⟩ := hall b.toNat hhigh hlow
    rw [byteOf, UInt8.ofNat_toNat] at hencode
    exact hencode ▸ printed_encode hprintable
  rw [← List.flatMap_singleton' s]
  exact printed_flatMap hbyte

theorem printed_decimal (n : Nat) : Printed (decimal n) := by
  refine printed_ascii (List.all_eq_true.mpr fun b hb => ?_)
  have hdigit : ascii '0' ≤ b ∧ b ≤ ascii '9' := by
    simpa [isDigit] using (isNumeral_decimal n).2 b hb
  have hlow : 0x20 ≤ b := Nat.le_trans (by decide) hdigit.1
  have hhigh : b < 0x7F := Nat.lt_of_le_of_lt hdigit.2 (by decide)
  simp [isPlainByte, hlow, hhigh]

theorem printed_hex (width n : Nat) : Printed (hex width n) := by
  induction width generalizing n with
  | zero => exact printed_ascii rfl
  | succ width ih =>
    have hdigit : ∀ d < 16, isPlainByte (hexDigit d) = true := by decide
    have hlast : Printed [hexDigit (n % 16)] :=
      printed_ascii (by simp [hdigit (n % 16) (Nat.mod_lt n (by decide))])
    exact (ih (n / 16)).append hlast

/-- The letter of a control character is no control character. -/
theorem printed_controlLetter {c letter : Char} (h : controlLetter c = some letter) :
    Printed [ascii '\\', ascii letter] := by
  unfold controlLetter at h
  split at h <;> cases h
  all_goals exact printed_ascii (by decide)

theorem printed_escapeChar {delimiter : Char} (hd : delimiter ∈ quotes) (c : Char) :
    Printed (escapeChar delimiter c) := by
  unfold escapeChar
  split
  · next hc =>
    have hall : ('\\' :: quotes).all (fun d => [ascii '\\', ascii d].all isPlainByte) = true := by
      decide
    refine printed_ascii (List.all_eq_true.mp hall c ?_)
    rcases hc with rfl | rfl
    · exact List.mem_cons_of_mem _ hd
    · exact List.mem_cons_self
  · split
    · next hprintable => exact printed_encode hprintable
    · split
      · next hletter => exact printed_controlLetter hletter
      · split
        · exact (printed_ascii (by decide)).append (printed_hex ..)
        · split
          · exact (printed_ascii (by decide)).append (printed_hex ..)
          · exact (printed_ascii (by decide)).append (printed_hex ..)

theorem printed_quoted (s : Bytes) : Printed (quoted s) := by
  have hinner : ∀ g ∈ glyphs s, Printed (escapeGlyph '"' g) := by
    intro g _
    cases g with
    | char c => exact printed_escapeChar (by decide) c
    | stray b => exact (printed_ascii (by decide)).append (printed_hex ..)
  have hquote : Printed [ascii '"'] := printed_ascii (by decide)
  exact (hquote.append (printed_flatMap hinner)).append hquote

theorem isLine_quoted (s : Bytes) : IsLine (quoted s) := (printed_quoted s).isLine

theorem isLine_decimal (n : Nat) : IsLine (decimal n) := (printed_decimal n).isLine

theorem isLine_decimalInt (i : Int) : IsLine (decimalInt i) := by
  cases i with
  | ofNat n => exact isLine_decimal n
  | negSucc n => exact isLine_append.mpr ⟨(by decide : IsLine [ascii '-']), isLine_decimal (n + 1)⟩

theorem isLine_quotedChar (c : Char) : IsLine (quotedChar c) :=
  isLine_append.mpr
    ⟨isLine_append.mpr ⟨by decide, (printed_escapeChar (by decide) c).isLine⟩, by decide⟩

end Lines

theorem LexCause.isLine_message (cause : LexCause) : IsLine cause.message := by
  cases cause with
  | integerRange digits =>
    exact isLine_append.mpr ⟨isLine_append.mpr ⟨by decide, isLine_quoted digits⟩, by decide⟩
  | floatRange digits =>
    exact isLine_append.mpr ⟨isLine_append.mpr ⟨by decide, isLine_quoted digits⟩, by decide⟩
  | unexpected c => exact isLine_append.mpr ⟨by decide, isLine_quotedChar c⟩
  | _ => decide

theorem Kind.isLine_label (k : Kind) : IsLine k.label := by
  cases k with
  | unknown code =>
    exact isLine_append.mpr ⟨isLine_append.mpr ⟨by decide, isLine_decimalInt code⟩, by decide⟩
  | _ => decide

theorem Token.isLine_describe (t : Token) : IsLine t.describe := by
  unfold Token.describe
  split
  · decide
  · split
    · exact t.kind.isLine_label
    · simp only [isLine_append]
      exact ⟨⟨t.kind.isLine_label, by decide⟩, isLine_quoted t.lexeme⟩

theorem Expectation.isLine_text (e : Expectation) : IsLine e.text := by
  cases e with
  | shallowNesting =>
    exact isLine_append.mpr ⟨isLine_append.mpr ⟨by decide, isLine_decimal maxLevels⟩, by decide⟩
  | _ => decide

theorem Position.isLine_text (p : Position) : IsLine p.text := by
  simp only [Position.text, isLine_append]
  exact ⟨⟨⟨⟨by decide, isLine_decimal p.line⟩, by decide⟩, isLine_decimal p.column⟩, by decide⟩

section Excerpt

variable (source : Bytes) (offset : Int)

theorem isLine_takeWhile (s : Bytes) : IsLine (s.takeWhile (· ≠ newline)) := by
  intro hmem
  have hne := List.all_eq_true.mp List.all_takeWhile newline hmem
  exact of_decide_eq_true hne rfl

theorem isLine_lineHead : IsLine (lineHead source offset) :=
  (isLine_takeWhile (source.take (clamp offset source)).reverse).of_subset
    (List.reverse_subset.mpr (List.Subset.refl _))

theorem isLine_excerpt : IsLine (excerpt source offset) := by
  have hline : IsLine (lineHead source offset ++ lineTail source offset) :=
    isLine_append.mpr ⟨isLine_lineHead source offset, isLine_takeWhile _⟩
  refine hline.of_subset ?_
  intro b hb
  exact List.mem_reverse.mp ((List.dropWhile_suffix _).subset (List.mem_reverse.mp hb))

theorem isLine_caretPadding : IsLine (caretPadding source offset) := by
  intro hmem
  obtain ⟨g, -, hg⟩ := List.mem_map.mp hmem
  split at hg
  · exact absurd hg (by decide)
  · exact absurd hg (by decide)

end Excerpt

/-- What is written for a problem with a place, without colours, is three lines: the message with
its place, the line of the source, and the caret. -/
theorem render_located {source message : Bytes} (offset : Int) (h : IsLine message) :
    ∃ first second third, IsLine first ∧ IsLine second ∧ IsLine third ∧
      (Problem.located offset message).render false source =
        first ++ [newline] ++ (second ++ [newline]) ++ (third ++ [newline]) := by
  refine ⟨utf8 "error:" ++ utf8 " " ++ message ++ utf8 " " ++ (position source offset).text,
    utf8 "  " ++ excerpt source offset, utf8 "  " ++ caretPadding source offset ++ utf8 "^",
    ?_, ?_, ?_, ?_⟩
  · simp only [isLine_append]
    exact ⟨⟨⟨⟨by decide, by decide⟩, h⟩, by decide⟩, (position source offset).isLine_text⟩
  · exact isLine_append.mpr ⟨by decide, isLine_excerpt source offset⟩
  · simp only [isLine_append]
    exact ⟨⟨by decide, isLine_caretPadding source offset⟩, by decide⟩
  · have hbreak : utf8 "\n  " = [newline] ++ utf8 "  " := by decide
    rw [Problem.render, hbreak]
    simp [errorLabel, Style.apply]

end NodePath
