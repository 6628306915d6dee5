import NodePath.Dump.Json
import NodePath.Proofs.DumpTranslation
import NodePath.Proofs.RoundTrip

/-!
# How deep a JSON text may be nested

A value has a JSON text exactly when no more lists and records lie inside each other than the limit
allows. The limit is met by selectors too: a sum is read without any nesting, but its record holds
that of its left operand, so a sum with as many signs as there are levels has no JSON text.
-/

namespace NodePath

open NodePath.Text

variable {v : Value}

theorem Value.encoded_of_shallow (h : v.depth ≤ maxJsonDepth) : v.encoded = .ok v.json :=
  if_pos h

theorem Value.encoded_of_deep (h : maxJsonDepth < v.depth) : v.encoded = .error .tooDeep :=
  if_neg (Nat.not_le.mpr h)

section Sums

/-- The number one, added to itself again and again. -/
def sum : Nat → Expr
  | 0 => .number (.ofInt 1)
  | n + 1 => .binary .add .absent (sum n) (.number (.ofInt 1))

def sumText : Nat → Bytes
  | 0 => utf8 "1"
  | n + 1 => sumText n ++ utf8 " + 1"

theorem one_wellFormed : NumberLit.WellFormed (.ofInt 1) :=
  .inl ⟨1, by decide, by decide, rfl⟩

/-- Sums are joined from the left, so they need no groups. -/
theorem scans_sumText (n : Nat) :
    Scans Stops (sumText n) fun ts => Derives (.level 1) 0 ts (sum n) := by
  have htext : (NumberLit.ofInt 1).text = utf8 "1" := by decide +kernel
  have hone : ∀ {level : Nat}, level ≤ 10 → Scans Stops (utf8 "1") fun ts =>
      Derives (.level level) 0 ts (sum 0) := fun hlevel =>
    htext ▸ ((number_readable one_wellFormed).unary rfl).imp fun _ hts => hts.unary_level hlevel
  have htakes : Operator.Takes .add .absent := ⟨by decide, by decide⟩
  obtain ⟨level, k, ⟨hlow, hhigh⟩, hlevel, hop⟩ := scans_operator htakes
  have hsum : Scans Stops (sumText n) fun ts => Derives (.level level) 0 ts (sum n) := by
    induction n with
    | zero => exact hone (by omega)
    | succ n ih =>
      have hscan := scans_binary htakes hlevel hop ih (hone (by omega))
      rw [List.append_assoc, List.append_assoc, List.append_assoc] at hscan
      exact hscan
  exact hsum.imp fun _ hts => hts.loosen hlow

theorem parse_sumText (n : Nat) : parse (sumText n) = .ok (sum n) := by
  obtain ⟨tokens, htokens, hden⟩ := (scans_sumText n).tokenize .done
  exact parse_of_denotes htokens hden (Nat.zero_le 255)

theorem sum_translation (n : Nat) : (sum (n + 1)).translation =
    [(utf8 "kind", .text (utf8 "binary")), (utf8 "lhs", .record (sum n).translation),
      (utf8 "op", .text (utf8 "+")), (utf8 "rhs", .record (sum 0).translation)] := by
  rfl

/-- Each sign puts the record of a sum one level deeper. -/
theorem sum_depth (n : Nat) : (Value.record (sum n).translation).depth = n + 1 := by
  induction n with
  | zero => rfl
  | succ n ih =>
    have hone : (Value.record (sum 0).translation).depth = 1 := rfl
    rw [sum_translation]
    simp only [Value.depth, fieldsDepth] at ih hone ⊢
    omega

end Sums

end NodePath
