import NodePath.Proofs.FirstFailure
import NodePath.Proofs.Leaves
import NodePath.Proofs.Lookahead
import NodePath.Proofs.MaximalMunch

/-!
# Integer literals keep their values

Where the scanner comes upon a run of digits that is no part of a fraction, the value of the whole
run decides: below `2 ^ 63` the run is an integer token, and from there on it is out of range,
however many zeros it begins with. The number in the tree has that value, and it is written with the
shortest numeral of the value, which reads back as the same number.
-/

namespace NodePath

open NodePath.Text NodePath.Number

section Suffixes

theorem glyphsAfter_eq (taken : Nat) (s : Bytes) : glyphsAfter taken s = glyphs (s.drop taken) := by
  induction s generalizing taken with
  | nil => cases taken <;> rfl
  | cons b rest ih =>
    cases taken with
    | zero => rfl
    | succ taken => rw [glyphsAfter, ih, List.drop_succ_cons]

/-- What is left of the glyphs of a text are the glyphs of what is left of its bytes. -/
theorem glyphs_bytesOf_suffix {s : Bytes} {gs : List Glyph} (h : gs <:+ glyphs s) :
    glyphs (bytesOf gs) = gs := by
  obtain ⟨front, hfront⟩ := h
  induction front generalizing s with
  | nil => rw [show gs = glyphs s from hfront, bytesOf_glyphs]
  | cons g front ih =>
    cases s with
    | nil => cases hfront
    | cons b rest =>
      rw [glyphs, glyphsAfter, glyphsAfter_eq, List.cons_append] at hfront
      exact ih (List.cons.inj hfront).2

theorem symbolLexeme_suffix {c : Char} {after : List Glyph} {l : Lexeme after}
    (h : symbolLexeme c after = .ok l) : l.rest <:+ after := by
  unfold symbolLexeme at h
  split at h <;> cases h
  all_goals first
    | exact List.suffix_rfl
    | exact List.suffix_cons _ _

theorem literalLexeme_suffix {q : Char} {after : List Glyph} {l : Lexeme after}
    (h : literalLexeme q after = .ok l) : l.rest <:+ after := by
  unfold literalLexeme at h
  dsimp only at h
  split at h
  · cases h
  · next g rest hsplit =>
    split at h
    · cases h
      have hrest : rest <:+ after.dropWhile (· ≠ .char q) := hsplit ▸ List.suffix_cons g rest
      exact hrest.trans (List.dropWhile_suffix _)
    · cases h

/-- A lexeme takes glyphs from the front. -/
theorem lexemeAt_suffix {o : Nat} {g : Glyph} {after : List Glyph} {l : Lexeme after}
    (h : lexemeAt o g after = .ok l) : l.rest <:+ after := by
  cases g with
  | stray b => cases h
  | char c =>
    rw [lexemeAt] at h
    split at h
    · cases h
      exact List.dropWhile_suffix _
    · split at h
      · rcases numberLexeme_cases (ok_of_mapError h) with ⟨_, _, -, -, -, hcovers⟩ |
          ⟨d, tail, _, _, hsplit, -, -, -, hcovers⟩
        · rw [hcovers.rest]
          exact List.dropWhile_suffix _
        · rw [hcovers.rest]
          have htail : tail <:+ after.dropWhile (Glyph.satisfies isNumeralDigit) :=
            hsplit ▸ ⟨[.char '.', d], rfl⟩
          exact (List.dropWhile_suffix _).trans (htail.trans (List.dropWhile_suffix _))
      · split at h
        · exact literalLexeme_suffix (ok_of_mapError h)
        · exact symbolLexeme_suffix (ok_of_mapError h)

namespace Scanner

variable {s s' : Scanner} {source : Bytes}

theorem Step.suffix (h : Step s s') : s'.left <:+ s.left := by
  cases h with
  | gap hg => exact List.suffix_cons _ _
  | token hg hl => exact (lexemeAt_suffix hl).trans (List.suffix_cons _ _)

theorem Run.suffix (h : Run (start source) s) : s.left <:+ glyphs source := by
  induction h with
  | refl => exact List.suffix_rfl
  | tail _ hstep ih => exact hstep.suffix.trans ih

/-- The scanner looks at the source from its offset on. -/
theorem Run.left_eq (h : Run (start source) s) : s.left = glyphs (source.drop s.offset) := by
  obtain ⟨read, hread⟩ := h.reached
  have hdrop : source.drop s.offset = bytesOf s.left := by
    rw [hread.source_eq, hread.offset_eq, List.drop_left]
  rw [hdrop, glyphs_bytesOf_suffix h.suffix]

end Scanner

end Suffixes

section Runs

variable {ds rest : Bytes}

/-- A run of digits stands in front of anything but a further digit or a fraction. -/
structure IsRun (ds rest : Bytes) : Prop where
  numeral : IsNumeral ds
  ends : ∀ b ∈ rest.head?, isDigit b = false
  whole : ∀ b more, rest = ascii '.' :: b :: more → isDigit b = false

theorem bytesOf_digit {c : Char} (hc : isNumeralDigit c = true) (gs : List Glyph) :
    ∃ b more, bytesOf (.char c :: gs) = b :: more ∧ isDigit b = true := by
  obtain ⟨hne, hdigits⟩ := isNumeral_encode hc
  obtain ⟨b, more, hencode⟩ := List.exists_cons_of_ne_nil hne
  refine ⟨b, more ++ bytesOf gs, ?_, hdigits b (hencode ▸ List.mem_cons_self)⟩
  rw [bytesOf_cons, Glyph.bytes, hencode, List.cons_append]

theorem IsRun.notBefore (h : IsRun ds rest) : NotBefore isNumeralDigit rest := by
  intro g hg
  obtain ⟨gs, hgs⟩ := List.head?_eq_some_iff.mp hg
  cases g with
  | stray b => rfl
  | char c =>
    refine Bool.eq_false_iff.mpr fun hc => ?_
    obtain ⟨b, more, hbytes, hb⟩ := bytesOf_digit hc gs
    rw [← hgs, bytesOf_glyphs] at hbytes
    have hend : isDigit b = false := h.ends b (by rw [hbytes]; rfl)
    rw [hend] at hb
    cases hb

theorem IsRun.point (h : IsRun ds rest) (d : Glyph) (tail : List Glyph)
    (hgs : glyphs rest = .char '.' :: d :: tail) : Glyph.satisfies isNumeralDigit d = false := by
  cases d with
  | stray b => rfl
  | char c =>
    refine Bool.eq_false_iff.mpr fun hc => ?_
    obtain ⟨b, more, hbytes, hb⟩ := bytesOf_digit hc tail
    have hrest : rest = ascii '.' :: b :: more := by
      rw [← hbytes, ← bytesOf_glyphs rest, hgs]
      rfl
    rw [h.whole b more hrest] at hb
    cases hb

/-- At a run of digits the scanner takes the run as an integer, or fails if it is out of range. -/
theorem IsRun.lexemeAt (h : IsRun ds rest) (o : Nat) :
    ∃ c after, glyphs (ds ++ rest) = .char c :: after ∧ isGap c = false ∧
      (natOfDigits ds < 2 ^ 63 → ∃ l, NodePath.lexemeAt o (.char c) after = .ok l ∧
        l.Covers .integer ds .absent ds.length (glyphs rest)) ∧
      (2 ^ 63 ≤ natOfDigits ds →
        NodePath.lexemeAt o (.char c) after = .error ⟨o, .integerRange ds⟩) := by
  have hnumeral := h.numeral
  have hvalue := integer?_numeral hnumeral
  obtain ⟨c, cs, hc, hcs, hds⟩ := hnumeral.chars
  obtain ⟨hle, hl⟩ := lexemeAt_numeral hc hcs h.notBefore h.point o
  rw [← List.flatMap_cons, ← hds] at hl
  refine ⟨c, glyphs (cs.flatMap encode ++ rest), ?_, (digit_classes hc).1, fun hlow => ?_,
    fun hhigh => ?_⟩
  · rw [hds, List.flatMap_cons, List.append_assoc, glyphs_encode_append]
  · rw [if_pos hlow] at hvalue
    rw [hl, numberLexeme.integer, hvalue]
    exact ⟨_, rfl, rfl, rfl, rfl, rfl, rfl⟩
  · rw [if_neg (Nat.not_lt.mpr hhigh)] at hvalue
    rw [hl, numberLexeme.integer, hvalue]
    rfl

namespace Scanner

variable {s : Scanner} {source : Bytes}

/-- The scanner has come to a run of digits in a source. -/
def AtRun (source : Bytes) (s : Scanner) (ds rest : Bytes) : Prop :=
  Run (start source) s ∧ source.drop s.offset = ds ++ rest ∧ IsRun ds rest

/-- The token that a run of digits is. -/
def integerToken (ds : Bytes) (offset : Nat) : Token := ⟨.integer, ds, offset, .absent⟩

theorem AtRun.step (h : AtRun source s ds rest) (hlow : natOfDigits ds < 2 ^ 63) :
    Step s ⟨s.offset + ds.length, glyphs rest, s.given ++ [integerToken ds s.offset]⟩ := by
  obtain ⟨hrun, hdrop, hds⟩ := h
  obtain ⟨c, after, hglyphs, hgap, htaken, -⟩ := hds.lexemeAt s.offset
  obtain ⟨l, hl, hkind, htext, hcomparison, hwidth, hrest⟩ := htaken hlow
  have hleft : s.left = .char c :: after := by rw [hrun.left_eq, hdrop, hglyphs]
  have hstep : Step ⟨s.offset, .char c :: after, s.given⟩ _ := .token hgap hl
  rw [hkind, htext, hcomparison, hwidth, hrest] at hstep
  rw [← hleft] at hstep
  exact hstep

theorem AtRun.fails (h : AtRun source s ds rest) (hhigh : 2 ^ 63 ≤ natOfDigits ds) :
    s.Fails ⟨s.offset, .integerRange ds⟩ := by
  obtain ⟨hrun, hdrop, hds⟩ := h
  obtain ⟨c, after, hglyphs, hgap, -, hfails⟩ := hds.lexemeAt s.offset
  exact ⟨.char c, after, by rw [hrun.left_eq, hdrop, hglyphs], hgap, hfails hhigh⟩

end Scanner

end Runs

section Numerals

theorem byteOf_digit {d : UInt8} (h : isDigit d = true) :
    digitValue d < 10 ∧ byteOf (48 + digitValue d) = d := by
  obtain ⟨hlow, hhigh⟩ := isDigit_iff.mp h
  rw [digitValue]
  refine ⟨by omega, ?_⟩
  rw [Nat.add_sub_cancel' hlow, byteOf, UInt8.ofNat_toNat]

theorem decimal_digit {d : UInt8} (h : isDigit d = true) : decimal (digitValue d) = [d] := by
  obtain ⟨hlt, hbyte⟩ := byteOf_digit h
  rw [decimal, if_pos hlt, hbyte]

theorem decimal_append_digit {n : Nat} (hn : n ≠ 0) {d : UInt8} (h : isDigit d = true) :
    decimal (n * 10 + digitValue d) = decimal n ++ [d] := by
  obtain ⟨hlt, hbyte⟩ := byteOf_digit h
  have hdiv : (n * 10 + digitValue d) / 10 = n := by omega
  have hmod : (n * 10 + digitValue d) % 10 = digitValue d := by omega
  rw [decimal, if_neg (by omega), hdiv, hmod, hbyte]

/-- A numeral is the decimal of its value behind zeros. -/
theorem numeral_eq_zeros_decimal {ds : Bytes} (h : IsNumeral ds) :
    ∃ k, ds = List.replicate k (ascii '0') ++ decimal (natOfDigits ds) := by
  induction ds using List.reverseRecOn with
  | nil => exact absurd rfl h.1
  | append_singleton ds d ih =>
    have hd : isDigit d = true := h.2 d (by simp)
    have hvalue : natOfDigits (ds ++ [d]) = natOfDigits ds * 10 + digitValue d := by
      simp [natOfDigits]
    rw [hvalue]
    by_cases hnil : ds = []
    · subst hnil
      exact ⟨0, by simp [natOfDigits, decimal_digit hd]⟩
    · obtain ⟨k, hk⟩ := ih ⟨hnil, fun e he => h.2 e (by simp [he])⟩
      by_cases hzero : natOfDigits ds = 0
      · refine ⟨k + 1, ?_⟩
        have hdecimal : decimal 0 = [ascii '0'] := by decide +kernel
        rw [hzero, hdecimal] at hk
        rw [hzero, Nat.zero_mul, Nat.zero_add, decimal_digit hd, hk, List.replicate_succ']
      · refine ⟨k, ?_⟩
        rw [decimal_append_digit hzero hd, ← List.append_assoc, ← hk]

end Numerals

section Numbers

/-- The number that a node is. -/
def Node.number? : Node → Option NumberLit
  | .expr (.number value) => some value
  | _ => none

def Leaf.number? : Leaf → Option NumberLit
  | .number value => some value
  | _ => none

/-- The number that a token stands for: an integer has the value of its digits. -/
def Token.number? (t : Token) : Option NumberLit :=
  match t.kind with
  | .integer => some (.ofInt (natOfDigits t.lexeme))
  | .float => some (.ofFloat ((float? t.lexeme).getD .zero))
  | _ => none

theorem introduced_number {t : Token} (ht : t.Genuine) (before : Kind) (after : List Token) :
    (introduced before t after).bind Leaf.number? = t.number? := by
  cases hk : t.kind with
  | integer =>
    obtain ⟨w, hw⟩ := ht.written hk
    have hvalue := integer?_numeral hw.integer_inv
    rw [introduced, Token.number?, hk]
    dsimp only
    by_cases hlow : natOfDigits t.lexeme < 2 ^ 63
    · rw [hvalue, if_pos hlow]
      rfl
    · exact absurd (hvalue.trans (if_neg hlow)) hw.integer_value
  | trueWord | falseWord =>
    rw [introduced, Token.number?, hk]
    dsimp only
    rw [truthAt]
    split <;> rfl
  | name | star =>
    rw [introduced, Token.number?, hk]
    dsimp only
    split <;> rfl
  | _ => rw [introduced, Token.number?, hk]; rfl

theorem leavesBehind_numbers {ts : List Token} (hts : ∀ t ∈ ts, t.Genuine) (before : Kind) :
    (leavesBehind before ts).filterMap Leaf.number? = ts.filterMap Token.number? := by
  induction ts generalizing before with
  | nil => rfl
  | cons t after ih =>
    obtain ⟨ht, hafter⟩ := List.forall_mem_cons.mp hts
    have hfirst : (introduced before t after).toList.filterMap Leaf.number? =
        t.number?.toList := by
      rw [← introduced_number ht before after]
      cases introduced before t after with
      | none => rfl
      | some leaf => cases hleaf : leaf.number? <;> simp [hleaf]
    rw [leavesBehind, List.filterMap_append, hfirst, ih hafter, List.filterMap_cons]
    cases t.number? <;> rfl

/-- The numbers of a tree are those of its tokens, in their order. -/
theorem numbers_of_parse {source : Bytes} {tokens : List Token} {e : Expr}
    (htokens : tokenize source = .ok tokens) (he : parseTokens tokens = .ok e) :
    (Node.expr e).nodes.filterMap Node.number? = tokens.filterMap Token.number? := by
  have hleaf : ∀ m : Node, m.leaf?.bind Leaf.number? = m.number? := by
    intro m
    cases m with
    | expr e => cases e <;> rfl
    | test t => cases t <;> rfl
    | step s => rfl
  have hleaves : (Node.expr e).leaves.filterMap Leaf.number? =
      (Node.expr e).nodes.filterMap Node.number? := by
    rw [Node.leaves, List.filterMap_filterMap]
    exact congrFun (congrArg _ (funext hleaf)) _
  rw [← hleaves, leaves_of_parseTokens htokens he]
  exact leavesBehind_numbers (tokenize_genuine htokens) .eof

end Numbers

/-- The decimal of a number in range is read as that number alone. -/
theorem parse_decimal {n : Nat} (h : n < 2 ^ 63) :
    tokenize (decimal n) = .ok [Scanner.integerToken (decimal n) 0] ∧
      parse (decimal n) = .ok (.number (.ofInt n)) := by
  have hrun : Scanner.AtRun (decimal n) (.start (decimal n)) (decimal n) [] :=
    ⟨.refl, (List.append_nil _).symm, isNumeral_decimal n, nofun, nofun⟩
  have hstep := hrun.step (by rwa [natOfDigits_decimal])
  have htokens : tokenize (decimal n) = .ok [Scanner.integerToken (decimal n) 0] := by
    rw [← Scanner.answer_start, hstep.answer_eq, Scanner.answer, tokensFrom_nil]
    rfl
  have hnumber : Derives .source 0 [Scanner.integerToken (decimal n) 0] (.number (.ofInt n)) :=
    .integer rfl (integer?_decimal h)
  have hden : Denotes 0 [Scanner.integerToken (decimal n) 0] (.number (.ofInt n)) :=
    Derives.unary_level (.unsigned hnumber.source_primary) (by decide)
  exact ⟨htokens, parse_of_denotes htokens hden (Nat.zero_le _)⟩

namespace Scanner

variable {s s' : Scanner} {source ds rest : Bytes}

theorem Fails.no_step {e : LexError} (h : s.Fails e) : ¬Step s s' := by
  obtain ⟨g, after, hleft, hgap, hl⟩ := h
  intro hstep
  cases hstep with
  | gap hg =>
    cases hleft
    rw [hgap] at hg
    cases hg
  | token hg hok =>
    cases hleft
    rw [hl] at hok
    cases hok

theorem AtRun.step_iff (h : AtRun source s ds rest) :
    (∃ s', Step s s' ∧ s'.given = s.given ++ [integerToken ds s.offset]) ↔
      natOfDigits ds < 2 ^ 63 := by
  refine ⟨fun ⟨s', hstep, _⟩ => ?_, fun hlow => ⟨_, h.step hlow, rfl⟩⟩
  exact Nat.lt_of_not_le fun hhigh => (h.fails hhigh).no_step hstep

/-- The tokens behind a run of digits that is an integer follow its token. -/
theorem AtRun.tokenize_eq (h : AtRun source s ds rest) (hlow : natOfDigits ds < 2 ^ 63) :
    tokenize source = (tokensFrom (s.offset + ds.length) (glyphs rest)).map fun later =>
      s.given ++ integerToken ds s.offset :: later := by
  rw [← answer_start, h.1.answer_eq, (h.step hlow).answer_eq, answer]
  simp only [List.append_assoc, List.singleton_append]

theorem AtRun.tokenize_error_iff (h : AtRun source s ds rest) :
    tokenize source = .error ⟨s.offset, .integerRange ds⟩ ↔ 2 ^ 63 ≤ natOfDigits ds := by
  constructor
  · intro herr
    by_contra hlow
    rw [h.tokenize_eq (Nat.lt_of_not_le hlow)] at herr
    cases hlater : tokensFrom (s.offset + ds.length) (glyphs rest) with
    | ok later =>
      rw [hlater] at herr
      cases herr
    | error e =>
      rw [hlater] at herr
      cases herr
      -- What stands behind the run is not blamed at the start of the run.
      obtain ⟨cs, g, more, -, hoffset, -⟩ := tokensFrom_stops _ _ hlater
      have hpos : 0 < ds.length := List.length_pos_iff.mpr h.2.2.numeral.1
      dsimp only at hoffset
      omega
  · intro hhigh
    rw [← answer_start, h.1.answer_eq, (h.fails hhigh).answer_eq]

end Scanner

/-- The scanner takes a run of digits that it comes upon, and that is no part of a fraction, as an
integer if its value is below `2 ^ 63`; from there on the source is refused at the run. When the
source is read, the numbers of the tree are those of its tokens, among them the value of the run.
The number is written with the decimal of the value, which is read as the number again. Any other
numeral of that value has the same digits behind further zeros. -/
theorem integer_literals_exact {source ds rest : Bytes} {s : Scanner}
    (hrun : Scanner.Run (.start source) s) (hdrop : source.drop s.offset = ds ++ rest)
    (hds : IsRun ds rest) :
    ((∃ s', Scanner.Step s s' ∧ s'.given = s.given ++ [⟨.integer, ds, s.offset, .absent⟩]) ↔
        natOfDigits ds < 2 ^ 63) ∧
      (tokenize source = .error ⟨s.offset, .integerRange ds⟩ ↔ 2 ^ 63 ≤ natOfDigits ds) ∧
      (∀ e, parse source = .ok e → natOfDigits ds < 2 ^ 63 ∧ ∃ later,
        tokenize source = .ok (s.given ++ ⟨.integer, ds, s.offset, .absent⟩ :: later) ∧
        (Node.expr e).nodes.filterMap Node.number? = s.given.filterMap Token.number? ++
          .ofInt (natOfDigits ds) :: later.filterMap Token.number?) ∧
      (natOfDigits ds < 2 ^ 63 →
        (Expr.number (.ofInt (natOfDigits ds))).text? = some (decimal (natOfDigits ds)) ∧
        tokenize (decimal (natOfDigits ds)) =
          .ok [⟨.integer, decimal (natOfDigits ds), 0, .absent⟩] ∧
        parse (decimal (natOfDigits ds)) = .ok (.number (.ofInt (natOfDigits ds)))) ∧
      IsNumeral (decimal (natOfDigits ds)) ∧
      natOfDigits (decimal (natOfDigits ds)) = natOfDigits ds ∧
      ∀ es, IsNumeral es → natOfDigits es = natOfDigits ds →
        ∃ k, es = List.replicate k (ascii '0') ++ decimal (natOfDigits ds) := by
  have hat : Scanner.AtRun source s ds rest := ⟨hrun, hdrop, hds⟩
  refine ⟨hat.step_iff, hat.tokenize_error_iff, fun e he => ?_, fun hlow => ?_,
    isNumeral_decimal _, natOfDigits_decimal _, fun es hes hvalue => ?_⟩
  · obtain ⟨tokens, htokens, hparse⟩ := tokens_of_parse he
    have hlow : natOfDigits ds < 2 ^ 63 := by
      refine Nat.lt_of_not_le fun hhigh => ?_
      rw [hat.tokenize_error_iff.mpr hhigh] at htokens
      cases htokens
    have hnumbers := numbers_of_parse htokens hparse
    rw [hat.tokenize_eq hlow] at htokens ⊢
    cases hlater : tokensFrom (s.offset + ds.length) (glyphs rest) with
    | error e =>
      rw [hlater] at htokens
      cases htokens
    | ok later =>
      rw [hlater] at htokens
      cases htokens
      refine ⟨hlow, later, rfl, ?_⟩
      rw [hnumbers, List.filterMap_append, List.filterMap_cons]
      rfl
  · exact ⟨rfl, parse_decimal hlow⟩
  · rw [← hvalue]
    exact numeral_eq_zeros_decimal hes

/-- The largest integer behind zeros and a sign. -/
def paddedInteger : Bytes := utf8 "-0009223372036854775807"

def behindSign : Scanner :=
  ⟨1, (glyphs paddedInteger).drop 1, [⟨.minus, utf8 "-", 0, .absent⟩]⟩

theorem integer_literals_exact_paddedInteger :
    Scanner.Run (.start paddedInteger) behindSign ∧
      IsRun (utf8 "0009223372036854775807") [] ∧
      paddedInteger.drop behindSign.offset = utf8 "0009223372036854775807" ++ [] ∧
      (∃ e later, parse paddedInteger = .ok e ∧
        (Node.expr e).nodes.filterMap Node.number? = .ofInt 9223372036854775807 :: later) ∧
      parse (utf8 "9223372036854775807") = .ok (.number (.ofInt 9223372036854775807)) := by
  have hstep : Scanner.Step (.start paddedInteger) behindSign :=
    .token (l := single .minus '-' _) (g := .char '-') rfl rfl
  have hrun : Scanner.Run (.start paddedInteger) behindSign := .single hstep
  have hdrop : paddedInteger.drop behindSign.offset = utf8 "0009223372036854775807" ++ [] := by
    decide
  have hdigits : (utf8 "0009223372036854775807").all isDigit = true := by decide
  have hds : IsRun (utf8 "0009223372036854775807") [] :=
    ⟨⟨by decide, List.all_eq_true.mp hdigits⟩, nofun, nofun⟩
  have hvalue : natOfDigits (utf8 "0009223372036854775807") = 9223372036854775807 := by decide
  have hdecimal : decimal 9223372036854775807 = utf8 "9223372036854775807" := by decide +kernel
  obtain ⟨-, -, hnumbers, hwritten, -⟩ := integer_literals_exact hrun hdrop hds
  rw [hvalue] at hnumbers hwritten
  refine ⟨hrun, hds, hdrop, ?_, ?_⟩
  · have hread : (parse paddedInteger).isOk = true := by decide +kernel
    cases hparse : parse paddedInteger with
    | error cause =>
      rw [hparse] at hread
      cases hread
    | ok e =>
      obtain ⟨-, later, -, hlist⟩ := hnumbers e hparse
      exact ⟨e, _, rfl, hlist⟩
  · rw [← hdecimal]
    exact (hwritten (by decide)).2.2

end NodePath
