import Mathlib.Data.List.DropRight
import Mathlib.Data.Prod.Lex
import Mathlib.Order.Bounds.Basic
import NodePath.Proofs.ErrorPlaces

/-!
# Positions and places

A position counts the line ends before a place and the characters before it on its line. Within a
well-formed source it tells the places between characters apart and keeps their order. In any source
the line that a diagnostic shows is the line of that number, and the caret below it stands in that
column.
-/

namespace NodePath

open NodePath.Text

/-- The last line of a text: what stands behind its last line end. -/
def lastLine (before : Bytes) : Bytes := (before.reverse.takeWhile (· ≠ newline)).reverse

/-- The position right behind a text. -/
def positionAfter (before : Bytes) : Position :=
  ⟨before.count newline + 1, (glyphs (lastLine before)).length + 1⟩

/-- Positions are ordered by their lines, and on one line by their columns. -/
def Position.key (p : Position) : ℕ ×ₗ ℕ := toLex (p.line, p.column)

theorem Position.key_lt_key {p q : Position} :
    p.key < q.key ↔ p.line < q.line ∨ p.line = q.line ∧ p.column < q.column :=
  Prod.Lex.toLex_lt_toLex

/-- A text that is empty or ends with a line end. -/
def IsLines (s : Bytes) : Prop := s = [] ∨ ∃ earlier, s = earlier ++ [newline]

section LastLine

variable {a b : Bytes}

theorem lastLine_append (a : Bytes) (hb : IsLine b) : lastLine (a ++ b) = lastLine a ++ b := by
  have hall : ∀ x ∈ b.reverse, decide (x ≠ newline) = true := by
    intro x hx
    rw [decide_eq_true_eq]
    intro hx'
    exact hb (hx' ▸ List.mem_reverse.mp hx)
  rw [lastLine, List.reverse_append, List.takeWhile_append_of_pos hall, List.reverse_append,
    List.reverse_reverse]
  rfl

theorem lastLine_lines (h : IsLines a) : lastLine a = [] := by
  rcases h with rfl | ⟨earlier, rfl⟩
  · rfl
  · simp [lastLine]

/-- Before the last line of a text stand whole lines. -/
theorem exists_lines (a : Bytes) : ∃ lines, IsLines lines ∧ a = lines ++ lastLine a := by
  have hsplit : a = (a.reverse.dropWhile (· ≠ newline)).reverse ++ lastLine a := by
    rw [lastLine, ← List.reverse_append, List.takeWhile_append_dropWhile, List.reverse_reverse]
  refine ⟨_, ?_, hsplit⟩
  cases hdrop : a.reverse.dropWhile (· ≠ newline) with
  | nil => exact .inl rfl
  | cons x rest =>
    have hx : x ∈ (a.reverse.dropWhile (· ≠ newline)).head? := by
      rw [hdrop]
      rfl
    have hx : x = newline := by simpa using head?_dropWhile hx
    exact .inr ⟨rest.reverse, by rw [List.reverse_cons, hx]⟩

theorem isWellFormed_newline (s : Bytes) : isWellFormed (newline :: s) = isWellFormed s := by
  have hglyphs : glyphs (newline :: s) = .char '\n' :: glyphs s := glyphs_ascii (by decide) s
  rw [isWellFormed, isWellFormed, hglyphs]
  rfl

/-- Line ends fall between characters. -/
theorem IsLines.isWellFormed (ha : IsLines a) (h : isWellFormed (a ++ b) = true) :
    NodePath.Text.isWellFormed a = true ∧ NodePath.Text.isWellFormed b = true := by
  rcases ha with rfl | ⟨earlier, rfl⟩
  · exact ⟨rfl, h⟩
  · rw [List.append_assoc] at h
    obtain ⟨hearlier, hrest⟩ := isWellFormed_split (by decide) h
    exact ⟨isWellFormed_append hearlier (by decide), isWellFormed_newline b ▸ hrest⟩

theorem isWellFormed_lastLine (h : isWellFormed a = true) : isWellFormed (lastLine a) = true := by
  obtain ⟨lines, hlines, ha⟩ := exists_lines a
  rw [ha] at h
  exact (hlines.isWellFormed h).2

theorem glyphs_ne_nil (hb : b ≠ []) : glyphs b ≠ [] := by
  intro hnil
  have hbytes := bytesOf_glyphs b
  rw [hnil] at hbytes
  exact hb hbytes.symm

/-- Going on behind a well-formed text leads to a later position. -/
theorem positionAfter_lt (ha : isWellFormed a = true) (hb : b ≠ []) :
    (positionAfter a).key < (positionAfter (a ++ b)).key := by
  rw [Position.key_lt_key]
  by_cases hline : IsLine b
  · right
    have hcount : b.count newline = 0 := List.count_eq_zero.mpr hline
    refine ⟨?_, ?_⟩
    · simp only [positionAfter, List.count_append, hcount, Nat.add_zero]
    · obtain ⟨cs, hcs⟩ := isWellFormed_iff.mp (isWellFormed_lastLine ha)
      have hself : glyphs (lastLine a) = cs.map .char := by rw [hcs, glyphs_chars]
      have hmore : glyphs (lastLine (a ++ b)) = cs.map .char ++ glyphs b := by
        rw [lastLine_append a hline, hcs, glyphs_flatMap_encode]
      have hpos := List.length_pos_iff.mpr (glyphs_ne_nil hb)
      simp only [positionAfter, hself, hmore, List.length_append]
      omega
  · left
    have hpos : 0 < b.count newline := List.count_pos_iff.mpr (not_not.mp hline)
    simp only [positionAfter, List.count_append]
    omega

end LastLine

section Places

variable {source : Bytes} {o : Int}

theorem clamp_length (before after : Bytes) :
    clamp before.length (before ++ after) = before.length := by
  rw [clamp, Int.toNat_natCast, List.length_append]
  omega

theorem position_length (before after : Bytes) :
    position (before ++ after) before.length = positionAfter before := by
  have htake : (before ++ after).take (clamp before.length (before ++ after)) = before := by
    rw [clamp_length, List.take_left]
  rw [position, lineHead, htake]
  rfl

/-- A place splits its source behind a well-formed text. -/
theorem IsPlace.exists_split (h : IsPlace source o) : ∃ before after, source = before ++ after ∧
    o = before.length ∧ isWellFormed before = true := by
  obtain ⟨hlow, hhigh, hwell⟩ := h
  refine ⟨source.take o.toNat, source.drop o.toNat, (List.take_append_drop ..).symm, ?_, hwell⟩
  rw [List.length_take]
  omega

theorem position_lt {o₁ o₂ : Int} (h₁ : IsPlace source o₁) (h₂ : IsPlace source o₂)
    (hlt : o₁ < o₂) : (position source o₁).key < (position source o₂).key := by
  obtain ⟨a, after, hsource, rfl, ha⟩ := h₁.exists_split
  obtain ⟨c, after', hsource', rfl, -⟩ := h₂.exists_split
  have hle : a.length ≤ c.length := by omega
  obtain ⟨b, rfl⟩ : a <+: c :=
    List.prefix_of_prefix_length_le ⟨after, hsource.symm⟩ ⟨after', hsource'.symm⟩ hle
  have hb : b ≠ [] := by
    rintro rfl
    simp at hlt
  have hfirst : position source a.length = positionAfter a := by rw [hsource, position_length]
  have hsecond : position source (a ++ b).length = positionAfter (a ++ b) := by
    rw [hsource', position_length]
  rw [hfirst, hsecond]
  exact positionAfter_lt ha hb

/-- On one line the later place stands in the later column. -/
theorem column_lt {o₁ o₂ : Int} (h₁ : IsPlace source o₁) (h₂ : IsPlace source o₂) (hlt : o₁ < o₂)
    (hline : (position source o₁).line = (position source o₂).line) :
    (position source o₁).column < (position source o₂).column := by
  have hkey := Position.key_lt_key.mp (position_lt h₁ h₂ hlt)
  omega

/-- The lines of a source begin where as many line ends stand before them as it has lines before. -/
theorem exists_lines_count (source : Bytes) {k : Nat} (hk : k ≤ source.count newline) :
    ∃ lines after, source = lines ++ after ∧ IsLines lines ∧ lines.count newline = k := by
  induction k with
  | zero => exact ⟨[], source, rfl, .inl rfl, rfl⟩
  | succ k ih =>
    obtain ⟨lines, after, rfl, -, hcount⟩ := ih (by omega)
    have hmem : newline ∈ after := by
      rw [List.count_append, hcount] at hk
      exact List.count_pos_iff.mp (by omega)
    obtain ⟨line, rest, rfl, hline⟩ := List.eq_append_cons_of_mem hmem
    refine ⟨lines ++ line ++ [newline], rest, by simp, .inr ⟨_, rfl⟩, ?_⟩
    have hnone : line.count newline = 0 := List.count_eq_zero.mpr hline
    simp [List.count_append, hcount, hnone]

theorem exists_lineStart (h : isWellFormed source = true) {n : Nat} (hn : 1 ≤ n)
    (hn' : n ≤ source.count newline + 1) :
    ∃ o, IsPlace source o ∧ position source o = ⟨n, 1⟩ := by
  obtain ⟨lines, after, rfl, hlines, hcount⟩ :=
    exists_lines_count source (k := n - 1) (by omega)
  refine ⟨lines.length, isPlace_length (hlines.isWellFormed h).1, ?_⟩
  rw [position_length, positionAfter, lastLine_lines hlines, hcount, Nat.sub_add_cancel hn]
  rfl

theorem line_bounds (source : Bytes) (offset : Int) : 1 ≤ (position source offset).line ∧
    (position source offset).line ≤ source.count newline + 1 := by
  have hle : (source.take (clamp offset source)).count newline ≤ source.count newline :=
    (List.take_sublist ..).count_le newline
  exact ⟨Nat.le_add_left .., Nat.succ_le_succ hle⟩

end Places

/-- Of two places between characters of a well-formed source the later one has the later position, so
a position tells its place. The lines of places are counted from one to one more than there are line
ends, and the first place on each line is the one in the first column. -/
theorem position_tells_place {source : Bytes} (h : isWellFormed source = true) :
    (∀ o₁ o₂, IsPlace source o₁ → IsPlace source o₂ → o₁ < o₂ →
      (position source o₁).key < (position source o₂).key) ∧
    (∀ o₁ o₂, IsPlace source o₁ → IsPlace source o₂ →
      position source o₁ = position source o₂ → o₁ = o₂) ∧
    (∀ n, (∃ o, IsPlace source o ∧ (position source o).line = n) ↔
      1 ≤ n ∧ n ≤ source.count newline + 1) ∧
    ∀ o, IsPlace source o → ((position source o).column = 1 ↔
      IsLeast {o' | IsPlace source o' ∧ (position source o').line = (position source o).line} o) := by
  refine ⟨fun _ _ => position_lt, fun o₁ o₂ h₁ h₂ heq => ?_, fun n => ⟨?_, ?_⟩, fun o ho => ⟨?_, ?_⟩⟩
  · rcases Int.lt_trichotomy o₁ o₂ with hlt | rfl | hgt
    · exact absurd (position_lt h₁ h₂ hlt) (heq ▸ lt_irrefl _)
    · rfl
    · exact absurd (position_lt h₂ h₁ hgt) (heq ▸ lt_irrefl _)
  · rintro ⟨o, -, rfl⟩
    exact line_bounds source o
  · rintro ⟨hn, hn'⟩
    obtain ⟨o, ho, hposition⟩ := exists_lineStart h hn hn'
    exact ⟨o, ho, by rw [hposition]⟩
  · intro hcolumn
    refine ⟨⟨ho, rfl⟩, fun o' ⟨ho', hline⟩ => Int.not_lt.mp fun hlt => ?_⟩
    have hbefore := column_lt ho' ho hlt hline
    have hpos : 1 ≤ (position source o').column := Nat.le_add_left ..
    omega
  · rintro ⟨-, hleast⟩
    obtain ⟨hn, hn'⟩ := line_bounds source o
    obtain ⟨o', ho', hposition⟩ := exists_lineStart h hn hn'
    have hline : (position source o').line = (position source o).line := by rw [hposition]
    rcases Int.lt_or_eq_of_le (hleast ⟨ho', hline⟩) with hlt | rfl
    · have hbefore := column_lt ho ho' hlt hline.symm
      have hfirst : (position source o').column = 1 := by rw [hposition]
      have hpos : 1 ≤ (position source o).column := Nat.le_add_left ..
      omega
    · rw [hposition]

/-- Two lines, with letters of two bytes on both. -/
def twoLines : Bytes := utf8 "é\n\tß|"

theorem position_tells_place_twoLines :
    isWellFormed twoLines = true ∧ IsPlace twoLines 2 ∧ IsPlace twoLines 6 ∧
      position twoLines 2 = ⟨1, 2⟩ ∧ position twoLines 6 = ⟨2, 3⟩ ∧
      (position twoLines 2).key < (position twoLines 6).key ∧
      position twoLines 2 ≠ position twoLines 6 ∧
      (∃ o, IsPlace twoLines o ∧ (position twoLines o).line = 2) ∧
      IsLeast {o | IsPlace twoLines o ∧ (position twoLines o).line = 2} 3 := by
  have h : isWellFormed twoLines = true := by decide
  have h₂ : IsPlace twoLines 2 := ⟨by decide, by decide, by decide⟩
  have h₃ : IsPlace twoLines 3 := ⟨by decide, by decide, by decide⟩
  have h₆ : IsPlace twoLines 6 := ⟨by decide, by decide, by decide⟩
  obtain ⟨hlater, htells, hlines, hfirst⟩ := position_tells_place h
  have hline : (position twoLines 3).line = 2 := by decide
  have hleast := (hfirst 3 h₃).mp (by decide)
  rw [hline] at hleast
  refine ⟨h, h₂, h₆, by decide, by decide, hlater 2 6 h₂ h₆ (by decide), fun heq => ?_,
    (hlines 2).mpr (by decide), hleast⟩
  exact absurd (htells 2 6 h₂ h₆ heq) (by decide)

section Lines

variable {lines line rest : Bytes}

/-- Where a line of a source begins, lines counted from one. -/
def lineStart (source : Bytes) (n : Nat) : Nat :=
  (((source.splitOn newline).take (n - 1)).map fun line => line.length + 1).sum

theorem length_splitOn (s : Bytes) : (s.splitOn newline).length = s.count newline + 1 := by
  induction s with
  | nil => rfl
  | cons b s ih =>
    rw [List.splitOn_cons_eq_if_modifyHead, List.count_cons]
    split
    · rw [List.length_cons, ih]
    · rw [List.length_modifyHead, ih]

theorem sum_splitOn (s : Bytes) :
    ((s.splitOn newline).map fun line => line.length + 1).sum = s.length + 1 := by
  induction s with
  | nil => rfl
  | cons b s ih =>
    rw [List.splitOn_cons_eq_if_modifyHead, List.length_cons]
    split
    · rw [List.map_cons, List.sum_cons, ih]
      simp only [List.length_nil]
      omega
    · obtain ⟨first, others, hsplit⟩ := List.exists_cons_of_ne_nil (List.splitOn_ne_nil newline s)
      rw [hsplit] at ih ⊢
      simp only [List.modifyHead_cons, List.map_cons, List.sum_cons, List.length_cons] at ih ⊢
      omega

theorem splitOn_line (hline : IsLine line) (hrest : ∀ b ∈ rest.head?, b = newline) :
    ∃ others, (line ++ rest).splitOn newline = line :: others := by
  cases rest with
  | nil => exact ⟨[], by rw [List.append_nil, List.splitOn_eq_singleton hline]⟩
  | cons b rest =>
    obtain rfl := hrest b rfl
    exact ⟨_, List.splitOn_append_cons_self_of_not_mem hline rest⟩

/-- A line is found among the lines of its source by the number of line ends before it. -/
theorem splitOn_lines (hlines : IsLines lines) (hline : IsLine line)
    (hrest : ∀ b ∈ rest.head?, b = newline) :
    ((lines ++ (line ++ rest)).splitOn newline)[lines.count newline]? = some line ∧
      lineStart (lines ++ (line ++ rest)) (lines.count newline + 1) = lines.length := by
  obtain ⟨others, hothers⟩ := splitOn_line hline hrest
  rcases hlines with rfl | ⟨earlier, rfl⟩
  · rw [List.nil_append, lineStart, hothers]
    exact ⟨rfl, rfl⟩
  · have hsplit : (earlier ++ [newline] ++ (line ++ rest)).splitOn newline =
        earlier.splitOn newline ++ line :: others := by
      rw [List.append_assoc, ← hothers]
      exact List.splitOn_append_cons_self earlier (line ++ rest)
    have hcount : (earlier ++ [newline]).count newline = (earlier.splitOn newline).length := by
      rw [length_splitOn, List.count_append]
      rfl
    rw [lineStart, hsplit, hcount, Nat.add_sub_cancel, List.take_left, sum_splitOn]
    exact ⟨by simp, by simp⟩

end Lines

/-- What stands on the line of a position before its place. -/
def beforeOnLine (source : Bytes) (offset : Int) : Bytes :=
  (source.take (clamp offset source)).drop (lineStart source (position source offset).line)

/-- A caret behind `padding` stands below `shown` in the column of a place: `shown` is the line of that
number, the place lies on it, and a tab stands below each tab before the place and a blank below
each other character or stray byte. -/
structure PointsAt (source : Bytes) (offset : Int) (shown padding : Bytes) : Prop where
  counted : 1 ≤ (position source offset).line ∧ 1 ≤ (position source offset).column
  found : (source.splitOn newline)[(position source offset).line - 1]? = some shown
  start : lineStart source (position source offset).line ≤ clamp offset source
  stop : clamp offset source ≤ lineStart source (position source offset).line + shown.length
  width : padding.length = (position source offset).column - 1
  below : padding.length = (glyphs (beforeOnLine source offset)).length
  tabs : ∀ (j : Nat) (g : Glyph), (glyphs (beforeOnLine source offset))[j]? = some g →
    padding[j]? = some (if g = .char '\t' then ascii '\t' else ascii ' ')

/-- A source falls into the lines before a place, the line it lies on and the rest. -/
theorem exists_line (source : Bytes) (offset : Int) : ∃ lines rest, IsLines lines ∧
    (∀ b ∈ rest.head?, b = newline) ∧
    source = lines ++ (lineHead source offset ++ lineTail source offset ++ rest) ∧
    source.take (clamp offset source) = lines ++ lineHead source offset := by
  obtain ⟨lines, hlines, hsplit⟩ := exists_lines (source.take (clamp offset source))
  refine ⟨lines, (source.drop (clamp offset source)).dropWhile (· ≠ newline), hlines, ?_, ?_, hsplit⟩
  · intro b hb
    simpa using head?_dropWhile hb
  · calc source
        = source.take (clamp offset source) ++ source.drop (clamp offset source) :=
          (List.take_append_drop ..).symm
      _ = lines ++ lineHead source offset ++ (lineTail source offset ++
            (source.drop (clamp offset source)).dropWhile (· ≠ newline)) := by
          rw [lineTail, List.takeWhile_append_dropWhile]
          exact congrArg (· ++ _) hsplit
      _ = _ := by simp only [List.append_assoc]

theorem caretPadding_points (source : Bytes) (offset : Int) :
    PointsAt source offset (lineHead source offset ++ lineTail source offset)
      (caretPadding source offset) := by
  obtain ⟨lines, rest, hlines, hrest, hsource, hbefore⟩ := exists_line source offset
  have hhead : IsLine (lineHead source offset) := isLine_lineHead source offset
  have hline : IsLine (lineHead source offset ++ lineTail source offset) :=
    isLine_append.mpr ⟨hhead, isLine_takeWhile _⟩
  have hnumber : (position source offset).line = lines.count newline + 1 := by
    have hnone : (lineHead source offset).count newline = 0 := List.count_eq_zero.mpr hhead
    rw [position, hbefore, List.count_append, hnone]
  have hclamp : clamp offset source = lines.length + (lineHead source offset).length := by
    rw [← List.length_append, ← hbefore, List.length_take]
    exact (Nat.min_eq_left (Nat.min_le_right ..)).symm
  obtain ⟨hfound, hstart⟩ := splitOn_lines hlines hline hrest
  rw [← hsource, ← hnumber] at hstart
  rw [← hsource] at hfound
  have hon : beforeOnLine source offset = lineHead source offset := by
    rw [beforeOnLine, hbefore, hstart, List.drop_left]
  constructor
  · exact ⟨Nat.le_add_left .., Nat.le_add_left ..⟩
  · rw [hnumber, Nat.add_sub_cancel]
    exact hfound
  · rw [hstart, hclamp]
    omega
  · rw [hstart, hclamp, List.length_append]
    omega
  · rw [caretPadding, List.length_map]
    rfl
  · rw [hon, caretPadding, List.length_map]
  · intro j g hg
    rw [hon] at hg
    rw [caretPadding, List.getElem?_map, hg]
    rfl

/-- Whatever is shown for a problem with a place shows the line of its position without the returns
at its end, and a caret below the place. -/
theorem caret_below_position (colored : Bool) (source : Bytes) (offset : Int) (message : Bytes) :
    ∃ shown padding, PointsAt source offset shown padding ∧
      (Problem.located offset message).render colored source =
        errorLabel colored ++ utf8 " " ++ message ++ utf8 " " ++
          Style.place.apply colored (position source offset).text ++ utf8 "\n  " ++
          shown.rdropWhile (· = ascii '\r') ++ utf8 "\n  " ++ padding ++
          Style.alarm.apply colored (utf8 "^") ++ [newline] :=
  ⟨_, _, caretPadding_points source offset, rfl⟩

end NodePath
