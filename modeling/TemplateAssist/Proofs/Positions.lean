import Mathlib.Data.Prod.Lex
import TemplateAssist.Text.Position

/-!
# Offsets and positions

An offset counts bytes from the start of a text, a position counts lines and the characters of the last
one.  The two conversions find lines in different ways, one by cutting the text and one by counting line
feeds in what stands before.  Both are followed here one character at a time.

* `Position.past` — how the position of a place changes when one more character stands before the text.
* `positionOf_cons`, `offsetOf_past` — the two conversions, one character at a time.
* `ReturnBefore` — a carriage return that ends its line stands directly before a cut.
* `clamp` — the position that stands for another: the same line, and on it no character past its end.
* `offsetOf_positionOf`, `positionOf_offsetOf` — the two round trips.
* `spanOf_append` — the span of a part without line ends.

Principal result: `offsetOf_positionOf_inverse`, the conversions are inverse up to clamping, and monotone.
-/

namespace TemplateAssist

namespace Position

/-- Positions are ordered by line, and on one line by character. -/
instance : Preorder Position :=
  Preorder.lift fun p => toLex (p.line, p.character)

theorem le_iff {p q : Position} :
    p ≤ q ↔ p.line < q.line ∨ p.line = q.line ∧ p.character ≤ q.character :=
  Prod.Lex.toLex_le_toLex

/-- The position behind one more character `c` of the place at `p`. -/
def past (c : Char) (p : Position) : Position :=
  if c = '\n' then ⟨p.line + 1, p.character⟩
  else if p.line = 0 then ⟨0, p.character + 1⟩
  else p

theorem past_newline (p : Position) : past '\n' p = ⟨p.line + 1, p.character⟩ :=
  rfl

theorem past_first {c : Char} (hc : c ≠ '\n') (character : Nat) :
    past c ⟨0, character⟩ = ⟨0, character + 1⟩ := by
  simp [past, hc]

theorem past_later {c : Char} (hc : c ≠ '\n') (line character : Nat) :
    past c ⟨line + 1, character⟩ = ⟨line + 1, character⟩ := by
  simp [past, hc]

/-- A place on the first line is behind a character of that line. -/
theorem past_line_eq_zero {c : Char} {p : Position} (h : (past c p).line = 0) :
    c ≠ '\n' ∧ p.line = 0 ∧ (past c p).character = p.character + 1 := by
  unfold past at h ⊢
  split at h
  · cases h
  · rename_i hc
    split at h
    · rename_i hline
      simp [hc, hline]
    · rename_i hline
      exact absurd h hline

theorem past_fits (c : Char) (p : Position) :
    (past c p).line + (past c p).character ≤ p.line + p.character + 1 := by
  unfold past
  split
  · show p.line + 1 + p.character ≤ _
    omega
  · split
    · show 0 + (p.character + 1) ≤ _
      omega
    · omega

theorem origin_le (p : Position) : ⟨0, 0⟩ ≤ p := by
  rw [le_iff]
  show 0 < p.line ∨ 0 = p.line ∧ 0 ≤ p.character
  omega

theorem past_le_past_iff {c : Char} {p q : Position} : past c p ≤ past c q ↔ p ≤ q := by
  obtain ⟨line, character⟩ := p
  obtain ⟨line', character'⟩ := q
  by_cases hc : c = '\n'
  · simp [hc, past_newline, le_iff]
  · cases line <;> cases line' <;> simp [past_first hc, past_later hc, le_iff]

end Position

namespace Text

open Position

/-! ## The position of an offset, one character at a time -/

theorem advance_past (c : Char) (p : Position) (u : Text) :
    advance (past c p) u = past c (advance p u) := by
  induction u generalizing p with
  | nil => rfl
  | cons d u ih =>
    rw [advance, advance, ← ih]
    congr 1
    obtain ⟨line, character⟩ := p
    by_cases hc : c = '\n' <;> by_cases hd : d = '\n' <;> cases line <;> simp [past, hc, hd]

theorem positionOf_cons {c : Char} {offset : Nat} (h : c.utf8Size ≤ offset) (rest : Text) :
    positionOf (c :: rest) offset = past c (positionOf rest (offset - c.utf8Size)) := by
  rw [positionOf, before, if_pos h, positionOf, ← advance_past]
  rfl

theorem positionOf_of_lt {c : Char} {offset : Nat} (h : offset < c.utf8Size) (rest : Text) :
    positionOf (c :: rest) offset = ⟨0, 0⟩ := by
  rw [positionOf, before, if_neg (Nat.not_le_of_lt h)]
  rfl

theorem positionOf_zero (t : Text) : positionOf t 0 = ⟨0, 0⟩ := by
  cases t with
  | nil => rfl
  | cons c rest => exact positionOf_of_lt c.utf8Size_pos rest

/-! ## Lines -/

theorem lines_ne_nil (t : Text) : lines t ≠ [] := by
  cases t with
  | nil => simp [lines]
  | cons c rest =>
    rw [lines]
    split
    · simp
    · split <;> simp

theorem lines_eq_splitOn (t : Text) : lines t = t.splitOn '\n' := by
  rw [List.splitOn_eq_splitOnP]
  induction t with
  | nil => rfl
  | cons c rest ih =>
    rw [lines, List.splitOnP_cons_eq_if_modifyHead, ← ih]
    by_cases hc : c = '\n'
    · simp [hc]
    · rw [if_neg hc, if_neg (by simpa using hc)]
      cases h : lines rest with
      | nil => exact absurd h (lines_ne_nil rest)
      | cons l ls => rfl

/-- A text that starts with the end of a line. -/
def EndsLine (t : Text) : Prop :=
  t = [] ∨ t.head? = some '\n'

/-- A character that is no line feed stands on the first line. -/
theorem exists_lines_cons {c : Char} (hc : c ≠ '\n') (rest : Text) :
    ∃ l ls, lines rest = l :: ls ∧ lines (c :: rest) = (c :: l) :: ls ∧ (l = [] ↔ EndsLine rest) := by
  cases h : lines rest with
  | nil => exact absurd h (lines_ne_nil rest)
  | cons l ls =>
    refine ⟨l, ls, rfl, by rw [lines, if_neg hc, h], ?_⟩
    cases rest with
    | nil =>
      cases h
      simp [EndsLine]
    | cons d rest =>
      rw [lines] at h
      by_cases hd : d = '\n'
      · rw [if_pos hd] at h
        cases h
        simp [EndsLine, hd]
      · rw [if_neg hd] at h
        have hne : l ≠ [] := by
          split at h
          · cases h
            simp
          · cases h
            simp
        simp [EndsLine, hd, hne]

/-! ## The offset of a position, one character at a time -/

/-- A carriage return is cut off where it ends a line. -/
theorem chomp_cons (c : Char) (l : Text) :
    chomp (c :: l) = if l = [] ∧ c = '\r' then [] else c :: chomp l := by
  cases l with
  | nil =>
    by_cases hc : c = '\r' <;> simp [chomp, hc]
  | cons d l =>
    simp only [chomp, List.getLast?_cons_cons, List.dropLast_cons_cons, reduceCtorEq, false_and, if_false]
    split <;> rfl

theorem offsetOf_origin (t : Text) : offsetOf t ⟨0, 0⟩ = 0 := by
  cases h : lines t with
  | nil => exact absurd h (lines_ne_nil t)
  | cons l ls => simp [offsetOf, h, offsetInLines]

/-- A line feed leaves nothing of the first line. -/
theorem offsetOf_newline (rest : Text) (character : Nat) :
    offsetOf ('\n' :: rest) ⟨0, character⟩ = 0 := by
  simp [offsetOf, lines, offsetInLines, chomp]

/-- A carriage return that ends the first line is not part of it. -/
theorem offsetOf_return {rest : Text} (h : EndsLine rest) (character : Nat) :
    offsetOf ('\r' :: rest) ⟨0, character⟩ = 0 := by
  obtain ⟨l, ls, -, hlines, hl⟩ := exists_lines_cons (c := '\r') (by decide) rest
  simp [offsetOf, hlines, offsetInLines, chomp_cons, hl.mpr h]

/-- **Elsewhere an offset grows by the width of a character that is put before the text.** -/
theorem offsetOf_past {c : Char} {rest : Text} {p : Position}
    (h : ¬(c = '\r' ∧ EndsLine rest ∧ p.line = 0)) :
    offsetOf (c :: rest) (past c p) = c.utf8Size + offsetOf rest p := by
  obtain ⟨line, character⟩ := p
  by_cases hc : c = '\n'
  · subst hc
    have hwidth : '\n'.utf8Size = 1 := by decide
    rw [past_newline]
    simp only [offsetOf, lines, if_true, offsetInLines, width_cons, hwidth]
    cases offsetInLines (lines rest) line character with
    | none => rfl
    | some offset => simp
  · obtain ⟨l, ls, hrest, hlines, hl⟩ := exists_lines_cons hc rest
    cases line with
    | zero =>
      have hkept : ¬(l = [] ∧ c = '\r') := fun ⟨hnil, hreturn⟩ => h ⟨hreturn, hl.mp hnil, rfl⟩
      rw [past_first hc]
      simp [offsetOf, hrest, hlines, offsetInLines, chomp_cons, hkept]
    | succ line =>
      rw [past_later hc]
      simp only [offsetOf, hrest, hlines, offsetInLines, width_cons]
      cases offsetInLines ls line character with
      | none => rfl
      | some offset =>
        simp
        omega

/-- A position of a text is not past its first character, or the place behind that character of a position
of the rest. -/
theorem offsetOf_cases (c : Char) (rest : Text) (q : Position) :
    (q.line = 0 ∧ (q.character = 0 ∨ c = '\n' ∨ c = '\r' ∧ EndsLine rest) ∧ offsetOf (c :: rest) q = 0) ∨
      ∃ p, q = past c p ∧ ¬(c = '\r' ∧ EndsLine rest ∧ p.line = 0) ∧
        offsetOf (c :: rest) q = c.utf8Size + offsetOf rest p := by
  obtain ⟨line, character⟩ := q
  by_cases hc : c = '\n'
  · subst hc
    cases line with
    | zero => exact Or.inl ⟨rfl, Or.inr (Or.inl rfl), offsetOf_newline rest character⟩
    | succ line =>
      have hnot : ¬('\n' = '\r' ∧ EndsLine rest ∧ line = 0) := by simp
      exact Or.inr ⟨⟨line, character⟩, rfl, hnot, offsetOf_past (p := ⟨line, character⟩) hnot⟩
  · cases line with
    | succ line =>
      have hnot : ¬(c = '\r' ∧ EndsLine rest ∧ line + 1 = 0) := by simp
      refine Or.inr ⟨⟨line + 1, character⟩, (past_later hc line character).symm, hnot, ?_⟩
      rw [← offsetOf_past hnot, past_later hc]
    | zero =>
      cases character with
      | zero => exact Or.inl ⟨rfl, Or.inl rfl, offsetOf_origin _⟩
      | succ character =>
        by_cases hreturn : c = '\r' ∧ EndsLine rest
        · obtain ⟨rfl, hends⟩ := hreturn
          exact Or.inl ⟨rfl, Or.inr (Or.inr ⟨rfl, hends⟩), offsetOf_return hends _⟩
        · have hnot : ¬(c = '\r' ∧ EndsLine rest ∧ (0 : Nat) = 0) := fun h => hreturn ⟨h.1, h.2.1⟩
          refine Or.inr ⟨⟨0, character⟩, (past_first hc character).symm, hnot, ?_⟩
          rw [← offsetOf_past hnot, past_first hc]

/-! ## From an offset to its position and back -/

/-- A carriage return that ends its line stands directly before the cut between two texts. -/
def ReturnBefore (u v : Text) : Prop :=
  u.getLast? = some '\r' ∧ EndsLine v

instance (t : Text) : Decidable (EndsLine t) :=
  inferInstanceAs (Decidable (_ ∨ _))

instance (u v : Text) : Decidable (ReturnBefore u v) :=
  inferInstanceAs (Decidable (_ ∧ _))

theorem before_eq_nil {rest : Text} {offset : Nat} (h : EndsLine rest)
    (hline : (positionOf rest offset).line = 0) : before rest offset = [] := by
  cases rest with
  | nil => rfl
  | cons c rest =>
    obtain rfl : c = '\n' := by simpa [EndsLine] using h
    by_cases hoffset : '\n'.utf8Size ≤ offset
    · rw [positionOf_cons hoffset, past_newline] at hline
      cases hline
    · rw [before, if_neg hoffset]

/-- One character further to the left nothing changes directly before a cut, unless the cut stands directly
behind that character. -/
theorem returnBefore_cons {c : Char} {rest : Text} {offset : Nat}
    (h : ¬(c = '\r' ∧ EndsLine rest ∧ (positionOf rest offset).line = 0)) :
    ReturnBefore (c :: before rest offset) (after rest offset) ↔
      ReturnBefore (before rest offset) (after rest offset) := by
  cases hbefore : before rest offset with
  | nil =>
    have hafter : after rest offset = rest := by
      simpa [hbefore] using before_append_after rest offset
    have hline : (positionOf rest offset).line = 0 := by
      rw [positionOf, hbefore]
      rfl
    rw [hafter]
    simp only [ReturnBefore, List.getLast?_singleton, Option.some.injEq, List.getLast?_nil, reduceCtorEq,
      false_and, iff_false]
    exact fun ⟨hc, hends⟩ => h ⟨hc, hends, hline⟩
  | cons d u => simp only [ReturnBefore, List.getLast?_cons_cons]

theorem width_pos_of_returnBefore {u v : Text} (h : ReturnBefore u v) : 0 < width u := by
  cases u with
  | nil => cases h.1
  | cons c u =>
    have := c.utf8Size_pos
    rw [width_cons]
    omega

/-- **The position of an offset leads back to its boundary**, or to the place before the carriage return
that ends the line. -/
theorem offsetOf_positionOf (t : Text) (offset : Nat) :
    offsetOf t (positionOf t offset) =
      if ReturnBefore (before t offset) (after t offset) then floorBoundary t offset - 1
      else floorBoundary t offset := by
  unfold floorBoundary
  induction t generalizing offset with
  | nil => simp [positionOf, before, advance, offsetOf_origin]
  | cons c rest ih =>
    by_cases hoffset : c.utf8Size ≤ offset
    · have hafter : after (c :: rest) offset = after rest (offset - c.utf8Size) := by
        rw [after, if_pos hoffset]
      have hbefore : before (c :: rest) offset = c :: before rest (offset - c.utf8Size) := by
        rw [before, if_pos hoffset]
      rw [positionOf_cons hoffset, hafter, hbefore]
      generalize offset - c.utf8Size = inner
      by_cases hreturn : c = '\r' ∧ EndsLine rest ∧ (positionOf rest inner).line = 0
      · obtain ⟨rfl, hends, hline⟩ := hreturn
        have hnil := before_eq_nil hends hline
        have hinner : after rest inner = rest := by
          simpa [hnil] using before_append_after rest inner
        have hcut : ReturnBefore ['\r'] rest := ⟨rfl, hends⟩
        rw [hnil, hinner, if_pos hcut, positionOf, hnil, advance, past_first (by decide), offsetOf_return hends]
        rfl
      · rw [offsetOf_past hreturn, ih, width_cons]
        simp only [returnBefore_cons hreturn]
        split
        · rename_i hcut
          have := width_pos_of_returnBefore hcut
          omega
        · rfl
    · rw [positionOf_of_lt (Nat.lt_of_not_le hoffset), offsetOf_origin, before, if_neg hoffset]
      simp [ReturnBefore]

/-! ## From a position to its offset and back -/

/-- A boundary between two characters of a text, or one of its ends. -/
def OnBoundary (t : Text) (offset : Nat) : Prop :=
  ∃ u v, t = u ++ v ∧ offset = width u

theorem onBoundary_offsetOf (t : Text) (q : Position) : OnBoundary t (offsetOf t q) := by
  induction t generalizing q with
  | nil =>
    refine ⟨[], [], rfl, ?_⟩
    obtain ⟨line, character⟩ := q
    cases line with
    | zero => simp [offsetOf, lines, offsetInLines, chomp]
    | succ line => simp [offsetOf, lines, offsetInLines]
  | cons c rest ih =>
    rcases offsetOf_cases c rest q with ⟨-, -, hzero⟩ | ⟨p, -, -, hoffset⟩
    · exact ⟨[], c :: rest, rfl, hzero⟩
    · obtain ⟨u, v, huv, hp⟩ := ih p
      exact ⟨c :: u, v, by rw [huv, List.cons_append], by rw [hoffset, hp, width_cons]⟩

theorem OnBoundary.le_width {t : Text} {offset : Nat} (h : OnBoundary t offset) : offset ≤ width t := by
  obtain ⟨u, v, rfl, rfl⟩ := h
  rw [width_append]
  omega

theorem width_eq_zero_iff {t : Text} : width t = 0 ↔ t = [] := by
  cases t with
  | nil => simp
  | cons c t =>
    have := c.utf8Size_pos
    simp
    omega

/-- Of two initial parts of a text the narrower one starts the other. -/
theorem exists_append_of_width_le {t u v u' v' : Text} (h : t = u ++ v) (h' : t = u' ++ v')
    (hle : width u ≤ width u') : ∃ x, u' = u ++ x ∧ v = x ++ v' := by
  rcases List.append_eq_append_iff.mp (h.symm.trans h') with ⟨x, hx, hv⟩ | ⟨x, rfl, hv⟩
  · exact ⟨x, hx, hv⟩
  · obtain rfl : x = [] := by
      rw [width_append] at hle
      exact width_eq_zero_iff.mp (by omega)
    exact ⟨[], by simp, by simpa using hv.symm⟩

/-- The number of characters of a line without one carriage return at its end. -/
def columns (line : Text) : Nat :=
  if line.getLast? = some '\r' then line.length - 1 else line.length

/-- The position that stands for another one: the same line, and on it no character past its end; behind
the last line, the end of the text. -/
def clamp (t : Text) (q : Position) : Position :=
  match (t.splitOn '\n')[q.line]? with
  | some line => ⟨q.line, min q.character (columns line)⟩
  | none => positionOf t (width t)

theorem columns_cons {c : Char} {l : Text} (h : ¬(l = [] ∧ c = '\r')) : columns (c :: l) = columns l + 1 := by
  cases l with
  | nil => simp_all [columns]
  | cons d l =>
    simp only [columns, List.getLast?_cons_cons, List.length_cons]
    split <;> simp

theorem positionOf_width_cons (c : Char) (rest : Text) :
    positionOf (c :: rest) (width (c :: rest)) = past c (positionOf rest (width rest)) := by
  rw [positionOf_cons (by simp), width_cons, Nat.add_sub_cancel_left]

/-- Clamping commutes with a character before the text. -/
theorem clamp_past {c : Char} {rest : Text} {p : Position}
    (h : ¬(c = '\r' ∧ EndsLine rest ∧ p.line = 0)) : clamp (c :: rest) (past c p) = past c (clamp rest p) := by
  obtain ⟨line, character⟩ := p
  simp only [clamp, ← lines_eq_splitOn, positionOf_width_cons]
  by_cases hc : c = '\n'
  · subst hc
    simp only [past_newline, lines, if_true, List.getElem?_cons_succ]
    cases (lines rest)[line]? <;> rfl
  · obtain ⟨l, ls, hrest, hlines, hl⟩ := exists_lines_cons hc rest
    cases line with
    | zero =>
      have hkept : ¬(l = [] ∧ c = '\r') := fun ⟨hnil, hreturn⟩ => h ⟨hreturn, hl.mp hnil, rfl⟩
      simp only [past_first hc, hrest, hlines, List.getElem?_cons_zero, columns_cons hkept]
      rw [Nat.add_min_add_right]
    | succ line =>
      simp only [past_later hc, hrest, hlines, List.getElem?_cons_succ]
      cases ls[line]? with
      | none => rfl
      | some l => simp only [past_later hc]

/-- Before the first character of a line there is only its start. -/
theorem clamp_start {c : Char} {rest : Text} {q : Position} (hline : q.line = 0)
    (hstart : q.character = 0 ∨ c = '\n' ∨ c = '\r' ∧ EndsLine rest) : clamp (c :: rest) q = ⟨0, 0⟩ := by
  obtain ⟨line, character⟩ := q
  obtain rfl : line = 0 := hline
  simp only [clamp, ← lines_eq_splitOn]
  rcases hstart with hcharacter | rfl | ⟨rfl, hends⟩
  · obtain rfl : character = 0 := hcharacter
    cases h : lines (c :: rest) with
    | nil => exact absurd h (lines_ne_nil _)
    | cons l ls => simp
  · simp [lines, columns]
  · obtain ⟨l, ls, -, hlines, hl⟩ := exists_lines_cons (c := '\r') (by decide) rest
    simp [hlines, hl.mpr hends, columns]

/-- **The offset of a position leads back to the position that stands for it.** -/
theorem positionOf_offsetOf (t : Text) (q : Position) : positionOf t (offsetOf t q) = clamp t q := by
  induction t generalizing q with
  | nil =>
    obtain ⟨line, character⟩ := q
    cases line with
    | zero => simp [clamp, columns, positionOf, before, advance]
    | succ line => simp [clamp, positionOf, before, advance]
  | cons c rest ih =>
    rcases offsetOf_cases c rest q with ⟨hline, hstart, hzero⟩ | ⟨p, rfl, hpast, hoffset⟩
    · rw [hzero, positionOf_zero, clamp_start hline hstart]
    · rw [hoffset, positionOf_cons (by omega), Nat.add_sub_cancel_left, ih, clamp_past hpast]

/-! ## Order and size -/

theorem monotone_positionOf (t : Text) : Monotone (positionOf t) := by
  induction t with
  | nil => exact fun _ _ _ => le_rfl
  | cons c rest ih =>
    intro o o' hle
    by_cases hoffset : c.utf8Size ≤ o
    · rw [positionOf_cons hoffset, positionOf_cons (hoffset.trans hle), past_le_past_iff]
      exact ih (Nat.sub_le_sub_right hle _)
    · rw [positionOf_of_lt (Nat.lt_of_not_le hoffset)]
      exact origin_le _

theorem monotone_offsetOf (t : Text) : Monotone (offsetOf t) := by
  induction t with
  | nil =>
    intro p q _
    exact (onBoundary_offsetOf [] p).le_width.trans (Nat.zero_le _)
  | cons c rest ih =>
    intro p q hle
    rcases offsetOf_cases c rest p with ⟨-, -, hzero⟩ | ⟨p, rfl, hp, hoffset⟩
    · rw [hzero]
      exact Nat.zero_le _
    · rcases offsetOf_cases c rest q with ⟨hline, hstart, -⟩ | ⟨q, rfl, -, hoffset'⟩
      · -- nothing of the first line is before a place behind its first character
        obtain ⟨hlines, hcharacter⟩ : (past c p).line = 0 ∧ (past c p).character ≤ q.character := by
          rw [le_iff, hline] at hle
          omega
        obtain ⟨hc, hfirst, hbehind⟩ := past_line_eq_zero hlines
        rcases hstart with hstart | hnewline | ⟨hreturn, hends⟩
        · omega
        · exact absurd hnewline hc
        · exact absurd ⟨hreturn, hends, hfirst⟩ hp
      · rw [hoffset, hoffset']
        have := ih (past_le_past_iff.mp hle)
        omega

/-- The line and the character of an offset are no more than the bytes of the text. -/
theorem positionOf_fits (t : Text) (offset : Nat) :
    (positionOf t offset).line + (positionOf t offset).character ≤ width t := by
  induction t generalizing offset with
  | nil => exact Nat.le_refl 0
  | cons c rest ih =>
    have := c.utf8Size_pos
    by_cases hoffset : c.utf8Size ≤ offset
    · have hpast := past_fits c (positionOf rest (offset - c.utf8Size))
      have := ih (offset - c.utf8Size)
      rw [positionOf_cons hoffset, width_cons]
      omega
    · rw [positionOf_of_lt (Nat.lt_of_not_le hoffset)]
      exact Nat.zero_le _

/-! ## Stretches on one line -/

theorem advance_append (p : Position) (u v : Text) : advance p (u ++ v) = advance (advance p u) v := by
  induction u generalizing p with
  | nil => rfl
  | cons c u ih => exact ih _

theorem advance_of_notMem {part : Text} (h : '\n' ∉ part) (p : Position) :
    advance p part = ⟨p.line, p.character + part.length⟩ := by
  induction part generalizing p with
  | nil => rfl
  | cons c part ih =>
    rw [List.mem_cons, not_or] at h
    rw [advance, if_neg (Ne.symm h.1), ih h.2, List.length_cons, Nat.add_assoc, Nat.add_comm 1]

/-- A boundary comes back from its position unless a carriage return that ends its line stands before it. -/
theorem offsetOf_positionOf_width {u v : Text} (h : ¬ ReturnBefore u v) :
    offsetOf (u ++ v) (positionOf (u ++ v) (width u)) = width u := by
  rw [offsetOf_positionOf, floorBoundary, before_append, after_append, if_neg h]

/-- **The span of a part without line ends**: it is on one line, has one column for each character, and its
ends lead back to the ends of the part. -/
theorem spanOf_append {u part v : Text} (hne : part ≠ []) (hnewline : '\n' ∉ part) (hreturn : '\r' ∉ part) :
    let span := spanOf (u ++ (part ++ v)) ⟨width u, width u + width part⟩
    span.start.line = span.stop.line ∧ span.stop.character = span.start.character + part.length ∧
      offsetOf (u ++ (part ++ v)) span.start = width u ∧
      offsetOf (u ++ (part ++ v)) span.stop = width u + width part := by
  intro span
  have hassoc : u ++ (part ++ v) = (u ++ part) ++ v := (List.append_assoc u part v).symm
  have hstart : span.start = advance ⟨0, 0⟩ u := by
    show positionOf (u ++ (part ++ v)) (width u) = _
    rw [positionOf, before_append]
  have hstop : span.stop = ⟨span.start.line, span.start.character + part.length⟩ := by
    show positionOf (u ++ (part ++ v)) (width u + width part) = _
    rw [positionOf, hassoc, ← width_append, before_append, advance_append, advance_of_notMem hnewline, hstart]
  refine ⟨by rw [hstop], by rw [hstop], offsetOf_positionOf_width ?_, ?_⟩
  · rintro ⟨-, hends⟩
    obtain ⟨c, part, rfl⟩ := List.exists_cons_of_ne_nil hne
    rcases hends with hends | hends
    · cases hends
    · exact hnewline (List.mem_cons.mpr (Or.inl (Option.some.inj hends).symm))
  · show offsetOf _ (positionOf _ _) = _
    rw [hassoc, ← width_append]
    refine offsetOf_positionOf_width ?_
    rintro ⟨hlast, -⟩
    rw [List.getLast?_append, List.getLast?_eq_some_getLast hne, Option.some_or] at hlast
    exact hreturn (Option.some.inj hlast ▸ List.getLast_mem hne)

/-- **Offsets and positions are inverse up to clamping, and monotone.**  An offset comes back as its
boundary, except that the place behind a carriage return that ends its line comes back as the place before
it.  A position comes back as the one that stands for it.  The numbers of a position are at most the
width of the text, so they fit wherever offsets do. -/
theorem offsetOf_positionOf_inverse (t : Text) :
    (∀ offset, offsetOf t (positionOf t offset) =
      if ReturnBefore (before t offset) (after t offset) then floorBoundary t offset - 1
      else floorBoundary t offset) ∧
    (∀ q, OnBoundary t (offsetOf t q) ∧ offsetOf t q ≤ width t ∧
      positionOf t (offsetOf t q) = clamp t q) ∧
    Monotone (offsetOf t) ∧ Monotone (positionOf t) ∧
    ∀ offset, (positionOf t offset).line + (positionOf t offset).character ≤ width t := by
  refine ⟨offsetOf_positionOf t, fun q => ?_, monotone_offsetOf t, monotone_positionOf t,
    positionOf_fits t⟩
  have hboundary := onBoundary_offsetOf t q
  exact ⟨hboundary, hboundary.le_width, positionOf_offsetOf t q⟩

end Text

end TemplateAssist
