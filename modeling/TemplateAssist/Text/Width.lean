import TemplateAssist.Text.Ranges

/-!
# Byte offsets

Offsets count the bytes of a text in UTF-8.

* `width` — the number of bytes of a text.
* `before`, `after` — the two parts of a text at an offset.  An offset inside a character falls back
  to the start of that character, and an offset past the end is the end.
* `floorBoundary` — the boundary that an offset falls back to.
* `ByteRange` — a range of offsets, end excluded.
-/

namespace TemplateAssist

namespace Text

/-- The number of bytes of a text in UTF-8. -/
def width : Text → Nat
  | [] => 0
  | c :: rest => c.utf8Size + width rest

/-- The longest leading part of a text of at most `offset` bytes. -/
def before : Text → Nat → Text
  | [], _ => []
  | c :: rest, offset =>
    if c.utf8Size ≤ offset then c :: before rest (offset - c.utf8Size) else []

/-- What follows the longest leading part of at most `offset` bytes. -/
def after : Text → Nat → Text
  | [], _ => []
  | c :: rest, offset =>
    if c.utf8Size ≤ offset then after rest (offset - c.utf8Size) else c :: rest

/-- `floor_char_boundary`.  The largest character boundary that is at most `offset`. -/
def floorBoundary (t : Text) (offset : Nat) : Nat :=
  width (before t offset)

@[simp] theorem width_nil : width [] = 0 := rfl

@[simp] theorem width_cons (c : Char) (t : Text) : width (c :: t) = c.utf8Size + width t := rfl

@[simp] theorem width_append (s t : Text) : width (s ++ t) = width s + width t := by
  induction s with
  | nil => simp
  | cons c s ih => simp [ih, Nat.add_assoc]

theorem width_replicate (n : Nat) (c : Char) : width (List.replicate n c) = n * c.utf8Size := by
  induction n with
  | zero => rw [List.replicate_zero, width_nil, Nat.zero_mul]
  | succ n ih => rw [List.replicate_succ, width_cons, ih, Nat.succ_mul, Nat.add_comm]

/-- Nothing is lost at a cut. -/
theorem before_append_after (t : Text) (offset : Nat) : before t offset ++ after t offset = t := by
  induction t generalizing offset with
  | nil => rfl
  | cons c t ih =>
    by_cases h : c.utf8Size ≤ offset <;> simp [before, after, h, ih]

/-- A boundary is never past the offset it comes from. -/
theorem floorBoundary_le (t : Text) (offset : Nat) : floorBoundary t offset ≤ offset := by
  unfold floorBoundary
  induction t generalizing offset with
  | nil => simp [before]
  | cons c t ih =>
    by_cases h : c.utf8Size ≤ offset
    · have := ih (offset - c.utf8Size)
      simp [before, h]
      omega
    · simp [before, h]

theorem before_append (t rest : Text) : before (t ++ rest) (width t) = t := by
  induction t with
  | nil =>
    cases rest with
    | nil => rfl
    | cons c rest =>
      have := c.utf8Size_pos
      simp only [List.nil_append, width_nil, before]
      rw [if_neg (by omega)]
  | cons c t ih =>
    simp only [List.cons_append, width_cons, before]
    rw [if_pos (by omega), Nat.add_sub_cancel_left, ih]

theorem after_append (t rest : Text) : after (t ++ rest) (width t) = rest := by
  have h := before_append_after (t ++ rest) (width t)
  rw [before_append] at h
  exact List.append_cancel_left h

end Text

/-- A range of byte offsets, `stop` excluded. -/
structure ByteRange where
  start : Nat
  stop : Nat
  deriving Repr, DecidableEq

/-- The part of a text that a range of offsets covers. -/
def Text.slice (t : Text) (r : ByteRange) : Text :=
  Text.before (Text.after t r.start) (r.stop - r.start)

/-- The range between two parts of a text covers what stands between them. -/
theorem Text.slice_append (t part rest : Text) :
    slice (t ++ (part ++ rest)) ⟨width t, width t + width part⟩ = part := by
  simp only [slice, after_append, Nat.add_sub_cancel_left, before_append]

end TemplateAssist
