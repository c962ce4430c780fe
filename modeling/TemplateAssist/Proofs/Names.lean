import Mathlib.Data.List.Basic
import TemplateAssist.Proofs.Positions
import TemplateAssist.Proofs.Scanning
import TemplateAssist.Text.Name

/-!
# Names under the cursor

The name at an offset is found by two runs of name characters, one back from the offset and one on from it,
and by counting hyphens at the ends of the two together.

* `IsNameRun`, `WidestNameRun` — a range of name characters around an offset, and the widest one.
* `Trims` — a range is another one without the hyphens at its ends.
* `exists_nameRun` — every offset has a run around it that name characters touch on neither side.
* `nameRange?_around` — what is found depends on that run alone, not on the offset in it.

Principal result: `nameRange?_widest`.
-/

namespace TemplateAssist.Text

/-! ## Ranges of whole characters -/

/-- No boundary stands between an offset and the boundary that it falls back to. -/
theorem OnBoundary.le_floorBoundary {t : Text} {b offset : Nat} (hb : OnBoundary t b) (hle : b ≤ offset) :
    b ≤ floorBoundary t offset := by
  obtain ⟨u, v, rfl, rfl⟩ := hb
  induction u generalizing offset with
  | nil => exact Nat.zero_le _
  | cons c u ih =>
    rw [width_cons] at hle ⊢
    have hrest := ih (by omega : width u ≤ offset - c.utf8Size)
    rw [floorBoundary, List.cons_append, before, if_pos (by omega), width_cons]
    exact Nat.add_le_add_left hrest _

/-- The three parts that a range of whole characters makes of a text. -/
theorem exists_parts {t : Text} {r : ByteRange} (hstart : OnBoundary t r.start) (hstop : OnBoundary t r.stop)
    (hle : r.start ≤ r.stop) :
    ∃ u part v, t = u ++ (part ++ v) ∧ r.start = width u ∧ r.stop = width u + width part ∧
      slice t r = part := by
  obtain ⟨u, rest, ht, hu⟩ := hstart
  obtain ⟨u', v, ht', hu'⟩ := hstop
  obtain ⟨part, rfl, rfl⟩ := exists_append_of_width_le ht ht' (by omega)
  rw [width_append] at hu'
  refine ⟨u, part, v, ht, hu, hu', ?_⟩
  have hr : r = ⟨width u, width u + width part⟩ := by
    rw [← hu, ← hu'.trans (congrArg (· + width part) hu.symm)]
  rw [hr, ht, slice_append]

/-- Where the cut at an offset falls inside a part of a text. -/
theorem exists_cut {t u part v : Text} {offset : Nat} (ht : t = u ++ (part ++ v))
    (hstart : width u ≤ floorBoundary t offset) (hstop : floorBoundary t offset ≤ width u + width part) :
    ∃ left right, part = left ++ right ∧ before t offset = u ++ left ∧ after t offset = right ++ v := by
  obtain ⟨left, hleft, hrest⟩ := exists_append_of_width_le ht (before_append_after t offset).symm hstart
  rw [floorBoundary, hleft, width_append] at hstop
  obtain ⟨right, hright, hafter⟩ :=
    exists_append_of_width_le hrest rfl (by omega : width left ≤ width part)
  exact ⟨left, right, hright, hleft, hafter⟩

/-! ## Runs of name characters -/

/-- A range of whole characters around a boundary, all of them name characters. -/
structure IsNameRun (t : Text) (b : Nat) (r : ByteRange) : Prop where
  start : OnBoundary t r.start
  stop : OnBoundary t r.stop
  le_start : r.start ≤ b
  le_stop : b ≤ r.stop
  names : ∀ c ∈ slice t r, isNameChar c = true

/-- The range of name characters around a boundary that holds every other one. -/
def WidestNameRun (t : Text) (b : Nat) (r : ByteRange) : Prop :=
  IsNameRun t b r ∧ ∀ other, IsNameRun t b other → r.start ≤ other.start ∧ other.stop ≤ r.stop

theorem WidestNameRun.unique {t : Text} {b : Nat} {r r' : ByteRange} (h : WidestNameRun t b r)
    (h' : WidestNameRun t b r') : r' = r := by
  obtain ⟨s, e⟩ := r
  obtain ⟨s', e'⟩ := r'
  have hle : s ≤ s' ∧ e' ≤ e := h.2 _ h'.1
  have hge : s' ≤ s ∧ e ≤ e' := h'.2 _ h.1
  rw [ByteRange.mk.injEq]
  omega

/-- Between `u` and `v` stand name characters, and none touches them from outside. -/
structure Encloses (u run v : Text) : Prop where
  names : ∀ c ∈ run, isNameChar c = true
  left : u.getLast?.any isNameChar = false
  right : v.head?.any isNameChar = false

/-- What stands before an offset ends with the run of name characters there. -/
theorem exists_before (t : Text) (offset : Nat) :
    ∃ u, before t offset = u ++ nameRunBefore t offset ∧ u.getLast?.any isNameChar = false := by
  refine ⟨((before t offset).reverse.dropWhile isNameChar).reverse, ?_, ?_⟩
  · rw [nameRunBefore, ← List.reverse_append, List.takeWhile_append_dropWhile, List.reverse_reverse]
  · rw [List.getLast?_reverse]
    exact any_head?_dropWhile isNameChar _

/-- Every offset has such a run around it. -/
theorem exists_nameRun (t : Text) (offset : Nat) :
    ∃ u run v, t = u ++ (run ++ v) ∧ Encloses u run v ∧ width u ≤ floorBoundary t offset ∧
      floorBoundary t offset ≤ width u + width run := by
  obtain ⟨u, hbefore, hleft⟩ := exists_before t offset
  have hafter : after t offset = nameRunAfter t offset ++ (after t offset).dropWhile isNameChar :=
    List.takeWhile_append_dropWhile.symm
  have hfloor : floorBoundary t offset = width u + width (nameRunBefore t offset) := by
    rw [floorBoundary, hbefore, width_append]
  refine ⟨u, nameRunBefore t offset ++ nameRunAfter t offset, (after t offset).dropWhile isNameChar, ?_,
    ⟨?_, hleft, any_head?_dropWhile isNameChar _⟩, by omega, by rw [width_append]; omega⟩
  · rw [List.append_assoc, ← List.append_assoc u, ← hbefore, ← hafter, before_append_after]
  · intro c hc
    rcases List.mem_append.mp hc with hc | hc
    · exact mem_takeWhile c (List.mem_reverse.mp hc)
    · exact mem_takeWhile c hc

/-- A character that stands inside a part of a text. -/
theorem mem_part {t u part v a b : Text} {c : Char} (ht : t = u ++ (part ++ v)) (hc : t = a ++ c :: b)
    (hstart : width u ≤ width a) (hstop : width a < width u + width part) : c ∈ part := by
  obtain ⟨x, rfl, hrest⟩ := exists_append_of_width_le ht hc hstart
  rw [width_append] at hstop
  obtain ⟨y, rfl, hy⟩ := exists_append_of_width_le rfl hrest.symm (by omega : width x ≤ width part)
  cases y with
  | nil =>
    rw [List.append_nil] at hstop
    omega
  | cons d y =>
    rw [(List.cons.inj hy).1]
    simp

/-- **A run that is touched on neither side is the widest one around each of its boundaries.** -/
theorem Encloses.widest {u run v : Text} (h : Encloses u run v) {b : Nat} (hstart : width u ≤ b)
    (hstop : b ≤ width u + width run) :
    WidestNameRun (u ++ (run ++ v)) b ⟨width u, width u + width run⟩ := by
  refine ⟨⟨⟨u, run ++ v, rfl, rfl⟩, ⟨u ++ run, v, by rw [List.append_assoc], (width_append u run).symm⟩,
    hstart, hstop, by rw [slice_append]; exact h.names⟩, fun other ho => ?_⟩
  obtain ⟨hs, he, hle_start, hle_stop, hnames⟩ := ho
  obtain ⟨u', part, v', ht, hs, he, hslice⟩ := exists_parts hs he (Nat.le_trans hle_start hle_stop)
  rw [hslice] at hnames
  show width u ≤ other.start ∧ other.stop ≤ width u + width run
  rw [hs] at hle_start ⊢
  rw [he] at hle_stop ⊢
  constructor
  · -- a part that starts earlier holds the last character of `u`
    by_contra hlt
    obtain ⟨x, hx, -⟩ := exists_append_of_width_le ht rfl (by omega : width u' ≤ width u)
    rcases List.eq_nil_or_concat x with rfl | ⟨x, c, rfl⟩
    · rw [hx, List.append_nil] at hlt
      omega
    · rw [List.concat_eq_append, ← List.append_assoc] at hx
      have hwidth := congrArg width hx
      have := c.utf8Size_pos
      simp only [width_append, width_cons, width_nil] at hwidth
      have hmem : c ∈ part := mem_part ht (a := u' ++ x) (b := run ++ v) (by rw [hx]; simp)
        (by rw [width_append]; omega) (by rw [width_append]; omega)
      have hlast := h.left
      rw [hx, List.getLast?_concat, Option.any_some, hnames c hmem] at hlast
      cases hlast
  · -- and one that stops later holds the first character of `v`
    by_contra hlt
    cases v with
    | nil =>
      have hwidth := congrArg width ht
      simp only [width_append, width_nil] at hwidth
      omega
    | cons c v =>
      have hmem : c ∈ part := mem_part ht (a := u ++ run) (by rw [List.append_assoc])
        (by rw [width_append]; omega) (by rw [width_append]; omega)
      have hfirst := h.right
      rw [List.head?_cons, Option.any_some, hnames c hmem] at hfirst
      cases hfirst

/-! ## Hyphens at the ends -/

/-- A range is another one without the hyphens at its ends. -/
structure Trims (t : Text) (r found : ByteRange) : Prop where
  start : OnBoundary t found.start
  stop : OnBoundary t found.stop
  nonempty : found.start < found.stop
  hyphens : ∃ lead trail, found.start = r.start + lead ∧ found.stop + trail = r.stop ∧
    slice t r = List.replicate lead '-' ++ (slice t found ++ List.replicate trail '-')
  first : (slice t found).head? ≠ some '-'
  last : (slice t found).getLast? ≠ some '-'

theorem width_replicate_hyphen (n : Nat) : width (List.replicate n '-') = n :=
  (width_replicate n '-').trans (Nat.mul_one n)

theorem leadingHyphens_append (n : Nat) {rest : Text} (h : rest.head? ≠ some '-') :
    leadingHyphens (List.replicate n '-' ++ rest) = n := by
  have hstop : rest.head?.any (· = '-') = false := by
    cases rest with
    | nil => rfl
    | cons c rest => simpa using h
  rw [leadingHyphens, takeWhile_append_stop (by simp) hstop, List.length_replicate]

/-- A text is hyphens and what follows them. -/
theorem exists_leadingHyphens (t : Text) :
    ∃ rest, t = List.replicate (leadingHyphens t) '-' ++ rest ∧ rest.head? ≠ some '-' := by
  refine ⟨t.dropWhile (· = '-'), ?_, fun hhead => ?_⟩
  · have hrun : t.takeWhile (· = '-') = List.replicate (leadingHyphens t) '-' :=
      List.eq_replicate_iff.mpr ⟨rfl, fun c hc => of_decide_eq_true (mem_takeWhile c hc)⟩
    rw [← hrun, List.takeWhile_append_dropWhile]
  · have hstop := any_head?_dropWhile (· = '-') t
    rw [hhead] at hstop
    cases hstop

theorem width_reverse (t : Text) : width t.reverse = width t := by
  induction t with
  | nil => rfl
  | cons c t ih =>
    rw [List.reverse_cons, width_append, ih, width_cons, width_cons, width_nil]
    omega

theorem leadingHyphens_le (t : Text) : leadingHyphens t ≤ width t := by
  obtain ⟨rest, ht, -⟩ := exists_leadingHyphens t
  have hwidth := congrArg width ht
  rw [width_append, width_replicate_hyphen] at hwidth
  omega

/-- A text between hyphens that starts and ends with none. -/
theorem leadingHyphens_between {word : Text} (hne : word ≠ []) (hfirst : word.head? ≠ some '-')
    (hlast : word.getLast? ≠ some '-') (lead trail : Nat) :
    leadingHyphens (List.replicate lead '-' ++ (word ++ List.replicate trail '-')) = lead ∧
      leadingHyphens (List.replicate lead '-' ++ (word ++ List.replicate trail '-')).reverse = trail := by
  refine ⟨leadingHyphens_append lead ?_, ?_⟩
  · rwa [List.head?_append_of_ne_nil _ hne]
  · rw [List.reverse_append, List.reverse_append, List.reverse_replicate, List.append_assoc]
    refine leadingHyphens_append trail ?_
    rwa [List.head?_append_of_ne_nil _ (by simpa using hne), List.head?_reverse]

/-- **The word of a run**: what stands between the hyphens at its ends. -/
theorem exists_word {run : Text} (h : ¬∀ c ∈ run, c = '-') :
    ∃ word, word ≠ [] ∧ word.head? ≠ some '-' ∧ word.getLast? ≠ some '-' ∧
      ∃ lead trail, run = List.replicate lead '-' ++ (word ++ List.replicate trail '-') := by
  obtain ⟨rest, hrun, hfirst⟩ := exists_leadingHyphens run
  obtain ⟨back, hback, hlast⟩ := exists_leadingHyphens rest.reverse
  generalize leadingHyphens run = lead at hrun
  generalize leadingHyphens rest.reverse = trail at hback
  have hrest : rest = back.reverse ++ List.replicate trail '-' := by
    rw [← List.reverse_reverse rest, hback, List.reverse_append, List.reverse_replicate]
  have hne : back.reverse ≠ [] := by
    intro hnil
    rw [hnil, List.nil_append] at hrest
    cases trail with
    | zero =>
      rw [hrun, hrest, List.replicate_zero, List.append_nil] at h
      exact h fun c hc => List.eq_of_mem_replicate hc
    | succ trail => exact hfirst (by rw [hrest]; rfl)
  rw [hrest, List.head?_append_of_ne_nil _ hne] at hfirst
  exact ⟨back.reverse, hne, hfirst, by rwa [List.getLast?_reverse], lead, trail, by rw [hrun, hrest]⟩

/-- There is more to a run than the hyphens at its ends unless it has nothing but hyphens. -/
theorem hyphens_lt_width_iff {run : Text} :
    leadingHyphens run + leadingHyphens run.reverse < width run ↔ ¬∀ c ∈ run, c = '-' := by
  constructor
  · intro hlt hall
    have hrun : run = List.replicate run.length '-' ++ [] := by
      rw [List.append_nil]
      exact List.eq_replicate_iff.mpr ⟨rfl, hall⟩
    have hlead : leadingHyphens (List.replicate run.length '-' ++ []) = run.length :=
      leadingHyphens_append run.length (by simp)
    have hwidth := congrArg width hrun
    rw [← hrun] at hlead
    rw [List.append_nil, width_replicate_hyphen] at hwidth
    omega
  · intro h
    obtain ⟨word, hne, hfirst, hlast, lead, trail, rfl⟩ := exists_word h
    obtain ⟨hlead, htrail⟩ := leadingHyphens_between hne hfirst hlast lead trail
    have hpos : width word ≠ 0 := mt width_eq_zero_iff.mp hne
    rw [hlead, htrail]
    simp only [width_append, width_replicate_hyphen]
    omega

/-! ## The name at an offset -/

/-- **What is found depends on the run alone.** -/
theorem nameRange?_around {t u run v : Text} (ht : t = u ++ (run ++ v)) (h : Encloses u run v) {offset : Nat}
    (hstart : width u ≤ floorBoundary t offset) (hstop : floorBoundary t offset ≤ width u + width run) :
    nameRange? t offset =
      if leadingHyphens run + leadingHyphens run.reverse < width run then
        some ⟨width u + leadingHyphens run, width u + width run - leadingHyphens run.reverse⟩
      else none := by
  obtain ⟨left, right, rfl, hbefore, hafter⟩ := exists_cut ht hstart hstop
  have hleft : nameRunBefore t offset = left := by
    rw [nameRunBefore, hbefore, List.reverse_append, takeWhile_append_stop, List.reverse_reverse]
    · exact fun c hc => h.names c (List.mem_append_left _ (List.mem_reverse.mp hc))
    · rw [List.head?_reverse]
      exact h.left
  have hright : nameRunAfter t offset = right := by
    rw [nameRunAfter, hafter, takeWhile_append_stop _ h.right]
    exact fun c hc => h.names c (List.mem_append_right _ hc)
  have hfloor : floorBoundary t offset = width u + width left := by
    rw [floorBoundary, hbefore, width_append]
  have hrun : width (left ++ right) = width left + width right := width_append left right
  have hstarts : width u + width left - width left = width u := by omega
  simp only [nameRange?, hleft, hright, hfloor, hstarts, Nat.add_assoc, ← hrun]
  have hiff : width u + leadingHyphens (left ++ right) <
      width u + width (left ++ right) - leadingHyphens (left ++ right).reverse ↔
        leadingHyphens (left ++ right) + leadingHyphens (left ++ right).reverse < width (left ++ right) := by
    omega
  simp only [hiff]

/-- **A run is trimmed by the number of hyphens at its ends.** -/
theorem trims_iff {u run v : Text} {found : ByteRange} :
    Trims (u ++ (run ++ v)) ⟨width u, width u + width run⟩ found ↔
      leadingHyphens run + leadingHyphens run.reverse < width run ∧
        found = ⟨width u + leadingHyphens run, width u + width run - leadingHyphens run.reverse⟩ := by
  constructor
  · rintro ⟨-, -, hlt, ⟨lead, trail, hstart, hstop, hslice⟩, hfirst, hlast⟩
    rw [slice_append] at hslice
    generalize slice (u ++ (run ++ v)) found = word at hslice hfirst hlast
    have hwidth := congrArg width hslice
    simp only [width_append, width_replicate_hyphen] at hwidth hstart hstop
    have hne : word ≠ [] := by
      rintro rfl
      rw [width_nil] at hwidth
      omega
    obtain ⟨hlead, htrail⟩ := leadingHyphens_between hne hfirst hlast lead trail
    rw [← hslice] at hlead htrail
    obtain ⟨start, stop⟩ := found
    simp only at hlt hstart hstop
    rw [hlead, htrail, ByteRange.mk.injEq]
    omega
  · rintro ⟨hlt, rfl⟩
    obtain ⟨word, hne, hfirst, hlast, lead, trail, hrun⟩ := exists_word (hyphens_lt_width_iff.mp hlt)
    obtain ⟨hlead, htrail⟩ := leadingHyphens_between hne hfirst hlast lead trail
    have hwidth := congrArg width hrun
    simp only [width_append, width_replicate_hyphen] at hwidth
    rw [← hrun] at hlead htrail
    have hstop : width u + width run - trail = width u + lead + width word := by omega
    have htext : u ++ (run ++ v) =
        (u ++ List.replicate lead '-') ++ (word ++ (List.replicate trail '-' ++ v)) := by
      rw [hrun]
      simp only [List.append_assoc]
    have hslice : slice (u ++ (run ++ v)) ⟨width u + lead, width u + lead + width word⟩ = word := by
      have := slice_append (u ++ List.replicate lead '-') word (List.replicate trail '-' ++ v)
      rwa [← htext, width_append, width_replicate_hyphen] at this
    rw [hlead, htrail, hstop]
    refine ⟨⟨_, _, htext, ?_⟩, ⟨_, _, htext.trans (List.append_assoc _ word _).symm, ?_⟩, ?_,
      ⟨lead, trail, rfl, ?_, ?_⟩, ?_, ?_⟩
    · rw [width_append, width_replicate_hyphen]
    · simp only [width_append, width_replicate_hyphen]
    · have : width word ≠ 0 := mt width_eq_zero_iff.mp hne
      show width u + lead < width u + lead + width word
      omega
    · show width u + lead + width word + trail = width u + width run
      omega
    · rw [hslice, slice_append]
      exact hrun
    · rwa [hslice]
    · rwa [hslice]

/-- **The name at an offset.**  There is one widest run of name characters around the boundary that the offset
falls back to.  Nothing is found when it has nothing but hyphens, and otherwise the run without the hyphens at
its ends; every offset from one end of the run to the other gives the same.  No subtraction on the way is cut
off at zero. -/
theorem nameRange?_widest (t : Text) (offset : Nat) :
    ∃ r, WidestNameRun t (floorBoundary t offset) r ∧
      (∀ r', WidestNameRun t (floorBoundary t offset) r' → r' = r) ∧
      (nameRange? t offset = none ↔ ∀ c ∈ slice t r, c = '-') ∧
      (∀ found, nameRange? t offset = some found ↔ Trims t r found) ∧
      (∀ other, r.start ≤ other → other ≤ r.stop → nameRange? t other = nameRange? t offset) ∧
      width (nameRunBefore t offset) ≤ floorBoundary t offset ∧
      leadingHyphens (nameRunBefore t offset ++ nameRunAfter t offset).reverse ≤
        floorBoundary t offset + width (nameRunAfter t offset) := by
  obtain ⟨u, run, v, ht, h, hstart, hstop⟩ := exists_nameRun t offset
  have hslice : slice t ⟨width u, width u + width run⟩ = run := by rw [ht, slice_append]
  have hwidest : WidestNameRun t (floorBoundary t offset) ⟨width u, width u + width run⟩ :=
    ht ▸ h.widest (ht ▸ hstart) (ht ▸ hstop)
  have hfound := nameRange?_around ht h hstart hstop
  obtain ⟨front, hbefore, -⟩ := exists_before t offset
  have hfloor : floorBoundary t offset = width front + width (nameRunBefore t offset) := by
    rw [floorBoundary, hbefore, width_append]
  refine ⟨_, hwidest, fun r' hr' => hwidest.unique hr', ?_, fun found => ?_, fun other hlow hhigh => ?_,
    by omega, ?_⟩
  · rw [hslice, hfound]
    split
    · rename_i hlt
      simpa using hyphens_lt_width_iff.mp hlt
    · rename_i hall
      simpa using mt hyphens_lt_width_iff.mpr hall
  · rw [hfound, ht, trims_iff]
    split
    · rename_i hlt
      simp only [hlt, true_and, Option.some.injEq]
      exact eq_comm
    · rename_i hlt
      simp [hlt]
  · -- an offset inside the run falls back to a boundary inside the run
    have hfloor := OnBoundary.le_floorBoundary (t := t) ⟨u, run ++ v, ht, rfl⟩ hlow
    rw [hfound]
    exact nameRange?_around ht h hfloor (Nat.le_trans (floorBoundary_le t other) hhigh)
  · have hle := leadingHyphens_le (nameRunBefore t offset ++ nameRunAfter t offset).reverse
    rw [width_reverse, width_append] at hle
    omega

-- An offset inside a character of the word, and one behind the hyphens at its end.
example : nameRange? "<-é-card- >".toList 3 = some ⟨2, 9⟩ ∧
    nameRange? "<-é-card- >".toList 10 = some ⟨2, 9⟩ ∧ nameRange? "<-- >".toList 2 = none := by
  decide +kernel

end TemplateAssist.Text
