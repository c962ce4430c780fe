import TemplateAssist.Proofs.Sources

/-!
# The order of paths

Paths are compared by their segments, and pairs of files by their paths.  Both comparisons are those of keys
in lists of numbers, from which they take their laws.

* `Segment.key`, `Path.key` — the numbers that stand for a segment and for a path.
* `compareSegments_eq`, `FilePair.compare_eq` — comparisons as comparisons of keys.
* `sortBy_pairwise` — what is sorted by a lawful comparison is in order.
* `FilePair.dedup_sort_pairwise` — pairs that are sorted and freed of repetitions increase strictly.
-/

namespace TemplateAssist

open Std (TransCmp OrientedCmp)

/-! ## Keys -/

theorem compareText_eq (s t : Text) : compareText s t = compare (s.map Char.toNat) (t.map Char.toNat) := by
  induction s generalizing t with
  | nil => cases t <;> rfl
  | cons a s ih =>
    cases t with
    | nil => rfl
    | cons b t =>
      rw [compareText, List.map_cons, List.map_cons, List.compare_cons_cons, ← ih]
      rcases Nat.lt_trichotomy a.toNat b.toNat with h | h | h
      · rw [if_pos h, Nat.compare_eq_lt.mpr h]
        rfl
      · rw [if_neg (by omega), if_neg (by omega), Nat.compare_eq_eq.mpr h]
        rfl
      · rw [if_neg (by omega), if_pos h, Nat.compare_eq_gt.mpr h]
        rfl

namespace Segment

/-- The rank of a segment, and the code points of its name behind it. -/
def key : Segment → List Nat
  | name t => 3 :: t.map Char.toNat
  | s => [s.rank]

theorem compare_eq (s t : Segment) : s.compare t = Ord.compare s.key t.key := by
  cases s <;> cases t
  case name.name s t =>
    rw [compare, compareText_eq, key, key, List.compare_cons_cons]
    rfl
  all_goals rfl

end Segment

theorem compareSegments_eq (s t : List Segment) :
    compareSegments s t = compare (s.map Segment.key) (t.map Segment.key) := by
  induction s generalizing t with
  | nil => cases t <;> rfl
  | cons a s ih =>
    cases t with
    | nil => rfl
    | cons b t =>
      rw [compareSegments, List.map_cons, List.map_cons, List.compare_cons_cons, ← ih, ← Segment.compare_eq]
      cases a.compare b <;> rfl

/-- The keys of the segments of a path. -/
def Path.key (p : Path) : List (List Nat) :=
  p.segments.map Segment.key

theorem Path.compare_eq : Path.compare = compareOn Path.key :=
  funext fun p => funext fun q => compareSegments_eq p.segments q.segments

instance : TransCmp Path.compare := by
  rw [Path.compare_eq]
  infer_instance

namespace FilePair

theorem compareOption_eq (p q : Option Path) :
    compareOption p q = Ord.compare (p.map Path.key) (q.map Path.key) := by
  cases p <;> cases q
  case some.some p q => exact compareSegments_eq p.segments q.segments
  all_goals rfl

theorem compare_eq :
    compare = compareLex (compareOn fun a => a.source.key) (compareOn fun a => a.template.map Path.key) := by
  funext a b
  rw [compare, compareOption_eq, Path.compare_eq]
  rfl

instance : TransCmp FilePair.compare := by
  rw [compare_eq]
  infer_instance

end FilePair

/-! ## Sorted lists -/

section Sorting

variable {α : Type} {compare : α → α → Ordering} [TransCmp compare]

theorem insertSorted_pairwise (a : α) {l : List α} (h : l.Pairwise fun x y => (compare x y).isLE) :
    (insertSorted compare a l).Pairwise fun x y => (compare x y).isLE := by
  induction l with
  | nil => exact List.pairwise_singleton _ a
  | cons b rest ih =>
    obtain ⟨hb, hrest⟩ := List.pairwise_cons.mp h
    unfold insertSorted
    split
    · rename_i hgt
      refine List.pairwise_cons.mpr ⟨fun x hx => ?_, ih hrest⟩
      rcases List.mem_cons.mp ((insertSorted_perm compare a rest).mem_iff.mp hx) with rfl | hx
      · exact Ordering.isLE_of_eq_lt (OrientedCmp.lt_of_gt hgt)
      · exact hb x hx
    · rename_i hle
      have hab : (compare a b).isLE := Ordering.isLE_iff_ne_gt.mpr hle
      refine List.pairwise_cons.mpr ⟨fun x hx => ?_, h⟩
      rcases List.mem_cons.mp hx with rfl | hx
      · exact hab
      · exact TransCmp.isLE_trans hab (hb x hx)

/-- **What is sorted is in order.** -/
theorem sortBy_pairwise (l : List α) : (sortBy compare l).Pairwise fun x y => (compare x y).isLE := by
  induction l with
  | nil => exact List.Pairwise.nil
  | cons a rest ih => exact insertSorted_pairwise a ih

end Sorting

namespace FilePair

theorem dedupAfter_pairwise {last : FilePair} {pairs : List FilePair}
    (h : (last :: pairs).Pairwise fun a b => (a.compare b).isLE) :
    (last :: dedupAfter last pairs).Pairwise fun a b => a.compare b = .lt := by
  induction pairs generalizing last with
  | nil => exact List.pairwise_singleton _ last
  | cons a rest ih =>
    obtain ⟨hlast, hrest⟩ := List.pairwise_cons.mp h
    unfold dedupAfter
    split
    · exact ih (h.sublist ((List.sublist_cons_self a rest).cons_cons last))
    · rename_i hne
      have hlt : last.compare a = .lt := Ordering.isLE_iff_eq_lt_or_eq_eq.mp (hlast a List.mem_cons_self)
        |>.resolve_right hne
      have hkept := ih hrest
      refine List.pairwise_cons.mpr ⟨fun b hb => ?_, hkept⟩
      rcases List.mem_cons.mp hb with rfl | hb
      · exact hlt
      · exact TransCmp.lt_trans hlt ((List.pairwise_cons.mp hkept).1 b hb)

/-- **Pairs that are sorted and freed of repetitions increase strictly.** -/
theorem dedup_sort_pairwise (pairs : List FilePair) :
    (dedup (sort pairs)).Pairwise fun a b => a.compare b = .lt := by
  have hsorted : (sort pairs).Pairwise fun a b => (a.compare b).isLE := sortBy_pairwise pairs
  cases hs : sort pairs with
  | nil => exact List.Pairwise.nil
  | cons a rest =>
    rw [hs] at hsorted
    exact dedupAfter_pairwise hsorted

end FilePair

end TemplateAssist
