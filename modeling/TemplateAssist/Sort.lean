/-!
# Sorting

Lists in the order of a comparison, equal elements in the order given.

* `insertSorted` — an element put before the first one that is not less.
* `sortBy` — a list sorted by insertion.
-/

namespace TemplateAssist

variable {α : Type}

/-- A list with an element put before the first one that it does not exceed. -/
def insertSorted (compare : α → α → Ordering) (a : α) : List α → List α
  | [] => [a]
  | b :: rest =>
    if compare a b = .gt then b :: insertSorted compare a rest else a :: b :: rest

/-- A list in the order of a comparison, equal elements in the order given. -/
def sortBy (compare : α → α → Ordering) : List α → List α
  | [] => []
  | a :: rest => insertSorted compare a (sortBy compare rest)

theorem insertSorted_perm (compare : α → α → Ordering) (a : α) (l : List α) :
    (insertSorted compare a l).Perm (a :: l) := by
  induction l with
  | nil => exact .refl _
  | cons b rest ih =>
    unfold insertSorted
    split
    · exact (ih.cons b).trans (.swap a b rest)
    · exact .refl _

theorem sortBy_perm (compare : α → α → Ordering) (l : List α) : (sortBy compare l).Perm l := by
  induction l with
  | nil => exact .refl _
  | cons a rest ih => exact (insertSorted_perm compare a _).trans (ih.cons a)

@[simp] theorem mem_sortBy {compare : α → α → Ordering} {a : α} {l : List α} :
    a ∈ sortBy compare l ↔ a ∈ l :=
  (sortBy_perm compare l).mem_iff

end TemplateAssist
