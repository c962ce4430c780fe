import TemplateAssist.Proofs.Coherence
import TemplateAssist.Proofs.Outcomes

/-!
# Repairing a cache

* `Climbs`, `Distance` — how many steps of parents lead from one name to another, and the least number.
* `dependentsFrom_fuel` — more turns than the search is given change nothing: it is never stopped by its
  bound.
* `dependentsFrom_ordered` — names are found in the order of their distance.  A class has one parent, so
  whoever is found from a name is one step further away than that name.
* `Coherent.get?_mergeKin` — a change of one name reaches nobody but its dependents.

Principal results: `change_repaired`, after a change of one name the merge of that name and its
dependents makes the cache coherent again and writes nobody else; `resolveEach_confluent`, a merge of all
names comes to one cache in every order.
-/

namespace TemplateAssist

namespace Components

variable {cs : Components}

/-! ## Distances -/

/-- The chain of parents from `a` is at `b` after `k` steps. -/
def Climbs (cs : Components) : Nat → Text → Text → Prop
  | 0, a, b => a = b
  | k + 1, a, b => ∃ p, cs.Extends a p ∧ Climbs cs k p b

/-- The least number of steps after which the chain of parents from `a` is at `b` is `k`. -/
def Distance (cs : Components) (a b : Text) (k : Nat) : Prop :=
  cs.Climbs k a b ∧ ∀ j, cs.Climbs j a b → k ≤ j

theorem Distance.self (cs : Components) (n : Text) : cs.Distance n n 0 :=
  ⟨rfl, fun _ _ => Nat.zero_le _⟩

/-- A child of a name at some distance is one step further away, unless it is the start itself. -/
theorem Distance.child {m p n : Text} {k : Nat} (h : cs.Distance p n k) (hmp : cs.Extends m p)
    (hmn : m ≠ n) : cs.Distance m n (k + 1) := by
  refine ⟨⟨p, hmp, h.1⟩, fun j hj => ?_⟩
  cases j with
  | zero => exact absurd hj hmn
  | succ j =>
    obtain ⟨q, hmq, hq⟩ := hj
    obtain rfl := hmp.unique hmq
    have := h.2 j hq
    omega

/-! ## The order of the search -/

/-- The turns of the search that are left over find nothing. -/
theorem dependentsFrom_succ (hk : cs.Keyed) {start : Text} (fuel : Nat) (seen queue : List Text)
    (I : SearchInv cs start seen queue) (hfuel : queue.length + cs.length + 1 ≤ fuel + seen.length) :
    dependentsFrom cs (fuel + 1) seen queue = dependentsFrom cs fuel seen queue := by
  induction fuel generalizing seen queue with
  | zero =>
    have := I.length_le
    obtain rfl : queue = [] := List.length_eq_zero_iff.mp (by omega)
    rfl
  | succ fuel ih =>
    cases queue with
    | nil => rfl
    | cons name queue =>
      have hrest := ih _ _ (I.turn hk) (by
        simp only [List.length_cons, List.length_append] at hfuel ⊢
        omega)
      rw [dependentsFrom, hrest, dependentsFrom]

/-- **The search is never stopped by its bound.** -/
theorem dependentsFrom_fuel (hk : cs.Keyed) (n : Text) {fuel : Nat} (h : cs.length + 1 ≤ fuel) :
    dependentsFrom cs fuel [n] [n] = cs.dependentsOf n := by
  induction fuel, h using Nat.le_induction with
  | base => rfl
  | succ fuel hle ih =>
    rw [← ih]
    exact dependentsFrom_succ hk fuel [n] [n] (.init cs n) (by simp; omega)

/-- The first of two names is at most as far from `start` as the second. -/
def Nearer (cs : Components) (start a b : Text) : Prop :=
  ∃ i j, cs.Distance a start i ∧ cs.Distance b start j ∧ i ≤ j

/-- The names of a queue are at distance `k` from `start`, and after them at distance `k + 1`. -/
def Levelled (cs : Components) (start : Text) (k : Nat) (queue : List Text) : Prop :=
  ∃ near far, queue = near ++ far ∧ (∀ x ∈ near, cs.Distance x start k) ∧
    ∀ x ∈ far, cs.Distance x start (k + 1)

/-- Once all names at one distance have left the queue, the next distance takes its place. -/
theorem Levelled.uncons {start name : Text} {k : Nat} {queue : List Text}
    (h : cs.Levelled start k (name :: queue)) :
    ∃ k', k ≤ k' ∧ cs.Distance name start k' ∧ cs.Levelled start k' queue := by
  obtain ⟨near, far, heq, hnear, hfar⟩ := h
  cases near with
  | nil =>
    obtain rfl : name :: queue = far := heq
    refine ⟨k + 1, by omega, hfar name List.mem_cons_self, queue, [], by simp, ?_, by simp⟩
    exact fun x hx => hfar x (List.mem_cons_of_mem _ hx)
  | cons first near =>
    obtain ⟨rfl, rfl⟩ := List.cons.inj heq
    refine ⟨k, Nat.le_refl k, hnear name List.mem_cons_self, near, far, rfl, ?_, hfar⟩
    exact fun x hx => hnear x (List.mem_cons_of_mem _ hx)

theorem Levelled.append {start : Text} {k : Nat} {queue found : List Text}
    (h : cs.Levelled start k queue) (hfound : ∀ x ∈ found, cs.Distance x start (k + 1)) :
    cs.Levelled start k (queue ++ found) := by
  obtain ⟨near, far, rfl, hnear, hfar⟩ := h
  refine ⟨near, far ++ found, List.append_assoc .., hnear, fun x hx => ?_⟩
  rcases List.mem_append.mp hx with hx | hx
  · exact hfar x hx
  · exact hfound x hx

/-- **The search finds names in the order of their distance**, all of them further away than the first
level of its queue. -/
theorem dependentsFrom_ordered (hk : cs.Keyed) {start : Text} {k : Nat} (fuel : Nat)
    (seen queue : List Text) (hstart : start ∈ seen) (hqueue : cs.Levelled start k queue) :
    (dependentsFrom cs fuel seen queue).Pairwise (cs.Nearer start) ∧
      ∀ x ∈ dependentsFrom cs fuel seen queue, ∃ j, cs.Distance x start j ∧ k < j := by
  induction fuel generalizing k seen queue with
  | zero => simp [dependentsFrom]
  | succ fuel ih =>
    cases queue with
    | nil => simp [dependentsFrom]
    | cons name queue =>
      obtain ⟨k', hle, hname, hqueue⟩ := hqueue.uncons
      have hfound : ∀ x ∈ unseen seen (cs.childrenOf name), cs.Distance x start (k' + 1) := by
        intro x hx
        obtain ⟨hchild, hnew⟩ := mem_unseen.mp hx
        exact hname.child ((mem_childrenOf hk).mp hchild) fun he => hnew (he ▸ hstart)
      obtain ⟨hrest, hfar⟩ := ih (unseen seen (cs.childrenOf name) ++ seen) _
        (List.mem_append_right _ hstart) (hqueue.append hfound)
      simp only [dependentsFrom, List.pairwise_append, List.mem_append]
      refine ⟨⟨?_, hrest, fun a ha b hb => ?_⟩, fun x hx => ?_⟩
      · exact List.pairwise_of_forall_mem_list fun a ha b hb =>
          ⟨k' + 1, k' + 1, hfound a ha, hfound b hb, Nat.le_refl _⟩
      · obtain ⟨j, hj, hlt⟩ := hfar b hb
        exact ⟨k' + 1, j, hfound a ha, hj, hlt⟩
      · rcases hx with hx | hx
        · exact ⟨k' + 1, hfound x hx, by omega⟩
        · obtain ⟨j, hj, hlt⟩ := hfar x hx
          exact ⟨j, hj, by omega⟩

theorem dependentsOf_ordered (hk : cs.Keyed) (n : Text) :
    (cs.dependentsOf n).Pairwise (cs.Nearer n) := by
  have hlevel : cs.Levelled n 0 [n] := ⟨[n], [], rfl, by simp [Distance.self], by simp⟩
  exact (dependentsFrom_ordered hk _ [n] [n] (List.mem_singleton.mpr rfl) hlevel).1

theorem nodup_dependentsOf (hk : cs.Keyed) (n : Text) : (cs.dependentsOf n).Nodup := by
  have I := dependentsFrom_inv hk (cs.length + 1) [n] [n] (.init cs n) (by simp; omega)
  exact (List.nodup_append.mp I.nodup).1

/-! ## One change -/

/-- A change of one name reaches nobody but that name and its dependents. -/
theorem Coherent.get?_mergeKin {mid : Components} {name m : Text} (h : cs.Coherent)
    (hmid : AlikeOff cs mid name) (hne : m ≠ name) (hm : ¬ mid.Reaches m name) :
    (mid.mergeKin name).get? m = cs.get? m := by
  have hget := mergeKin_get? hmid.keyed name m
  by_cases hkin : mid.Kin name m
  · rw [hget.1 hkin, ← hmid.other m hne]
    cases hc : mid.get? m with
    | none => rfl
    | some c =>
      have hbefore : cs.get? m = some c := by rw [← hmid.other m hne, hc]
      rw [Option.map_some, hmid.flatten_eq hc hm, ← h.flat m c hbefore]
  · rw [hget.2 hkin, hmid.other m hne]

/-- What comes of a cache in which one name was changed: merging that name and then its dependents
makes it coherent, and nobody but them is written. -/
structure Repaired (before changed : Components) (n : Text) : Prop where
  coherent : (Components.refresh (changed.resolveIn n).1 n).1.Coherent
  spared : ∀ m, m ≠ n → ¬ changed.Reaches m n →
    (Components.refresh (changed.resolveIn n).1 n).1.get? m = before.get? m

theorem Coherent.repaired {mid : Components} {n : Text} (h : cs.Coherent)
    (hmid : AlikeOff cs mid n) : Repaired cs mid n :=
  ⟨h.mergeKin hmid, fun _ hne hm => h.get?_mergeKin hmid hne hm⟩

/-- What the search for the dependents of a name gives: it ends by itself, and lists once each of the
other classes whose chain of parents reaches the name, the nearer ones first. -/
structure ListsDependents (cs : Components) (n : Text) (found : List Text) : Prop where
  ends : ∀ fuel, cs.length + 1 ≤ fuel → dependentsFrom cs fuel [n] [n] = found
  nodup : found.Nodup
  mem_iff : ∀ m, m ∈ found ↔ m ≠ n ∧ Table.has cs m = true ∧ cs.Reaches m n
  ordered : found.Pairwise (cs.Nearer n)

/-- **A change of one name is repaired by merging that name and its dependents.**  In a coherent cache
the component of a name is written, in place of another one or as a new one, or it is dropped; after the
merge the cache is coherent again, whether the change closes a cycle of parents or opens one, and every
other component whose chain does not reach the name is as it was.  The dependents that are merged are
found by a search that ends on every cache and lists them in the order of their distance. -/
theorem change_repaired :
    (∀ cs : Components, cs.Coherent →
      (∀ c : Component, Repaired cs (cs.insert c.name c) c.name) ∧
        ∀ n, Repaired cs (cs.erase n) n) ∧
    ∀ cs : Components, cs.Keyed → ∀ n, cs.ListsDependents n (cs.dependentsOf n) := by
  refine ⟨fun cs h => ⟨fun c => ?_, fun n => ?_⟩, fun cs hk n => ?_⟩
  · exact h.repaired (h.keyed.alikeOff_insert c)
  · exact h.repaired (h.keyed.alikeOff_erase n)
  · exact ⟨fun _ hfuel => dependentsFrom_fuel hk n hfuel, nodup_dependentsOf hk n,
      fun _ => mem_dependentsOf_iff hk, dependentsOf_ordered hk n⟩

/-- `Low` is below `Mid`, `Mid` and `Side` are below `Top`, and all are merged. -/
def ladder : Components :=
  (Components.resolveEach ([tangled "Low" "Mid" ["l"], tangled "Mid" "Top" ["m"],
    tangled "Side" "Top" ["s"], { tangled "Top" "" ["t"] with extendsName := none }].map
      fun c => (c.name, c)) ["Low".toList, "Side".toList]).1

/-- The top of a ladder that comes to extend its lowest class closes a cycle.  Its dependents are found
from the near ones to the far one, and afterwards nobody inherits anything. -/
theorem change_repaired_ladder :
    ladder.Coherent ∧ ladder.dependentsOf "Top".toList = ["Mid", "Side", "Low"].map String.toList ∧
      ladder.ListsDependents "Top".toList (ladder.dependentsOf "Top".toList) ∧
      Repaired ladder (ladder.insert "Top".toList (tangled "Top" "Low" ["t"])) "Top".toList ∧
      Revisits (ladder.insert "Top".toList (tangled "Top" "Low" ["t"])) "Low".toList ∧
      Repaired ladder (ladder.erase "Top".toList) "Top".toList := by
  have hcoherent : ladder.Coherent := by decide +kernel
  have hrepaired := change_repaired.1 ladder hcoherent
  refine ⟨hcoherent, by decide +kernel, change_repaired.2 ladder hcoherent.keyed _,
    hrepaired.1 (tangled "Top" "Low" ["t"]), ?_, hrepaired.2 _⟩
  exact lineage?_eq_none_iff.mp (by decide +kernel)

/-! ## Every order of merging -/

/-- **Merging all names comes to one cache**, in every order of the names and with any repetitions: the
cache in which every component is its flattening.  Merging any names again changes nothing. -/
theorem resolveEach_confluent (hk : cs.Keyed) {xs ys : List Text} (hx : ∀ n ∈ cs.keys, n ∈ xs)
    (hy : ∀ n ∈ cs.keys, n ∈ ys) :
    (cs.resolveEach xs).1 = (cs.resolveEach ys).1 ∧
      (∀ n, (cs.resolveEach xs).1.get? n = (cs.get? n).map cs.flatten) ∧
      (cs.resolveEach xs).1.Coherent ∧
      ∀ zs, ((cs.resolveEach xs).1.resolveEach zs).1 = (cs.resolveEach xs).1 := by
  have hcoherent := hk.resolveEach_coherent hx
  have hget := resolveEach_keys_get? hk hx
  refine ⟨?_, hget, hcoherent, fun zs => hcoherent.resolveEach_eq zs⟩
  have hkeys : (cs.resolveEach xs).1.keys = (cs.resolveEach ys).1.keys := by
    rw [keys_resolveEach, keys_resolveEach]
  refine Table.eq_of_get?_eq hkeys hcoherent.keyed.nodup fun n => ?_
  rw [hget, resolveEach_keys_get? hk hy]

/-- A broken chain and a loop, merged from either end and with a name that is not cached. -/
theorem resolveEach_confluent_tangle :
    tangle.Keyed ∧
      (tangle.resolveEach (tangle.keys ++ ["Missing".toList])).1 =
        (tangle.resolveEach (tangle.keys.reverse ++ tangle.keys)).1 ∧
      ∀ zs, ((tangle.resolveEach tangle.keys).1.resolveEach zs).1 = (tangle.resolveEach tangle.keys).1 := by
  have hk : tangle.Keyed := by
    refine ⟨by decide +kernel, fun n c hc => ?_⟩
    exact (by decide +kernel : ∀ e ∈ tangle, e.2.name = e.1) (n, c) (Table.mem_of_get? hc)
  refine ⟨hk, (resolveEach_confluent hk (fun _ h => List.mem_append_left _ h)
    (fun _ h => List.mem_append_right _ h)).1, ?_⟩
  exact (resolveEach_confluent hk (fun _ h => h) (fun _ h => h)).2.2.2

end Components

end TemplateAssist
