import TemplateAssist.Proofs.Merging

/-!
# Dependents

* `unseen`, `childrenOf` — what one turn of the search finds.
* `SearchInv` — the invariant of the search: everything in the queue was seen, what was seen leads to
  the start, and the children of every name that left the queue were seen.
* `mem_dependentsOf_iff` — the search finds exactly the other cached classes whose chain of parents
  reaches a name.
* `refresh_get?` — merging the dependents of a name anew flattens them and their chains, and touches
  nothing else.

The fuel of the search is enough because a turn takes one name from the queue, no name is queued twice,
and every queued name but the start is that of a component.
-/

namespace TemplateAssist

namespace Table

variable {κ α : Type} [DecidableEq κ]

theorem get?_of_mem {t : Table κ α} (hnd : t.keys.Nodup) {key : κ} {value : α}
    (h : (key, value) ∈ t) : get? t key = some value := by
  induction t with
  | nil => cases h
  | cons e rest ih =>
    obtain ⟨k, v⟩ := e
    obtain ⟨hk, hnd⟩ := List.nodup_cons.mp hnd
    rcases List.mem_cons.mp h with h | h
    · cases h
      simp [get?]
    · have hne : k ≠ key := fun he => hk (he ▸ List.mem_map.mpr ⟨_, h, rfl⟩)
      rw [get?, if_neg hne, ih hnd h]

theorem keys_insert (t : Table κ α) (key : κ) (value : α) :
    (t.insert key value).keys = if key ∈ t.keys then t.keys else t.keys ++ [key] := by
  induction t with
  | nil => rfl
  | cons e rest ih =>
    obtain ⟨k, v⟩ := e
    by_cases hk : k = key
    · subst hk
      simp [insert, keys]
    · have hcons : (insert ((k, v) :: rest) key value).keys = k :: (insert rest key value).keys := by
        simp [insert, hk, keys]
      rw [hcons, ih]
      by_cases hm : key ∈ keys rest
      · have hm' : key ∈ keys ((k, v) :: rest) := List.mem_cons_of_mem _ hm
        rw [if_pos hm, if_pos hm']
        rfl
      · have hm' : key ∉ keys ((k, v) :: rest) := by
          intro h
          rcases List.mem_cons.mp h with h | h
          · exact hk h.symm
          · exact hm h
        rw [if_neg hm, if_neg hm']
        rfl

theorem mem_insert {t : Table κ α} {key : κ} {value : α} {e : κ × α}
    (h : e ∈ t.insert key value) : e = (key, value) ∨ e ∈ t := by
  induction t with
  | nil => exact Or.inl (List.mem_singleton.mp h)
  | cons x rest ih =>
    obtain ⟨k, v⟩ := x
    unfold insert at h
    split at h
    · rcases List.mem_cons.mp h with h | h
      · exact Or.inl h
      · exact Or.inr (List.mem_cons_of_mem _ h)
    · rcases List.mem_cons.mp h with rfl | h
      · exact Or.inr List.mem_cons_self
      · exact (ih h).imp_right (List.mem_cons_of_mem _)

theorem nodup_keys_insert {t : Table κ α} (h : t.keys.Nodup) (key : κ) (value : α) :
    (t.insert key value).keys.Nodup := by
  rw [keys_insert]
  split
  · exact h
  · rename_i hk
    rw [List.nodup_append]
    refine ⟨h, List.nodup_singleton _, fun a ha b hb hab => ?_⟩
    rw [List.mem_singleton.mp hb] at hab
    exact hk (hab ▸ ha)

/-- Two tables with the same keys in the same order and the same values under them are equal. -/
theorem eq_of_get?_eq {t t' : Table κ α} (hkeys : t.keys = t'.keys) (hnd : t.keys.Nodup)
    (h : ∀ key, get? t key = get? t' key) : t = t' := by
  induction t generalizing t' with
  | nil => exact (List.map_eq_nil_iff.mp hkeys.symm).symm
  | cons e rest ih =>
    obtain ⟨k, v⟩ := e
    obtain _ | ⟨⟨k', v'⟩, rest'⟩ := t'
    · cases hkeys
    obtain ⟨hk, hrest⟩ := List.cons.inj hkeys
    obtain rfl : k = k' := hk
    obtain ⟨hnew, hnd⟩ := List.nodup_cons.mp hnd
    have hhead := h k
    simp only [get?, if_pos, Option.some.injEq] at hhead
    rw [hhead, ih hrest hnd fun key => ?_]
    by_cases hkey : k = key
    · subst hkey
      have hnone : ∀ {t : Table κ α}, k ∉ t.keys → get? t k = none := fun hno =>
        Option.eq_none_iff_forall_ne_some.mpr fun x hx => hno (mem_keys_of_get? hx)
      have hnew' : k ∉ Table.keys rest' := by
        rw [Table.keys, ← hrest]
        exact hnew
      rw [hnone hnew, hnone hnew']
    · simpa only [get?, if_neg hkey] using h key

theorem nodup_keys_erase {t : Table κ α} (h : t.keys.Nodup) (key : κ) : (t.erase key).keys.Nodup :=
  List.Nodup.sublist (List.Sublist.map _ List.filter_sublist) h

end Table

namespace Components

variable {cs : Components}

/-- The components form a map whose keys are the names of the components. -/
structure Keyed (cs : Components) : Prop where
  nodup : (Table.keys cs).Nodup
  named : cs.Named

theorem Keyed.erase (hk : cs.Keyed) (n : Text) : Keyed (cs.erase n) := by
  refine ⟨Table.nodup_keys_erase hk.nodup n, fun m c hm => ?_⟩
  rw [Table.get?_erase] at hm
  split at hm
  · cases hm
  · exact hk.named m c hm

theorem Keyed.insert (hk : cs.Keyed) (c : Component) : Keyed (cs.insert c.name c) := by
  refine ⟨Table.nodup_keys_insert hk.nodup c.name c, fun m d hm => ?_⟩
  rw [Table.get?_insert] at hm
  split at hm
  · rename_i hname
    rw [← Option.some.inj hm, hname]
  · exact hk.named m d hm

/-! ## One turn of the search -/

theorem mem_childrenOf (hk : cs.Keyed) {m x : Text} : m ∈ cs.childrenOf x ↔ cs.Extends m x := by
  rw [childrenOf, mem_sortBy, List.mem_map]
  constructor
  · rintro ⟨c, hc, rfl⟩
    obtain ⟨hmem, hp⟩ := List.mem_filter.mp hc
    obtain ⟨⟨n, c'⟩, hentry, rfl⟩ := List.mem_map.mp hmem
    have hget : cs.get? n = some c' := Table.get?_of_mem hk.nodup hentry
    rw [hk.named n c' hget]
    exact ⟨c', hget, by simpa using hp⟩
  · rintro ⟨c, hc, hp⟩
    refine ⟨c, List.mem_filter.mpr ⟨?_, by simpa using hp⟩, hk.named m c hc⟩
    exact List.mem_map.mpr ⟨(m, c), Table.mem_of_get? hc, rfl⟩

theorem mem_unseen {seen l : List Text} {m : Text} : m ∈ unseen seen l ↔ m ∈ l ∧ m ∉ seen := by
  induction l generalizing seen with
  | nil => simp [unseen]
  | cons n rest ih =>
    by_cases hn : n ∈ seen
    · rw [unseen, if_pos (List.contains_iff_mem.mpr hn), ih]
      constructor
      · rintro ⟨h, hs⟩
        exact ⟨List.mem_cons_of_mem _ h, hs⟩
      · rintro ⟨h, hs⟩
        rcases List.mem_cons.mp h with rfl | h
        · exact absurd hn hs
        · exact ⟨h, hs⟩
    · rw [unseen, if_neg (fun h => hn (List.contains_iff_mem.mp h)), List.mem_cons, ih]
      constructor
      · rintro (rfl | ⟨h, hs⟩)
        · exact ⟨List.mem_cons_self, hn⟩
        · exact ⟨List.mem_cons_of_mem _ h, fun h' => hs (List.mem_cons_of_mem _ h')⟩
      · rintro ⟨h, hs⟩
        rcases List.mem_cons.mp h with rfl | h
        · exact Or.inl rfl
        · by_cases hmn : m = n
          · exact Or.inl hmn
          · refine Or.inr ⟨h, fun h' => ?_⟩
            rcases List.mem_cons.mp h' with h' | h'
            · exact hmn h'
            · exact hs h'

theorem nodup_unseen (seen l : List Text) : (unseen seen l).Nodup := by
  induction l generalizing seen with
  | nil => exact List.nodup_nil
  | cons n rest ih =>
    rw [unseen]
    split
    · exact ih seen
    · exact List.nodup_cons.mpr ⟨fun h => (mem_unseen.mp h).2 List.mem_cons_self, ih _⟩

/-! ## The whole search -/

/-- The invariant of the search for the dependents of `start`. -/
structure SearchInv (cs : Components) (start : Text) (seen queue : List Text) : Prop where
  nodup : seen.Nodup
  start_seen : start ∈ seen
  queued : ∀ x ∈ queue, x ∈ seen
  leads : ∀ x ∈ seen, cs.Reaches x start
  known : ∀ x ∈ seen, x ≠ start → Table.has cs x = true
  closed : ∀ x ∈ seen, x ∉ queue → ∀ m, cs.Extends m x → m ∈ seen

theorem SearchInv.init (cs : Components) (start : Text) : SearchInv cs start [start] [start] where
  nodup := List.nodup_singleton start
  start_seen := List.mem_singleton.mpr rfl
  queued := fun _ hx => hx
  leads := fun _ hx => List.mem_singleton.mp hx ▸ .refl
  known := fun _ hx hne => absurd (List.mem_singleton.mp hx) hne
  closed := fun _ hx hq => absurd hx hq

theorem SearchInv.perm {start : Text} {seen seen' queue : List Text} (h : seen.Perm seen')
    (I : SearchInv cs start seen queue) : SearchInv cs start seen' queue where
  nodup := h.nodup_iff.mp I.nodup
  start_seen := h.mem_iff.mp I.start_seen
  queued := fun x hx => h.mem_iff.mp (I.queued x hx)
  leads := fun x hx => I.leads x (h.mem_iff.mpr hx)
  known := fun x hx => I.known x (h.mem_iff.mpr hx)
  closed := fun x hx hq m hm => h.mem_iff.mp (I.closed x (h.mem_iff.mpr hx) hq m hm)

theorem SearchInv.length_le {start : Text} {seen queue : List Text}
    (I : SearchInv cs start seen queue) : seen.length ≤ cs.length + 1 := by
  have hrest : (seen.erase start).length ≤ cs.length :=
    Table.length_le_of_has (I.nodup.erase start) fun x hx => by
      obtain ⟨hne, hmem⟩ := (I.nodup.mem_erase_iff).mp hx
      exact I.known x hmem hne
  rw [List.length_erase_of_mem I.start_seen] at hrest
  omega

/-- One turn of the search keeps the invariant. -/
theorem SearchInv.turn (hk : cs.Keyed) {start name : Text} {seen queue : List Text}
    (I : SearchInv cs start seen (name :: queue)) :
    SearchInv cs start (unseen seen (cs.childrenOf name) ++ seen)
      (queue ++ unseen seen (cs.childrenOf name)) where
  nodup := by
    rw [List.nodup_append]
    exact ⟨nodup_unseen _ _, I.nodup, fun a ha b hb hab => (mem_unseen.mp ha).2 (hab ▸ hb)⟩
  start_seen := List.mem_append_right _ I.start_seen
  queued := by
    intro x hx
    rcases List.mem_append.mp hx with hx | hx
    · exact List.mem_append_right _ (I.queued x (List.mem_cons_of_mem _ hx))
    · exact List.mem_append_left _ hx
  leads := by
    intro x hx
    rcases List.mem_append.mp hx with hx | hx
    · have hext := (mem_childrenOf hk).mp (mem_unseen.mp hx).1
      exact .head hext (I.leads name (I.queued name List.mem_cons_self))
    · exact I.leads x hx
  known := by
    intro x hx hne
    rcases List.mem_append.mp hx with hx | hx
    · obtain ⟨c, hc, _⟩ := (mem_childrenOf hk).mp (mem_unseen.mp hx).1
      exact Table.has_eq_true_iff.mpr ⟨c, hc⟩
    · exact I.known x hx hne
  closed := by
    intro x hx hq m hm
    rw [List.mem_append, not_or] at hq
    have hseen : x ∈ seen := (List.mem_append.mp hx).resolve_left hq.2
    by_cases hxn : x = name
    · -- the children of the name just taken are seen or found
      by_cases hms : m ∈ seen
      · exact List.mem_append_right _ hms
      · exact List.mem_append_left _ (mem_unseen.mpr ⟨(mem_childrenOf hk).mpr (hxn ▸ hm), hms⟩)
    · have hq' : x ∉ name :: queue := by
        rw [List.mem_cons, not_or]
        exact ⟨hxn, hq.1⟩
      exact List.mem_append_right _ (I.closed x hseen hq' m hm)

/-- The whole search keeps the invariant and empties the queue. -/
theorem dependentsFrom_inv (hk : cs.Keyed) {start : Text} (fuel : Nat) (seen queue : List Text)
    (I : SearchInv cs start seen queue) (hfuel : queue.length + cs.length + 1 ≤ fuel + seen.length) :
    SearchInv cs start (cs.dependentsFrom fuel seen queue ++ seen) [] := by
  induction fuel generalizing seen queue with
  | zero =>
    have := I.length_le
    obtain rfl : queue = [] := List.length_eq_zero_iff.mp (by omega)
    exact I
  | succ fuel ih =>
    cases queue with
    | nil => exact I
    | cons name queue =>
      have I' := I.turn hk
      have := ih _ _ I' (by
        simp only [List.length_cons, List.length_append] at hfuel ⊢
        omega)
      refine this.perm ?_
      show (_ ++ (_ ++ seen)).Perm ((_ ++ _) ++ seen)
      rw [← List.append_assoc]
      exact List.perm_append_comm.append_right seen

/-- **The search finds exactly the dependents.** -/
theorem mem_dependentsOf_iff (hk : cs.Keyed) {m n : Text} :
    m ∈ cs.dependentsOf n ↔ m ≠ n ∧ Table.has cs m = true ∧ cs.Reaches m n := by
  have I := dependentsFrom_inv hk (cs.length + 1) [n] [n] (.init cs n) (by simp; omega)
  change SearchInv cs n (cs.dependentsOf n ++ [n]) [] at I
  constructor
  · intro hm
    have hmem : m ∈ cs.dependentsOf n ++ [n] := List.mem_append_left _ hm
    have hne : m ≠ n := fun he => by
      have := List.nodup_append.mp I.nodup
      exact this.2.2 m hm n (List.mem_singleton.mpr rfl) he
    exact ⟨hne, I.known m hmem hne, I.leads m hmem⟩
  · rintro ⟨hne, -, hreach⟩
    have hmem : m ∈ cs.dependentsOf n ++ [n] := by
      induction hreach using Relation.ReflTransGen.head_induction_on with
      | refl => exact I.start_seen
      | @head a b hab _ ih =>
        by_cases hb : b = n
        · exact I.closed b (hb ▸ I.start_seen) List.not_mem_nil a hab
        · exact I.closed b (ih hb) List.not_mem_nil a hab
    exact (List.mem_append.mp hmem).resolve_right fun h => hne (List.mem_singleton.mp h)

/-! ## Merging the dependents anew -/

theorem keys_insert_of_get? {n : Text} {c : Component} (h : cs.get? n = some c) (c' : Component) :
    (cs.insert n c').keys = Table.keys cs := by
  rw [Table.keys_insert, if_pos (Table.mem_keys_of_get? h)]

theorem keys_unresolve (cs : Components) (name : Text) : (cs.unresolve name).keys = Table.keys cs := by
  unfold unresolve
  split
  · rename_i c hc
    exact keys_insert_of_get? hc _
  · rfl

theorem keys_mergeParent (cs : Components) (name parent : Text) :
    (cs.mergeParent name parent).keys = Table.keys cs := by
  unfold mergeParent
  split
  · rename_i c _ hc
    exact keys_insert_of_get? hc _
  · rfl

theorem keys_resolveFrom (fuel : Nat) (cs : Components) (name : Text) (off : List Text) :
    (resolveFrom fuel cs name off).1.keys = Table.keys cs := by
  induction fuel generalizing cs name off with
  | zero => rfl
  | succ fuel ih =>
    unfold resolveFrom
    split
    · rfl
    split
    · rfl
    rename_i c hc
    split
    · exact keys_insert_of_get? hc _
    rename_i parent _
    split
    · exact keys_insert_of_get? hc _
    have hrec := ih (cs.insert name c.own) parent (off ++ [name])
    rw [keys_insert_of_get? hc] at hrec
    split
    · rename_i cs' chain heq
      rw [heq] at hrec
      exact (keys_unresolve cs' name).trans hrec
    · rename_i cs' _ _ heq
      rw [heq] at hrec
      exact (keys_mergeParent cs' name parent).trans hrec

theorem keys_resolveEach (cs : Components) (names : List Text) :
    (cs.resolveEach names).1.keys = Table.keys cs := by
  induction names generalizing cs with
  | nil => rfl
  | cons name rest ih =>
    have hone : (cs.resolveIn name).1.keys = Table.keys cs := keys_resolveFrom ..
    exact (ih (cs.resolveIn name).1).trans hone

theorem Keyed.resolveEach (hk : cs.Keyed) (names : List Text) : (cs.resolveEach names).1.Keyed :=
  ⟨(keys_resolveEach cs names).symm ▸ hk.nodup, (resolveEach_sameBare names hk.named).named hk.named⟩

/-- **Merging the dependents of a name anew** flattens every component on the chain of one of them and
touches no other. -/
theorem refresh_get? (hk : cs.Keyed) (name n : Text) :
    ((∃ m, m ≠ name ∧ Table.has cs m = true ∧ cs.Reaches m name ∧ cs.Reaches m n) →
        (cs.refresh name).1.get? n = (cs.get? n).map cs.flatten) ∧
      ((¬ ∃ m, m ≠ name ∧ Table.has cs m = true ∧ cs.Reaches m name ∧ cs.Reaches m n) →
        (cs.refresh name).1.get? n = cs.get? n) := by
  have hiff : (∃ m, m ≠ name ∧ Table.has cs m = true ∧ cs.Reaches m name ∧ cs.Reaches m n) ↔
      ∃ m ∈ cs.dependentsOf name, cs.Reaches m n := by
    simp only [mem_dependentsOf_iff hk, and_assoc]
  rw [hiff]
  exact resolveEach_get? _ hk.named n

end Components

end TemplateAssist
