import TemplateAssist.Proofs.Lineage

/-!
# The resolver computes the flattening

* `mergeBy_eq_heritage`, `inherit_flatten` — merging a flattened parent into a component flattens the
  component.
* `ReachesOff` — reachability along parents that stays off some names: what one call of the resolver
  rewrites when those names are being visited.
* `resolveFrom_spec` — one call of the resolver: every component it reaches is flattened, every other
  one is untouched, and it reports a cycle exactly when the chain revisits a name.
* `resolveEach_get?` — the same for several calls in turn.

Principal result: `resolveEach_get?`.  It holds whatever was merged before, in any order of the names
and with any repetitions, because a flattening does not depend on what was merged (`bare_flatten`).
-/

namespace TemplateAssist

def Resolution.isCyclic : Resolution → Bool
  | cyclic _ => true
  | _ => false

namespace Component

variable {α : Type} {name : α → Text}

/-! ## Merging lists of members -/

theorem additions_cons_pos {m : α} {taken : List Text} (h : name m ∈ taken) (rest : List α) :
    additions name taken (m :: rest) = additions name taken rest := by
  rw [additions, if_pos h]

theorem additions_cons_neg {m : α} {taken : List Text} (h : name m ∉ taken) (rest : List α) :
    additions name taken (m :: rest) = m :: additions name (name m :: taken) rest := by
  rw [additions, if_neg h]

/-- Only which names are taken counts. -/
theorem additions_congr {taken taken' : List Text} (h : ∀ x, x ∈ taken ↔ x ∈ taken') (l : List α) :
    additions name taken l = additions name taken' l := by
  induction l generalizing taken taken' with
  | nil => rfl
  | cons m rest ih =>
    by_cases hm : name m ∈ taken
    · rw [additions_cons_pos hm, additions_cons_pos ((h _).mp hm), ih h]
    · have hcons : ∀ x, x ∈ name m :: taken ↔ x ∈ name m :: taken' := fun x => by simp [h x]
      rw [additions_cons_neg hm, additions_cons_neg (fun h' => hm ((h _).mpr h')), ih hcons]

theorem additions_append (taken : List Text) (xs ys : List α) :
    additions name taken (xs ++ ys) =
      additions name taken xs ++ additions name (xs.map name ++ taken) ys := by
  induction xs generalizing taken with
  | nil => rfl
  | cons m rest ih =>
    rw [List.cons_append, List.map_cons, List.cons_append]
    by_cases hm : name m ∈ taken
    · rw [additions_cons_pos hm, additions_cons_pos hm, ih]
      congr 1
      refine additions_congr (fun x => ?_) ys
      simp only [List.mem_cons, List.mem_append]
      constructor
      · exact Or.inr
      · rintro (rfl | h)
        · exact Or.inr hm
        · exact h
    · rw [additions_cons_neg hm, additions_cons_neg hm, ih, List.cons_append]
      congr 2
      refine additions_congr (fun x => ?_) ys
      simp only [List.mem_cons, List.mem_append]
      exact or_left_comm

/-- What was left out as taken would be left out again. -/
theorem additions_additions {taken taken' : List Text} (h : ∀ x ∈ taken, x ∈ taken') (l : List α) :
    additions name taken' (additions name taken l) = additions name taken' l := by
  induction l generalizing taken taken' with
  | nil => rfl
  | cons m rest ih =>
    by_cases hm : name m ∈ taken
    · rw [additions_cons_pos hm, additions_cons_pos (h _ hm), ih h]
    · rw [additions_cons_neg hm]
      by_cases hm' : name m ∈ taken'
      · rw [additions_cons_pos hm', additions_cons_pos hm']
        refine ih fun x hx => ?_
        rcases List.mem_cons.mp hx with rfl | hx
        · exact hm'
        · exact h x hx
      · rw [additions_cons_neg hm', additions_cons_neg hm', ih]
        intro x hx
        rcases List.mem_cons.mp hx with rfl | hx
        · exact List.mem_cons_self
        · exact List.mem_cons_of_mem _ (h x hx)

/-- Inheriting what was inherited is inheriting in the order of the chain. -/
theorem heritage_heritage (mine theirs inherited : List α) :
    heritage name mine (heritage name theirs inherited) = heritage name mine (theirs ++ inherited) := by
  rw [heritage, heritage, heritage, additions_append, additions_append,
    additions_additions fun x hx => List.mem_append_left _ hx]

theorem additions_subset (taken : List Text) (l : List α) : ∀ m ∈ additions name taken l, m ∈ l := by
  induction l generalizing taken with
  | nil => exact fun m hm => hm
  | cons a rest ih =>
    intro m hm
    unfold additions at hm
    split at hm
    · exact List.mem_cons_of_mem _ (ih _ m hm)
    · rcases List.mem_cons.mp hm with rfl | hm
      · exact List.mem_cons_self
      · exact List.mem_cons_of_mem _ (ih _ m hm)

theorem mergeBy_eq_heritage (mine theirs : List α) :
    mergeBy name mine theirs = heritage name mine theirs := by
  unfold mergeBy heritage
  induction theirs generalizing mine with
  | nil => simp [additions]
  | cons m rest ih =>
    have hany : mine.any (fun a => decide (name a = name m)) = true ↔ name m ∈ mine.map name := by
      simp
    rw [List.foldl_cons]
    by_cases hm : name m ∈ mine.map name
    · rw [if_pos (hany.mpr hm), additions_cons_pos hm, ih]
    · rw [if_neg (fun h => hm (hany.mp h)), additions_cons_neg hm, ih, List.append_assoc,
        List.singleton_append]
      congr 2
      exact additions_congr (fun x => by simp [or_comm]) rest

end Component

namespace Components

variable {cs : Components}

/-! ## Flattening from a flattened parent -/

theorem flatten_of_ancestors?_none {c : Component} (h : cs.ancestors? c = none) :
    cs.flatten c = c.bare := by
  rw [flatten, h]

theorem flatten_of_root (cs : Components) {c : Component} (hp : c.parentName? = none) :
    cs.flatten c = { c.own with resolved := true } := by
  simp [flatten, ancestors?_of_root hp, hp, Component.heritage, Component.additions, Component.own]

theorem flatten_of_missing {c : Component} {p : Text} (hp : c.parentName? = some p)
    (hmiss : cs.get? p = none) : cs.flatten c = c.bare := by
  simp [flatten, ancestors?_of_parent hp, lineage?_of_get?_none hmiss, hp, Component.heritage,
    Component.additions, Component.bare, Component.own, Table.has, hmiss]

/-- A flattened parent merged into a component's own members flattens the component. -/
theorem inherit_flatten {c parent : Component} {p : Text} (hp : c.parentName? = some p)
    (hparent : cs.get? p = some parent) (hrev : ¬ cs.Revisits p) :
    c.own.inherit (cs.flatten parent) = cs.flatten c := by
  cases hl : cs.ancestors? parent with
  | none => exact absurd ((ancestors?_eq_none_iff hparent).mp hl) hrev
  | some line =>
    have hline : cs.ancestors? c = some (parent :: line) := by
      rw [ancestors?_of_parent hp, lineage?_of_get? hparent, hl]
      rfl
    have hhas : Table.has cs p = true := Table.has_eq_true_iff.mpr ⟨parent, hparent⟩
    simp only [flatten, hl, hline, Component.inherit, Component.mergeBy_eq_heritage,
      Component.heritage_heritage, hp, Option.all_some, hhas, List.flatMap_cons]
    rfl

/-! ## Reaching names off a list -/

/-- The name `b` is on the chain of parents from `a`, and no name up to it is on the list `off`. -/
def ReachesOff (cs : Components) (off : List Text) (a b : Text) : Prop :=
  a ∉ off ∧ Relation.ReflTransGen (fun x y => cs.Extends x y ∧ y ∉ off) a b

theorem reachesOff_nil {a b : Text} : cs.ReachesOff [] a b ↔ cs.Reaches a b := by
  simp [ReachesOff, Reaches]

theorem ReachesOff.weaken {off : List Text} {m a b : Text} (h : cs.ReachesOff (off ++ [m]) a b) :
    cs.ReachesOff off a b := by
  have hoff : ∀ {x : Text}, x ∉ off ++ [m] → x ∉ off := fun hx hx' => hx (List.mem_append_left _ hx')
  exact ⟨hoff h.1, Relation.ReflTransGen.mono (fun _ _ hxy => ⟨hxy.1, hoff hxy.2⟩) _ _ h.2⟩

theorem ReachesOff.notMem {off : List Text} {a b : Text} (h : cs.ReachesOff off a b) : b ∉ off := by
  rcases Relation.ReflTransGen.cases_tail h.2 with rfl | ⟨_, _, _, hb⟩
  · exact h.1
  · exact hb

/-- A name reached from `x` is `a`, or it is reached from `x` off `a`, or from the parent of `a` off
`a`: take the part of the chain after it last passed `a`. -/
theorem ReachesOff.avoid {off : List Text} {x n a p : Text} (h : cs.ReachesOff off x n)
    (hap : cs.Extends a p) :
    n = a ∨ cs.ReachesOff (off ++ [a]) p n ∨ cs.ReachesOff (off ++ [a]) x n := by
  obtain ⟨hx, hpath⟩ := h
  have happ : ∀ {y : Text}, y ∉ off → y ≠ a → y ∉ off ++ [a] := fun hy hya h => by
    rcases List.mem_append.mp h with h | h
    · exact hy h
    · exact hya (List.mem_singleton.mp h)
  induction hpath using Relation.ReflTransGen.head_induction_on with
  | refl =>
    by_cases hna : n = a
    · exact Or.inl hna
    · exact Or.inr (Or.inr ⟨happ hx hna, .refl⟩)
  | @head y z hyz _ ih =>
    rcases ih hyz.2 with hn | hn | hn
    · exact Or.inl hn
    · exact Or.inr (Or.inl hn)
    · by_cases hya : y = a
      · subst hya
        obtain rfl := hap.unique hyz.1
        exact Or.inr (Or.inl hn)
      · exact Or.inr (Or.inr ⟨happ hx hya, .head ⟨hyz.1, hn.1⟩ hn.2⟩)

/-- What is reached from a class: itself, and what its parent reaches off it. -/
theorem reachesOff_iff_of_extends {off : List Text} {a p n : Text} (ha : a ∉ off)
    (hap : cs.Extends a p) : cs.ReachesOff off a n ↔ n = a ∨ cs.ReachesOff (off ++ [a]) p n := by
  constructor
  · intro h
    rcases h.avoid hap with h | h | h
    · exact Or.inl h
    · exact Or.inr h
    · exact absurd (by simp) h.1
  · rintro (rfl | h)
    · exact ⟨ha, .refl⟩
    · exact ⟨ha, .head ⟨hap, h.weaken.1⟩ h.weaken.2⟩

theorem reachesOff_iff_of_not_extends {off : List Text} {a n : Text} (ha : a ∉ off)
    (hno : ∀ b, ¬ cs.Extends a b) : cs.ReachesOff off a n ↔ n = a := by
  constructor
  · rintro ⟨_, hpath⟩
    rcases Relation.ReflTransGen.cases_head hpath with rfl | ⟨b, hb, _⟩
    · rfl
    · exact absurd hb.1 (hno b)
  · rintro rfl
    exact ⟨ha, .refl⟩

theorem SameBare.reachesOff_iff {cs cs' : Components} (h : SameBare cs cs') {off : List Text}
    {a b : Text} : cs.ReachesOff off a b ↔ cs'.ReachesOff off a b := by
  unfold ReachesOff
  rw [h.extends_eq]

/-! ## One call of the resolver -/

theorem insert_sameBare {n : Text} {c c' : Component} (h : cs.get? n = some c)
    (hb : c'.bare = c.bare) : SameBare cs (cs.insert n c') := by
  intro m
  rw [Table.get?_insert]
  split
  · rename_i hnm
    subst hnm
    rw [h, Option.map_some, Option.map_some, hb]
  · rfl

theorem resolveFrom_of_visiting {name : Text} {off : List Text} (h : name ∈ off) (fuel : Nat) :
    resolveFrom (fuel + 1) cs name off = (cs, .cyclic (off ++ [name])) := by
  rw [resolveFrom, if_pos (List.contains_iff_mem.mpr h)]

theorem resolveFrom_of_get?_none {name : Text} {off : List Text} (hoff : name ∉ off)
    (h : cs.get? name = none) (fuel : Nat) :
    resolveFrom (fuel + 1) cs name off = (cs, .settled) := by
  rw [resolveFrom, if_neg (fun h' => hoff (List.contains_iff_mem.mp h'))]
  simp only [h]

theorem resolveFrom_of_root {name : Text} {off : List Text} {c : Component} (hoff : name ∉ off)
    (h : cs.get? name = some c) (hp : c.parentName? = none) (fuel : Nat) :
    resolveFrom (fuel + 1) cs name off =
      (cs.insert name { c.own with resolved := true }, .settled) := by
  rw [resolveFrom, if_neg (fun h' => hoff (List.contains_iff_mem.mp h'))]
  simp only [h, hp]

theorem resolveFrom_of_missing {name p : Text} {off : List Text} {c : Component} (hoff : name ∉ off)
    (h : cs.get? name = some c) (hp : c.parentName? = some p) (hmiss : cs.get? p = none)
    (fuel : Nat) :
    resolveFrom (fuel + 1) cs name off = (cs.insert name c.bare, .unresolvedParent name p) := by
  rw [resolveFrom, if_neg (fun h' => hoff (List.contains_iff_mem.mp h'))]
  simp only [h, hp, hmiss, Option.isNone_none, if_true]
  rfl

/-- The step of the resolver at a class whose parent is cached. -/
theorem resolveFrom_of_parent {name p : Text} {off : List Text} {c parent : Component}
    (hoff : name ∉ off) (h : cs.get? name = some c) (hp : c.parentName? = some p)
    (hparent : cs.get? p = some parent) (fuel : Nat) :
    resolveFrom (fuel + 1) cs name off =
      match resolveFrom fuel (cs.insert name c.own) p (off ++ [name]) with
      | (cs', .cyclic chain) => (unresolve cs' name, .cyclic chain)
      | (cs', _) => (mergeParent cs' name p, .settled) := by
  rw [resolveFrom, if_neg (fun h' => hoff (List.contains_iff_mem.mp h'))]
  simp only [h, hp, hparent, Option.isNone_some]
  rfl

/-- What a call of the resolver at `name` makes of a cache while the names `off` are being visited. -/
structure Resolved (cs : Components) (name : Text) (off : List Text)
    (result : Components × Resolution) : Prop where
  reached : ∀ n, cs.ReachesOff off name n → result.1.get? n = (cs.get? n).map cs.flatten
  untouched : ∀ n, ¬ cs.ReachesOff off name n → result.1.get? n = cs.get? n
  cyclic_iff : result.2.isCyclic = true ↔ cs.Revisits name

theorem Resolved.of_get?_none {name : Text} {off : List Text} (h : cs.get? name = none)
    (hoff : name ∉ off) : cs.Resolved name off (cs, .settled) := by
  have hno : ∀ b, ¬ cs.Extends name b := fun b ⟨c, hc, _⟩ => by rw [h] at hc; cases hc
  refine ⟨fun n hn => ?_, fun _ _ => rfl, ?_⟩
  · rw [(reachesOff_iff_of_not_extends hoff hno).mp hn, h]
    rfl
  · simpa [Resolution.isCyclic] using not_revisits_of_get?_none h

/-- A class without a cached parent is flattened by writing its flattening. -/
theorem Resolved.of_top {name : Text} {off : List Text} {c : Component} {r : Resolution}
    (h : cs.get? name = some c) (hoff : name ∉ off)
    (hno : ∀ p, cs.Extends name p → cs.get? p = none) (hr : r.isCyclic = false) :
    cs.Resolved name off (cs.insert name (cs.flatten c), r) := by
  refine ⟨fun n hn => ?_, fun n hn => ?_, ?_⟩
  · rw [Table.get?_insert]
    split
    · rename_i hname
      rw [← hname, h]
      rfl
    · rename_i hname
      -- past `name` only its parent is reached, which is not cached
      obtain ⟨b, hb, hbn⟩ := (Relation.ReflTransGen.cases_head hn.2).resolve_left hname
      have hnone : cs.get? n = none := by
        rcases Relation.ReflTransGen.cases_head hbn with rfl | ⟨d, ⟨⟨e, he, _⟩, _⟩, _⟩
        · exact hno b hb.1
        · rw [hno b hb.1] at he
          cases he
      rw [hnone]
      rfl
  · have hne : name ≠ n := fun he => hn (he ▸ ⟨hoff, .refl⟩)
    rw [Table.get?_insert, if_neg hne]
  · have hrev : ¬ cs.Revisits name := by
      cases hp : c.parentName? with
      | none => exact not_revisits_of_parentName?_none h hp
      | some p =>
        have hnp := (extends_iff h).mpr hp
        rw [hnp.revisits_iff]
        exact not_revisits_of_get?_none (hno p hnp)
    rw [hr]
    simpa using hrev

/-- The call at the parent leaves the child stripped to its own members. -/
theorem Resolved.child_eq {name p : Text} {off : List Text} {c : Component} {cs' : Components}
    {r : Resolution} (hres : Resolved (cs.insert name c.own) p (off ++ [name]) (cs', r)) :
    cs'.get? name = some c.own := by
  rw [hres.untouched name (fun h => h.notMem (by simp)), Table.get?_insert, if_pos rfl]

/-- After a call at the parent that met no cycle, merging it writes the flattening of the child. -/
theorem Resolved.mergeParent_eq {name p : Text} {off : List Text} {c parent : Component}
    {cs' : Components} {r : Resolution} (hc : cs.get? name = some c) (hp : c.parentName? = some p)
    (hparent : cs.get? p = some parent)
    (hres : Resolved (cs.insert name c.own) p (off ++ [name]) (cs', r))
    (hlead : ∀ v ∈ off ++ [name], Relation.TransGen (Components.Extends (cs.insert name c.own)) v p)
    (hr : r.isCyclic = false) : mergeParent cs' name p = cs'.insert name (cs.flatten c) := by
  have hsame : SameBare cs (cs.insert name c.own) := insert_sameBare hc (by simp)
  have hrev : ¬ Revisits (cs.insert name c.own) p := fun h => by
    have := hres.cyclic_iff.mpr h
    rw [hr] at this
    cases this
  have hpoff : p ∉ off ++ [name] := fun h => hrev ⟨p, .refl, hlead p h⟩
  have hne : name ≠ p := fun h => hpoff (by simp [h])
  have hpget : cs'.get? p = some (cs.flatten parent) := by
    rw [hres.reached p ⟨hpoff, .refl⟩, Table.get?_insert, if_neg hne, hparent, Option.map_some,
      flatten_congr hsame rfl]
  rw [mergeParent, hpget, hres.child_eq]
  show cs'.insert name (c.own.inherit (cs.flatten parent)) = _
  rw [inherit_flatten hp hparent (fun h => hrev (hsame.revisits_iff.mp h))]

/-- After the call at the parent, writing the flattening of the child completes the call at the
child. -/
theorem Resolved.of_parent {name p : Text} {off : List Text} {c : Component} {cs' : Components}
    {r r' : Resolution} (h : cs.get? name = some c) (hoff : name ∉ off) (hnp : cs.Extends name p)
    (hres : Resolved (cs.insert name c.own) p (off ++ [name]) (cs', r))
    (hr : r'.isCyclic = r.isCyclic) :
    cs.Resolved name off (cs'.insert name (cs.flatten c), r') := by
  have hsame : SameBare cs (cs.insert name c.own) := insert_sameBare h (by simp)
  have hother : ∀ {n}, name ≠ n → (cs.insert name c.own).get? n = cs.get? n := fun hne => by
    rw [Table.get?_insert, if_neg hne]
  refine ⟨fun n hn => ?_, fun n hn => ?_, ?_⟩
  · rw [Table.get?_insert]
    split
    · rename_i hname
      rw [← hname, h]
      rfl
    · rename_i hname
      have hn' := ((reachesOff_iff_of_extends hoff hnp).mp hn).resolve_left (Ne.symm hname)
      rw [hres.reached n (hsame.reachesOff_iff.mp hn'), hother hname]
      refine Option.map_congr fun d _ => ?_
      exact (flatten_congr hsame rfl).symm
  · rw [reachesOff_iff_of_extends hoff hnp, not_or] at hn
    have hname : name ≠ n := Ne.symm hn.1
    rw [Table.get?_insert, if_neg hname, hres.untouched n (fun h' => hn.2 (hsame.reachesOff_iff.mpr h')),
      hother hname]
  · rw [hr, hres.cyclic_iff, hnp.revisits_iff]
    exact hsame.revisits_iff.symm

theorem nodup_visiting {off : List Text} {name : Text} (hnd : off.Nodup) (hoff : name ∉ off) :
    (off ++ [name]).Nodup := by
  rw [List.nodup_append_comm, List.singleton_append, List.nodup_cons]
  exact ⟨hoff, hnd⟩

theorem has_visiting {off : List Text} {name : Text} {c : Component}
    (hhas : ∀ v ∈ off, Table.has cs v = true) (hc : cs.get? name = some c) :
    ∀ v ∈ off ++ [name], Table.has (cs.insert name c.own) v = true := by
  have hsame : SameBare cs (cs.insert name c.own) := insert_sameBare hc (by simp)
  intro v hv
  rw [← hsame.has_eq]
  rcases List.mem_append.mp hv with hv | hv
  · exact hhas v hv
  · rw [List.mem_singleton.mp hv]
    exact Table.has_eq_true_iff.mpr ⟨c, hc⟩

/-- **One call of the resolver.**  `off` are the names being visited, whose chains all lead to `name`. -/
theorem resolveFrom_spec (fuel : Nat) (cs : Components) (name : Text) (off : List Text)
    (hnd : off.Nodup) (hhas : ∀ v ∈ off, Table.has cs v = true)
    (hlead : ∀ v ∈ off, Relation.TransGen cs.Extends v name)
    (hfuel : cs.length + 2 ≤ fuel + off.length) :
    cs.Resolved name off (resolveFrom fuel cs name off) := by
  induction fuel generalizing cs name off with
  | zero =>
    have := Table.length_le_of_has hnd hhas
    omega
  | succ fuel ih =>
    by_cases hoff : name ∈ off
    · rw [resolveFrom_of_visiting hoff]
      exact ⟨fun n hn => absurd hoff hn.1, fun _ _ => rfl, by
        simpa [Resolution.isCyclic] using ⟨name, .refl, hlead name hoff⟩⟩
    cases hc : cs.get? name with
    | none =>
      rw [resolveFrom_of_get?_none hoff hc]
      exact .of_get?_none hc hoff
    | some c =>
      cases hp : c.parentName? with
      | none =>
        rw [resolveFrom_of_root hoff hc hp, ← flatten_of_root cs hp]
        refine .of_top hc hoff (fun p hnp => ?_) rfl
        rw [extends_iff hc, hp] at hnp
        cases hnp
      | some p =>
        have hnp : cs.Extends name p := (extends_iff hc).mpr hp
        cases hparent : cs.get? p with
        | none =>
          rw [resolveFrom_of_missing hoff hc hp hparent, ← flatten_of_missing hp hparent]
          exact .of_top hc hoff (fun q hnq => hnp.unique hnq ▸ hparent) rfl
        | some parent =>
          rw [resolveFrom_of_parent hoff hc hp hparent]
          have hname : Table.has cs name = true := Table.has_eq_true_iff.mpr ⟨c, hc⟩
          have hsame : SameBare cs (cs.insert name c.own) := insert_sameBare hc (by simp)
          have hlead' : ∀ v ∈ off ++ [name],
              Relation.TransGen (Components.Extends (cs.insert name c.own)) v p := by
            intro v hv
            rw [← hsame.extends_eq]
            rcases List.mem_append.mp hv with hv | hv
            · exact (hlead v hv).tail hnp
            · rw [List.mem_singleton.mp hv]
              exact .single hnp
          have hres := ih (cs.insert name c.own) p (off ++ [name])
            (nodup_visiting hnd hoff) (has_visiting hhas hc) hlead'
            (by
              rw [Table.length_insert_of_has _ hname, List.length_append, List.length_singleton]
              omega)
          cases hr : resolveFrom fuel (cs.insert name c.own) p (off ++ [name]) with
          | mk cs' r =>
            rw [hr] at hres
            have hself := hres.child_eq
            cases r with
            | cyclic chain =>
              have hrev : cs.Revisits name :=
                hnp.revisits_iff.mpr (hsame.revisits_iff.mpr (hres.cyclic_iff.mp rfl))
              have hflat : cs.flatten c = c.bare :=
                flatten_of_ancestors?_none ((ancestors?_eq_none_iff hc).mpr hrev)
              have hwrite : unresolve cs' name = cs'.insert name (cs.flatten c) := by
                rw [unresolve, hself, hflat]
                rfl
              show cs.Resolved name off (unresolve cs' name, .cyclic chain)
              rw [hwrite]
              exact .of_parent hc hoff hnp hres rfl
            | settled =>
              show cs.Resolved name off (mergeParent cs' name p, .settled)
              rw [hres.mergeParent_eq hc hp hparent hlead' rfl]
              exact .of_parent hc hoff hnp hres rfl
            | unresolvedParent a b =>
              show cs.Resolved name off (mergeParent cs' name p, .settled)
              rw [hres.mergeParent_eq hc hp hparent hlead' rfl]
              exact .of_parent hc hoff hnp hres rfl

theorem resolveIn_spec (cs : Components) (name : Text) :
    cs.Resolved name [] (cs.resolveIn name) :=
  resolveFrom_spec _ cs name [] List.nodup_nil (by simp) (by simp) (by simp)

/-! ## Several calls in turn -/

/-- Every component is cached under its own name. -/
def Named (cs : Components) : Prop :=
  ∀ n c, cs.get? n = some c → c.name = n

theorem SameBare.named {cs cs' : Components} (h : SameBare cs cs') (hn : cs.Named) : cs'.Named := by
  intro n c' hc'
  obtain ⟨c, hc, hb⟩ := h.symm.get?_some hc'
  rw [← (Component.bare_eq_iff.mp hb).1]
  exact hn n c hc

theorem reaches_of_mem_lineageFrom {fuel : Nat} {n : Text} {line : List Component}
    (h : cs.lineageFrom fuel n = some line) :
    ∀ a ∈ line, ∃ m, cs.get? m = some a ∧ cs.Reaches n m := by
  induction fuel generalizing n line with
  | zero => simp [lineageFrom] at h
  | succ fuel ih =>
    cases hc : cs.get? n with
    | none =>
      rw [lineageFrom_of_get?_none hc, Option.some.injEq] at h
      simp [← h]
    | some c =>
      cases hp : c.parentName? with
      | none =>
        rw [lineageFrom_of_root hc hp, Option.some.injEq] at h
        rw [← h]
        intro a ha
        rw [List.mem_singleton.mp ha]
        exact ⟨n, hc, .refl⟩
      | some p =>
        rw [lineageFrom_of_parent hc hp] at h
        obtain ⟨rest, hrest, rfl⟩ := Option.map_eq_some_iff.mp h
        intro a ha
        rcases List.mem_cons.mp ha with rfl | ha
        · exact ⟨n, hc, .refl⟩
        · obtain ⟨m, hm, hpm⟩ := ih hrest a ha
          exact ⟨m, hm, .head ((extends_iff hc).mpr hp) hpm⟩

/-- No ancestor on a chain that revisits no name has the name of the component. -/
theorem name_ne_of_mem_ancestors? (hn : cs.Named) {n : Text} {c : Component}
    (hc : cs.get? n = some c) {line : List Component} (hl : cs.ancestors? c = some line) :
    ∀ a ∈ line, a.name ≠ c.name := by
  cases hp : c.parentName? with
  | none =>
    rw [ancestors?_of_root hp, Option.some.injEq] at hl
    simp [← hl]
  | some p =>
    rw [ancestors?_of_parent hp] at hl
    have hnp : cs.Extends n p := (extends_iff hc).mpr hp
    intro a ha hname
    obtain ⟨m, hm, hpm⟩ := reaches_of_mem_lineageFrom hl a ha
    rw [hn m a hm, hn n c hc] at hname
    subst hname
    exact not_revisits_of_lineageFrom hl (hnp.revisits_iff.mp ⟨m, .refl, .head' hnp hpm⟩)

/-- Inherited members are declared elsewhere, so stripping recovers what was there before. -/
theorem filter_heritage {α : Type} {name declarer : α → Text} {own : Text} {mine inherited : List α}
    (hmine : ∀ m ∈ mine, declarer m = own) (hinh : ∀ m ∈ inherited, declarer m ≠ own) :
    (Component.heritage name mine inherited).filter (fun m => declarer m = own) = mine := by
  rw [Component.heritage, List.filter_append, List.filter_eq_self.mpr (by simpa using hmine),
    List.filter_eq_nil_iff.mpr, List.append_nil]
  intro m hm
  simpa using hinh m (Component.additions_subset _ _ m hm)

/-- **Flattening changes nothing but what is merged.** -/
theorem bare_flatten (hn : cs.Named) {n : Text} {c : Component} (hc : cs.get? n = some c) :
    (cs.flatten c).bare = c.bare := by
  cases hl : cs.ancestors? c with
  | none => rw [flatten_of_ancestors?_none hl, Component.bare_bare]
  | some line =>
    have hne := name_ne_of_mem_ancestors? hn hc hl
    rw [Component.bare_eq_iff]
    simp only [flatten, hl, true_and]
    refine ⟨?_, ?_⟩
    · exact filter_heritage (by simp) (by
        simp only [List.mem_flatMap, Component.own_properties, List.mem_filter, decide_eq_true_eq]
        rintro m ⟨a, ha, _, hm⟩
        exact hm ▸ hne a ha)
    · exact filter_heritage (by simp) (by
        simp only [List.mem_flatMap, Component.own_methods, List.mem_filter, decide_eq_true_eq]
        rintro m ⟨a, ha, _, hm⟩
        exact hm ▸ hne a ha)

theorem SameBare.map_flatten {cs cs' : Components} (h : SameBare cs cs') (n : Text) :
    (cs'.get? n).map cs'.flatten = (cs.get? n).map cs.flatten := by
  cases hc : cs.get? n with
  | none => rw [h.get?_none hc]; rfl
  | some c =>
    obtain ⟨c', hc', hb⟩ := h.get?_some hc
    rw [hc', Option.map_some, Option.map_some, flatten_congr h hb.symm]

theorem Resolved.sameBare {name : Text} {result : Components × Resolution} (hn : cs.Named)
    (h : cs.Resolved name [] result) : SameBare cs result.1 := by
  intro n
  by_cases hr : cs.ReachesOff [] name n
  · rw [h.reached n hr]
    cases hc : cs.get? n with
    | none => rfl
    | some c => rw [Option.map_some, Option.map_some, Option.map_some, bare_flatten hn hc]
  · rw [h.untouched n hr]

theorem resolveEach_sameBare (names : List Text) {cs : Components} (hn : cs.Named) :
    SameBare cs (cs.resolveEach names).1 := by
  induction names generalizing cs with
  | nil => exact .refl cs
  | cons name rest ih =>
    have hstep := (resolveIn_spec cs name).sameBare hn
    exact hstep.trans (ih (hstep.named hn))

/-- **Merging several names in turn** flattens every component on one of their chains and touches no
other. -/
theorem resolveEach_get? (names : List Text) {cs : Components} (hn : cs.Named) (n : Text) :
    ((∃ name ∈ names, cs.Reaches name n) → (cs.resolveEach names).1.get? n = (cs.get? n).map cs.flatten) ∧
      ((¬ ∃ name ∈ names, cs.Reaches name n) → (cs.resolveEach names).1.get? n = cs.get? n) := by
  induction names generalizing cs with
  | nil => simp [resolveEach]
  | cons name rest ih =>
    have hspec := resolveIn_spec cs name
    have hsame := hspec.sameBare hn
    obtain ⟨ihr, ihu⟩ := ih (hsame.named hn)
    simp only [← hsame.reaches_iff] at ihr ihu
    show (_ → ((cs.resolveIn name).1.resolveEach rest).1.get? n = _) ∧
      (_ → ((cs.resolveIn name).1.resolveEach rest).1.get? n = _)
    constructor
    · rintro ⟨name', hmem, hreach⟩
      by_cases hrest : ∃ m ∈ rest, cs.Reaches m n
      · rw [ihr hrest, hsame.map_flatten]
      · rcases List.mem_cons.mp hmem with rfl | hmem
        · rw [ihu hrest, hspec.reached n (reachesOff_nil.mpr hreach)]
        · exact absurd ⟨name', hmem, hreach⟩ hrest
    · intro hno
      have hrest : ¬ ∃ m ∈ rest, cs.Reaches m n := by
        rintro ⟨m, hm, h⟩
        exact hno ⟨m, List.mem_cons_of_mem _ hm, h⟩
      rw [ihu hrest, hspec.untouched n]
      exact fun h => hno ⟨name, List.mem_cons_self, reachesOff_nil.mp h⟩

end Components

end TemplateAssist
