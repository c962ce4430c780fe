import Mathlib.Data.List.Chain
import TemplateAssist.Proofs.Dependents

/-!
# How a merge ends

* `resolveFrom_fuel` — more fuel than the resolver takes changes nothing: it is never stopped by its
  bound.
* `resolveFrom_eq_cyclic` — the chain of names that a cycle is reported with: the names walked from the
  start, none of them twice, and then the first one that was met before.
* `resolveIn_of_not_revisits` — without a cycle the only report is a parent that is not cached, and
  only of the class the merge was called for.
* `SameBare.resolveFrom_snd` — what was merged before does not count for the report.

Principal result: `resolveIn_flattens` puts these together with what one call writes (`resolveIn_spec`).
-/

namespace TemplateAssist

namespace Components

variable {cs : Components}

/-! ## The bound -/

/-- The names being visited are cached and different, so the bound leaves fuel for every step. -/
theorem resolveFrom_succ (fuel : Nat) (cs : Components) (name : Text) (off : List Text)
    (hnd : off.Nodup) (hhas : ∀ v ∈ off, Table.has cs v = true)
    (hfuel : cs.length + 2 ≤ fuel + off.length) :
    resolveFrom (fuel + 1) cs name off = resolveFrom fuel cs name off := by
  induction fuel generalizing cs name off with
  | zero =>
    have := Table.length_le_of_has hnd hhas
    omega
  | succ fuel ih =>
    by_cases hoff : name ∈ off
    · rw [resolveFrom_of_visiting hoff, resolveFrom_of_visiting hoff]
    cases hc : cs.get? name with
    | none => rw [resolveFrom_of_get?_none hoff hc, resolveFrom_of_get?_none hoff hc]
    | some c =>
      cases hp : c.parentName? with
      | none => rw [resolveFrom_of_root hoff hc hp, resolveFrom_of_root hoff hc hp]
      | some p =>
        cases hparent : cs.get? p with
        | none =>
          rw [resolveFrom_of_missing hoff hc hp hparent, resolveFrom_of_missing hoff hc hp hparent]
        | some parent =>
          have hname : Table.has cs name = true := Table.has_eq_true_iff.mpr ⟨c, hc⟩
          have hrec := ih (cs.insert name c.own) p (off ++ [name]) (nodup_visiting hnd hoff)
            (has_visiting hhas hc)
            (by
              rw [Table.length_insert_of_has _ hname, List.length_append, List.length_singleton]
              omega)
          rw [resolveFrom_of_parent hoff hc hp hparent, resolveFrom_of_parent hoff hc hp hparent, hrec]

/-- **The resolver is never stopped by its bound.** -/
theorem resolveFrom_fuel (cs : Components) (name : Text) {fuel : Nat} (h : cs.length + 2 ≤ fuel) :
    resolveFrom fuel cs name [] = cs.resolveIn name := by
  induction fuel, h using Nat.le_induction with
  | base => rfl
  | succ fuel hle ih =>
    rw [← ih, resolveFrom_succ fuel cs name [] List.nodup_nil (by simp) (by simpa using hle)]

/-! ## The chain of a cycle -/

/-- **A cycle is reported with the walked path.**  `off` are the names being visited: they are a walk to
`name`, and the reported chain goes on from there. -/
theorem resolveFrom_eq_cyclic (fuel : Nat) (cs : Components) (name : Text) (off chain : List Text)
    (hnd : off.Nodup) (hwalk : (off ++ [name]).IsChain cs.Extends)
    (h : (resolveFrom fuel cs name off).2 = .cyclic chain) :
    ∃ path again, chain = path ++ [again] ∧ (off ++ [name]) <+: chain ∧ chain.IsChain cs.Extends ∧
      path.Nodup ∧ again ∈ path := by
  induction fuel generalizing cs name off with
  | zero => cases h
  | succ fuel ih =>
    by_cases hoff : name ∈ off
    · rw [resolveFrom_of_visiting hoff] at h
      cases h
      exact ⟨off, name, rfl, List.prefix_rfl, hwalk, hnd, hoff⟩
    cases hc : cs.get? name with
    | none => rw [resolveFrom_of_get?_none hoff hc] at h; cases h
    | some c =>
      cases hp : c.parentName? with
      | none => rw [resolveFrom_of_root hoff hc hp] at h; cases h
      | some p =>
        cases hparent : cs.get? p with
        | none => rw [resolveFrom_of_missing hoff hc hp hparent] at h; cases h
        | some parent =>
          have hnp : cs.Extends name p := (extends_iff hc).mpr hp
          have hsame : SameBare cs (cs.insert name c.own) := insert_sameBare hc (by simp)
          have hwalk' : (off ++ [name] ++ [p]).IsChain cs.Extends := by
            rw [List.append_assoc, List.singleton_append, List.isChain_append_cons_cons]
            exact ⟨hwalk, hnp, .singleton p⟩
          rw [resolveFrom_of_parent hoff hc hp hparent] at h
          cases hr : resolveFrom fuel (cs.insert name c.own) p (off ++ [name]) with
          | mk cs' r =>
            rw [hr] at h
            cases r with
            | cyclic chain' =>
              cases h
              obtain ⟨path, again, hchain, hpre, hsteps, hpath, hagain⟩ :=
                ih (cs.insert name c.own) p (off ++ [name]) (nodup_visiting hnd hoff)
                  (hsame.extends_eq ▸ hwalk') (by rw [hr])
              exact ⟨path, again, hchain, (List.prefix_append _ _).trans hpre,
                hsame.extends_eq ▸ hsteps, hpath, hagain⟩
            | settled => cases h
            | unresolvedParent _ _ => cases h

theorem resolveIn_of_revisits {name : Text} (h : cs.Revisits name) :
    ∃ path again, (cs.resolveIn name).2 = .cyclic (path ++ [again]) ∧ path.head? = some name ∧
      (path ++ [again]).IsChain cs.Extends ∧ path.Nodup ∧ again ∈ path := by
  have hcyc := (resolveIn_spec cs name).cyclic_iff.mpr h
  cases hr : (cs.resolveIn name).2 with
  | settled => rw [hr] at hcyc; cases hcyc
  | unresolvedParent _ _ => rw [hr] at hcyc; cases hcyc
  | cyclic chain =>
    obtain ⟨path, again, rfl, hpre, hsteps, hnd, hagain⟩ :=
      resolveFrom_eq_cyclic _ cs name [] chain List.nodup_nil (.singleton name) hr
    refine ⟨path, again, rfl, ?_, hsteps, hnd, hagain⟩
    -- the path is not empty, so it starts where the chain does
    cases path with
    | nil => cases hagain
    | cons first rest =>
      have hfirst : name = first := (List.cons_prefix_cons.mp hpre).1
      rw [hfirst, List.head?_cons]

/-! ## The report without a cycle -/

theorem resolveIn_of_not_revisits {name : Text} {c : Component} (hc : cs.get? name = some c)
    (h : ¬ cs.Revisits name) :
    (cs.resolveIn name).2 =
      match c.parentName? with
      | none => .settled
      | some p => if Table.has cs p then .settled else .unresolvedParent name p := by
  have hcyc : (cs.resolveIn name).2.isCyclic ≠ true := fun hr =>
    h ((resolveIn_spec cs name).cyclic_iff.mp hr)
  have hoff : name ∉ ([] : List Text) := List.not_mem_nil
  unfold resolveIn at hcyc ⊢
  cases hp : c.parentName? with
  | none => rw [resolveFrom_of_root hoff hc hp]
  | some p =>
    cases hparent : cs.get? p with
    | none =>
      rw [resolveFrom_of_missing hoff hc hp hparent]
      simp [Table.has, hparent]
    | some parent =>
      have hhas : Table.has cs p = true := Table.has_eq_true_iff.mpr ⟨parent, hparent⟩
      rw [resolveFrom_of_parent hoff hc hp hparent] at hcyc ⊢
      simp only [hhas, if_true]
      cases hr : resolveFrom (cs.length + 1) (cs.insert name c.own) p ([] ++ [name]) with
      | mk cs' r =>
        rw [hr] at hcyc
        cases r with
        | cyclic chain => exact absurd rfl hcyc
        | settled => rfl
        | unresolvedParent _ _ => rfl

/-! ## Merging again -/

theorem SameBare.insert_own {cs cs' : Components} (h : SameBare cs cs') {n : Text} {c c' : Component}
    (hc : cs.get? n = some c) (hc' : cs'.get? n = some c') :
    SameBare (cs.insert n c.own) (cs'.insert n c'.own) :=
  (insert_sameBare hc (by simp)).symm.trans (h.trans (insert_sameBare hc' (by simp)))

/-- **What was merged before does not count for the report.** -/
theorem SameBare.resolveFrom_snd {cs cs' : Components} (h : SameBare cs cs') (fuel : Nat) (name : Text)
    (off : List Text) : (resolveFrom fuel cs' name off).2 = (resolveFrom fuel cs name off).2 := by
  induction fuel generalizing cs cs' name off with
  | zero => rfl
  | succ fuel ih =>
    by_cases hoff : name ∈ off
    · rw [resolveFrom_of_visiting hoff, resolveFrom_of_visiting hoff]
    cases hc : cs.get? name with
    | none => rw [resolveFrom_of_get?_none hoff hc, resolveFrom_of_get?_none hoff (h.get?_none hc)]
    | some c =>
      obtain ⟨c', hc', hb⟩ := h.get?_some hc
      have hparents : c'.parentName? = c.parentName? := Component.parentName?_eq_of_bare_eq hb
      cases hp : c.parentName? with
      | none =>
        rw [resolveFrom_of_root hoff hc hp, resolveFrom_of_root hoff hc' (hparents.trans hp)]
      | some p =>
        cases hparent : cs.get? p with
        | none =>
          rw [resolveFrom_of_missing hoff hc hp hparent,
            resolveFrom_of_missing hoff hc' (hparents.trans hp) (h.get?_none hparent)]
        | some parent =>
          obtain ⟨parent', hparent', -⟩ := h.get?_some hparent
          have hrec := ih (h.insert_own hc hc') p (off ++ [name])
          rw [resolveFrom_of_parent hoff hc hp hparent,
            resolveFrom_of_parent hoff hc' (hparents.trans hp) hparent']
          cases hr : resolveFrom fuel (cs.insert name c.own) p (off ++ [name]) with
          | mk ds r =>
            cases hr' : resolveFrom fuel (cs'.insert name c'.own) p (off ++ [name]) with
            | mk ds' r' =>
              rw [hr, hr'] at hrec
              obtain rfl : r' = r := hrec
              cases r' <;> rfl

theorem resolveIn_again (hn : cs.Named) (name : Text) :
    (∀ n, ((cs.resolveIn name).1.resolveIn name).1.get? n = (cs.resolveIn name).1.get? n) ∧
      ((cs.resolveIn name).1.resolveIn name).2 = (cs.resolveIn name).2 := by
  have hspec := resolveIn_spec cs name
  have hsame := hspec.sameBare hn
  constructor
  · intro n
    have hagain := resolveIn_spec (cs.resolveIn name).1 name
    by_cases hr : cs.ReachesOff [] name n
    · rw [hagain.reached n (hsame.reachesOff_iff.mp hr), hsame.map_flatten, hspec.reached n hr]
    · exact hagain.untouched n fun h => hr (hsame.reachesOff_iff.mpr h)
  · have hlen : (cs.resolveIn name).1.length = cs.length := by
      have hkeys := congrArg List.length (keys_resolveFrom (cs.length + 2) cs name [])
      simpa [Table.keys, resolveIn] using hkeys
    rw [resolveIn, hlen]
    exact hsame.resolveFrom_snd (cs.length + 2) name []

/-! ## The whole of a merge -/

/-- What the flattening of a component is when its chain revisits no name. -/
theorem exists_flatten_eq {n : Text} {d : Component} (hn : cs.Named) (hd : cs.get? n = some d)
    (h : ¬ cs.Revisits n) :
    ∃ line, cs.ancestors? d = some line ∧
      cs.flatten d =
        { d with
          properties := Component.heritage Property.name
            (d.properties.filter (·.declaringClass = n))
            (line.flatMap fun a => a.properties.filter (·.declaringClass = a.name))
          methods := Component.heritage Method.name (d.methods.filter (·.declaringClass = n))
            (line.flatMap fun a => a.methods.filter (·.declaringClass = a.name))
          resolved := d.parentName?.all fun p => Table.has cs p } := by
  cases hl : cs.ancestors? d with
  | none => exact absurd ((ancestors?_eq_none_iff hd).mp hl) h
  | some line =>
    refine ⟨line, rfl, ?_⟩
    simp only [flatten, hl, Component.own_properties, Component.own_methods, hn n d hd]

theorem Reaches.revisits_iff {a b : Text} (h : cs.Reaches a b) : cs.Revisits a ↔ cs.Revisits b := by
  induction h with
  | refl => exact Iff.rfl
  | tail _ hstep ih => exact ih.trans hstep.revisits_iff

/-- **The resolver computes the flattening on every graph of parents**, for a cache that keeps each
component under its own name, and a class that is cached:

* it comes to an end before its bound stops it;
* when the chain of parents revisits no name, every component on the chain ends with its own members
  and, after them, the first of each other name among the members its ancestors declare, nearest first;
  it is marked as merged when it has no parent or its parent is cached; and the report is that the
  parent of the class is missing when that one is not cached, and otherwise none;
* when the chain revisits a name, every component on it ends with its own members and no mark, and the
  report is the walk from the class up to the first name met twice;
* the components off the chain stay as they are;
* and a second call writes and reports the same. -/
theorem resolveIn_flattens (hn : cs.Named) {name : Text} {c : Component}
    (hc : cs.get? name = some c) :
    (∀ fuel, cs.length + 2 ≤ fuel → resolveFrom fuel cs name [] = cs.resolveIn name) ∧
    (¬ cs.Revisits name →
      (∀ n d, cs.Reaches name n → cs.get? n = some d →
        ∃ line, cs.ancestors? d = some line ∧
          (cs.resolveIn name).1.get? n = some
            { d with
              properties := Component.heritage Property.name
                (d.properties.filter (·.declaringClass = n))
                (line.flatMap fun a => a.properties.filter (·.declaringClass = a.name))
              methods := Component.heritage Method.name (d.methods.filter (·.declaringClass = n))
                (line.flatMap fun a => a.methods.filter (·.declaringClass = a.name))
              resolved := d.parentName?.all fun p => Table.has cs p }) ∧
      (cs.resolveIn name).2 =
        match c.parentName? with
        | none => .settled
        | some p => if Table.has cs p then .settled else .unresolvedParent name p) ∧
    (cs.Revisits name →
      (∀ n d, cs.Reaches name n → cs.get? n = some d →
        (cs.resolveIn name).1.get? n = some
          { d with
            properties := d.properties.filter (·.declaringClass = n)
            methods := d.methods.filter (·.declaringClass = n)
            resolved := false }) ∧
      ∃ path again, (cs.resolveIn name).2 = .cyclic (path ++ [again]) ∧ path.head? = some name ∧
        (path ++ [again]).IsChain cs.Extends ∧ path.Nodup ∧ again ∈ path) ∧
    (∀ n, ¬ cs.Reaches name n → (cs.resolveIn name).1.get? n = cs.get? n) ∧
    ((∀ n, ((cs.resolveIn name).1.resolveIn name).1.get? n = (cs.resolveIn name).1.get? n) ∧
      ((cs.resolveIn name).1.resolveIn name).2 = (cs.resolveIn name).2) := by
  have hspec := resolveIn_spec cs name
  have hreached : ∀ n d, cs.Reaches name n → cs.get? n = some d →
      (cs.resolveIn name).1.get? n = some (cs.flatten d) := fun n d hr hd => by
    rw [hspec.reached n (reachesOff_nil.mpr hr), hd, Option.map_some]
  refine ⟨fun fuel h => resolveFrom_fuel cs name h, fun hrev => ⟨fun n d hr hd => ?_, ?_⟩,
    fun hrev => ⟨fun n d hr hd => ?_, resolveIn_of_revisits hrev⟩, fun n hr => ?_, resolveIn_again hn name⟩
  · obtain ⟨line, hline, hflat⟩ := exists_flatten_eq hn hd (fun h => hrev (hr.revisits_iff.mpr h))
    exact ⟨line, hline, by rw [hreached n d hr hd, hflat]⟩
  · exact resolveIn_of_not_revisits hc hrev
  · have hflat : cs.flatten d = d.bare :=
      flatten_of_ancestors?_none ((ancestors?_eq_none_iff hd).mpr (hr.revisits_iff.mp hrev))
    rw [hreached n d hr hd, hflat, Component.bare, Component.own, hn n d hd]
  · exact hspec.untouched n fun h => hr (reachesOff_nil.mp h)

/-! ## A chain that breaks off and a loop -/

/-- A class with properties of its own, as its file declares it. -/
def tangled (name : String) (parent : String) (own : List String) : Component :=
  ⟨name.toList, ⟨("/w/" ++ name ++ ".php").toList⟩, none, some parent.toList,
    own.map fun p => ⟨p.toList, name.toList, mixedType, .isPublic, false⟩, [], false⟩

/-- `Leaf` is below `Stem`, which is below a class that is missing; `Knot` leads into a loop of `Left`
and `Right`. -/
def tangle : Components :=
  [tangled "Leaf" "Stem" ["a"], tangled "Stem" "Missing" ["a", "b"], tangled "Knot" "Left" ["k"],
    tangled "Left" "Right" ["l"], tangled "Right" "Left" ["r"]].map fun c => (c.name, c)

/-- A missing grandparent is not reported, and a loop is reported from where it was entered. -/
theorem resolveIn_flattens_tangle :
    tangle.Named ∧ tangle.get? "Leaf".toList = some (tangled "Leaf" "Stem" ["a"]) ∧
      tangle.get? "Knot".toList = some (tangled "Knot" "Left" ["k"]) ∧
      ¬ tangle.Revisits "Leaf".toList ∧ tangle.Revisits "Knot".toList ∧
      (tangle.resolveIn "Leaf".toList).2 = .settled ∧
      ∃ path again, (tangle.resolveIn "Knot".toList).2 = .cyclic (path ++ [again]) ∧
        path.head? = some "Knot".toList ∧ (path ++ [again]).IsChain tangle.Extends ∧ path.Nodup ∧
        again ∈ path := by
  have hn : tangle.Named := fun n c hc =>
    (by decide +kernel : ∀ e ∈ tangle, e.2.name = e.1) (n, c) (Table.mem_of_get? hc)
  have hleaf : tangle.get? "Leaf".toList = some (tangled "Leaf" "Stem" ["a"]) := by decide +kernel
  have hknot : tangle.get? "Knot".toList = some (tangled "Knot" "Left" ["k"]) := by decide +kernel
  have hstraight : ¬ tangle.Revisits "Leaf".toList := by
    rw [← lineage?_eq_none_iff]
    decide +kernel
  have hloop : tangle.Revisits "Knot".toList := lineage?_eq_none_iff.mp (by decide +kernel)
  refine ⟨hn, hleaf, hknot, hstraight, hloop, ?_, ((resolveIn_flattens hn hknot).2.2.1 hloop).2⟩
  rw [((resolveIn_flattens hn hleaf).2.1 hstraight).2]
  decide +kernel

end Components

end TemplateAssist
