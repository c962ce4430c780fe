import TemplateAssist.Proofs.Loading

/-!
# The order of loading

A scan loads the ancestors of the cached classes name by name, in an order that nothing fixes.

* `World.Chained` — on the way along a chain of parents.
* `Chained.loadFrom`, `Loaded.loadAll` — one chain loaded, and all of them: everything is served then.
* `Loaded.get?_eq_some_iff` — once everything is served, the cache holds exactly what can be met.

Principal result: `scanInOrder_comm`.  If nothing is contested, the cache does not depend on the order.
Where a file is loaded on demand that declares another class than the one looked for, it does
(`scanInOrder_contested`).
-/

namespace TemplateAssist

namespace World

variable {d : Disk} {epoch : Nat} {w v : World}

/-! ## One chain -/

/-- Cached classes stand in files of their own, so there are no more of them than there are nodes. -/
theorem length_le_of_mirrors {s : State} (h : s.Mirrors d) {names : List Text} (hnd : names.Nodup)
    (hall : ∀ n ∈ names, s.components.has n = true) : names.length ≤ d.nodes.length := by
  have hplace : ∀ n ∈ names, ∃ place ∈ d.nodes.keys, d.classAt? place = some n := by
    intro n hn
    obtain ⟨c, hc⟩ := Table.has_eq_true_iff.mp (hall n hn)
    have hclass := h.classAt?_eq (h.indexed.registered n c hc)
    exact ⟨_, Disk.mem_keys_of_classAt? hclass, hclass⟩
  have hsub : names ⊆ d.nodes.keys.filterMap d.classAt? := fun n hn => by
    obtain ⟨place, hp, hclass⟩ := hplace n hn
    exact List.mem_filterMap.mpr ⟨place, hp, hclass⟩
  calc names.length ≤ (d.nodes.keys.filterMap d.classAt?).length := (hnd.subperm hsub).length_le
    _ ≤ d.nodes.keys.length := List.length_filterMap_le ..
    _ = d.nodes.length := List.length_map ..

section Chain

variable {fuel : Nat} {seen : List Text} {current : Text}

theorem loadFrom_of_seen (hseen : current ∈ seen) :
    Work.loadFrom epoch (fuel + 1) seen current v = (.ok (), v) := by
  rw [Work.loadFrom, if_pos (by simpa using hseen)]
  rfl

theorem loadFrom_of_missing (hchild : v.state.lookup? current = none) :
    Work.loadFrom epoch (fuel + 1) seen current v = (.ok (), v) := by
  have hask : Work.ask (·.state.lookup? current) v = (.ok none, v) := by rw [Work.ask, hchild]
  rw [Work.loadFrom]
  split
  · rfl
  · rw [Work.bind_of_ok hask]
    rfl

theorem loadFrom_of_root {child : Component} (hchild : v.state.lookup? current = some child)
    (hparent : child.parentName? = none) :
    Work.loadFrom epoch (fuel + 1) seen current v = (.ok (), v) := by
  have hask : Work.ask (·.state.lookup? current) v = (.ok (some child), v) := by rw [Work.ask, hchild]
  rw [Work.loadFrom]
  split
  · rfl
  · rw [Work.bind_of_ok hask]
    simp only [hparent]
    rfl

/-- One step of a chain: the parent of a class is loaded if it is missing, and if it is cached then, the
chain goes on from there. -/
theorem loadFrom_of_parent {parent : Text} {child : Component} {v' : World} (hseen : current ∉ seen)
    (hchild : v.state.lookup? current = some child) (hparent : child.parentName? = some parent)
    (hload : v.state.components.has parent = true ∧ v' = v ∨ v.state.components.has parent = false ∧
      Work.loadParent (v.parentSource child parent) epoch v = (.ok (), v')) :
    Work.loadFrom epoch (fuel + 1) seen current v =
      if v'.state.components.has parent = true then
        Work.loadFrom epoch fuel (current :: seen) parent v'
      else (.ok (), v') := by
  have hnot : seen.contains current = false := by simpa using hseen
  have hask : Work.ask (·.state.lookup? current) v = (.ok (some child), v) := by rw [Work.ask, hchild]
  have hhas : ∀ u : World, Work.ask (·.state.components.has parent) u =
      (.ok (u.state.components.has parent), u) := fun _ => rfl
  rw [Work.loadFrom, hnot, if_neg Bool.false_ne_true, Work.bind_of_ok hask]
  simp only [hparent]
  rw [Work.bind_of_ok (hhas v)]
  rcases hload with ⟨hcached, rfl⟩ | ⟨hmissing, hload⟩
  · rw [hcached, Bool.not_true, if_neg Bool.false_ne_true, Work.bind_of_ok (hhas v'), hcached, if_pos rfl,
      if_pos rfl]
  · rw [hmissing, Bool.not_false, if_pos rfl,
      Work.bind_of_ok (show Work.ask (·.parentSource child parent) v = _ from rfl), Work.bind_of_ok hload,
      Work.bind_of_ok (hhas v')]
    split <;> rfl

end Chain

/-- On the way along a chain everything is served that was seen or came in, but for the class that the
chain has come to. -/
structure Chained (w : World) (seen : List Text) (current : Text) (v : World) : Prop where
  loaded : Loaded w v
  nodup : seen.Nodup
  cached : ∀ n ∈ seen, v.state.components.has n = true
  served : ∀ n c, v.state.components.get? n = some c →
    n ∈ seen ∨ w.state.components.has n = false ∧ n ≠ current → Served w v c

/-- A class that is served can be passed on the way to its parent. -/
theorem Chained.pass {seen : List Text} {current parent : Text} {child : Component} {v' : World}
    (h : Chained w seen current v) (hmem : current ∉ seen)
    (hchild : v.state.components.get? current = some child) (hv' : Loaded w v') (hgrows : Grows v v')
    (hserved : Served w v' child)
    (hnew : ∀ n, v'.state.components.has n = true → v.state.components.has n = true ∨ n = parent) :
    Chained w (current :: seen) parent v' := by
  refine ⟨hv', List.nodup_cons.mpr ⟨hmem, h.nodup⟩, fun n hn => hgrows.has ?_, fun n c hc hn => ?_⟩
  · rcases List.mem_cons.mp hn with rfl | hn
    · exact Table.has_eq_true_iff.mpr ⟨child, hchild⟩
    · exact h.cached n hn
  by_cases he : n = current
  · obtain rfl := Option.some.inj ((hgrows current child hchild).symm.trans (he ▸ hc))
    exact hserved
  -- what was passed before was cached and served then
  have hbefore : v.state.components.get? n = some c := by
    have hin : v.state.components.has n = true := by
      rcases hn with hn | ⟨-, hne⟩
      · exact h.cached n ((List.mem_cons.mp hn).resolve_left he)
      · exact (hnew n (Table.has_eq_true_iff.mpr ⟨c, hc⟩)).resolve_right hne
    obtain ⟨c', hc'⟩ := Table.has_eq_true_iff.mp hin
    rw [← Option.some.inj ((hgrows n c' hc').symm.trans hc)]
    exact hc'
  refine (h.served n c hbefore ?_).mono hgrows
  rcases hn with hn | ⟨hn, -⟩
  · exact Or.inl ((List.mem_cons.mp hn).resolve_left he)
  · exact Or.inr ⟨hn, he⟩

/-- Where a chain ends, everything is served. -/
theorem Chained.stop {seen : List Text} {current : Text} (h : Chained w seen current v)
    (hcurrent : ∀ c, v.state.components.get? current = some c → Served w v c) (n : Text) (c : Component)
    (hc : v.state.components.get? n = some c) (hn : n = current ∨ w.state.components.has n = false) :
    Served w v c := by
  by_cases he : n = current
  · exact hcurrent c (he ▸ hc)
  · exact h.served n c hc (Or.inr ⟨hn.resolve_left he, he⟩)

/-- The parent of a class on the chain is cached, or it is loaded if it can be. -/
theorem Loaded.step (hu : Uncontested w) (hw : w.state.Mirrors w.disk) (h : Loaded w v)
    {current parent : Text} {child : Component} (hchild : v.state.lookup? current = some child)
    (hparent : child.parentName? = some parent) : ∃ v',
      (v.state.components.has parent = true ∧ v' = v ∨ v.state.components.has parent = false ∧
        Work.loadParent (v.parentSource child parent) w.state.epoch v = (.ok (), v')) ∧
      Loaded w v' ∧ Grows v v' ∧ Served w v' child ∧
      ∀ n, v'.state.components.has n = true → v.state.components.has n = true ∨ n = parent := by
  cases hhas : v.state.components.has parent with
  | true =>
    refine ⟨v, Or.inl ⟨rfl, rfl⟩, h, .refl v, fun c hc => ?_, fun n hn => Or.inl hn⟩
    rw [(hu.declares (h.met current child hchild) hparent hc).1]
    exact hhas
  | false =>
    obtain ⟨v', hload, hrest⟩ := h.loadParent hu hw hchild hparent hhas
    exact ⟨v', Or.inr ⟨rfl, hload⟩, hrest⟩

/-- **A chain of parents loaded.**  Everything that came in is served then, and so is the class that the
chain starts from. -/
theorem Chained.loadFrom (hu : Uncontested w) (hw : w.state.Mirrors w.disk) (fuel : Nat)
    (seen : List Text) (current : Text) (h : Chained w seen current v)
    (hfuel : w.disk.nodes.length < fuel + seen.length) :
    ∃ v', Work.loadFrom w.state.epoch fuel seen current v = (.ok (), v') ∧ Loaded w v' ∧ Grows v v' ∧
      ∀ n c, v'.state.components.get? n = some c → n = current ∨ w.state.components.has n = false →
        Served w v' c := by
  induction fuel generalizing seen current v with
  | zero =>
    have := length_le_of_mirrors h.loaded.sourced.still.mirrors h.nodup h.cached
    omega
  | succ fuel ih =>
    by_cases hmem : current ∈ seen
    · exact ⟨v, loadFrom_of_seen hmem, h.loaded, .refl v,
        h.stop fun c hc => h.served current c hc (Or.inl hmem)⟩
    cases hchild : v.state.lookup? current with
    | none =>
      refine ⟨v, loadFrom_of_missing hchild, h.loaded, .refl v, h.stop fun c hc => ?_⟩
      rw [show v.state.components.get? current = none from hchild] at hc
      cases hc
    | some child =>
      have hget : v.state.components.get? current = some child := hchild
      cases hparent : child.parentName? with
      | none =>
        refine ⟨v, loadFrom_of_root hchild hparent, h.loaded, .refl v, h.stop fun c hc c' hc' => ?_⟩
        obtain rfl := Option.some.inj (hget.symm.trans hc)
        obtain ⟨_, _, _, _, _, hparent', -⟩ := supply?_eq_some_iff.mp hc'
        rw [hparent] at hparent'
        cases hparent'
      | some parent =>
        obtain ⟨v₁, hload, hloaded, hgrows, hserved, hnew⟩ := h.loaded.step hu hw hchild hparent
        have hpass := h.pass hmem hget hloaded hgrows hserved hnew
        rw [loadFrom_of_parent hmem hchild hparent hload]
        split
        · obtain ⟨v', hrest, h', hgrows', hserved'⟩ := ih (current :: seen) parent hpass (by
            simp only [List.length_cons]
            omega)
          refine ⟨v', hrest, h', hgrows.trans hgrows', fun n c hc hn => ?_⟩
          rcases hn with rfl | hn
          · obtain rfl := Option.some.inj ((hgrows' n child (hgrows n child hget)).symm.trans hc)
            exact hserved.mono hgrows'
          · exact hserved' n c hc (Or.inr hn)
        · rename_i hno
          refine ⟨v₁, rfl, hloaded, hgrows, fun n c hc hn => hpass.served n c hc ?_⟩
          rcases hn with rfl | hn
          · exact Or.inl List.mem_cons_self
          · refine Or.inr ⟨hn, ?_⟩
            rintro rfl
            exact hno (Table.has_eq_true_iff.mpr ⟨c, hc⟩)

/-! ## All chains -/

/-- **All chains loaded, in any order.** -/
theorem Loaded.loadAll (hu : Uncontested w) (hw : Sourced w.disk w.options w.state.epoch w)
    {names : List Text} (hnames : ∀ n ∈ w.state.components.keys, n ∈ names) :
    ∃ v, Work.loadAll w.state.epoch names w = (.ok true, v) ∧ Loaded w v ∧
      ∀ n c, v.state.components.get? n = some c → Served w v c := by
  have hnone : ∀ n c, w.state.components.get? n = some c → w.state.components.has n = false →
      Served w w c := by
    intro n c hc hn
    rw [has_eq_false_iff.mp hn] at hc
    cases hc
  obtain ⟨v, hload, hloaded, hlate, hearly⟩ := Work.loadAll_of_step
    (Q := fun rest v => Loaded w v ∧
      (∀ n c, v.state.components.get? n = some c → w.state.components.has n = false → Served w v c) ∧
      ∀ n c, w.state.components.get? n = some c → n ∈ rest ∨ Served w v c)
    (fun _ _ hQ => hQ.1.sourced.still.epoch)
    (fun name rest v hQ => by
      obtain ⟨hloaded, hlate, hearly⟩ := hQ
      have hchained : Chained w [] name v :=
        ⟨hloaded, List.nodup_nil, fun _ hn => absurd hn List.not_mem_nil, fun n c hc hn =>
          hlate n c hc (hn.resolve_left List.not_mem_nil).1⟩
      obtain ⟨v', hload, hloaded', hgrows, hserved⟩ :=
        hchained.loadFrom hu hw.still.mirrors (v.classBound + 1) [] name (by
          rw [classBound, hloaded.sourced.still.disk, List.length_nil]
          omega)
      refine ⟨v', hload, hloaded', fun n c hc hn => hserved n c hc (Or.inr hn), fun n c hc => ?_⟩
      rcases hearly n c hc with hn | hn
      · rcases List.mem_cons.mp hn with rfl | hn
        · exact Or.inr (hserved n c (hloaded'.kept n c hc) (Or.inl rfl))
        · exact Or.inl hn
      · exact Or.inr (hn.mono hgrows))
    names ⟨.refl hw, hnone, fun n c hc => Or.inl (hnames n (Table.mem_keys_of_get? hc))⟩
  refine ⟨v, hload, hloaded, fun n c hc => ?_⟩
  cases hn : w.state.components.get? n with
  | none => exact hlate n c hc (has_eq_false_iff.mpr hn)
  | some c' =>
    obtain rfl := Option.some.inj ((hloaded.kept n c' hn).symm.trans hc)
    exact (hearly n c' hn).resolve_left List.not_mem_nil

/-- **Once everything is served, the cache holds exactly what can be met.** -/
theorem Loaded.get?_eq_some_iff (hu : Uncontested w) (hw : w.state.Mirrors w.disk) (h : Loaded w v)
    (hserved : ∀ n c, v.state.components.get? n = some c → Served w v c) {n : Text} {c : Component} :
    v.state.components.get? n = some c ↔ Met w c ∧ c.name = n := by
  constructor
  · exact fun hc => ⟨h.met n c hc, h.sourced.still.mirrors.indexed.keyed.named n c hc⟩
  · rintro ⟨hmet, rfl⟩
    induction hmet with
    | cached hc =>
      rw [hw.indexed.keyed.named _ _ hc]
      exact h.kept _ _ hc
    | @supplied c c' hc hs ih =>
      obtain ⟨c'', hc''⟩ := Table.has_eq_true_iff.mp (hserved _ _ ih c' hs)
      have hname := h.sourced.still.mirrors.indexed.keyed.named _ _ hc''
      rw [hc'']
      cases h.met _ _ hc'' with
      | @cached m _ hold =>
        -- what is supplied was missing
        obtain ⟨parent, _, _, _, _, hparent, hmissing, -⟩ := supply?_eq_some_iff.mp hs
        obtain rfl := Option.some.inj (hparent.symm.trans (hu.named c c' hc hs))
        rw [has_eq_false_iff, ← hname, hw.indexed.keyed.named _ _ hold, hold] at hmissing
        cases hmissing
      | @supplied b _ hb hs' => rw [hu.unique b c c'' c' hb hc hs' hs hname]

/-! ## Caches compared -/

theorem byFile_congr {s s' : State} (h : s.Indexed) (h' : s'.Indexed)
    (heq : ∀ n, s.components.get? n = s'.components.get? n) (k : PathKey) :
    s.byFile.get? k = s'.byFile.get? k := by
  have hsub : ∀ {s s' : State}, s.Indexed → s'.Indexed →
      (∀ n, s.components.get? n = s'.components.get? n) → ∀ n, s.byFile.get? k = some n →
        s'.byFile.get? k = some n := by
    intro s s' h h' heq n hn
    obtain ⟨c, hc, rfl⟩ := h.listed k n hn
    exact h'.registered n c (heq n ▸ hc)
  refine Option.ext fun n => ?_
  exact ⟨hsub h h' heq n, hsub h' h (fun m => (heq m).symm) n⟩

theorem Loaded.recorded_congr {v' : World} (h : Loaded w v) (h' : Loaded w v')
    (heq : ∀ n, v.state.components.get? n = v'.state.components.get? n) (k : PathKey) :
    v.state.recorded.get? k = v'.state.recorded.get? k := by
  have hhas : v.state.recorded.has k = true ↔ v'.state.recorded.has k = true := by
    rw [h.times, h'.times]
    simp only [heq]
  have hsub : ∀ {v v' : World}, Loaded w v → Loaded w v' →
      (v.state.recorded.has k = true → v'.state.recorded.has k = true) → ∀ stamp,
        v.state.recorded.get? k = some stamp → v'.state.recorded.get? k = some stamp := by
    intro v v' h h' hhas stamp hk
    obtain ⟨stamp', hk'⟩ := Table.has_eq_true_iff.mp (hhas (Table.has_eq_true_iff.mpr ⟨stamp, hk⟩))
    have htimed := h'.sourced.still.mirrors.timed _ _ hk'
    rw [h.sourced.still.mirrors.timed _ _ hk] at htimed
    exact hk'.trans htimed.symm
  exact Option.ext fun stamp => ⟨hsub h h' hhas.mp stamp, hsub h' h hhas.mpr stamp⟩

/-- Merging everything depends only on what is cached under each name. -/
theorem scanned_get?_congr {v v' : World} (hk : Components.Keyed v.state.components)
    (hk' : Components.Keyed v'.state.components)
    (heq : ∀ n, v.state.components.get? n = v'.state.components.get? n) (n : Text) :
    v.scanned.state.components.get? n = v'.scanned.state.components.get? n := by
  have hsame : Components.SameBare v'.state.components v.state.components := fun m => by rw [heq]
  calc v.scanned.state.components.get? n
      = (v.state.components.get? n).map (Components.flatten v.state.components) :=
        Components.resolveEach_keys_get? hk (fun _ => mem_sortedNames) n
    _ = (v'.state.components.get? n).map (Components.flatten v'.state.components) := hsame.map_flatten n
    _ = v'.scanned.state.components.get? n :=
        (Components.resolveEach_keys_get? hk' (fun _ => mem_sortedNames) n).symm

/-- A scan of a registry that was cleared loads everything that can be met. -/
theorem scanInOrder_loaded {w : World} (hhooks : w.hooks = []) (hu : Uncontested w.clear.gathered)
    {order : List Text → List Text} (horder : ∀ names, (order names).Perm names) :
    ∃ v, Work.scanInOrder order w.clear = (.ok (), v.scanned) ∧ Loaded w.clear.gathered v ∧
      ∀ n c, v.state.components.get? n = some c ↔ Met w.clear.gathered c ∧ c.name = n := by
  obtain ⟨hsourced, hparse⟩ := gathered_sourced hhooks
  have hstill := hsourced.still
  rw [← hstill.disk, ← hstill.options, ← hstill.epoch] at hsourced
  obtain ⟨v, hload, hloaded, hserved⟩ := Loaded.loadAll hu hsourced fun n hn =>
    (horder w.clear.gathered.state.components.keys).mem_iff.mpr hn
  have hepoch : w.clear.gathered.state.epoch = w.clear.state.epoch := hstill.epoch
  refine ⟨v, ?_, hloaded, fun n c => hloaded.get?_eq_some_iff hu hsourced.still.mirrors hserved⟩
  rw [hepoch] at hload
  exact Work.scanInOrder_of_ok hparse hload (hloaded.sourced.still.epoch.trans hepoch)

/-- **Scans are deterministic when nothing is contested.**  If every class that is loaded on demand is the
one that was looked for and is supplied by one file, then any two orders of loading leave the same
components, the same files and the same times. -/
theorem scanInOrder_comm {w : World} (hhooks : w.hooks = []) (hu : Uncontested w.clear.gathered)
    {σ τ : List Text → List Text} (hσ : ∀ names, (σ names).Perm names)
    (hτ : ∀ names, (τ names).Perm names) :
    ∃ a b, Work.scanInOrder σ w.clear = (.ok (), a) ∧ Work.scanInOrder τ w.clear = (.ok (), b) ∧
      (∀ n, a.state.components.get? n = b.state.components.get? n) ∧
      (∀ k, a.state.byFile.get? k = b.state.byFile.get? k) ∧
      ∀ k, a.state.recorded.get? k = b.state.recorded.get? k := by
  obtain ⟨v, hscan, hloaded, hmet⟩ := scanInOrder_loaded hhooks hu hσ
  obtain ⟨v', hscan', hloaded', hmet'⟩ := scanInOrder_loaded hhooks hu hτ
  have heq : ∀ n, v.state.components.get? n = v'.state.components.get? n := fun n =>
    Option.ext fun c => (hmet n c).trans (hmet' n c).symm
  have hi := hloaded.sourced.still.mirrors.indexed
  have hi' := hloaded'.sourced.still.mirrors.indexed
  refine ⟨v.scanned, v'.scanned, hscan, hscan', scanned_get?_congr hi.keyed hi'.keyed heq, ?_, ?_⟩
  · show ∀ k, v.state.byFile.get? k = v'.state.byFile.get? k
    exact byFile_congr hi hi' heq
  · show ∀ k, v.state.recorded.get? k = v'.state.recorded.get? k
    exact hloaded.recorded_congr hloaded' heq

/-! ## A parent shared and a class contested -/

/-- A world whose search paths are single files of the workspace. -/
def lookingAt (sources : List String) (files : List FileStep) : World :=
  start (.workspace files) { Options.workspace with
    searchPaths := sources.map fun name => ⟨("/w/" ++ name).toList⟩ } [] []

/-- Two classes whose parent stands beside them, where no walk comes, and has a parent of its own. -/
def sharedParent : World :=
  lookingAt ["One.php", "Two.php"]
    [.writeIn "One.php" "class One extends Base {}" 1000,
      .writeIn "Two.php" "class Two extends Base {}" 1000,
      .writeIn "Base.php" "class Base extends Top { public $b; }" 1000,
      .writeIn "Top.php" "class Top { public $t; }" 1000]

/-- The components that a list leads to by supply are in the list, if it is closed. -/
theorem mem_of_met {w : World} {closed : List Component}
    (hcached : ∀ e ∈ w.state.components, e.2 ∈ closed)
    (hsupply : ∀ c ∈ closed, ∀ c' ∈ w.supply? c, c' ∈ closed) {c : Component} (h : Met w c) :
    c ∈ closed := by
  induction h with
  | cached hc => exact hcached _ (Table.mem_of_get? hc)
  | supplied _ hs ih => exact hsupply _ ih _ hs

theorem scanInOrder_comm_sharedParent :
    sharedParent.clear.gathered.state.components.has "Base".toList = false ∧
      Uncontested sharedParent.clear.gathered ∧ ∃ a b,
        Work.scanInOrder id sharedParent.clear = (.ok (), a) ∧
        Work.scanInOrder List.reverse sharedParent.clear = (.ok (), b) ∧
        a.state.components.has "Top".toList = true ∧
        ∀ n, a.state.components.get? n = b.state.components.get? n := by
  let g := sharedParent.clear.gathered
  let bottom := g.state.components.values
  let middle := bottom.filterMap g.supply?
  let closed := bottom ++ middle ++ middle.filterMap g.supply?
  have hmem : ∀ {c}, Met g c → c ∈ closed := mem_of_met (by decide +kernel) (by decide +kernel)
  have hnamed : ∀ c ∈ closed, ∀ c' ∈ g.supply? c, c.parentName? = some c'.name := by decide +kernel
  have hunique : ∀ a ∈ closed, ∀ b ∈ closed, ∀ a' ∈ g.supply? a, ∀ b' ∈ g.supply? b,
      a'.name = b'.name → a' = b' := by decide +kernel
  have hu : Uncontested g :=
    ⟨fun c c' hc hs => hnamed c (hmem hc) c' hs,
      fun a b a' b' ha hb hs hs' => hunique a (hmem ha) b (hmem hb) a' hs b' hs'⟩
  obtain ⟨a, b, ha, hb, heq, -⟩ := scanInOrder_comm (by decide +kernel) hu (σ := id) (τ := List.reverse)
    (fun _ => .refl _) (fun names => names.reverse_perm)
  refine ⟨by decide +kernel, hu, a, b, ha, hb, ?_, heq⟩
  rw [show a = (Work.scanInOrder id sharedParent.clear).2 from (congrArg Prod.snd ha).symm]
  decide +kernel

-- Two files that could supply one missing parent are contested as well: the first child decides.
example :
    let w := lookingAt ["a/One.php", "b/Two.php"]
      [.writeIn "a/One.php" "class One extends Base {}" 1000,
        .writeIn "b/Two.php" "class Two extends Base {}" 1000,
        .writeIn "a/Base.php" "class Base { public $a; }" 1000,
        .writeIn "b/Base.php" "class Base { public $b; }" 1000]
    (Work.scanInOrder id w.clear).2.state.components.get? "Base".toList ≠
      (Work.scanInOrder List.reverse w.clear).2.state.components.get? "Base".toList := by
  decide +kernel

/-- Two files declare one class, and each is where the missing parent of another class is looked for. -/
def contestedClass : World :=
  .workspace
    [.writeIn "B.php" "class Shared { public $b; }" 1000, .writeIn "J.php" "class Zed extends B {}" 1000,
      .writeIn "K.php" "class Kid extends Z {}" 1000, .writeIn "Z.php" "class Shared { public $z; }" 1000]

/-- The child that is visited last decides which file stands for the class. -/
theorem scanInOrder_contested :
    (Work.scanInOrder id contestedClass.clear).2.state.components.get? "Shared".toList ≠
      (Work.scanInOrder List.reverse contestedClass.clear).2.state.components.get? "Shared".toList ∧
    (Work.scanInOrder id contestedClass.clear).2.state.byFile.get? (Path.segments ⟨"/w/B.php".toList⟩) ≠
      (Work.scanInOrder List.reverse contestedClass.clear).2.state.byFile.get?
        (Path.segments ⟨"/w/B.php".toList⟩) := by
  decide +kernel

end World

end TemplateAssist
