import Mathlib.Logic.Relation
import Mathlib.Data.List.Nodup
import Mathlib.Data.List.Perm.Subperm
import TemplateAssist.Registry.Inheritance

/-!
# Lineage and flattening

What a component should inherit, said without the resolver.

* `Extends` — one cached class names another as its parent.
* `Revisits` — the chain of parents from a name comes back to a name.
* `lineage?` — the components on the chain from a name, nearest first; none when the chain revisits a
  name (`lineage?_eq_none_iff`).
* `flatten` — a component with exactly the members it should have: its own, then those of its
  ancestors in the order of the chain, the first of each name that it does not declare itself.
* `SameBare` — two caches that differ at most in what was merged; `AgreeFrom` says so of one chain of
  parents.  A flattening depends on nothing else (`AgreeFrom.flatten_eq`).
-/

namespace TemplateAssist

namespace Table

variable {κ α : Type} [DecidableEq κ]

theorem mem_of_get? {t : Table κ α} {key : κ} {value : α} (h : get? t key = some value) :
    (key, value) ∈ t := by
  induction t with
  | nil => simp at h
  | cons e rest ih =>
    obtain ⟨k, v⟩ := e
    by_cases hk : k = key
    · simp [get?, hk] at h
      simp [hk, h]
    · simp only [get?, if_neg hk] at h
      exact List.mem_cons_of_mem _ (ih h)

theorem mem_keys_of_get? {t : Table κ α} {key : κ} {value : α} (h : get? t key = some value) :
    key ∈ t.keys :=
  List.mem_map.mpr ⟨_, mem_of_get? h, rfl⟩

theorem has_eq_true_iff {t : Table κ α} {key : κ} : t.has key = true ↔ ∃ v, get? t key = some v := by
  simp [has, Option.isSome_iff_exists]

/-- A table has at least as many entries as it has keys. -/
theorem length_le_of_has {t : Table κ α} {ks : List κ} (hnd : ks.Nodup)
    (h : ∀ k ∈ ks, t.has k = true) : ks.length ≤ t.length := by
  have hsub : ks ⊆ t.keys := by
    intro k hk
    obtain ⟨v, hv⟩ := has_eq_true_iff.mp (h k hk)
    exact mem_keys_of_get? hv
  have := (List.subperm_of_subset hnd hsub).length_le
  simpa [keys] using this

/-- Writing under a key that is there leaves the number of entries as it is. -/
theorem length_insert_of_has {t : Table κ α} {key : κ} (value : α) (h : t.has key = true) :
    (t.insert key value).length = t.length := by
  induction t with
  | nil => simp [has] at h
  | cons e rest ih =>
    obtain ⟨k, v⟩ := e
    by_cases hk : k = key
    · simp [insert, hk]
    · have hr : has rest key = true := by simpa [has, get?, hk] using h
      simp [insert, hk, ih hr]

end Table

namespace Component

/-- A component as its file declares it: its own members, and nothing merged. -/
def bare (c : Component) : Component :=
  { c.own with resolved := false }

/-- What a list of members adds to names that are taken: the first of each other name. -/
def additions {α : Type} (name : α → Text) (taken : List Text) : List α → List α
  | [] => []
  | m :: rest =>
    if name m ∈ taken then additions name taken rest
    else m :: additions name (name m :: taken) rest

/-- Members followed by what inherited ones add to them. -/
def heritage {α : Type} (name : α → Text) (mine inherited : List α) : List α :=
  mine ++ additions name (mine.map name) inherited

@[simp] theorem own_properties (c : Component) :
    c.own.properties = c.properties.filter (·.declaringClass = c.name) := rfl

@[simp] theorem own_methods (c : Component) :
    c.own.methods = c.methods.filter (·.declaringClass = c.name) := rfl

@[simp] theorem own_own (c : Component) : c.own.own = c.own := by
  have hp : c.own.properties.filter (·.declaringClass = c.name) = c.own.properties :=
    List.filter_eq_self.mpr (by simp)
  have hm : c.own.methods.filter (·.declaringClass = c.name) = c.own.methods :=
    List.filter_eq_self.mpr (by simp)
  rw [own, show c.own.name = c.name from rfl, hp, hm]
  rfl

@[simp] theorem bare_own (c : Component) : c.own.bare = c.bare := by
  simp [bare]

@[simp] theorem own_bare (c : Component) : c.bare.own = c.bare := by
  show { c.own.own with resolved := false } = c.bare
  rw [own_own, bare]

@[simp] theorem bare_bare (c : Component) : c.bare.bare = c.bare := by
  show { c.bare.own with resolved := false } = c.bare
  rw [own_bare, bare]

/-- A component that nothing was merged into. -/
theorem bare_eq_self {c : Component} (hr : c.resolved = false)
    (hp : ∀ p ∈ c.properties, p.declaringClass = c.name)
    (hm : ∀ m ∈ c.methods, m.declaringClass = c.name) : c.bare = c := by
  have hprops : c.own.properties = c.properties := List.filter_eq_self.mpr (by simpa using hp)
  have hmethods : c.own.methods = c.methods := List.filter_eq_self.mpr (by simpa using hm)
  show Component.mk c.name c.sourceFile c.templateFile c.extendsName c.own.properties c.own.methods
    false = c
  rw [hprops, hmethods, ← hr]

/-- Components are declared alike when all but their merging agrees. -/
theorem bare_eq_iff {c c' : Component} :
    c.bare = c'.bare ↔
      c.name = c'.name ∧ c.sourceFile = c'.sourceFile ∧ c.templateFile = c'.templateFile ∧
        c.extendsName = c'.extendsName ∧ c.own.properties = c'.own.properties ∧
        c.own.methods = c'.own.methods := by
  show Component.mk .. = Component.mk .. ↔ _
  simp only [Component.mk.injEq, and_true]
  rfl

theorem parentName?_eq_of_bare_eq {c c' : Component} (h : c.bare = c'.bare) :
    c.parentName? = c'.parentName? :=
  congrArg (Option.map Source.shortName) (bare_eq_iff.mp h).2.2.2.1

end Component

namespace Components

/-- The class `a` is cached and names `b` as its parent. -/
def Extends (cs : Components) (a b : Text) : Prop :=
  ∃ c, cs.get? a = some c ∧ c.parentName? = some b

/-- The name `b` is on the chain of parents from `a`. -/
def Reaches (cs : Components) : Text → Text → Prop :=
  Relation.ReflTransGen cs.Extends

/-- The chain of parents from a name comes back to a name. -/
def Revisits (cs : Components) (n : Text) : Prop :=
  ∃ m, cs.Reaches n m ∧ Relation.TransGen cs.Extends m m

/-- The components on the chain of parents from a name, or none when there are more than the fuel
allows. -/
def lineageFrom (cs : Components) : Nat → Text → Option (List Component)
  | 0, _ => none
  | fuel + 1, n =>
    match cs.get? n with
    | none => some []
    | some c =>
      match c.parentName? with
      | none => some [c]
      | some p => (lineageFrom cs fuel p).map (c :: ·)

/-- The components on the chain of parents from a name, nearest first, or none when the chain revisits
a name. -/
def lineage? (cs : Components) (n : Text) : Option (List Component) :=
  lineageFrom cs (cs.length + 1) n

/-- The ancestors of a component, nearest first, or none when its chain revisits a name. -/
def ancestors? (cs : Components) (c : Component) : Option (List Component) :=
  match c.parentName? with
  | none => some []
  | some p => cs.lineage? p

/-- A component with the members and the mark it should have over a cache. -/
def flatten (cs : Components) (c : Component) : Component :=
  match cs.ancestors? c with
  | none => c.bare
  | some line =>
    { c with
      properties := Component.heritage Property.name c.own.properties
        (line.flatMap fun a => a.own.properties)
      methods := Component.heritage Method.name c.own.methods (line.flatMap fun a => a.own.methods)
      resolved := c.parentName?.all fun p => Table.has cs p }

/-! ## Chains of parents -/

variable {cs : Components}

theorem extends_iff {a b : Text} {c : Component} (h : cs.get? a = some c) :
    cs.Extends a b ↔ c.parentName? = some b := by
  constructor
  · rintro ⟨c', hc', hp⟩
    rw [h, Option.some.injEq] at hc'
    exact hc' ▸ hp
  · intro hp
    exact ⟨c, h, hp⟩

theorem Extends.unique {a b b' : Text} (h : cs.Extends a b) (h' : cs.Extends a b') : b = b' := by
  obtain ⟨c, hc, hp⟩ := h
  rw [extends_iff hc, hp, Option.some.injEq] at h'
  exact h'

/-- Whoever extends a class shares its fate: a chain revisits a name iff the chain of the parent does. -/
theorem Extends.revisits_iff {a b : Text} (h : cs.Extends a b) : cs.Revisits a ↔ cs.Revisits b := by
  constructor
  · rintro ⟨m, ham, hmm⟩
    rcases Relation.ReflTransGen.cases_head ham with rfl | ⟨b', hab', hbm⟩
    · -- the cycle goes through `a` itself, hence through `b`
      obtain ⟨b', hab', hba⟩ := Relation.TransGen.head'_iff.mp hmm
      obtain rfl := h.unique hab'
      exact ⟨a, hba, hmm⟩
    · obtain rfl := h.unique hab'
      exact ⟨m, hbm, hmm⟩
  · rintro ⟨m, hbm, hmm⟩
    exact ⟨m, .head h hbm, hmm⟩

theorem not_revisits_of_forall_not_extends {n : Text} (h : ∀ b, ¬ cs.Extends n b) :
    ¬ cs.Revisits n := by
  rintro ⟨m, hnm, hmm⟩
  rcases Relation.ReflTransGen.cases_head hnm with rfl | ⟨b, hb, -⟩
  · obtain ⟨b, hb, -⟩ := Relation.TransGen.head'_iff.mp hmm
    exact h b hb
  · exact h b hb

theorem not_revisits_of_get?_none {n : Text} (h : cs.get? n = none) : ¬ cs.Revisits n :=
  not_revisits_of_forall_not_extends fun b ⟨c, hc, _⟩ => by rw [h] at hc; cases hc

theorem not_revisits_of_parentName?_none {n : Text} {c : Component} (h : cs.get? n = some c)
    (hp : c.parentName? = none) : ¬ cs.Revisits n :=
  not_revisits_of_forall_not_extends fun b hb => by
    rw [extends_iff h, hp] at hb
    cases hb

/-! ## Lineages -/

theorem lineageFrom_of_get?_none {n : Text} (h : cs.get? n = none) (fuel : Nat) :
    cs.lineageFrom (fuel + 1) n = some [] := by
  simp [lineageFrom, h]

theorem lineageFrom_of_root {n : Text} {c : Component} (h : cs.get? n = some c)
    (hp : c.parentName? = none) (fuel : Nat) : cs.lineageFrom (fuel + 1) n = some [c] := by
  simp [lineageFrom, h, hp]

theorem lineageFrom_of_parent {n p : Text} {c : Component} (h : cs.get? n = some c)
    (hp : c.parentName? = some p) (fuel : Nat) :
    cs.lineageFrom (fuel + 1) n = (cs.lineageFrom fuel p).map (c :: ·) := by
  simp [lineageFrom, h, hp]

theorem lineageFrom_mono {fuel : Nat} {n : Text} {line : List Component}
    (h : cs.lineageFrom fuel n = some line) : cs.lineageFrom (fuel + 1) n = some line := by
  induction fuel generalizing n line with
  | zero => simp [lineageFrom] at h
  | succ fuel ih =>
    cases hc : cs.get? n with
    | none => rwa [lineageFrom_of_get?_none hc] at h ⊢
    | some c =>
      cases hp : c.parentName? with
      | none => rwa [lineageFrom_of_root hc hp] at h ⊢
      | some p =>
        rw [lineageFrom_of_parent hc hp] at h ⊢
        obtain ⟨rest, hrest, rfl⟩ := Option.map_eq_some_iff.mp h
        rw [ih hrest]
        rfl

theorem not_revisits_of_lineageFrom {fuel : Nat} {n : Text} {line : List Component}
    (h : cs.lineageFrom fuel n = some line) : ¬ cs.Revisits n := by
  induction fuel generalizing n line with
  | zero => simp [lineageFrom] at h
  | succ fuel ih =>
    cases hc : cs.get? n with
    | none => exact not_revisits_of_get?_none hc
    | some c =>
      cases hp : c.parentName? with
      | none => exact not_revisits_of_parentName?_none hc hp
      | some p =>
        rw [lineageFrom_of_parent hc hp] at h
        obtain ⟨rest, hrest, -⟩ := Option.map_eq_some_iff.mp h
        rw [((extends_iff hc).mpr hp).revisits_iff]
        exact ih hrest

/-- A chain that runs out of fuel without revisiting a name passes one cached name for each unit of
fuel.  `passed` are the names before `n` on the chain. -/
theorem length_le_of_lineageFrom_none {fuel : Nat} {n : Text} (h : cs.lineageFrom fuel n = none)
    (hrev : ¬ cs.Revisits n) {passed : List Text} (hnd : passed.Nodup)
    (hhas : ∀ v ∈ passed, Table.has cs v = true)
    (hreach : ∀ v ∈ passed, Relation.TransGen cs.Extends v n) :
    fuel + passed.length ≤ cs.length := by
  induction fuel generalizing n passed with
  | zero => simpa using Table.length_le_of_has hnd hhas
  | succ fuel ih =>
    cases hc : cs.get? n with
    | none => rw [lineageFrom_of_get?_none hc] at h; cases h
    | some c =>
      cases hp : c.parentName? with
      | none => rw [lineageFrom_of_root hc hp] at h; cases h
      | some p =>
        rw [lineageFrom_of_parent hc hp, Option.map_eq_none_iff] at h
        have hnp : cs.Extends n p := (extends_iff hc).mpr hp
        have hfresh : n ∉ passed := fun hn => hrev ⟨n, .refl, hreach n hn⟩
        have hlen := ih h (by rwa [← hnp.revisits_iff]) (List.nodup_cons.mpr ⟨hfresh, hnd⟩)
          (by
            intro v hv
            rcases List.mem_cons.mp hv with rfl | hv
            · exact Table.has_eq_true_iff.mpr ⟨c, hc⟩
            · exact hhas v hv)
          (by
            intro v hv
            rcases List.mem_cons.mp hv with rfl | hv
            · exact .single hnp
            · exact (hreach v hv).tail hnp)
        rw [List.length_cons] at hlen
        omega

/-- **The lineage is missing exactly when the chain revisits a name.** -/
theorem lineage?_eq_none_iff {n : Text} : cs.lineage? n = none ↔ cs.Revisits n := by
  constructor
  · intro h
    refine Classical.byContradiction fun hrev => ?_
    have := length_le_of_lineageFrom_none h hrev List.nodup_nil (by simp) (by simp)
    rw [List.length_nil] at this
    omega
  · intro hrev
    cases h : cs.lineage? n with
    | none => rfl
    | some line => exact absurd hrev (not_revisits_of_lineageFrom h)

theorem lineage?_of_get?_none {n : Text} (h : cs.get? n = none) : cs.lineage? n = some [] :=
  lineageFrom_of_get?_none h _

theorem ancestors?_of_root {c : Component} (hp : c.parentName? = none) :
    cs.ancestors? c = some [] := by
  simp [ancestors?, hp]

theorem ancestors?_of_parent {c : Component} {p : Text} (hp : c.parentName? = some p) :
    cs.ancestors? c = cs.lineage? p := by
  simp [ancestors?, hp]

/-- A lineage is the component itself and its ancestors. -/
theorem lineage?_of_get? {n : Text} {c : Component} (h : cs.get? n = some c) :
    cs.lineage? n = (cs.ancestors? c).map (c :: ·) := by
  cases hp : c.parentName? with
  | none =>
    rw [ancestors?_of_root hp]
    exact lineageFrom_of_root h hp _
  | some p =>
    rw [ancestors?_of_parent hp]
    have hnp : cs.Extends n p := (extends_iff h).mpr hp
    by_cases hrev : cs.Revisits n
    · rw [lineage?_eq_none_iff.mpr hrev, lineage?_eq_none_iff.mpr (hnp.revisits_iff.mp hrev)]
      rfl
    · -- one unit of fuel less is enough for the parent: its chain misses at least `n`
      cases hline : cs.lineageFrom cs.length p with
      | none =>
        have := length_le_of_lineageFrom_none hline (by rwa [← hnp.revisits_iff])
          (List.nodup_singleton n) (by simpa using Table.has_eq_true_iff.mpr ⟨c, h⟩)
          (by simpa using Relation.TransGen.single hnp)
        simp only [List.length_singleton] at this
        omega
      | some line =>
        have hmono : cs.lineage? p = some line := lineageFrom_mono hline
        rw [hmono, lineage?, lineageFrom_of_parent h hp, hline]

/-- The ancestors of a cached component are missing exactly when its chain revisits a name. -/
theorem ancestors?_eq_none_iff {n : Text} {c : Component} (h : cs.get? n = some c) :
    cs.ancestors? c = none ↔ cs.Revisits n := by
  rw [← lineage?_eq_none_iff, lineage?_of_get? h, Option.map_eq_none_iff]

/-! ## Caches that differ in what was merged -/

/-- Two caches hold the same components, up to what was merged into them. -/
def SameBare (cs cs' : Components) : Prop :=
  ∀ n, (cs.get? n).map Component.bare = (cs'.get? n).map Component.bare

theorem SameBare.refl (cs : Components) : SameBare cs cs := fun _ => rfl

theorem SameBare.symm {cs cs' : Components} (h : SameBare cs cs') : SameBare cs' cs :=
  fun n => (h n).symm

theorem SameBare.trans {cs cs' cs'' : Components} (h : SameBare cs cs') (h' : SameBare cs' cs'') :
    SameBare cs cs'' :=
  fun n => (h n).trans (h' n)

/-- Two caches hold the same components on the chain of parents from a name, up to what was merged. -/
def AgreeFrom (cs cs' : Components) (n : Text) : Prop :=
  ∀ m, cs.Reaches n m → (cs.get? m).map Component.bare = (cs'.get? m).map Component.bare

theorem SameBare.agreeFrom {cs cs' : Components} (h : SameBare cs cs') (n : Text) :
    AgreeFrom cs cs' n :=
  fun m _ => h m

theorem AgreeFrom.get?_none {cs cs' : Components} {n : Text} (h : AgreeFrom cs cs' n)
    (hn : cs.get? n = none) : cs'.get? n = none := by
  have := h n .refl
  rw [hn] at this
  exact Option.map_eq_none_iff.mp this.symm

theorem AgreeFrom.get?_some {cs cs' : Components} {n : Text} (h : AgreeFrom cs cs' n) {c : Component}
    (hn : cs.get? n = some c) : ∃ c', cs'.get? n = some c' ∧ c'.bare = c.bare := by
  have := h n .refl
  rw [hn] at this
  exact Option.map_eq_some_iff.mp this.symm

theorem SameBare.get?_none {cs cs' : Components} (h : SameBare cs cs') {n : Text}
    (hn : cs.get? n = none) : cs'.get? n = none :=
  (h.agreeFrom n).get?_none hn

theorem SameBare.get?_some {cs cs' : Components} (h : SameBare cs cs') {n : Text} {c : Component}
    (hn : cs.get? n = some c) : ∃ c', cs'.get? n = some c' ∧ c'.bare = c.bare :=
  (h.agreeFrom n).get?_some hn

theorem SameBare.has_eq {cs cs' : Components} (h : SameBare cs cs') (n : Text) :
    Table.has cs n = Table.has cs' n := by
  have := congrArg Option.isSome (h n)
  simpa [Table.has] using this

theorem SameBare.extends {cs cs' : Components} (h : SameBare cs cs') {a b : Text}
    (hab : cs.Extends a b) : cs'.Extends a b := by
  obtain ⟨c, hc, hp⟩ := hab
  obtain ⟨c', hc', hb⟩ := h.get?_some hc
  exact ⟨c', hc', (Component.parentName?_eq_of_bare_eq hb).trans hp⟩

theorem SameBare.extends_eq {cs cs' : Components} (h : SameBare cs cs') : cs.Extends = cs'.Extends := by
  funext a b
  exact propext ⟨h.extends, h.symm.extends⟩

theorem SameBare.reaches_iff {cs cs' : Components} (h : SameBare cs cs') {a b : Text} :
    cs.Reaches a b ↔ cs'.Reaches a b := by
  unfold Reaches
  rw [h.extends_eq]

theorem SameBare.revisits_iff {cs cs' : Components} (h : SameBare cs cs') {n : Text} :
    cs.Revisits n ↔ cs'.Revisits n := by
  unfold Revisits Reaches
  rw [h.extends_eq]

theorem lineageFrom_mono_le {fuel fuel' : Nat} (hle : fuel ≤ fuel') {n : Text}
    {line : List Component} (h : cs.lineageFrom fuel n = some line) :
    cs.lineageFrom fuel' n = some line := by
  induction hle with
  | refl => exact h
  | step _ ih => exact lineageFrom_mono ih

theorem AgreeFrom.parent {cs cs' : Components} {n p : Text} (h : AgreeFrom cs cs' n)
    (hnp : cs.Extends n p) : AgreeFrom cs cs' p :=
  fun m hpm => h m (.head hnp hpm)

theorem AgreeFrom.lineageFrom {cs cs' : Components} {n : Text} (h : AgreeFrom cs cs' n) (fuel : Nat) :
    (cs.lineageFrom fuel n).map (List.map Component.bare) =
      (cs'.lineageFrom fuel n).map (List.map Component.bare) := by
  induction fuel generalizing n with
  | zero => rfl
  | succ fuel ih =>
    cases hc : cs.get? n with
    | none => rw [lineageFrom_of_get?_none hc, lineageFrom_of_get?_none (h.get?_none hc)]
    | some c =>
      obtain ⟨c', hc', hb⟩ := h.get?_some hc
      have hpar := Component.parentName?_eq_of_bare_eq hb
      cases hp : c.parentName? with
      | none =>
        rw [lineageFrom_of_root hc hp, lineageFrom_of_root hc' (hpar.trans hp)]
        simp [hb]
      | some p =>
        rw [lineageFrom_of_parent hc hp, lineageFrom_of_parent hc' (hpar.trans hp)]
        have hcons : ∀ (d : Component) (o : Option (List Component)),
            (o.map (d :: ·)).map (List.map Component.bare) =
              (o.map (List.map Component.bare)).map (d.bare :: ·) := by
          intro d o
          cases o <;> rfl
        rw [hcons, hcons, hb, ih (h.parent ((extends_iff hc).mpr hp))]

theorem AgreeFrom.lineage? {cs cs' : Components} {n : Text} (h : AgreeFrom cs cs' n) :
    (cs.lineage? n).map (List.map Component.bare) =
      (cs'.lineage? n).map (List.map Component.bare) := by
  -- both lineages are compared with fuel that is enough for either
  have hfuel := h.lineageFrom (max (cs.length + 1) (cs'.length + 1))
  have hle := Nat.le_max_left (cs.length + 1) (cs'.length + 1)
  have hle' := Nat.le_max_right (cs.length + 1) (cs'.length + 1)
  cases hl : cs.lineage? n with
  | none =>
    cases hl' : cs'.lineage? n with
    | none => rfl
    | some line' =>
      rw [lineageFrom_mono_le hle' hl', Option.map_some, Option.map_eq_some_iff] at hfuel
      obtain ⟨line, hline, -⟩ := hfuel
      exact absurd (lineage?_eq_none_iff.mp hl) (not_revisits_of_lineageFrom hline)
  | some line =>
    rw [lineageFrom_mono_le hle hl] at hfuel
    cases hl' : cs'.lineage? n with
    | none =>
      obtain ⟨line', hline', -⟩ := Option.map_eq_some_iff.mp hfuel.symm
      exact absurd (lineage?_eq_none_iff.mp hl') (not_revisits_of_lineageFrom hline')
    | some line' => rwa [lineageFrom_mono_le hle' hl'] at hfuel

theorem AgreeFrom.ancestors? {cs cs' : Components} {c c' : Component} (hb : c.bare = c'.bare)
    (h : ∀ p, c.parentName? = some p → AgreeFrom cs cs' p) :
    (cs.ancestors? c).map (List.map Component.bare) =
      (cs'.ancestors? c').map (List.map Component.bare) := by
  have hpar := Component.parentName?_eq_of_bare_eq hb
  cases hp : c.parentName? with
  | none => rw [ancestors?_of_root hp, ancestors?_of_root (hpar.symm.trans hp)]
  | some p =>
    rw [ancestors?_of_parent hp, ancestors?_of_parent (hpar.symm.trans hp)]
    exact (h p hp).lineage?

/-- What a line of ancestors declares depends only on what they are up to merging. -/
theorem flatMap_own_eq {line line' : List Component}
    (h : line.map Component.bare = line'.map Component.bare) :
    (line.flatMap fun a => a.own.properties) = (line'.flatMap fun a => a.own.properties) ∧
      (line.flatMap fun a => a.own.methods) = (line'.flatMap fun a => a.own.methods) := by
  have hp := congrArg (List.flatMap Component.properties) h
  have hm := congrArg (List.flatMap Component.methods) h
  rw [List.flatMap_map, List.flatMap_map] at hp hm
  exact ⟨hp, hm⟩

/-- **Flattening depends only on the chain of parents**, and on that only up to merging. -/
theorem AgreeFrom.flatten_eq {cs cs' : Components} {c c' : Component} (hb : c.bare = c'.bare)
    (h : ∀ p, c.parentName? = some p → AgreeFrom cs cs' p) : cs.flatten c = cs'.flatten c' := by
  have hanc := AgreeFrom.ancestors? hb h
  have hpar := Component.parentName?_eq_of_bare_eq hb
  cases hl : cs.ancestors? c with
  | none =>
    rw [hl] at hanc
    rw [flatten, flatten, hl, Option.map_eq_none_iff.mp hanc.symm]
    exact hb
  | some line =>
    rw [hl] at hanc
    obtain ⟨line', hl', hline⟩ := Option.map_eq_some_iff.mp hanc.symm
    obtain ⟨hps, hms⟩ := flatMap_own_eq hline
    have hhas : c.parentName?.all (fun p => Table.has cs p) =
        c'.parentName?.all fun p => Table.has cs' p := by
      rw [← hpar]
      cases hp : c.parentName? with
      | none => rfl
      | some p =>
        have := congrArg Option.isSome (h p hp p .refl)
        simpa [Table.has] using this
    obtain ⟨hname, hsource, htemplate, hextends, hown, hown'⟩ := Component.bare_eq_iff.mp hb
    simp only [flatten, hl, hl']
    rw [hown, hown', hps, hms, hhas, hname, hsource, htemplate, hextends]

theorem flatten_congr {cs cs' : Components} (h : SameBare cs cs') {c c' : Component}
    (hb : c.bare = c'.bare) : cs.flatten c = cs'.flatten c' :=
  AgreeFrom.flatten_eq hb fun p _ => h.agreeFrom p

end Components

end TemplateAssist
