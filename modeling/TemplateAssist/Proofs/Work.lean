import TemplateAssist.Proofs.Parsing
import TemplateAssist.Registry.Query

/-!
# What work on a world keeps

* `Keeps` — a property of worlds that some work never breaks, and a condition without which the work
  does not end early; `KeepsAt` — the same from one world.
* `Tended` — a property that loading a parent and merging never break, and so neither does resolving
  inheritance.
* `World.sources`, `World.remembered` — the sources that a scan and an update remember before they read any file.
* `Held` — a property that no single change to a registry breaks, as long as a parse is on behalf of work
  that has already started and only given sources are remembered.  Work that remembers no others does not
  break it either, unless it clears the registry first.
* `Kept` — a property that no single change to a registry breaks, and so no work on the registry does.
-/

namespace TemplateAssist

/-! ## Sources remembered and forgotten -/

namespace State

theorem noteSource_eq (s : State) (source : Path) :
    ∃ sources, s.noteSource source = { s with knownSources := sources } := by
  unfold noteSource
  split
  · exact ⟨_, rfl⟩
  · exact ⟨s.knownSources, rfl⟩

theorem noteSource_get? (s : State) (source : Path) (stem : Text) :
    (s.noteSource source).knownSources.get? stem =
      if source.stem? = some stem then some source else s.knownSources.get? stem := by
  unfold noteSource
  split
  · rename_i stem' hstem
    rw [hstem, Table.get?_insert]
    simp only [Option.some.injEq]
  · rename_i hstem
    rw [hstem]
    simp

@[simp] theorem noteSource_epoch (s : State) (source : Path) : (s.noteSource source).epoch = s.epoch := by
  obtain ⟨sources, heq⟩ := s.noteSource_eq source
  rw [heq]

theorem forgetSource_eq (s : State) (source : Path) :
    ∃ sources, s.forgetSource source = { s with knownSources := sources } ∧
      ∀ stem p, sources.get? stem = some p → s.knownSources.get? stem = some p := by
  unfold forgetSource
  split
  · rename_i stem _
    split
    · refine ⟨_, rfl, fun stem' p hp => ?_⟩
      rw [Table.get?_erase] at hp
      split at hp
      · cases hp
      · exact hp
    · exact ⟨s.knownSources, rfl, fun _ _ => id⟩
  · exact ⟨s.knownSources, rfl, fun _ _ => id⟩

end State

namespace World

theorem exists_collectPairs_eq (w : World) : ∃ log, w.collectPairs.1 = { w with log := log } := by
  unfold collectPairs
  simp only
  split
  · exact ⟨_, rfl⟩
  · exact ⟨_, rfl⟩

theorem remember_eq (w : World) (source : Path) :
    ∃ sources, w.remember source = { w with state := { w.state with knownSources := sources } } := by
  unfold remember
  split
  · obtain ⟨sources, hs⟩ := w.state.noteSource_eq source
    exact ⟨sources, by rw [hs]⟩
  · exact ⟨w.state.knownSources, rfl⟩

/-- The sources that a scan collects. -/
def sources (w : World) : List Path :=
  w.collectPairs.2.map (·.source)

theorem collectPairs_congr {w v : World} (hdisk : v.disk = w.disk) (hoptions : v.options = w.options) :
    v.collectPairs.2 = w.collectPairs.2 := by
  unfold collectPairs
  rw [hdisk, hoptions]
  simp only
  split <;> rfl

theorem collectPairs_nextOrder (w : World) : w.nextOrder.1.collectPairs.2 = w.collectPairs.2 :=
  collectPairs_congr rfl rfl

/-- The source that an update of a path remembers, if there is anything at its place. -/
def remembered (w : World) (path : Path) : List Path :=
  match w.options.sourcePathFor path with
  | .error _ => []
  | .ok source =>
    match w.pairedTemplate? source with
    | .error _ => []
    | .ok _ => if w.disk.present source then [source] else []

theorem mem_remembered {w : World} {path source : Path} {template : Option Path}
    (hs : w.options.sourcePathFor path = .ok source) (ht : w.pairedTemplate? source = .ok template)
    (hpresent : w.disk.present source = true) : source ∈ w.remembered path := by
  simp [remembered, hs, ht, hpresent]

end World

/-! ## Properties that work keeps -/

namespace Work

/-- The property `P` holds after the work in a world, and the work ends early there only if `early`. -/
def KeepsAt (P : World → Prop) (early : Prop) {α : Type} (x : Work α) (w : World) : Prop :=
  P (x w).2 ∧ ∀ e, (x w).1 = .error e → early

/-- The property `P` holds after the work whenever it held before, and then the work ends early only if
`early`. -/
def Keeps (P : World → Prop) (early : Prop) {α : Type} (x : Work α) : Prop :=
  ∀ w, P w → KeepsAt P early x w

variable {P : World → Prop} {early : Prop} {α β : Type}

theorem bind_of_ok {x : Work α} {w w' : World} {a : α} (h : x w = (.ok a, w')) (k : α → Work β) :
    (x >>= k) w = k a w' := by
  show ExceptT.bindCont k (x w).1 (x w).2 = _
  rw [h]
  rfl

theorem bind_of_error {x : Work α} {w w' : World} {e : ExtensionError} (h : x w = (.error e, w'))
    (k : α → Work β) : (x >>= k) w = (.error e, w') := by
  show ExceptT.bindCont k (x w).1 (x w).2 = _
  rw [h]
  rfl

/-- What comes after the work leaves the world alone. -/
theorem bind_snd {x : Work α} {k : α → Work β} (hk : ∀ a v, (k a v).2 = v) (w : World) :
    ((x >>= k) w).2 = (x w).2 := by
  cases hr : x w with
  | mk r w' =>
    cases r with
    | error e => rw [bind_of_error hr]
    | ok a => rw [bind_of_ok hr, hk]

/-- A scan that has been served already is left out. -/
theorem scanFrom_of_joined {observed : Nat} {w : World}
    (h : (w.generation ≠ observed && w.state.scanned) = true) :
    scanFrom observed w = (.ok w.state.sortedComponents, w) := by
  rw [scanFrom, bind_of_ok (rfl : ask _ w = _), h]
  rfl

/-- A scan that finds nothing to join is carried out. -/
theorem scanFrom_of_not_joined {observed : Nat} {w : World}
    (h : (w.generation ≠ observed && w.state.scanned) = false) :
    scanFrom observed w = (scan >>= fun _ => ask (·.state.sortedComponents)) w := by
  rw [scanFrom, bind_of_ok (rfl : ask _ w = _), h]
  rfl

theorem scanAll_eq (w : World) : scanAll w = (scan >>= fun _ => ask (·.state.sortedComponents)) w := by
  rw [scanAll, bind_of_ok (rfl : ask (·.generation) w = _)]
  exact scanFrom_of_not_joined (by simp)

theorem KeepsAt.mono {Q : World → Prop} {x : Work α} {w : World} (h : KeepsAt P early x w)
    (hPQ : ∀ w, P w → Q w) : KeepsAt Q early x w :=
  ⟨hPQ _ h.1, h.2⟩

theorem KeepsAt.bind {x : Work α} {k : α → Work β} {w : World} (hx : KeepsAt P early x w)
    (hk : ∀ a, Keeps P early (k a)) : KeepsAt P early (x >>= k) w := by
  obtain ⟨hP, hearly⟩ := hx
  unfold KeepsAt
  cases hr : (x w).1 with
  | error e =>
    rw [bind_of_error (Prod.ext hr rfl)]
    exact ⟨hP, fun _ _ => hearly e hr⟩
  | ok a =>
    rw [bind_of_ok (Prod.ext hr rfl)]
    exact hk a _ hP

/-- Work that cannot end early has an answer. -/
theorem KeepsAt.exists_ok {x : Work α} {w : World} (h : KeepsAt P False x w) :
    ∃ a w', x w = (.ok a, w') ∧ P w' := by
  obtain ⟨hP, hearly⟩ := h
  cases hr : (x w).1 with
  | error e => exact (hearly e hr).elim
  | ok a => exact ⟨a, (x w).2, Prod.ext hr rfl, hP⟩

/-- What is asked of a world is known of it afterwards. -/
theorem KeepsAt.bind_ask {f : World → α} {k : α → Work β} {w : World}
    (h : KeepsAt P early (k (f w)) w) : KeepsAt P early (Work.ask f >>= k) w :=
  h

theorem KeepsAt.bind_asked {f : World → Except ExtensionError α} {k : α → Work β} {w : World} (hw : P w)
    (hk : ∀ a, f w = .ok a → KeepsAt P early (k a) w) (he : ∀ e, f w = .error e → early) :
    KeepsAt P early (Work.asked f >>= k) w := by
  cases hr : f w with
  | ok a =>
    rw [KeepsAt, bind_of_ok (show Work.asked f w = (.ok a, w) by rw [Work.asked, hr])]
    exact hk a hr
  | error e =>
    rw [KeepsAt, bind_of_error (show Work.asked f w = (.error e, w) by rw [Work.asked, hr])]
    exact ⟨hw, fun _ _ => he e hr⟩

theorem KeepsAt.bind_step {f : World → World × α} {k : α → Work β} {w : World}
    (h : KeepsAt P early (k (f w).2) (f w).1) : KeepsAt P early (Work.step f >>= k) w :=
  h

theorem KeepsAt.bind_alter {f : World → World} {k : Unit → Work β} {w : World}
    (h : KeepsAt P early (k ()) (f w)) : KeepsAt P early (Work.alter f >>= k) w :=
  h

namespace Keeps

theorem pure (a : α) : Keeps P early (Pure.pure a : Work α) :=
  fun _ hw => ⟨hw, fun _ h => by cases h⟩

theorem bind {x : Work α} {k : α → Work β} (hx : Keeps P early x) (hk : ∀ a, Keeps P early (k a)) :
    Keeps P early (x >>= k) :=
  fun w hw => (hx w hw).bind hk

theorem ask (f : World → α) : Keeps P early (Work.ask f) :=
  fun _ hw => ⟨hw, fun _ h => by cases h⟩

theorem asked {f : World → Except ExtensionError α} (h : ∀ w e, P w → f w = .error e → early) :
    Keeps P early (Work.asked f) :=
  fun w hw => ⟨hw, fun e he => h w e hw he⟩

theorem alter {f : World → World} (h : ∀ w, P w → P (f w)) : Keeps P early (Work.alter f) :=
  fun w hw => ⟨h w hw, fun _ h => by cases h⟩

theorem step {f : World → World × α} (h : ∀ w, P w → P (f w).1) : Keeps P early (Work.step f) :=
  fun w hw => ⟨h w hw, fun _ h => by cases h⟩

theorem loadParent {epoch : Nat}
    (hparse : ∀ w source template, P w → P (w.parseInEpoch source template epoch).1)
    (htemplate : ∀ w source e, P w → w.pairedTemplate? source = .error e → early) (source : Path) :
    Keeps P early (Work.loadParent source epoch) := by
  unfold Work.loadParent
  refine bind (ask _) fun isFile => ?_
  split
  · refine bind (asked fun w e => htemplate w source e) fun template => ?_
    exact bind (step fun w => hparse w source template) fun _ => pure _
  · exact pure _

/-! ## Loading ancestors -/

section Loading

/- The parent of a cached class is looked for where the world in which it is missing says. -/
variable {epoch : Nat} (hload : ∀ w current child parent, P w → w.state.lookup? current = some child →
  child.parentName? = some parent → w.state.components.has parent = false →
    KeepsAt P early (Work.loadParent (w.parentSource child parent) epoch) w)

include hload

theorem loadFrom (fuel : Nat) (seen : List Text) (current : Text) :
    Keeps P early (Work.loadFrom epoch fuel seen current) := by
  induction fuel generalizing seen current with
  | zero => exact pure _
  | succ fuel ih =>
    intro w hw
    unfold Work.loadFrom
    split
    · exact pure _ w hw
    refine .bind_ask ?_
    split
    · exact pure _ w hw
    rename_i child hchild
    split
    · exact pure _ w hw
    rename_i parent hparent
    have hnext : Keeps P early (do
        if ← Work.ask (·.state.components.has parent) then
          Work.loadFrom epoch fuel (current :: seen) parent) := by
      refine bind (ask _) fun found => ?_
      split
      · exact ih _ _
      · exact pure _
    refine .bind_ask ?_
    split
    · rename_i hmissing
      refine .bind_ask ?_
      exact (hload w current child parent hw hchild hparent (by simpa using hmissing)).bind fun _ => hnext
    · exact hnext w hw

theorem loadAncestors (name : Text) : Keeps P early (Work.loadAncestors name epoch) :=
  bind (ask _) fun bound => loadFrom hload (bound + 1) [] name

theorem loadAll (names : List Text) : Keeps P early (Work.loadAll epoch names) := by
  induction names with
  | nil => exact pure _
  | cons name rest ih =>
    refine bind (ask _) fun current => ?_
    split
    · exact pure _
    · exact bind (loadAncestors hload name) fun _ => ih

end Loading

end Keeps

/-! ## Resolving inheritance -/

/-- A property that neither loading the parent of a cached class, on behalf of work that started in an
epoch, nor merging breaks. -/
structure Tended (P : World → Prop) (early : Prop) (epoch : Nat) : Prop where
  load : ∀ w current child parent, P w → w.state.lookup? current = some child →
    child.parentName? = some parent →
      KeepsAt P early (Work.loadParent (w.parentSource child parent) epoch) w
  merge : ∀ w level names, P w →
    P (w.withMerged level (Components.resolveEach w.state.components names))
  aside : ∀ w log generation scanned, P w →
    P { w with log := log, generation := generation, state := { w.state with scanned := scanned } }

namespace Tended

variable {epoch : Nat} (hP : Tended P early epoch)

include hP

theorem refreshDependents (w : World) (name : Text) (hw : P w) : P (w.refreshDependents name) :=
  hP.merge w _ _ hw

theorem mergeAll (w : World) (hw : P w) : P w.mergeAll :=
  hP.aside _ _ _ true (hP.merge w World.mergeLevel w.state.sortedNames hw)

theorem flattenAll (names : List Text) : Keeps P early (Work.flattenAll epoch names) := by
  have hload : Keeps P early (Work.loadAll epoch names) := .loadAll
    (fun w current child parent hw hc hp _ => hP.load w current child parent hw hc hp) names
  refine .bind hload fun loaded => ?_
  split
  · exact .pure _
  refine .bind (.ask _) fun current => ?_
  split
  · exact .pure _
  · exact .bind (.alter hP.mergeAll) fun _ => .pure _

theorem resolveInheritance {w : World} (hepoch : w.state.epoch = epoch) (hw : P w) (name : Text) :
    KeepsAt P early (Work.resolveInheritance name) w := by
  have hload : Keeps P early (Work.loadAncestors name epoch) := .loadAncestors
    (fun w current child parent hw hc hp _ => hP.load w current child parent hw hc hp) name
  refine .bind_ask ?_
  rw [hepoch]
  refine (hload w hw).bind fun _ => ?_
  exact .bind (.alter fun w hw => hP.merge w _ _ hw) fun _ => .ask _

/-- What is left of an update once the file was parsed and declares a class. -/
theorem update {w w' : World} {path source : Path} {c : Component}
    (hs : w.options.sourcePathFor path = .ok source) (hr : reparse source w = (.ok (some c), w'))
    (hepoch : w'.state.epoch = epoch) (hw' : P w') : P (Work.update path w).2 := by
  have hask : asked (·.options.sourcePathFor path) w = (.ok source, w) := by rw [asked, hs]
  rw [Work.update, bind_of_ok (rfl : ask (·.state.epoch) w = _), bind_of_ok hask, bind_of_ok hr]
  exact ((hP.resolveInheritance hepoch hw' c.name).bind fun _ =>
    .bind (.alter fun v hv => hP.refreshDependents v c.name hv) fun _ => .ask (·.state.lookup? c.name)).1

end Tended

/-! ## All work on the registry -/

/-- A property that no single change to a registry breaks, as long as a parse is on behalf of work that has
already started and a source is remembered only where it is to be `noted`. -/
structure Held (P : World → Prop) (noted : World → Path → Prop) : Prop where
  parse : ∀ w source template epoch, epoch ≤ w.state.epoch → P w →
    P (w.parseInEpoch source template epoch).1
  merge : ∀ w level names, P w →
    P (w.withMerged level (Components.resolveEach w.state.components names))
  evict : ∀ w source, P w → P { w with state := (w.state.evictFile source).1 }
  note : ∀ w source, noted w source → P w → P { w with state := w.state.noteSource source }
  forget : ∀ w source, P w → P { w with state := w.state.forgetSource source }
  aside : ∀ w log generation orders scanned, P w →
    P { w with
      log := log, generation := generation, orders := orders
      state := { w.state with scanned := scanned } }

/-- Given sources may be noted for as long as no further file is read. -/
def Noting (noted : World → Path → Prop) (w : World) (sources : List Path) : Prop :=
  ∀ v, v.parses = w.parses → ∀ p ∈ sources, noted v p

theorem Noting.scanned {noted : World → Path → Prop} {w u v : World} (h : Noting noted w u.sources)
    (hparses : v.parses = w.parses) (hdisk : v.disk = u.disk) (hoptions : v.options = u.options) :
    Noting noted v v.sources := by
  rw [World.sources, World.collectPairs_congr hdisk hoptions]
  exact fun x hx => h x (hx.trans hparses)

/-- The property `P` holds, and work that started in an epoch has indeed started. -/
def Since (P : World → Prop) (epoch : Nat) (w : World) : Prop :=
  P w ∧ epoch ≤ w.state.epoch

namespace Held

variable {noted : World → Path → Prop} (hP : Held P noted)

include hP

/-- Work that has started stays so. -/
theorem since (epoch : Nat) : Held (Since P epoch) noted where
  parse := fun w source template e he h =>
    ⟨hP.parse w source template e he h.1, Nat.le_trans h.2 (w.parseInEpoch_parsed source template e).epoch_le⟩
  merge := fun w level names h => ⟨hP.merge w level names h.1, h.2⟩
  evict := fun w source h =>
    ⟨hP.evict w source h.1, Nat.le_trans h.2 (Nat.le_of_eq (w.state.evictFile_epoch source).symm)⟩
  note := fun w source hs h =>
    ⟨hP.note w source hs h.1, Nat.le_trans h.2 (Nat.le_of_eq (w.state.noteSource_epoch source).symm)⟩
  forget := by
    intro w source h
    have hforget := hP.forget w source h.1
    obtain ⟨sources, heq, -⟩ := w.state.forgetSource_eq source
    rw [heq] at hforget ⊢
    exact ⟨hforget, h.2⟩
  aside := fun w log generation orders scanned h => ⟨hP.aside w log generation orders scanned h.1, h.2⟩

/-- What a parse of any source keeps, loading a parent keeps. -/
theorem tended (epoch : Nat) : Tended (Since P epoch) True epoch where
  load := fun w _ child parent hw _ _ => Keeps.loadParent
    (fun w source template hw => (hP.since epoch).parse w source template epoch hw.2 hw)
    (fun _ _ _ _ _ => trivial) (w.parentSource child parent) w hw
  merge := (hP.since epoch).merge
  aside := fun w log generation scanned => (hP.since epoch).aside w log generation w.orders scanned

theorem remember (w : World) (source : Path) (hnoted : w.disk.present source = true → noted w source)
    (hw : P w) : P (w.remember source) := by
  unfold World.remember
  split
  · rename_i hpresent
    exact hP.note w source (hnoted hpresent) hw
  · exact hw

theorem noteSources (w : World) {pairs : List FilePair}
    (hpairs : Noting noted w (pairs.map (·.source))) (hw : P w) : P (w.noteSources pairs) := by
  unfold World.noteSources
  induction pairs generalizing w with
  | nil => exact hw
  | cons pair rest ih =>
    exact ih { w with state := w.state.noteSource pair.source }
      (fun v hv p hp => hpairs v hv p (List.mem_cons_of_mem _ hp))
      (hP.note w pair.source (hpairs w rfl _ List.mem_cons_self) hw)

theorem refreshDependents (w : World) (name : Text) (hw : P w) : P (w.refreshDependents name) :=
  hP.merge w _ _ hw

theorem worldEvict (w : World) (source : Path) (hw : P w) : P (w.evict source) := by
  have hevict := hP.evict _ source (hP.forget w source hw)
  simp only [World.evict]
  split
  · exact hP.refreshDependents _ _ hevict
  · exact hevict

theorem collectPairs (w : World) (hw : P w) : P w.collectPairs.1 := by
  obtain ⟨log, heq⟩ := w.exists_collectPairs_eq
  rw [heq]
  exact hP.aside w log w.generation w.orders w.state.scanned hw

theorem parsePairs (epoch : Nat) (pairs : List FilePair) :
    Keeps (Since P epoch) True (Work.parsePairs epoch pairs) := by
  induction pairs with
  | nil => exact .pure _
  | cons pair rest ih =>
    refine .bind (.ask _) fun current => ?_
    split
    · refine .bind (.step fun w hw => ?_) fun _ => ih
      exact (hP.since epoch).parse w pair.source pair.template epoch hw.2 hw
    · exact .pure _

theorem scanInOrder (order : List Text → List Text) {w : World} (hw : P w)
    (hnoted : Noting noted w w.sources) : KeepsAt P True (Work.scanInOrder order) w := by
  obtain ⟨log, hlog⟩ := w.exists_collectPairs_eq
  have hparses : w.collectPairs.1.parses = w.parses := by rw [hlog]
  have hcollected := (hP.since w.state.epoch).collectPairs w ⟨hw, Nat.le_refl _⟩
  have hnoted := (hP.since w.state.epoch).noteSources w.collectPairs.1
    (fun v hv => hnoted v (hv.trans hparses)) hcollected
  have hrest : Keeps (Since P w.state.epoch) True (do
      Work.parsePairs w.state.epoch w.collectPairs.2
      let names ← Work.ask (·.state.components.keys)
      if ← Work.flattenAll w.state.epoch (order names) then
        Work.alter fun w => { w with generation := w.generation + 1 }) := by
    refine .bind (hP.parsePairs _ _) fun _ => .bind (.ask _) fun names => ?_
    refine .bind ((hP.tended _).flattenAll _) fun completed => ?_
    split
    · exact .alter fun w hw => (hP.since _).aside w w.log _ w.orders w.state.scanned hw
    · exact .pure _
  have hscan : KeepsAt (Since P w.state.epoch) True (Work.scanInOrder order) w := by
    refine .bind_ask (.bind_step (.bind_alter (hrest _ ?_)))
    show Since P w.state.epoch (if _ then _ else _)
    split
    · exact hnoted
    · exact hcollected
  exact hscan.mono fun _ h => h.1

theorem scan {w : World} (hw : P w) (hnoted : Noting noted w w.sources) : KeepsAt P True Work.scan w := by
  have hnext := hP.aside w w.log w.generation w.orders.tail w.state.scanned hw
  exact .bind_step (hP.scanInOrder _ hnext (hnoted.scanned rfl rfl rfl))

theorem scanFrom (observed : Nat) {w : World} (hw : P w) (hnoted : Noting noted w w.sources) :
    KeepsAt P True (Work.scanFrom observed) w := by
  refine .bind_ask ?_
  split
  · exact (hP.scan hw hnoted).bind fun _ => .ask _
  · exact Keeps.ask _ w hw

theorem scanAll {w : World} (hw : P w) (hnoted : Noting noted w w.sources) :
    KeepsAt P True Work.scanAll w :=
  .bind_ask (hP.scanFrom _ hw hnoted)

theorem resolveInheritance (name : Text) : Keeps P True (Work.resolveInheritance name) :=
  fun w hw => ((hP.tended w.state.epoch).resolveInheritance rfl ⟨hw, Nat.le_refl _⟩ name).mono
    fun _ h => h.1

theorem reparse (source : Path) {w : World} (hw : P w)
    (hnoted : ∀ template, w.pairedTemplate? source = .ok template → w.disk.present source = true →
      noted w source) : KeepsAt P True (Work.reparse source) w := by
  have hsince : Since P w.state.epoch w := ⟨hw, Nat.le_refl _⟩
  have hreparse : KeepsAt (Since P w.state.epoch) True (Work.reparse source) w := by
    refine .bind_ask (.bind_asked hsince (fun template ht => .bind_alter ?_) fun _ _ => trivial)
    have hremembered := (hP.since _).remember w source (hnoted template ht) hsince
    refine Keeps.step (fun v hv => ?_) _ hremembered
    exact (hP.since _).parse v source template _ hv.2 hv
  exact hreparse.mono fun _ h => h.1

theorem update (path : Path) {w : World} (hw : P w) (hnoted : Noting noted w (w.remembered path)) :
    KeepsAt P True (Work.update path) w := by
  refine .bind_ask (.bind_asked hw (fun source hs => ?_) fun _ _ => trivial)
  have hreparse := hP.reparse source hw fun template ht hp =>
    hnoted w rfl source (World.mem_remembered hs ht hp)
  refine hreparse.bind fun found => ?_
  split
  · refine .bind (.alter fun w hw => ?_) fun _ => .pure _
    split
    · exact hP.worldEvict w source hw
    · exact hw
  · refine .bind (hP.resolveInheritance _) fun _ => ?_
    exact .bind (.alter fun w => hP.refreshDependents w _) fun _ => .ask _

theorem remove (path : Path) {w : World} (hw : P w)
    (hnoted : ∀ source, w.options.sourcePathFor path = .ok source →
      (!source.same path && w.disk.present source) = true → Noting noted w (w.remembered source)) :
    KeepsAt P True (Work.remove path) w := by
  refine .bind_asked hw (fun source hs => .bind_ask ?_) fun _ _ => trivial
  split
  · rename_i hgone
    exact (hP.update source hw (hnoted source hs hgone)).bind fun _ => .pure _
  · exact Keeps.alter (fun w => hP.worldEvict w source) w hw

theorem tags {w : World} (hw : P w)
    (hnoted : w.state.components.isEmpty = true → Noting noted w w.sources) : KeepsAt P True Work.tags w := by
  refine .bind_ask ?_
  split
  · rename_i hempty
    exact (hP.scanAll hw (hnoted hempty)).bind fun _ => .ask _
  · exact Keeps.ask _ w hw

theorem componentForTemplate (template : Path) :
    Keeps P True (Work.componentForTemplate template) := by
  refine .bind (.asked fun _ _ _ _ => trivial) fun source => ?_
  split
  · exact .pure _
  refine .bind (.ask _) fun present => ?_
  refine .bind (.step fun w => hP.parse w source _ w.state.epoch (Nat.le_refl _)) fun found => ?_
  split
  · exact .pure _
  · split
    · exact .pure _
    refine .bind (hP.resolveInheritance _) fun _ => ?_
    exact .bind (.alter fun w => hP.refreshDependents w _) fun _ => .ask _

theorem membersFor (template : Path) : Keeps P True (Work.membersFor template) := by
  refine .bind (hP.componentForTemplate template) fun found => ?_
  split
  · exact .pure _
  · exact .pure _

end Held

/-- A property that no single change to a registry breaks, whatever the work it is part of. -/
structure Kept (P : World → Prop) : Prop where
  parse : ∀ w source template epoch, P w → P (w.parseInEpoch source template epoch).1
  merge : ∀ w level names, P w →
    P (w.withMerged level (Components.resolveEach w.state.components names))
  evict : ∀ w source, P w → P { w with state := (w.state.evictFile source).1 }
  known : ∀ w sources, P w → P { w with state := { w.state with knownSources := sources } }
  aside : ∀ w log generation orders scanned, P w →
    P { w with
      log := log, generation := generation, orders := orders
      state := { w.state with scanned := scanned } }
  reset : ∀ w options, P w → P { w with options := options, state := w.state.cleared }

theorem Kept.held (hP : Kept P) : Held P fun _ _ => True where
  parse := fun w source template epoch _ => hP.parse w source template epoch
  merge := hP.merge
  evict := hP.evict
  note := by
    intro w source _ hw
    obtain ⟨sources, heq⟩ := w.state.noteSource_eq source
    rw [heq]
    exact hP.known w sources hw
  forget := by
    intro w source hw
    obtain ⟨sources, heq, -⟩ := w.state.forgetSource_eq source
    rw [heq]
    exact hP.known w sources hw
  aside := hP.aside

end Work

end TemplateAssist
