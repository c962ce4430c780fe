import TemplateAssist.Proofs.Still
import TemplateAssist.Proofs.Walks

/-!
# Parents loaded on demand

After its pairs are parsed, a scan loads the missing parents of the cached classes.

* `World.gathered` — the world once the pairs of a scan are parsed.
* `World.supply?` — the component that loading the missing parent of another would cache.
* `World.Met` — the components that loading can meet: cached ones, and what they supply.
* `World.Uncontested` — a class that is loaded on demand is the one that was looked for, and one file
  supplies it.
* `World.Loaded` — a world on the way: it holds some of what can be met, and is otherwise the gathered one.
* `World.Served` — the class that a component supplies is cached.

Principal result: `Loaded.loadParent`.  If nothing is contested, loading the missing parent of a component
serves it and disturbs nothing.
-/

namespace TemplateAssist

namespace Path

theorem notMem_of_hasExtension {p : Path} {extension : Text} (h : p.hasExtension extension = true) :
    '.' ∉ extension ∧ '/' ∉ extension := by
  obtain ⟨stem, hname, hsplit⟩ := fileName?_of_hasExtension h
  refine ⟨(splitName_some hsplit).2.2, fun hmem => ?_⟩
  have hlast : Segment.name (stem ++ '.' :: extension) ∈ p.segments := by
    rw [segments_of_fileName? hname]
    exact List.mem_append_right _ (List.mem_singleton.mpr rfl)
  exact (isName_of_mem_segments hlast).2.2.2 (List.mem_append_right _ (List.mem_cons_of_mem _ hmem))

/-- The file of a class beside a source has the class for its stem. -/
theorem stem?_withFileName {p : Path} {extension : Text} (h : p.hasExtension extension = true)
    {stem : Text} (hne : stem ≠ []) (hchars : ∀ c ∈ stem, Text.isIdentChar c = true) :
    (p.withFileName (stem ++ '.' :: extension)).stem? = some stem ∧
      (p.withFileName (stem ++ '.' :: extension)).hasExtension extension = true := by
  obtain ⟨hdot, hslash⟩ := notMem_of_hasExtension h
  obtain ⟨_, hold, -⟩ := fileName?_of_hasExtension h
  obtain ⟨q, -, hbeside⟩ := exists_withFileName hold
  have hname := join_fileName? q (isName_of_identifier hne hchars hslash)
  rw [hbeside, stem?, hasExtension, extension?, hname, Option.map_some, Option.bind_some,
    splitName_append hne hdot]
  exact ⟨rfl, decide_eq_true rfl⟩

end Path

namespace Work

variable {w : World} {source : Path}

/-- Where a parent is looked for and there is no file, nothing happens. -/
theorem loadParent_of_not_isFile (h : w.disk.isFile source = false) (epoch : Nat) :
    loadParent source epoch w = (.ok (), w) := by
  have hask : ask (·.disk.isFile source) w = (.ok false, w) := by rw [ask, h]
  rw [loadParent, bind_of_ok hask]
  rfl

/-- The file of a parent is parsed with the template beside it. -/
theorem loadParent_of_paired (h : w.disk.isFile source = true) {template : Option Path}
    (ht : w.pairedTemplate? source = .ok template) (epoch : Nat) :
    loadParent source epoch w = (.ok (), (w.parseInEpoch source template epoch).1) := by
  have hask : ask (·.disk.isFile source) w = (.ok true, w) := by rw [ask, h]
  have hasked : asked (·.pairedTemplate? source) w = (.ok template, w) := by rw [asked, ht]
  rw [loadParent, bind_of_ok hask, if_pos rfl, bind_of_ok hasked]
  rfl

end Work

namespace World

/-! ## What can be met -/

/-- The world once the pairs of a scan are parsed and before ancestors are loaded. -/
def gathered (w : World) : World :=
  (Work.parsePairs w.state.epoch w.collectPairs.2 (w.collectPairs.1.noteSources w.collectPairs.2)).2

/-- The component that loading the missing parent of a component would cache: where the parent is looked
for there is a file that declares a class, and the cache has nothing fresh of it. -/
def supply? (w : World) (child : Component) : Option Component := do
  let parent ← child.parentName?
  let source := w.parentSource child parent
  if w.state.components.has parent || !w.disk.isFile source then none
  else
    let template ← (w.pairedTemplate? source).toOption
    let stamp ← (w.disk.modified source).toOption
    let text ← (w.disk.readText source).toOption
    let signatures ← Source.signatures? text
    if (w.state.fresh? source stamp (w.seenTemplate? template)).isSome then none
    else some (w.extract signatures source template)

/-- The components that loading can meet. -/
inductive Met (w : World) : Component → Prop
  | cached {n : Text} {c : Component} (h : w.state.components.get? n = some c) : Met w c
  | supplied {c c' : Component} (h : Met w c) (hs : w.supply? c = some c') : Met w c'

/-- A class that is loaded on demand is the one that was looked for, and one file supplies it. -/
structure Uncontested (w : World) : Prop where
  named : ∀ c c', Met w c → w.supply? c = some c' → c.parentName? = some c'.name
  unique : ∀ a b a' b', Met w a → Met w b → w.supply? a = some a' → w.supply? b = some b' →
    a'.name = b'.name → a' = b'

theorem toOption_eq_some_iff {ε α : Type} {e : Except ε α} {a : α} :
    e.toOption = some a ↔ e = .ok a := by
  cases e <;> simp [Except.toOption]

theorem supply?_eq_some_iff {w : World} {child c : Component} :
    w.supply? child = some c ↔
      ∃ parent template stamp text signatures, child.parentName? = some parent ∧
        w.state.components.has parent = false ∧ w.disk.isFile (w.parentSource child parent) = true ∧
        w.pairedTemplate? (w.parentSource child parent) = .ok template ∧
        w.Read (w.parentSource child parent) template stamp text ∧
        Source.signatures? text = some signatures ∧
        c = w.extract signatures (w.parentSource child parent) template := by
  unfold supply?
  simp only [Option.bind_eq_bind, Option.bind_eq_some_iff, Option.ite_none_left_eq_some,
    Bool.or_eq_true, not_or, Bool.not_eq_true, Bool.not_eq_false', toOption_eq_some_iff,
    Option.some.injEq, Option.isSome_eq_false_iff, Option.isNone_iff_eq_none]
  constructor
  · rintro ⟨parent, hparent, ⟨hmissing, hfile⟩, template, ht, stamp, hm, text, hr, signatures, hs, hf, rfl⟩
    exact ⟨parent, template, stamp, text, signatures, hparent, hmissing, hfile, ht, ⟨hm, hf, hr⟩, hs, rfl⟩
  · rintro ⟨parent, template, stamp, text, signatures, hparent, hmissing, hfile, ht, ⟨hm, hf, hr⟩, hs, rfl⟩
    exact ⟨parent, hparent, ⟨hmissing, hfile⟩, template, ht, stamp, hm, text, hr, signatures, hs, hf, rfl⟩

/-! ## Where sources are -/

/-- Every source that is cached or remembered has the extension of sources, templates can be named, and
sources are remembered under their stems. -/
structure Sourced (d : Disk) (o : Options) (epoch : Nat) (w : World) : Prop where
  still : Still d o epoch w
  extended : ∀ n c, w.state.components.get? n = some c →
    c.sourceFile.hasExtension o.sourceExtension = true ∧ o.templateExtension.contains '/' = false
  known : ∀ stem p, w.state.knownSources.get? stem = some p →
    p.stem? = some stem ∧ p.hasExtension o.sourceExtension = true

variable {d : Disk} {o : Options} {epoch : Nat}

theorem Sourced.unmoved {w w' : World} (h : Sourced d o epoch w) (hu : Unmoved w w') :
    Sourced d o epoch w' := by
  refine ⟨hu.still h.still, ?_, ?_⟩
  · rw [hu.state_eq]
    exact h.extended
  · rw [hu.state_eq]
    exact h.known

theorem Sourced.parse {w w' : World} (h : Sourced d o epoch w) {source : Path}
    (hext : source.hasExtension o.sourceExtension = true) (ht : o.templateExtension.contains '/' = false)
    {template : Option Path} {r : Option Component} (hp : Parsed w source template epoch w' r) :
    Sourced d o epoch w' := by
  rcases h.still.parsed hp with ⟨hu, -⟩ | ⟨stamp, text, signatures, pair, log, hr, hs, rfl⟩
  · exact h.unmoved hu
  have hm := h.still.mirrors
  have hheld := hr.holds hs
  rw [h.still.disk] at hheld
  refine ⟨⟨h.still.disk, h.still.options, h.still.hooks, ?_, ?_⟩, fun n c hc => ?_, fun stem p hp => ?_⟩
  · exact (State.insert_epoch ..).trans h.still.epoch
  · exact hm.insert hheld fun t stamp' ht hts => h.still.disk ▸ modified_of_extract ht hts
  · rcases (hm.indexed.insert_get? ..).mp hc with ⟨-, rfl⟩ | ⟨-, hc, -⟩
    · exact ⟨hext, ht⟩
    · exact h.extended n c hc
  · have hp : (w.state.insert _ _ _).knownSources.get? stem = some p := hp
    rw [hm.indexed.insert_knownSources] at hp
    split at hp
    · rename_i hstem
      obtain rfl := Option.some.inj hp
      exact ⟨hstem, hext⟩
    · exact h.known stem p hp

/-- Where the source of a class is looked for, the class is the stem. -/
theorem Sourced.stem?_parentSource {w : World} (h : Sourced d o epoch w) {current parent : Text}
    {child : Component} (hchild : w.state.lookup? current = some child) (hne : parent ≠ [])
    (hchars : ∀ c ∈ parent, Text.isIdentChar c = true) :
    (w.parentSource child parent).stem? = some parent ∧
      (w.parentSource child parent).hasExtension o.sourceExtension = true := by
  unfold World.parentSource
  cases hknown : w.state.knownSources.get? parent with
  | some p => exact h.known parent p hknown
  | none =>
    rw [Option.getD_none, h.still.options]
    exact Path.stem?_withFileName (h.extended current child hchild).1 hne hchars

theorem mem_collectPairs {w : World} {pair : FilePair} (hpair : pair ∈ w.collectPairs.2) :
    pair.source.hasExtension w.options.sourceExtension = true ∧
      w.options.templateExtension.contains '/' = false := by
  cases hc : (w.disk.collect w.options.searchPaths w.options.sourceExtension
      w.options.templateExtension).2 with
  | error e =>
    have hnone : w.collectPairs.2 = [] := by simp only [collectPairs, hc]
    rw [hnone] at hpair
    cases hpair
  | ok pairs =>
    rw [collectPairs_of_ok (Prod.ext rfl hc)] at hpair
    obtain ⟨-, -, -, -, -, hext, hpaired⟩ := Disk.exists_root_of_mem_collect (Prod.ext rfl hc) hpair
    refine ⟨hext, Bool.eq_false_iff.mpr fun hslash => ?_⟩
    obtain ⟨e, he⟩ := Path.withExtension_eq_error_iff.mpr hslash
    rw [Disk.pair, he] at hpaired
    cases hpaired

/-- **The world of a scan once its pairs are parsed.** -/
theorem gathered_sourced {w : World} (hhooks : w.hooks = []) :
    Sourced w.disk w.options (w.state.epoch + 1) w.clear.gathered ∧
      Work.parsePairs w.clear.state.epoch w.clear.collectPairs.2
        (w.clear.collectPairs.1.noteSources w.clear.collectPairs.2) = (.ok (), w.clear.gathered) := by
  obtain ⟨log, hlog⟩ := w.clear.exists_collectPairs_eq
  obtain ⟨sources, hnoted, hold, -⟩ := w.clear.collectPairs.1.noteSources_spec w.clear.collectPairs.2
  have hstart : Sourced w.disk w.options (w.state.epoch + 1)
      (w.clear.collectPairs.1.noteSources w.clear.collectPairs.2) := by
    rw [hlog] at hnoted hold
    rw [hlog, hnoted]
    obtain ⟨⟨hk, hreg, hlisted⟩, hheld, htimed⟩ := State.Mirrors.empty w.disk (w.state.epoch + 1)
    refine ⟨⟨rfl, rfl, hhooks, rfl, ⟨⟨hk, hreg, hlisted⟩, hheld, htimed⟩⟩, ?_, fun stem p hp => ?_⟩
    · intro n c hc
      cases hc
    · rcases hold stem p hp with ⟨pair, hpair, rfl, hstem⟩ | hp
      · exact ⟨hstem, (mem_collectPairs hpair).1⟩
      · cases hp
  obtain ⟨w', hparse, hsourced, -⟩ := Work.parsePairs_of_step
    (Q := fun rest v => Sourced w.disk w.options (w.state.epoch + 1) v ∧
      ∀ pair ∈ rest, pair ∈ w.clear.collectPairs.2)
    (fun _ _ hQ => hQ.1.still.epoch)
    (fun pair rest v hQ => by
      obtain ⟨hext, ht⟩ := mem_collectPairs (hQ.2 pair List.mem_cons_self)
      have hp := v.parseInEpoch_parsed pair.source pair.template (w.state.epoch + 1)
      exact ⟨hQ.1.parse hext ht hp, fun p hp => hQ.2 p (List.mem_cons_of_mem _ hp)⟩)
    w.clear.collectPairs.2 ⟨hstart, fun _ hp => hp⟩
  have hgathered : w.clear.gathered = w' := congrArg Prod.snd hparse
  rw [hgathered]
  exact ⟨hsourced, hparse⟩

/-! ## Worlds on the way -/

/-- A world reached from a gathered one by loading parents.  It holds what was cached and some of what can
be met; other sources are remembered, and other times recorded, only for what came in. -/
structure Loaded (w v : World) : Prop where
  sourced : Sourced w.disk w.options w.state.epoch v
  met : ∀ n c, v.state.components.get? n = some c → Met w c
  kept : ∀ n c, w.state.components.get? n = some c → v.state.components.get? n = some c
  known : ∀ n, v.state.components.has n = false →
    v.state.knownSources.get? n = w.state.knownSources.get? n
  times : ∀ k, v.state.recorded.has k = true ↔ w.state.recorded.has k = true ∨
    ∃ n c, v.state.components.get? n = some c ∧ w.state.components.has n = false ∧ k ∈ c.files

/-- Everything that is cached stays cached. -/
def Grows (v v' : World) : Prop :=
  ∀ n c, v.state.components.get? n = some c → v'.state.components.get? n = some c

/-- The class that a component supplies is cached. -/
def Served (w v : World) (c : Component) : Prop :=
  ∀ c', w.supply? c = some c' → v.state.components.has c'.name = true

theorem Grows.refl (v : World) : Grows v v :=
  fun _ _ h => h

theorem Grows.trans {v v' v'' : World} (h : Grows v v') (h' : Grows v' v'') : Grows v v'' :=
  fun n c hc => h' n c (h n c hc)

theorem Grows.has {v v' : World} (h : Grows v v') {n : Text} (hn : v.state.components.has n = true) :
    v'.state.components.has n = true := by
  obtain ⟨c, hc⟩ := Table.has_eq_true_iff.mp hn
  exact Table.has_eq_true_iff.mpr ⟨c, h n c hc⟩

theorem Served.mono {w v v' : World} {c : Component} (h : Served w v c) (hg : Grows v v') :
    Served w v' c :=
  fun c' hc' => hg.has (h c' hc')

theorem has_eq_false_iff {s : State} {n : Text} :
    s.components.has n = false ↔ s.components.get? n = none := by
  rw [Table.has, Option.isSome_eq_false_iff, Option.isNone_iff_eq_none]

variable {w v : World}

theorem Loaded.refl (h : Sourced w.disk w.options w.state.epoch w) : Loaded w w where
  sourced := h
  met := fun _ _ hc => .cached hc
  kept := fun _ _ hc => hc
  known := fun _ _ => rfl
  times := by
    intro k
    constructor
    · exact Or.inl
    · rintro (hk | ⟨n, c, hc, hno, -⟩)
      · exact hk
      · rw [has_eq_false_iff.mp hno] at hc
        cases hc

theorem Loaded.unmoved {v' : World} (h : Loaded w v) (hu : Unmoved v v') : Loaded w v' := by
  obtain ⟨hsourced, hmet, hkept, hknown, htimes⟩ := h
  rw [← hu.state_eq] at hmet hkept hknown htimes
  exact ⟨hsourced.unmoved hu, hmet, hkept, hknown, htimes⟩

theorem Loaded.missing (h : Loaded w v) {n : Text} (hn : v.state.components.has n = false) :
    w.state.components.has n = false := by
  rw [has_eq_false_iff] at hn ⊢
  cases hc : w.state.components.get? n with
  | none => rfl
  | some c =>
    rw [h.kept n c hc] at hn
    cases hn

theorem Loaded.parentSource_eq (h : Loaded w v) {parent : Text}
    (hmissing : v.state.components.has parent = false) (child : Component) :
    v.parentSource child parent = w.parentSource child parent := by
  rw [World.parentSource, World.parentSource, h.known parent hmissing, h.sourced.still.options]

theorem seenTemplate?_congr {w v : World} (h : v.disk = w.disk) (template : Option Path) :
    v.seenTemplate? template = w.seenTemplate? template := by
  unfold seenTemplate? observeTemplate
  rw [h]
  split
  · rfl
  · split <;> rfl

theorem Loaded.stampOf?_eq (h : Loaded w v) (hw : w.state.Mirrors w.disk) {p : Path} {stamp : Stamp}
    (hp : w.state.stampOf? p = some stamp) : v.state.stampOf? p = some stamp := by
  have hhas := (h.times p.segments).mpr (Or.inl (Table.has_eq_true_iff.mpr ⟨stamp, hp⟩))
  obtain ⟨stamp', hrec⟩ := Table.has_eq_true_iff.mp hhas
  have htimed := h.sourced.still.mirrors.timed _ _ hrec
  rw [hw.timed _ _ hp] at htimed
  exact hrec.trans htimed.symm

/-- What is fresh stays fresh. -/
theorem Loaded.fresh? (h : Loaded w v) (hw : w.state.Mirrors w.disk) {source : Path} {stamp : Stamp}
    {template : Option (Path × Stamp)} {c : Component}
    (hf : w.state.fresh? source stamp template = some c) :
    v.state.fresh? source stamp template = some c := by
  obtain ⟨hfile, hstamp, htemplate, hseen⟩ := fresh?_eq_some_iff.mp hf
  refine fresh?_eq_some_iff.mpr ⟨?_, h.stampOf?_eq hw hstamp, htemplate, fun seen hs =>
    h.stampOf?_eq hw (hseen seen hs)⟩
  obtain ⟨n, -, hget, hsource⟩ := hw.indexed.exists_of_ofFile? hfile
  have hreg := h.sourced.still.mirrors.indexed.registered n c (h.kept n c hget)
  rw [hsource] at hreg
  rw [State.ofFile?, show v.state.nameFor? source = some n from hreg]
  exact h.kept n c hget

/-- A class that a missing file declares is not cached from it. -/
theorem Loaded.nameFor?_eq_none (h : Loaded w v) {source : Path} {parent : Text}
    (hclass : w.disk.classAt? source.names = some parent)
    (hmissing : v.state.components.has parent = false) : v.state.nameFor? source = none := by
  cases hn : v.state.nameFor? source with
  | none => rfl
  | some n =>
    have hm := h.sourced.still.mirrors
    rw [hm.classAt?_eq hn, Option.some.injEq] at hclass
    obtain ⟨c, hc, -⟩ := hm.indexed.listed _ _ hn
    rw [← hclass, has_eq_false_iff, hc] at hmissing
    cases hmissing

/-- A supplied component cached. -/
theorem Loaded.insert (h : Loaded w v) {v' : World} (hv' : Sourced w.disk w.options w.state.epoch v')
    {c : Component} (hc : Met w c) (hmissing : v.state.components.has c.name = false)
    (hfile : v.state.nameFor? c.sourceFile = none) (hstem : c.sourceFile.stem? = some c.name)
    {stamp : Stamp} {templateStamp : Option Stamp}
    (hstamp : c.templateFile.isSome = templateStamp.isSome)
    (hstate : v'.state = v.state.insert c stamp templateStamp) : Loaded w v' ∧ Grows v v' ∧
      ∀ n, v'.state.components.has n = true → v.state.components.has n = true ∨ n = c.name := by
  have hclass : v.state.lookup? c.name = none := has_eq_false_iff.mp hmissing
  have hinsert := State.insert_of_new hfile hclass stamp templateStamp
  have hget : ∀ n, v'.state.components.get? n = if c.name = n then some c else v.state.components.get? n := by
    intro n
    rw [hstate, hinsert]
    exact Table.get?_insert ..
  have hgrows : Grows v v' := by
    intro n e he
    rw [hget, if_neg, he]
    rintro rfl
    rw [show v.state.components.get? c.name = none from hclass] at he
    cases he
  have hi := h.sourced.still.mirrors.indexed
  refine ⟨⟨hv', fun n e he => ?_, fun n e he => hgrows n e (h.kept n e he), fun n hn => ?_, fun k => ?_⟩,
    hgrows, fun n hn => ?_⟩
  · rw [hget] at he
    split at he
    · exact Option.some.inj he ▸ hc
    · exact h.met n e he
  · rw [has_eq_false_iff, hget] at hn
    split at hn
    · cases hn
    · rename_i hne
      rw [hstate, hi.insert_knownSources, hstem, if_neg fun he => hne (Option.some.inj he)]
      exact h.known n (has_eq_false_iff.mpr hn)
  · have hrec : v'.state.recorded = State.recordTimes v.state.recorded c stamp templateStamp := by
      rw [hstate, hinsert]
    rw [hrec, State.recordTimes_has_iff hstamp, h.times, or_assoc]
    refine or_congr Iff.rfl ?_
    constructor
    · rintro (⟨n, e, he, hno, hk⟩ | hk)
      · exact ⟨n, e, hgrows n e he, hno, hk⟩
      · exact ⟨c.name, c, by rw [hget, if_pos rfl], h.missing hmissing, hk⟩
    · rintro ⟨n, e, he, hno, hk⟩
      rw [hget] at he
      split at he
      · exact Or.inr (Option.some.inj he ▸ hk)
      · exact Or.inl ⟨n, e, he, hno, hk⟩
  · rw [Table.has, hget] at hn
    split at hn
    · rename_i hname
      exact Or.inr hname.symm
    · exact Or.inl hn

/-! ## One parent -/

/-- The file that a supplied component comes from declares the class that was looked for. -/
theorem Uncontested.declares (hu : Uncontested w) {child c : Component} {parent : Text}
    (hmet : Met w child) (hparent : child.parentName? = some parent) (hc : w.supply? child = some c) :
    c.name = parent ∧ ∃ text signatures, w.disk.readText (w.parentSource child parent) = .ok text ∧
      Source.signatures? text = some signatures ∧ signatures.className = parent := by
  have hname := Option.some.inj (hparent.symm.trans (hu.named child c hmet hc))
  obtain ⟨parent', _, _, text, signatures, hparent', -, -, -, hread, hs, rfl⟩ :=
    supply?_eq_some_iff.mp hc
  obtain rfl := Option.some.inj (hparent'.symm.trans hparent)
  exact ⟨hname.symm, text, signatures, hread.readText, hs, hname.symm⟩

/-- A file that is extracted for a missing parent would have been so in the gathered world. -/
theorem Loaded.supply?_of_read (hw : w.state.Mirrors w.disk) (h : Loaded w v) {child : Component}
    {parent : Text} (hparent : child.parentName? = some parent)
    (hmissing : v.state.components.has parent = false)
    (hfile : w.disk.isFile (w.parentSource child parent) = true) {template : Option Path}
    (ht : w.pairedTemplate? (w.parentSource child parent) = .ok template) {stamp : Stamp} {text : Text}
    (hr : v.Read (w.parentSource child parent) template stamp text) {signatures : Signatures}
    (hs : Source.signatures? text = some signatures) :
    w.supply? child = some (w.extract signatures (w.parentSource child parent) template) := by
  have hdisk := h.sourced.still.disk
  have hstale : w.state.fresh? (w.parentSource child parent) stamp (w.seenTemplate? template) = none := by
    cases hf : w.state.fresh? (w.parentSource child parent) stamp (w.seenTemplate? template) with
    | none => rfl
    | some c =>
      have hstale := hr.stale
      rw [seenTemplate?_congr hdisk, h.fresh? hw hf] at hstale
      cases hstale
  exact supply?_eq_some_iff.mpr ⟨parent, template, stamp, text, signatures, hparent, h.missing hmissing,
    hfile, ht, ⟨hdisk ▸ hr.modified, hstale, hdisk ▸ hr.readText⟩, hs, rfl⟩

/-- **The file of a missing parent parsed.**  What the child supplies is cached then, and no other class
comes in. -/
theorem Loaded.parse_parent (hu : Uncontested w) (hw : w.state.Mirrors w.disk) (h : Loaded w v)
    {current parent : Text} {child : Component} (hchild : v.state.lookup? current = some child)
    (hparent : child.parentName? = some parent) (hmissing : v.state.components.has parent = false)
    (hfile : w.disk.isFile (w.parentSource child parent) = true) {template : Option Path}
    (ht : w.pairedTemplate? (w.parentSource child parent) = .ok template) {v' : World}
    {r : Option Component} (hp : Parsed v (w.parentSource child parent) template w.state.epoch v' r) :
    Loaded w v' ∧ Grows v v' ∧ Served w v' child ∧
      ∀ n, v'.state.components.has n = true → v.state.components.has n = true ∨ n = parent := by
  have hdisk := h.sourced.still.disk
  have hmet := h.met current child hchild
  have hdeclared : ∀ text signatures, w.disk.readText (w.parentSource child parent) = .ok text →
      Source.signatures? text = some signatures → signatures.className = parent →
        w.disk.classAt? (w.parentSource child parent).names = some parent := by
    intro text signatures htext hs hclass
    rw [Disk.classAt?, Disk.signaturesAt?_of_readText htext, hs, Option.map_some, hclass]
  rcases h.sourced.still.parsed hp with ⟨hunmoved, hcause⟩ | ⟨stamp, text, signatures, _, _, hr, hs, heq⟩
  · have hsame := hunmoved.state_eq
    refine ⟨h.unmoved hunmoved, fun n c hc => hsame ▸ hc, fun c hc => ?_, fun n hn => Or.inl (hsame ▸ hn)⟩
    -- a file that supplies a class is neither cached as it is nor without a class
    obtain ⟨-, text, signatures, htext, hs, hclass⟩ := hu.declares hmet hparent hc
    rcases hcause with ⟨e, he⟩ | hno
    · rw [State.ofFile?, h.nameFor?_eq_none (hdeclared text signatures htext hs hclass) hmissing] at he
      cases he
    · rw [hno text htext] at hs
      cases hs
  · have hsupply := h.supply?_of_read hw hparent hmissing hfile ht hr hs
    have hname : signatures.className = parent := (hu.declares hmet hparent hsupply).1
    have hseen := seenTemplate?_congr hdisk template
    have hextract : v.extract signatures (w.parentSource child parent) template =
        w.extract signatures (w.parentSource child parent) template := by rw [extract, extract, hseen]
    obtain ⟨hne, hchars⟩ := Source.signatures?_className hs
    rw [hname] at hne hchars
    obtain ⟨hstem, hsource⟩ := h.sourced.stem?_parentSource hchild hne hchars
    rw [h.parentSource_eq hmissing] at hstem hsource
    have hclass := hdeclared text signatures (hdisk ▸ hr.readText) hs hname
    obtain ⟨hloaded, hgrows, hnew⟩ := h.insert
      (h.sourced.parse hsource (h.sourced.extended current child hchild).2 hp) (.supplied hmet hsupply)
      (show v.state.components.has signatures.className = false from hname ▸ hmissing)
      (h.nameFor?_eq_none hclass hmissing) (hstem.trans (congrArg some hname.symm))
      (w.isSome_extract ..) (by rw [heq, hextract, hseen])
    refine ⟨hloaded, hgrows, fun c hc => ?_, fun n hn => (hnew n hn).imp_right (·.trans hname)⟩
    obtain rfl := Option.some.inj (hsupply.symm.trans hc)
    rw [heq, hextract]
    exact (h.sourced.still.mirrors.indexed.insert_has_iff ..).mpr (Or.inl rfl)

/-- **A missing parent loaded.** -/
theorem Loaded.loadParent (hu : Uncontested w) (hw : w.state.Mirrors w.disk) (h : Loaded w v)
    {current parent : Text} {child : Component} (hchild : v.state.lookup? current = some child)
    (hparent : child.parentName? = some parent) (hmissing : v.state.components.has parent = false) :
    ∃ v', Work.loadParent (v.parentSource child parent) w.state.epoch v = (.ok (), v') ∧ Loaded w v' ∧
      Grows v v' ∧ Served w v' child ∧
      ∀ n, v'.state.components.has n = true → v.state.components.has n = true ∨ n = parent := by
  have hdisk := h.sourced.still.disk
  rw [h.parentSource_eq hmissing]
  cases hfile : w.disk.isFile (w.parentSource child parent) with
  | true =>
    obtain ⟨template, ht⟩ := exists_pairedTemplate? (h.sourced.extended current child hchild).2
      (w.parentSource child parent)
    have hpaired : v.pairedTemplate? (w.parentSource child parent) = .ok template := by
      rw [← ht, pairedTemplate?, pairedTemplate?, hdisk, h.sourced.still.options]
    have hp := v.parseInEpoch_parsed (w.parentSource child parent) template w.state.epoch
    exact ⟨_, Work.loadParent_of_paired (hdisk ▸ hfile) hpaired _,
      h.parse_parent hu hw hchild hparent hmissing hfile ht hp⟩
  | false =>
    refine ⟨v, Work.loadParent_of_not_isFile (hdisk ▸ hfile) _, h, .refl v, fun c hc => ?_,
      fun n hn => Or.inl hn⟩
    obtain ⟨parent', _, _, _, _, hparent', -, hfile', -⟩ := supply?_eq_some_iff.mp hc
    obtain rfl := Option.some.inj (hparent'.symm.trans hparent)
    rw [hfile] at hfile'
    cases hfile'

end World

end TemplateAssist
