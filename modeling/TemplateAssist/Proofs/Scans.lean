import TemplateAssist.Proofs.Survey

/-!
# Full scans

What a full scan makes of a registry when nothing is hidden below the search paths and no class is
declared twice.

* `Settled` — all pairs are covered.
* `Settled.loadAll` — loading ancestors learns nothing then: a file that could supply a parent is one of
  the pairs.
* `scan_settled`, `Settled.scan` — the first scan of a registry that was cleared, and a further one, in
  whatever order the ancestors are loaded.
* `Reflects` — a cached component is what its pair of files holds.

Principal result: `reload_surveys`.
-/

namespace TemplateAssist

namespace World

open State (Surveys Covers)
open Components (Coherent)

variable {d : Disk} {o : Options} {pairs : List FilePair}

/-! ## Complete surveys -/

/-- Every pair is covered. -/
structure Settled (d : Disk) (o : Options) (epoch : Nat) (pairs : List FilePair) (w : World) : Prop where
  still : Still d o epoch w
  surveys : w.state.Surveys d pairs
  covers : ∀ pair ∈ pairs, w.state.Covers d pair

variable {epoch : Nat}

theorem Unmoved.settled {w w' : World} (hu : Unmoved w w') (h : Settled d o epoch pairs w) :
    Settled d o epoch pairs w' := by
  refine ⟨hu.still h.still, ?_, ?_⟩
  · rw [hu.state_eq]
    exact h.surveys
  · rw [hu.state_eq]
    exact h.covers

theorem Settled.parse (hd : Charted d o pairs) {w w' : World} (h : Settled d o epoch pairs w)
    {pair : FilePair} (hpair : pair ∈ pairs) {r : Option Component}
    (hp : Parsed w pair.source pair.template epoch w' r) : Unmoved w w' := by
  rcases h.still.parse_pair hd h.surveys hpair hp with ⟨hu, -⟩ | ⟨hno, -⟩
  · exact hu
  · exact absurd (h.covers pair hpair) hno

/-- Parsing all pairs completes a survey. -/
theorem Still.parsePairs_settled (hd : Charted d o pairs) {w : World} (hw : Still d o epoch w)
    (h : w.state.Surveys d pairs) :
    ∃ w', Work.parsePairs epoch pairs w = (.ok (), w') ∧ Settled d o epoch pairs w' := by
  obtain ⟨w', hparse, hstill, hsurveys, -, hcovers⟩ := Work.parsePairs_of_step
    (Q := fun rest w => Still d o epoch w ∧ w.state.Surveys d pairs ∧ (∀ pair ∈ rest, pair ∈ pairs) ∧
      ∀ pair ∈ pairs, pair ∈ rest ∨ w.state.Covers d pair)
    (fun _ _ hQ => hQ.1.epoch)
    (fun pair rest v hQ => by
      obtain ⟨hstill, hsurveys, hrest, hcovers⟩ := hQ
      have hrest' : ∀ p ∈ rest, p ∈ pairs := fun p hp => hrest p (List.mem_cons_of_mem _ hp)
      have hp := v.parseInEpoch_parsed pair.source pair.template epoch
      rcases hstill.parse_pair hd hsurveys (hrest pair List.mem_cons_self) hp with
        ⟨hu, hpair⟩ | ⟨-, hstill', hsurveys', hpair, hmono⟩
      · refine ⟨hu.still hstill, hu.state_eq ▸ hsurveys, hrest', fun p hp => ?_⟩
        rw [hu.state_eq]
        rcases hcovers p hp with hp | hp
        · exact (List.mem_cons.mp hp).elim (fun he => Or.inr (he ▸ hpair)) Or.inl
        · exact Or.inr hp
      · refine ⟨hstill', hsurveys', hrest', fun p hp => ?_⟩
        rcases hcovers p hp with hp | hp
        · exact (List.mem_cons.mp hp).elim (fun he => Or.inr (he ▸ hpair)) Or.inl
        · exact Or.inr (hmono p hp))
    pairs ⟨hw, h, fun _ hp => hp, fun _ hp => Or.inl hp⟩
  exact ⟨w', hparse, hstill, hsurveys, fun pair hpair =>
    (hcovers pair hpair).resolve_left List.not_mem_nil⟩

/-- Parsing all pairs again learns nothing. -/
theorem Settled.parsePairs (hd : Charted d o pairs) {w : World} (h : Settled d o epoch pairs w) :
    ∃ w', Work.parsePairs epoch pairs w = (.ok (), w') ∧ Unmoved w w' := by
  obtain ⟨w', hparse, hu, -⟩ := Work.parsePairs_of_step
    (Q := fun rest v => Unmoved w v ∧ ∀ pair ∈ rest, pair ∈ pairs)
    (fun _ _ hQ => (hQ.1.still h.still).epoch)
    (fun pair rest v hQ => by
      have hp := v.parseInEpoch_parsed pair.source pair.template epoch
      have hu := (hQ.1.settled h).parse hd (hQ.2 pair List.mem_cons_self) hp
      exact ⟨hQ.1.trans hu, fun p hp => hQ.2 p (List.mem_cons_of_mem _ hp)⟩)
    pairs ⟨.refl w, fun _ hp => hp⟩
  exact ⟨w', hparse, hu⟩

/-- **A file that could supply a parent is one of the pairs.** -/
theorem Settled.parentSource (hd : Charted d o pairs) {w : World} (h : Settled d o epoch pairs w)
    {current parent : Text} {child : Component} (hchild : w.state.lookup? current = some child)
    (hparent : child.parentName? = some parent) (hfile : d.isFile (w.parentSource child parent) = true) :
    ∃ pair ∈ pairs, pair.source = w.parentSource child parent := by
  unfold World.parentSource at hfile ⊢
  cases hknown : w.state.knownSources.get? parent with
  | some p => exact h.surveys.known parent p hknown
  | none =>
    rw [hknown, Option.getD_none, h.still.options] at hfile
    obtain ⟨pair, hpair, hsource, -⟩ := h.surveys.paired current child hchild
    obtain ⟨stamp, -, text, signatures, -, hs, hb⟩ := h.surveys.mirrors.held current child hchild
    have hextends : child.extendsName = signatures.parent := congrArg Component.extendsName hb
    obtain ⟨extendsName, he, rfl⟩ := Option.map_eq_some_iff.mp hparent
    have hchars := Source.signatures?_shortName hs (hextends.symm.trans he)
    obtain ⟨found, hfound, hstem⟩ := hd.beside pair hpair _ hchars (hsource ▸ hfile)
    have hnoted := h.surveys.noted found hfound _ hstem
    rw [Table.has, hknown] at hnoted
    cases hnoted

/-- **Loading ancestors learns nothing.** -/
theorem Settled.loadAncestors (hd : Charted d o pairs) {w : World} (h : Settled d o epoch pairs w)
    (name : Text) : ∃ w', Work.loadAncestors name epoch w = (.ok (), w') ∧ Unmoved w w' := by
  have hkeeps : Work.Keeps (Unmoved w) False (Work.loadAncestors name epoch) := by
    refine .loadAncestors (fun v current child parent hu hchild hparent _ => ?_) name
    have hv := hu.settled h
    unfold Work.loadParent
    refine .bind_ask ?_
    split
    · rename_i hfile
      obtain ⟨pair, hpair, hsource⟩ := hv.parentSource hd hchild hparent (hv.still.disk ▸ hfile)
      have hask : Work.asked (·.pairedTemplate? (v.parentSource child parent)) v =
          (.ok pair.template, v) := by
        rw [← hsource, Work.asked, hd.pairedTemplate?_eq hpair hv.still.disk hv.still.options]
      have hp := v.parseInEpoch_parsed pair.source pair.template epoch
      rw [Work.KeepsAt, Work.bind_of_ok hask, ← hsource]
      exact ⟨hu.trans (hv.parse hd hpair hp), fun _ he => by cases he⟩
    · exact Work.Keeps.pure _ v hu
  obtain ⟨_, w', hw', hu⟩ := (hkeeps w (.refl w)).exists_ok
  exact ⟨w', hw', hu⟩

theorem Settled.loadAll (hd : Charted d o pairs) {w : World} (h : Settled d o epoch pairs w)
    (names : List Text) : ∃ w', Work.loadAll epoch names w = (.ok true, w') ∧ Unmoved w w' :=
  Work.loadAll_of_step (Q := fun _ v => Unmoved w v) (fun _ _ hu => (hu.still h.still).epoch)
    (fun name _ v hu => by
      obtain ⟨v', hv', hu'⟩ := (hu.settled h).loadAncestors hd name
      exact ⟨v', hv', hu.trans hu'⟩)
    names (.refl w)

/-! ## Full scans -/

theorem noteSources_surveys {w : World} (hm : w.state.Mirrors d)
    (hpaired : ∀ n c, w.state.components.get? n = some c →
      ∃ pair ∈ pairs, c.sourceFile = pair.source ∧ c.templateFile = pair.template)
    (htimes : ∀ k, w.state.recorded.has k = true ↔
      ∃ n c, w.state.components.get? n = some c ∧ k ∈ c.files)
    (hknown : ∀ stem p, w.state.knownSources.get? stem = some p → ∃ pair ∈ pairs, pair.source = p) :
    (w.noteSources pairs).state.Surveys d pairs := by
  obtain ⟨sources, heq, hold, -, hall⟩ := w.noteSources_spec pairs
  rw [heq]
  refine ⟨⟨⟨hm.indexed.keyed, hm.indexed.registered, hm.indexed.listed⟩, hm.held, hm.timed⟩, hpaired,
    htimes, fun stem p hp => ?_, hall⟩
  rcases hold stem p hp with ⟨pair, hpair, hsource, -⟩ | hp
  · exact ⟨pair, hpair, hsource⟩
  · exact hknown stem p hp

theorem Still.noteSources {w : World} (h : Still d o epoch w) (pairs : List FilePair) :
    Still d o epoch (w.noteSources pairs) := by
  obtain ⟨sources, heq, -⟩ := w.noteSources_spec pairs
  obtain ⟨hi, hheld, htimed⟩ := h.mirrors
  rw [heq]
  exact ⟨h.disk, h.options, h.hooks, h.epoch, ⟨⟨hi.keyed, hi.registered, hi.listed⟩, hheld, htimed⟩⟩

theorem Settled.scanned {w : World} (h : Settled d o epoch pairs w) :
    Settled d o epoch pairs w.scanned ∧ Coherent w.scanned.state.components := by
  have hk := h.surveys.mirrors.indexed.keyed
  have hsame := Components.resolveEach_sameBare w.state.sortedNames hk.named
  obtain ⟨⟨hi, hheld, htimed⟩, hpaired, htimes, hknown, hnoted⟩ :=
    h.surveys.of_sameBare hsame (hk.resolveEach _)
  have hmirrors : w.scanned.state.Mirrors d := ⟨⟨hi.keyed, hi.registered, hi.listed⟩, hheld, htimed⟩
  refine ⟨⟨⟨h.still.disk, h.still.options, h.still.hooks, h.still.epoch, hmirrors⟩,
    ⟨hmirrors, hpaired, htimes, hknown, hnoted⟩, h.covers⟩, ?_⟩
  exact hk.resolveEach_coherent fun _ => mem_sortedNames

/-- After the pairs are parsed, a scan loads nothing more. -/
theorem Settled.scan_of_parsed (hd : Charted d o pairs) {w parsed : World} (hepoch : w.state.epoch = epoch)
    (hparse : Work.parsePairs epoch w.collectPairs.2 (w.collectPairs.1.noteSources w.collectPairs.2) =
      (.ok (), parsed)) (h : Settled d o epoch pairs parsed) (order : List Text → List Text) :
    ∃ loaded, Work.scanInOrder order w = (.ok (), loaded.scanned) ∧ Unmoved parsed loaded := by
  obtain ⟨loaded, hload, hu⟩ := h.loadAll hd (order parsed.state.components.keys)
  refine ⟨loaded, ?_, hu⟩
  subst hepoch
  exact Work.scanInOrder_of_ok hparse hload (hu.still h.still).epoch

theorem scanInOrder_settled (order : List Text → List Text) (hd : Charted d o pairs) {w : World}
    (hw : Still d o epoch w) (hempty : w.state = .empty epoch) (hpairs : w.collectPairs.2 = pairs) :
    ∃ w', Work.scanInOrder order w = (.ok (), w') ∧ Settled d o epoch pairs w' ∧
      Coherent w'.state.components := by
  obtain ⟨log, hlog⟩ := w.exists_collectPairs_eq
  have hwalked : Still d o epoch { w with log := log } := ⟨hw.disk, hw.options, hw.hooks, hw.epoch, hw.mirrors⟩
  have hsurveys : (noteSources { w with log := log } pairs).state.Surveys d pairs := by
    have hnone : ∀ n c, w.state.components.get? n ≠ some c := fun n c hc => by
      rw [hempty] at hc
      cases hc
    refine noteSources_surveys hw.mirrors (fun n c hc => absurd hc (hnone n c)) (fun k => ?_) ?_
    · constructor
      · intro hk
        rw [hempty] at hk
        cases hk
      · rintro ⟨n, c, hc, -⟩
        exact absurd hc (hnone n c)
    · intro stem p hp
      rw [hempty] at hp
      cases hp
  obtain ⟨parsed, hparse, hparsed⟩ := (hwalked.noteSources pairs).parsePairs_settled hd hsurveys
  rw [← hlog] at hparse
  obtain ⟨loaded, hscan, hu⟩ := hparsed.scan_of_parsed hd hw.epoch (hpairs.symm ▸ hparse) order
  exact ⟨loaded.scanned, hscan, (hu.settled hparsed).scanned⟩

/-- **The first scan of a registry that was cleared.** -/
theorem scan_settled (hd : Charted d o pairs) {w : World} (hw : Still d o epoch w)
    (hempty : w.state = .empty epoch) (hpairs : w.collectPairs.2 = pairs) :
    ∃ w', Work.scan w = (.ok (), w') ∧ Settled d o epoch pairs w' ∧ Coherent w'.state.components := by
  rw [Work.scan_eq]
  exact scanInOrder_settled _ hd ⟨hw.disk, hw.options, hw.hooks, hw.epoch, hw.mirrors⟩ hempty
    (w.collectPairs_nextOrder.trans hpairs)

theorem Settled.scanInOrder (order : List Text → List Text) (hd : Charted d o pairs) {w : World}
    (h : Settled d o epoch pairs w) (hcoherent : Coherent w.state.components)
    (hpairs : w.collectPairs.2 = pairs) :
    ∃ w' more, Work.scanInOrder order w = (.ok (), w') ∧ w'.state.components = w.state.components ∧
      w'.state.byFile = w.state.byFile ∧ w'.state.recorded = w.state.recorded ∧
      w'.parses = w.parses ++ more ∧ ∀ pair ∈ more, d.classAt? pair.source.names = none := by
  obtain ⟨log, hlog⟩ := w.exists_collectPairs_eq
  obtain ⟨sources, hnoted, -⟩ := noteSources_spec { w with log := log } pairs
  have hwalked : Still d o epoch { w with log := log } :=
    ⟨h.still.disk, h.still.options, h.still.hooks, h.still.epoch, h.still.mirrors⟩
  have hsettled : Settled d o epoch pairs (noteSources { w with log := log } pairs) := by
    refine ⟨hwalked.noteSources pairs, ?_, ?_⟩
    · exact noteSources_surveys h.surveys.mirrors h.surveys.paired h.surveys.times h.surveys.known
    · rw [hnoted]
      exact h.covers
  obtain ⟨parsed, hparse, hu⟩ := hsettled.parsePairs hd
  rw [← hlog] at hparse
  obtain ⟨loaded, hscan, hu'⟩ :=
    (hu.settled hsettled).scan_of_parsed hd h.still.epoch (hpairs.symm ▸ hparse) order
  obtain ⟨more, log', rfl, hmore⟩ := hu.trans hu'
  rw [hnoted] at hmore hscan
  exact ⟨_, more, hscan, hcoherent.resolveEach_eq _, rfl, rfl, rfl, fun pair hpair =>
    h.still.disk ▸ hmore pair hpair⟩

/-- **A further scan learns nothing.** -/
theorem Settled.scan (hd : Charted d o pairs) {w : World} (h : Settled d o epoch pairs w)
    (hcoherent : Coherent w.state.components) (hpairs : w.collectPairs.2 = pairs) :
    ∃ w' more, Work.scan w = (.ok (), w') ∧ w'.state.components = w.state.components ∧
      w'.state.byFile = w.state.byFile ∧ w'.state.recorded = w.state.recorded ∧
      w'.parses = w.parses ++ more ∧ ∀ pair ∈ more, d.classAt? pair.source.names = none := by
  have hstill := h.still
  have hnext : Settled d o epoch pairs w.nextOrder.1 :=
    ⟨⟨hstill.disk, hstill.options, hstill.hooks, hstill.epoch, hstill.mirrors⟩, h.surveys, h.covers⟩
  rw [Work.scan_eq]
  exact hnext.scanInOrder _ hd hcoherent (w.collectPairs_nextOrder.trans hpairs)

/-- A cached component is what a pair of files holds, the times of the files are recorded, and it has
exactly the members it should have. -/
structure Reflects (w : World) (pair : FilePair) (c : Component) : Prop where
  source : c.sourceFile = pair.source
  template : ∃ t, w.options.templatePathFor pair.source = .ok t ∧
    c.templateFile = if w.disk.isFile t then some t else none
  own : ∃ text signatures, w.disk.readText pair.source = .ok text ∧
    Source.signatures? text = some signatures ∧ c.bare = .ofSignatures signatures c.sourceFile c.templateFile
  times : ∀ p, c.sourceFile = p ∨ c.templateFile = some p →
    ∃ stamp, w.disk.modified p = .ok stamp ∧ w.state.stampOf? p = some stamp
  flat : c = Components.flatten w.state.components c

theorem Settled.reflects (hd : Charted d o pairs) {w : World} (h : Settled d o epoch pairs w)
    (hcoherent : Coherent w.state.components) {n : Text} {c : Component}
    (hc : w.state.components.get? n = some c) : ∃ pair ∈ pairs, w.Reflects pair c := by
  obtain ⟨pair, hpair, hsource, htemplate⟩ := h.surveys.paired n c hc
  obtain ⟨stamp, hmodified, text, signatures, htext, hs, hb⟩ := h.surveys.mirrors.held n c hc
  have hdisk := h.still.disk
  have hpaired := hd.pairedTemplate?_eq hpair hdisk h.still.options
  refine ⟨pair, hpair, hsource, ?_, ?_, ?_, hcoherent.flat n c hc⟩
  · rw [pairedTemplate?] at hpaired
    cases ht : w.options.templatePathFor pair.source with
    | error e =>
      rw [ht] at hpaired
      cases hpaired
    | ok t =>
      rw [ht] at hpaired
      exact ⟨t, rfl, htemplate.trans (Except.ok.inj hpaired).symm⟩
  · rw [hdisk, ← hsource]
    exact ⟨text, signatures, htext, hs, hb⟩
  · intro p hp
    have hfile : p.segments ∈ c.files :=
      Component.mem_files_iff.mpr (hp.imp (congrArg Path.segments) fun ht => ⟨p, ht, rfl⟩)
    have hstamp : ∃ stamp, d.modified p = .ok stamp := by
      rcases hp with rfl | hp
      · exact ⟨stamp, hmodified⟩
      · exact Disk.modified_of_isFile (hd.isFile_template hpair (htemplate ▸ hp))
    obtain ⟨stamp', hstamp'⟩ := hstamp
    exact ⟨stamp', hdisk ▸ hstamp', h.surveys.stampOf?_eq hc hfile hstamp'⟩

/-- The classes of a complete survey are those of the pairs. -/
theorem Settled.nameFor?_eq {w : World} (h : Settled d o epoch pairs w) {pair : FilePair}
    (hpair : pair ∈ pairs) : w.state.nameFor? pair.source = d.classAt? pair.source.names := by
  cases hn : w.state.nameFor? pair.source with
  | some n => exact (h.surveys.mirrors.classAt?_eq hn).symm
  | none =>
    cases hclass : d.classAt? pair.source.names with
    | none => rfl
    | some n =>
      rw [h.covers pair hpair n hclass] at hn
      cases hn

theorem Settled.has_iff {w : World} (h : Settled d o epoch pairs w) {n : Text} :
    w.state.components.has n = true ↔ ∃ pair ∈ pairs, d.classAt? pair.source.names = some n := by
  constructor
  · intro hn
    obtain ⟨c, hc⟩ := Table.has_eq_true_iff.mp hn
    obtain ⟨pair, hpair, hsource, -⟩ := h.surveys.paired n c hc
    refine ⟨pair, hpair, ?_⟩
    rw [← hsource]
    exact h.surveys.mirrors.classAt?_eq (h.surveys.mirrors.indexed.registered n c hc)
  · rintro ⟨pair, hpair, hclass⟩
    obtain ⟨c, hc, -⟩ := h.surveys.mirrors.indexed.listed _ _ (h.covers pair hpair n hclass)
    exact Table.has_eq_true_iff.mpr ⟨c, hc⟩

/-- **What a full scan makes of a registry.**  Whatever was cached before, and in whatever order ancestors are
loaded, a reload caches exactly the classes that the collected files declare, each as its pair of files holds
it, and records the times of those files and no others.  A further scan changes nothing and extracts no file
that declares a class. -/
theorem reload_surveys {w : World} (hhooks : w.hooks = []) (hd : Exposed w.disk w.options)
    (hunique : ∀ a ∈ w.collectPairs.2, ∀ b ∈ w.collectPairs.2, ∀ n,
      w.disk.classAt? a.source.names = some n → w.disk.classAt? b.source.names = some n →
        a.source.segments = b.source.segments) :
    ∃ w', Work.reload w = (.ok w'.state.sortedComponents, w') ∧ w'.disk = w.disk ∧
      w'.options = w.options ∧
      (∀ n, w'.state.components.has n = true ↔
        ∃ pair ∈ w.collectPairs.2, w.disk.classAt? pair.source.names = some n) ∧
      (∀ pair ∈ w.collectPairs.2, w'.state.nameFor? pair.source = w.disk.classAt? pair.source.names) ∧
      (∀ n c, w'.state.components.get? n = some c → ∃ pair ∈ w.collectPairs.2, w'.Reflects pair c) ∧
      (∀ k, w'.state.recorded.has k = true ↔
        ∃ n c, w'.state.components.get? n = some c ∧ k ∈ c.files) ∧
      ∃ w'' more, Work.scanAll w' = (.ok w'.state.sortedComponents, w'') ∧
        w''.state.components = w'.state.components ∧ w''.state.byFile = w'.state.byFile ∧
        w''.state.recorded = w'.state.recorded ∧ w''.parses = w'.parses ++ more ∧
        ∀ pair ∈ more, w.disk.classAt? pair.source.names = none := by
  obtain ⟨missing, pairs, hcollect⟩ :=
    w.disk.exists_collect w.options.searchPaths w.options.sourceExtension hd.template
  have hpairs : ∀ v : World, v.disk = w.disk → v.options = w.options → v.collectPairs.2 = pairs := by
    intro v hdisk ho
    rw [collectPairs_of_ok (by rw [hdisk, ho]; exact hcollect)]
  rw [hpairs w rfl rfl] at hunique ⊢
  have hchart := hd.charted hcollect hunique
  have hcleared : Still w.disk w.options (w.state.epoch + 1) w.clear :=
    ⟨rfl, rfl, hhooks, rfl, .empty _ _⟩
  obtain ⟨w', hscan, hsettled, hcoherent⟩ := scan_settled hchart hcleared rfl (hpairs w.clear rfl rfl)
  have hstill := hsettled.still
  obtain ⟨w'', more, hscan', hcomponents, hbyFile, hrecorded, hparses, hmore⟩ :=
    hsettled.scan hchart hcoherent (hpairs w' hstill.disk hstill.options)
  refine ⟨w', Work.scanAll_of_scan hscan, hstill.disk, hstill.options, fun n => hsettled.has_iff,
    fun pair hpair => hsettled.nameFor?_eq hpair,
    fun n c hc => hsettled.reflects hchart hcoherent hc, hsettled.surveys.times, w'', more, ?_,
    hcomponents, hbyFile, hrecorded, hparses, hmore⟩
  rw [Work.scanAll_of_scan hscan', State.sortedComponents, hcomponents]
  rfl

/-! ## A reload after everything has moved -/

/-- A registry that knows a class whose file is gone.  The files now on the disk have a template, a class
in a file of another stem, a parent that is missing, a class that extends itself and a file without a
class. -/
def movedFiles : World :=
  [.delete ⟨"/w/Gone.php".toList⟩, .writeIn "Card.php" "class Card extends Base { public $x; }" 2000,
    .writeIn "Card.html" "<b></b>" 2000,
    .writeIn "parts/Stem.php" "class Base extends Missing { public $y; }" 2000,
    .writeIn "Loop.php" "class Loop extends Loop {}" 2000, .writeIn "notes.php" "no class" 2000].foldl
    change (Work.scanAll (.workspace [.writeIn "Gone.php" "class Gone {}" 1000])).2

theorem reload_surveys_movedFiles :
    movedFiles.state.components.has "Gone".toList = true ∧ movedFiles.hooks = [] ∧
      Exposed movedFiles.disk movedFiles.options ∧ ∃ w' w'' more,
        Work.reload movedFiles = (.ok w'.state.sortedComponents, w') ∧
        w'.state.components.has "Gone".toList = false ∧ w'.state.components.has "Base".toList = true ∧
        (∀ n c, w'.state.components.get? n = some c →
          ∃ pair ∈ movedFiles.collectPairs.2, w'.Reflects pair c) ∧
        Work.scanAll w' = (.ok w'.state.sortedComponents, w'') ∧ w''.parses = w'.parses ++ more ∧
        ∀ pair ∈ more, movedFiles.disk.classAt? pair.source.names = none := by
  have hd : Exposed movedFiles.disk movedFiles.options := by
    refine ⟨?_, by decide +kernel, by decide +kernel, by decide +kernel⟩
    have hdisk : movedFiles.disk = ([.makeDirectory ⟨"/w".toList⟩,
        .writeIn "Gone.php" "class Gone {}" 1000, .delete ⟨"/w/Gone.php".toList⟩,
        .writeIn "Card.php" "class Card extends Base { public $x; }" 2000,
        .writeIn "Card.html" "<b></b>" 2000,
        .writeIn "parts/Stem.php" "class Base extends Missing { public $y; }" 2000,
        .writeIn "Loop.php" "class Loop extends Loop {}" 2000,
        .writeIn "notes.php" "no class" 2000] : List FileStep).foldl Disk.apply ⟨[]⟩ := by decide +kernel
    rw [hdisk]
    exact Disk.Sound.empty.foldl_apply _
  have hunique : ∀ a ∈ movedFiles.collectPairs.2, ∀ b ∈ movedFiles.collectPairs.2,
      (movedFiles.disk.classAt? a.source.names).isSome = true →
        movedFiles.disk.classAt? a.source.names = movedFiles.disk.classAt? b.source.names →
          a.source.segments = b.source.segments := by decide +kernel
  obtain ⟨w', hreload, -, -, hclasses, -, hreflects, -, w'', more, hscan, -, -, -, hparses, hmore⟩ :=
    reload_surveys (by decide +kernel) hd fun a ha b hb n hna hnb =>
      hunique a ha b hb (by rw [hna]; rfl) (hna.trans hnb.symm)
  refine ⟨by decide +kernel, by decide +kernel, hd, w', w'', more, hreload, ?_,
    (hclasses _).mpr (by decide +kernel), hreflects, hscan, hparses, hmore⟩
  have hgone : ¬ ∃ pair ∈ movedFiles.collectPairs.2,
      movedFiles.disk.classAt? pair.source.names = some "Gone".toList := by decide +kernel
  rw [← hclasses] at hgone
  simpa using hgone

end World

end TemplateAssist
