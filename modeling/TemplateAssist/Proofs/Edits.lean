import TemplateAssist.Proofs.Still

/-!
# Edits and their notifications

* `Edited.update`, `remove_tends` — after the notification of a changed file everything is up to date
  again, no class is lost but the one that the file stood for, and none is found but in a file that was read.
* `UpToDate.scanAll` — a full scan caches every declared class.
* `Edit`, `World.notify`, `World.maintain` — source files written and deleted, each change followed by its
  notification.
* `World.strays` — a class that an edit took from the file that stood for it, while another file that has
  not been read since still declares it.

Principal result: `maintain_cached_iff`, which says exactly which classes are cached.
-/

namespace TemplateAssist

namespace State

theorem Upkept.withKnown {d : Disk} {o : Options} {dirty : List PathKey} {s : State}
    (h : s.Upkept d o dirty) {sources : Table Text Path}
    (hknown : ∀ stem p, sources.get? stem = some p → p.Leads p.names ∧ o.isSource p.names = true) :
    Upkept d o dirty { s with knownSources := sources } where
  indexed := ⟨h.indexed.1, h.indexed.2, h.indexed.3⟩
  known := hknown
  current := fun n c hc hd =>
    ⟨(h.current n c hc hd).1, (h.current n c hc hd).2, (h.current n c hc hd).3,
      (h.current n c hc hd).4⟩

theorem Upkept.noteSource {d : Disk} {o : Options} {dirty : List PathKey} {s : State}
    (h : s.Upkept d o dirty) {source : Path} (hl : source.Leads source.names)
    (hs : o.isSource source.names = true) : (s.noteSource source).Upkept d o dirty := by
  unfold State.noteSource
  split
  · refine h.withKnown fun stem p hp => ?_
    rw [Table.get?_insert] at hp
    split at hp
    · rw [← Option.some.inj hp]
      exact ⟨hl, hs⟩
    · exact h.known stem p hp
  · exact h

end State

namespace World

/-! ## Notifications -/

theorem Edited.remember {w : World} {source : Path} (h : w.Edited source) :
    (w.remember source).Edited source := by
  have hup : (w.remember source).state.Upkept w.disk w.options [source.segments] := by
    unfold World.remember
    split
    · exact h.upkept.noteSource h.leads h.isSource
    · exact h.upkept
  obtain ⟨sources, heq⟩ := w.remember_eq source
  rw [heq] at hup ⊢
  exact ⟨h.hooks, h.leads, h.isSource, hup, h.stale⟩

/-- **The component of a changed file dropped.**  No class is lost but the one that the file stood for. -/
theorem evict_tends {w : World} (hd : Orderly w.disk w.options) (hhooks : w.hooks = []) {source : Path}
    (h : w.state.Upkept w.disk w.options [source.segments]) {made : Nat} (hmade : made ≤ w.parses.length)
    (hread : ∀ n, w.readSince made n = false) :
    Tends w.disk w.options w.state.epoch made
      (fun n => w.state.components.has n = true ∧ w.state.nameFor? source ≠ some n)
      (w.evict source) := by
  obtain ⟨sources, hforget, hsources⟩ := w.state.forgetSource_eq source
  have hup : (w.state.forgetSource source).Upkept w.disk w.options [source.segments] := by
    rw [hforget]
    exact h.withKnown fun stem p hp => h.known stem p (hsources stem p hp)
  have hepoch : (w.state.forgetSource source).epoch = w.state.epoch := by rw [hforget]
  have hbase : Tends w.disk w.options w.state.epoch made
      (fun n => w.state.components.has n = true ∧ w.state.nameFor? source ≠ some n)
      { w with state := ((w.state.forgetSource source).evictFile source).1 } := by
    refine ⟨⟨rfl, rfl, hhooks, (State.evictFile_epoch ..).trans hepoch, hup.evictFile⟩, hmade,
      fun n => ?_⟩
    have hhas := hup.indexed.evictFile_has_iff source (n := n)
    have hname : (w.state.forgetSource source).nameFor? source = w.state.nameFor? source := by
      rw [hforget]
      rfl
    rw [hname, show (w.state.forgetSource source).components = w.state.components by rw [hforget]] at hhas
    exact hhas.trans (or_iff_left (Bool.eq_false_iff.mp (hread n))).symm
  simp only [World.evict]
  split
  · exact (tends_tended hd ..).refreshDependents _ _ hbase
  · exact hbase

/-- The source behind the path of a changed file is at the same place and can be read. -/
theorem Edited.source {w : World} {path : Path} (h : w.Edited path) (hd : Orderly w.disk w.options)
    {text : Text} (htext : w.disk.readText path = .ok text) :
    ∃ source, w.options.sourcePathFor path = .ok source ∧ source.segments = path.segments ∧
      w.disk.readText source = .ok text := by
  obtain ⟨source, hs, hl, hends⟩ := hd.plain.sourcePathFor h.leads h.isSource
  refine ⟨source, hs, hl.trans h.leads.symm, ?_⟩
  rcases hends with rfl | hends
  · exact htext
  · obtain ⟨time, -, hnode⟩ := Disk.modified_of_readText htext
    exact (hd.sound.readText_of_leads hl hends hnode).1

/-- **A changed file parsed anew and merged.**  No class is lost but the one that the file stood for, none
is found but in a file that was read, and the one that the file declares is cached. -/
theorem Edited.update {w : World} {path : Path} (h : w.Edited path) (hd : Orderly w.disk w.options)
    {text : Text} (htext : w.disk.readText path = .ok text) :
    Tends w.disk w.options w.state.epoch w.parses.length
        (fun n => w.state.components.has n = true ∧ w.state.nameFor? path ≠ some n)
        (Work.update path w).2 ∧
      ∀ n, w.disk.classAt? path.names = some n → (Work.update path w).2.state.components.has n = true := by
  obtain ⟨source, hs, hsegments, hread⟩ := h.source hd htext
  have hname : w.state.nameFor? source = w.state.nameFor? path := by
    rw [State.nameFor?, hsegments, State.nameFor?]
  have hnames : source.names = path.names := Path.names_congr hsegments
  have hedited := (h.of_segments_eq hsegments).remember
  obtain ⟨template, ht⟩ := exists_pairedTemplate? hd.plain.template source
  obtain ⟨sources, found, w', hremember, hr, hp⟩ := Work.exists_reparse ht
  rw [hremember] at hedited
  rw [← hname, ← hnames]
  cases found with
  | none =>
    rw [Work.update_of_none hs hr]
    rcases hedited.parsed hread hp with ⟨hnone, -, pair, log, hpair, rfl⟩ | ⟨_, _, _, _, _, hsome, -⟩
    · rw [if_pos rfl]
      have hclass : w.disk.classAt? source.names = none := by
        rw [Disk.classAt?, Disk.signaturesAt?_of_readText hread, hnone, Option.map_none]
      refine ⟨evict_tends
        (w := { w with
          state := { w.state with knownSources := sources }, parses := w.parses ++ [pair], log := log })
        hd h.hooks hedited.upkept (List.length_append ▸ Nat.le_add_right _ _) fun n => ?_, fun n hn => ?_⟩
      · simp [readSince, hpair, hclass]
      · rw [hclass] at hn
        cases hn
    · cases hsome
  | some c =>
    have hrest : ∀ made S, Tends w.disk w.options w.state.epoch made S w' →
        Tends w.disk w.options w.state.epoch made S (Work.update path w).2 :=
      fun made S hfound => (tends_tended hd _ made S).update hs hr hfound.epoch hfound
    obtain ⟨htends, hclass⟩ := hedited.parse_class hread hp
    refine ⟨hrest _ _ htends, fun n hn => ?_⟩
    exact ((hrest _ _ htends.tends).cached n).mpr (Or.inl (hclass n hn))

/-- **The component of a deleted file dropped.** -/
theorem remove_tends {w : World} {path : Path} (hd : Orderly w.disk w.options) (hhooks : w.hooks = [])
    (hl : path.Leads path.names) (hs : w.options.isSource path.names = true)
    (h : w.state.Upkept w.disk w.options [path.segments]) :
    Tends w.disk w.options w.state.epoch w.parses.length
      (fun n => w.state.components.has n = true ∧ w.state.nameFor? path ≠ some n)
      (Work.remove path w).2 := by
  obtain ⟨source, hsource, hleads, -⟩ := hd.plain.sourcePathFor hl hs
  have hsegments : source.segments = path.segments := hleads.trans hl.symm
  have hask : Work.asked (·.options.sourcePathFor path) w = (.ok source, w) := by
    rw [Work.asked, hsource]
  have hsame : source.same path = true := by simpa [Path.same] using hsegments
  rw [Work.remove, Work.bind_of_ok hask,
    Work.bind_of_ok (rfl : Work.ask (·.disk.present source) w = _), hsame]
  have hname : w.state.nameFor? path = w.state.nameFor? source := by
    rw [State.nameFor?, ← hsegments, State.nameFor?]
  rw [hname]
  exact evict_tends hd hhooks (hsegments ▸ h) (Nat.le_refl _) w.readSince_length

/-! ## Full scans -/

theorem UpToDate.noteSources {d : Disk} {o : Options} {epoch : Nat} {w : World} (h : UpToDate d o epoch w)
    {pairs : List FilePair} (hpairs : ∀ pair ∈ pairs, pair.source.Leads pair.source.names ∧
      o.isSource pair.source.names = true) : UpToDate d o epoch (w.noteSources pairs) := by
  induction pairs generalizing w with
  | nil => exact h
  | cons pair rest ih =>
    obtain ⟨hl, hs⟩ := hpairs pair List.mem_cons_self
    have hnote : UpToDate d o epoch { w with state := w.state.noteSource pair.source } := by
      have hup := h.upkept.noteSource hl hs
      obtain ⟨sources, heq⟩ := State.noteSource_eq w.state pair.source
      rw [heq] at hup ⊢
      exact ⟨h.disk, h.options, h.hooks, h.epoch, hup⟩
    exact ih hnote fun p hp => hpairs p (List.mem_cons_of_mem _ hp)

/-- The pairs of source files parsed in turn: every class that they declare is cached, and none is lost. -/
theorem UpToDate.parsePairs {d : Disk} {o : Options} (hd : Orderly d o) {epoch : Nat} {w : World}
    (h : UpToDate d o epoch w) {pairs : List FilePair}
    (hpairs : ∀ pair ∈ pairs, pair.source.Leads pair.source.names ∧ pair.source.EndsInName ∧
      o.isSource pair.source.names = true) :
    ∃ w', Work.parsePairs epoch pairs w = (.ok (), w') ∧ UpToDate d o epoch w' ∧
      (∀ n, w.state.components.has n = true → w'.state.components.has n = true) ∧
      ∀ pair ∈ pairs, ∀ n, d.classAt? pair.source.names = some n → w'.state.components.has n = true := by
  induction pairs generalizing w with
  | nil => exact ⟨w, rfl, h, fun _ hn => hn, fun _ hp => absurd hp List.not_mem_nil⟩
  | cons pair rest ih =>
    obtain ⟨hl, he, hs⟩ := hpairs pair List.mem_cons_self
    have hp := w.parseInEpoch_parsed pair.source pair.template epoch
    have hparsed := h.tends.parse hl hs hp
    obtain ⟨w', hrest, hup, hkept, hall⟩ :=
      ih hparsed.toUpToDate fun p hp => hpairs p (List.mem_cons_of_mem _ hp)
    refine ⟨w', ?_, hup, fun n hn => hkept n ((hparsed.cached n).mpr (Or.inl hn)), fun p hmem n hn => ?_⟩
    · rw [Work.parsePairs, Work.bind_of_ok (rfl : Work.ask (·.state.epoch) w = _), if_pos h.epoch,
        Work.bind_of_ok (rfl : Work.step _ w = _)]
      exact hrest
    · rcases List.mem_cons.mp hmem with rfl | hmem
      · obtain ⟨signatures, hsigs, -⟩ := Option.map_eq_some_iff.mp hn
        obtain ⟨text, time, hnode, -⟩ := Disk.signaturesAt?_eq_some hsigs
        exact hkept n (h.parse_class hl hs (hd.sound.readText_of_leads hl he hnode).1 hp hn)
      · exact hall p hmem n hn

/-- The walk of a scan, which finds a source for every declared class. -/
theorem UpToDate.collectPairs {d : Disk} {o : Options} (hd : Orderly d o) (hdirs : d.HasDirectories o)
    {epoch : Nat} {w : World} (h : UpToDate d o epoch w) :
    UpToDate d o epoch w.collectPairs.1 ∧
      (∀ pair ∈ w.collectPairs.2, pair.source.Leads pair.source.names ∧ pair.source.EndsInName ∧
        o.isSource pair.source.names = true) ∧
      ∀ n ∈ d.declared o, ∃ pair ∈ w.collectPairs.2, d.classAt? pair.source.names = some n := by
  obtain ⟨missing, pairs, hcollect, hpairs, hall⟩ := hd.sound.collect_ok hd.plain hdirs
  rw [collectPairs_of_ok (by rw [h.disk, h.options]; exact hcollect)]
  refine ⟨⟨h.disk, h.options, h.hooks, h.epoch, h.upkept⟩, fun pair hpair => ?_, fun n hn => ?_⟩
  · obtain ⟨place, hl, he, hs⟩ := hpairs pair hpair
    rw [hl.names_eq]
    exact ⟨hl, he, hs⟩
  · obtain ⟨place, hs, hclass⟩ := Disk.mem_declared_iff.mp hn
    obtain ⟨signatures, hsigs, -⟩ := Option.map_eq_some_iff.mp hclass
    obtain ⟨text, time, hnode, -⟩ := Disk.signaturesAt?_eq_some hsigs
    obtain ⟨pair, hpair, hl⟩ := hall place _ hnode hs
    exact ⟨pair, hpair, by rwa [hl.names_eq]⟩

theorem UpToDate.scanInOrder {d : Disk} {o : Options} (hd : Orderly d o) (hdirs : d.HasDirectories o)
    {epoch : Nat} {w : World} (h : UpToDate d o epoch w) (order : List Text → List Text) :
    UpToDate d o epoch (Work.scanInOrder order w).2 ∧
      ∀ n ∈ d.declared o, (Work.scanInOrder order w).2.state.components.has n = true := by
  obtain ⟨hwalked, hsites, hall⟩ := h.collectPairs hd hdirs
  have hnoted := hwalked.noteSources fun pair hpair =>
    ⟨(hsites pair hpair).1, (hsites pair hpair).2.2⟩
  obtain ⟨parsed, hparse, hparsed, -, hcached⟩ := hnoted.parsePairs hd hsites
  have htended := tends_tended hd epoch parsed.parses.length fun n => parsed.state.components.has n = true
  rw [← h.epoch] at hparse
  rw [Work.scanInOrder_of_parsed hparse, h.epoch]
  have hrest : Work.KeepsAt (Tends d o epoch parsed.parses.length
      fun n => parsed.state.components.has n = true) False
      (Work.flattenAll epoch (order parsed.state.components.keys) >>= fun completed =>
        if completed then Work.alter fun w => { w with generation := w.generation + 1 } else pure ())
      parsed := by
    refine (htended.flattenAll _ parsed hparsed.tends).bind fun completed => ?_
    split
    · exact .alter fun v hv => htended.aside v v.log _ v.state.scanned hv
    · exact .pure _
  refine ⟨hrest.1.toUpToDate, fun n hn => ?_⟩
  obtain ⟨pair, hpair, hclass⟩ := hall n hn
  exact (hrest.1.cached n).mpr (Or.inl (hcached pair hpair n hclass))

/-- **A full scan caches every declared class**, in whatever order the ancestors are loaded. -/
theorem UpToDate.scanAll {d : Disk} {o : Options} (hd : Orderly d o) (hdirs : d.HasDirectories o)
    {epoch : Nat} {w : World} (h : UpToDate d o epoch w) :
    UpToDate d o epoch (Work.scanAll w).2 ∧
      ∀ n ∈ d.declared o, (Work.scanAll w).2.state.components.has n = true := by
  have hnext : UpToDate d o epoch w.nextOrder.1 := ⟨h.disk, h.options, h.hooks, h.epoch, h.upkept⟩
  rw [Work.scanAll_eq, Work.bind_snd fun _ _ => rfl, Work.scan_eq]
  exact hnext.scanInOrder hd hdirs _

end World

/-! ## Edits -/

/-- A change to one source file. -/
inductive Edit where
  | write (path : Path) (text : Text) (time : Int)
  | delete (path : Path)
  deriving Repr, DecidableEq

namespace Edit

def path : Edit → Path
  | write p _ _ | delete p => p

def change : Edit → FileStep
  | write p text time => .write p (.text text) time
  | delete p => .delete p

/-- Whether an edit is one of a source file under the search paths.  What is written can be read, under a
time that is later than that of the file before, and what is deleted is a file. -/
def valid (d : Disk) (o : Options) (e : Edit) : Bool :=
  e.path.segments = .root :: e.path.names.map .name && o.isSource e.path.names &&
    match e with
    | write p text time =>
      (d.apply e.change).readText p = .ok text && (d.apply e.change).modified p = .ok (.given time) &&
        (d.timeAt? p.names).all (· < time)
    | delete p => (d.timeAt? p.names).isSome

theorem valid_place {d : Disk} {o : Options} {e : Edit} (h : e.valid d o = true) :
    e.path.Leads e.path.names ∧ o.isSource e.path.names = true := by
  unfold valid at h
  rw [Bool.and_eq_true, Bool.and_eq_true, decide_eq_true_eq] at h
  exact h.1

theorem path_change (e : Edit) : e.change.path = e.path := by
  cases e <;> rfl

/-- An edit leaves all other files alone. -/
theorem node?_apply {d : Disk} (hd : d.Sound) {o : Options} {e : Edit} (h : e.valid d o = true)
    {place : List Text} (hne : place ≠ e.path.names) {f : File}
    (hf : d.node? place = some (.file f)) : (d.apply e.change).node? place = some (.file f) := by
  cases e with
  | write p text time =>
    have hne : place ≠ p.names := hne
    rcases d.apply_write p (.text text) time with hsame | ⟨hnil, -, d', hd', happly⟩
    · rw [change, hsame, hf]
    · rw [change, happly, Disk.node?_insert d' hnil, if_neg (Ne.symm hne)]
      rcases Disk.makeDirectories_node? hd' place with hsame | ⟨hnone, -⟩
      · rw [hsame, hf]
      · rw [hf] at hnone
        cases hnone
  | delete p =>
    have hne : place ≠ p.names := hne
    rw [change, Disk.apply_delete_node?, if_neg, hf]
    rintro ⟨-, hprefix⟩
    obtain ⟨below, rfl⟩ := List.isPrefixOf_iff_prefix.mp hprefix
    have hbelow : below ≠ [] := by
      rintro rfl
      exact hne (List.append_nil _)
    -- what stands below the deleted file would make it a directory
    have hdir := hd.directory_of_append hf hbelow
    have hsome : (d.timeAt? p.names).isSome = true := by
      rw [valid, Bool.and_eq_true] at h
      exact h.2
    rw [Disk.timeAt?, hdir] at hsome
    cases hsome

theorem orderly_apply {d : Disk} {o : Options} (hd : Orderly d o) {e : Edit}
    (h : e.valid d o = true) : Orderly (d.apply e.change) o := by
  refine ⟨hd.plain, hd.sound.apply _, fun place f hf => ?_⟩
  rcases Disk.apply_node?_file hf with hold | ⟨rfl, -⟩
  · exact hd.nameless place f hold
  · rw [path_change]
    obtain ⟨front, stem, hplace, -, hstem, -⟩ := Options.isSource_last (valid_place h).2
    rw [hplace, List.getLast?_concat, ne_eq, Option.some.injEq]
    intro he
    have := congrArg List.length he
    have := List.length_pos_iff.mpr hstem
    simp only [List.length_append, List.length_cons] at *
    omega

end Edit

namespace World

/-- The world after an edit and its notification. -/
def notify (w : World) (e : Edit) : World :=
  match e with
  | .write p _ _ => (Work.update p (w.change e.change)).2
  | .delete p => (Work.remove p (w.change e.change)).2

/-- The world after some edits, each followed by its notification. -/
def maintain (w : World) (edits : List Edit) : World :=
  edits.foldl notify w

/-- Whether every edit is valid when it is made. -/
def validEdits (w : World) : List Edit → Bool
  | [] => true
  | e :: rest => e.valid w.disk w.options && (w.notify e).validEdits rest

/-- Whether a class has strayed after some edits, and `lost` if it had before: the file that stood for it
was edited, and no file that still declares it has been read since. -/
def strays (w : World) (n : Text) (lost : Bool) : List Edit → Bool
  | [] => lost
  | e :: rest =>
    (w.notify e).strays n
      (((w.notify e).disk.declared w.options).contains n &&
        !(w.notify e).readSince w.parses.length n &&
        (w.state.nameFor? e.path = some n || lost)) rest

/-- After an edit, everything but the edited file is up to date. -/
theorem UpToDate.upkept_change {d : Disk} {o : Options} (hd : Orderly d o) {epoch : Nat}
    {w : World} (h : UpToDate d o epoch w) {e : Edit} (hv : e.valid d o = true) :
    w.state.Upkept (d.apply e.change) o [e.path.segments] := by
  refine ⟨h.upkept.indexed, h.upkept.known, fun n c hc hother => ?_⟩
  obtain ⟨hl, hs, ⟨signatures, hsigs, hsame⟩, htime⟩ := h.upkept.current n c hc List.not_mem_nil
  obtain ⟨text, time, hnode, htext⟩ := Disk.signaturesAt?_eq_some hsigs
  have hne : c.sourceFile.names ≠ e.path.names := by
    intro he
    refine hother (List.mem_singleton.mpr ?_)
    rw [hl, (Edit.valid_place hv).1, he]
  have hnode' := Edit.node?_apply hd.sound hv hne hnode
  refine ⟨hl, hs, ⟨signatures, ?_, hsame⟩, fun stamp hrec => ?_⟩
  · rw [Disk.signaturesAt?, hnode']
    exact htext
  · obtain ⟨time', hat, rfl⟩ := htime stamp hrec
    rw [Disk.timeAt?, hnode] at hat
    exact ⟨time', by rw [Disk.timeAt?, hnode']; exact hat, rfl⟩

/-- **One edit and its notification.**  Everything is up to date again, no class is lost but the one that
the file stood for, none is found but in a file that was read, and the one that the file now declares is
cached. -/
theorem UpToDate.notify {d : Disk} {o : Options} (hd : Orderly d o) {epoch : Nat} {w : World}
    (h : UpToDate d o epoch w) {e : Edit} (hv : e.valid d o = true) :
    Tends (d.apply e.change) o epoch w.parses.length
        (fun n => w.state.components.has n = true ∧ w.state.nameFor? e.path ≠ some n) (w.notify e) ∧
      ∀ n, (d.apply e.change).classAt? e.path.names = some n →
        (w.notify e).state.components.has n = true := by
  have hup := h.upkept_change hd hv
  have hd' := Edit.orderly_apply hd hv
  obtain ⟨hl, hs⟩ := Edit.valid_place hv
  have htime := h.upkept.current
  obtain ⟨rfl, rfl, hhooks, rfl, -⟩ := h
  cases e with
  | write p text time =>
    simp only [Edit.valid, Bool.and_eq_true, decide_eq_true_eq] at hv
    obtain ⟨-, ⟨hread, hmodified⟩, hlater⟩ := hv
    have hedited : (w.change (Edit.write p text time).change).Edited p := by
      refine ⟨hhooks, hl, hs, hup, fun c stamp hc hrec => ?_⟩
      obtain ⟨m, -, hget, hsource⟩ := hup.indexed.exists_of_ofFile? hc
      have hnames : c.sourceFile.names = p.names := Path.names_congr hsource
      obtain ⟨old, hold, rfl⟩ := (htime m c hget List.not_mem_nil).time stamp (hsource.symm ▸ hrec)
      rw [hnames] at hold
      refine ⟨old, rfl, fun new hnew => ?_⟩
      have hlater : old < time := by simpa [hold] using hlater
      have := Stamp.given.inj (Disk.stamp_of_modified hmodified hnew)
      omega
    exact hedited.update hd' hread
  | delete p =>
    refine ⟨remove_tends (w := w.change (.delete p)) hd' hhooks (show p.Leads p.names from hl) hs hup,
      fun n hn => ?_⟩
    have hgone : (w.disk.apply (.delete p)).node? p.names = none := by
      rw [Disk.apply_delete_node?, if_pos]
      refine ⟨?_, List.isPrefixOf_iff_prefix.mpr (List.prefix_rfl)⟩
      obtain ⟨front, stem, hplace, -⟩ := Options.isSource_last hs
      have hplace : p.names = front ++ [stem ++ '.' :: w.options.sourceExtension] := hplace
      rw [hplace]
      simp
    have hn : (w.disk.apply (.delete p)).classAt? p.names = some n := hn
    rw [Disk.classAt?, Disk.signaturesAt?, hgone] at hn
    cases hn

/-- A class that is cached is declared by a source file. -/
theorem UpToDate.declared {d : Disk} {o : Options} {epoch : Nat} {w : World}
    (h : UpToDate d o epoch w) {n : Text} (hn : w.state.components.has n = true) :
    n ∈ d.declared o := by
  obtain ⟨c, hc⟩ := Table.has_eq_true_iff.mp hn
  have hup := h.upkept.current n c hc List.not_mem_nil
  refine Disk.mem_declared_iff.mpr ⟨_, hup.source, ?_⟩
  rw [hup.class_eq, h.upkept.indexed.keyed.named n c hc]

/-- A class that is declared after an edit, but not by the edited file, was declared before. -/
theorem Edit.declared_of_apply {d : Disk} {o : Options} {e : Edit} {n : Text}
    (hn : n ∈ (d.apply e.change).declared o)
    (hother : (d.apply e.change).classAt? e.path.names ≠ some n) : n ∈ d.declared o := by
  obtain ⟨place, hs, hplace⟩ := Disk.mem_declared_iff.mp hn
  refine Disk.mem_declared_iff.mpr ⟨place, hs, ?_⟩
  obtain ⟨signatures, hsigs, hname⟩ := Option.map_eq_some_iff.mp hplace
  obtain ⟨text, time, hnode, htext⟩ := Disk.signaturesAt?_eq_some hsigs
  rcases Disk.apply_node?_file hnode with hold | ⟨rfl, -⟩
  · rw [Disk.classAt?, Disk.signaturesAt?, hold]
    exact Option.map_eq_some_iff.mpr ⟨signatures, htext, hname⟩
  · rw [Edit.path_change] at hplace
    exact absurd hplace hother

/-- **Edits and their notifications.**  The cached classes are the declared ones that have not strayed. -/
theorem UpToDate.maintain {n : Text} (edits : List Edit) {d : Disk} {o : Options} (hd : Orderly d o)
    {epoch : Nat} {w : World} (h : UpToDate d o epoch w) (hv : w.validEdits edits = true) {lost : Bool}
    (hn : w.state.components.has n = true ↔ n ∈ d.declared o ∧ lost = false) :
    ∃ d', UpToDate d' o epoch (w.maintain edits) ∧
      ((w.maintain edits).state.components.has n = true ↔
        n ∈ d'.declared o ∧ w.strays n lost edits = false) := by
  induction edits generalizing d w lost with
  | nil => exact ⟨d, h, hn⟩
  | cons e rest ih =>
    rw [validEdits, Bool.and_eq_true, h.disk, h.options] at hv
    obtain ⟨hnotify, hclass⟩ := h.notify hd hv.1
    refine ih (Edit.orderly_apply hd hv.1) hnotify.toUpToDate hv.2 ?_
    have hcached := hnotify.cached n
    rw [hnotify.disk, h.options]
    constructor
    · intro hafter
      refine ⟨hnotify.declared hafter, ?_⟩
      rcases hcached.mp hafter with ⟨hbefore, hkept⟩ | hread
      · simp [(hn.mp hbefore).2, hkept]
      · simp [hread]
    · rintro ⟨hdeclared, hstays⟩
      by_cases hself : (d.apply e.change).classAt? e.path.names = some n
      · exact hclass n hself
      · -- another file declares the class, as it did before
        have hbefore := Edit.declared_of_apply hdeclared hself
        refine hcached.mpr ?_
        by_cases hread : (w.notify e).readSince w.parses.length n = true
        · exact Or.inr hread
        · have hkept : w.state.nameFor? e.path ≠ some n ∧ lost = false := by
            simpa [hdeclared, hread] using hstays
          exact Or.inl ⟨hn.mpr ⟨hbefore, hkept.2⟩, hkept.1⟩

-- A parent without a short name is looked for in a file that no walk visits, hence `hnameless`.
example :
    let files : List FileStep :=
      [.makeDirectory ⟨"/w".toList⟩, .writeIn ".php" "class Hidden {}" 1000,
        .writeIn "Kid.php" "class Kid extends Base\\ {}" 1000]
    (Work.scanAll (start (files.foldl Disk.apply ⟨[]⟩) .workspace [] [])).2.state.components.has
      "Hidden".toList = true := by
  decide +kernel

-- Where no template can be named a walk collects nothing, and where both extensions are empty the path of
-- a source is taken for that of a template and led elsewhere, hence `ho`.
example :
    let files : List FileStep := [.makeDirectory ⟨"/w".toList⟩, .writeIn "A." "class Old {}" 1000]
    let scanned := fun template => (Work.scanAll (start (files.foldl Disk.apply ⟨[]⟩)
      ⟨[⟨"/w".toList⟩], [], template⟩ [] [])).2
    let edit := Edit.write ⟨"/w/A.".toList⟩ "class New {}".toList 2000
    (scanned "x/y".toList).state.components.has "Old".toList = false ∧
      (scanned []).validEdits [edit] = true ∧
      ((scanned []).maintain [edit]).state.components.has "New".toList = false := by
  decide +kernel

/-- Two files that declare one class. -/
def sharedFiles : List FileStep :=
  [.makeDirectory ⟨"/w".toList⟩, .writeIn "A.php" "class Shared {}" 1000,
    .writeIn "B.php" "class Shared {}" 1000]

/-- The file that stands for the class is deleted.  Then a class is written whose parent is looked for in
the other file. -/
def sharedEdits : List Edit :=
  [.delete ⟨"/w/B.php".toList⟩, .write ⟨"/w/Kid.php".toList⟩ "class Kid extends A {}".toList 2000]

end World

end TemplateAssist
