import TemplateAssist.Proofs.Freshness
import TemplateAssist.Proofs.Upkeep

/-!
# A registry beside a disk that stands still

No hook runs, and the disk does not change while the registry works.

* `State.Mirrors` — a state that shows a disk as it is.
* `World.Still` — a world in which the registry mirrors a disk and no hook is to come.
* `World.Unmoved` — what work leaves behind that learns nothing: a longer log, and extractions of files
  that declare no class.
* `World.scanned` — the world once a scan is complete; `scanInOrder_of_ok` — a full scan from its phases.

Principal result: `Still.parsed`.  Beside a disk that stands still a parse learns nothing, or it caches a
class that was not cached from this source.
-/

namespace TemplateAssist

/-! ## States that mirror a disk -/

namespace Disk

/-- The stamp of what a key leads to. -/
def stampAt? (d : Disk) (k : PathKey) : Option Stamp :=
  match d.node? (k.foldl walkSegment []) with
  | some (.file f) => some (.given f.modified)
  | some .directory => some .system
  | none => none

theorem stampAt?_of_modified {d : Disk} {p : Path} {stamp : Stamp} (h : d.modified p = .ok stamp) :
    d.stampAt? p.segments = some stamp := by
  rw [stampAt?, ← Path.names_eq]
  unfold modified at h
  split at h
  · rename_i names f hl
    obtain ⟨rfl, hnode⟩ := locate_ok hl
    rw [hnode, ← Except.ok.inj h]
  · rename_i names hl
    obtain ⟨rfl, hnode⟩ := locate_ok hl
    rw [hnode, ← Except.ok.inj h]
  · cases h

theorem Holds.classAt?_eq {d : Disk} {c : Component} {stamp : Stamp} (h : d.Holds c stamp) :
    d.classAt? c.sourceFile.names = some c.name := by
  obtain ⟨-, text, signatures, hread, hs, hb⟩ := h
  have hname : c.name = signatures.className := congrArg Component.name hb
  rw [classAt?, signaturesAt?_of_readText hread, hs, Option.map_some, hname]

end Disk

theorem Stamp.isBefore_self (stamp : Stamp) : stamp.isBefore stamp = false := by
  cases stamp <;> simp [isBefore]

namespace State

/-- Every cached component is what a disk holds in its source file, and every recorded time is that of
the disk. -/
structure Mirrors (d : Disk) (s : State) : Prop where
  indexed : s.Indexed
  held : ∀ n c, s.components.get? n = some c → ∃ stamp, d.Holds c stamp
  timed : ∀ k stamp, s.recorded.get? k = some stamp → d.stampAt? k = some stamp

variable {d : Disk} {s : State}

theorem Mirrors.empty (d : Disk) (epoch : Nat) : (State.empty epoch).Mirrors d where
  indexed := .empty epoch
  held := fun _ _ h => by cases h
  timed := fun _ _ h => by cases h

theorem Mirrors.of_sameBare (h : s.Mirrors d) {cs : Components}
    (hsame : Components.SameBare s.components cs) (hk : cs.Keyed) :
    Mirrors d { s with components := cs } where
  indexed := h.indexed.of_sameBare hsame hk
  held := by
    intro n c hc
    obtain ⟨e, he, hb⟩ := hsame.symm.get?_some hc
    obtain ⟨stamp, hheld⟩ := h.held n e he
    exact ⟨stamp, hheld.of_bare_eq hb⟩
  timed := h.timed

/-- The class that a source stands for is the one that it declares. -/
theorem Mirrors.classAt?_eq (h : s.Mirrors d) {source : Path} {n : Text}
    (hn : s.nameFor? source = some n) : d.classAt? source.names = some n := by
  obtain ⟨c, hc, hsource⟩ := h.indexed.listed _ _ hn
  obtain ⟨stamp, hheld⟩ := h.held n c hc
  rw [← Path.names_congr hsource, hheld.classAt?_eq, h.indexed.keyed.named n c hc]

theorem Mirrors.insert (h : s.Mirrors d) {c : Component} {stamp : Stamp} (hheld : d.Holds c stamp)
    {templateStamp : Option Stamp}
    (htemplate : ∀ t stamp', c.templateFile = some t → templateStamp = some stamp' →
      d.modified t = .ok stamp') : (s.insert c stamp templateStamp).Mirrors d where
  indexed := h.indexed.insert c stamp templateStamp
  held := by
    intro n e he
    rcases (h.indexed.insert_get? c stamp templateStamp).mp he with ⟨-, rfl⟩ | ⟨-, he, -⟩
    · exact ⟨stamp, hheld⟩
    · exact h.held n e he
  timed := by
    intro k stamp' hk
    rcases h.indexed.insert_recorded hk with ⟨hkey, hts⟩ | ⟨rfl, rfl⟩ | ⟨-, hk⟩
    · obtain ⟨t, ht, rfl⟩ := Option.map_eq_some_iff.mp hkey
      exact Disk.stampAt?_of_modified (htemplate t stamp' ht hts)
    · exact Disk.stampAt?_of_modified hheld.1
    · exact h.timed k stamp' hk

/-- **Where times are recorded once a component is.**  Which times they are, the disk tells. -/
theorem recordTimes_has_iff {c : Component} {templateStamp : Option Stamp}
    (hstamp : c.templateFile.isSome = templateStamp.isSome) (recorded : Table PathKey Stamp)
    (stamp : Stamp) (k : PathKey) :
    (recordTimes recorded c stamp templateStamp).has k = true ↔ recorded.has k = true ∨ k ∈ c.files := by
  by_cases hk : k ∈ c.files
  · simp only [recordTimes_has hk hstamp, hk, or_true]
  · simp only [Table.has, recordTimes_get?_of_notMem hk, hk, or_false]

end State

namespace World

/-! ## Parses -/

/-- The registry mirrors a disk, with given options and in a given epoch, and no hook is to come. -/
structure Still (d : Disk) (o : Options) (epoch : Nat) (w : World) : Prop where
  disk : w.disk = d
  options : w.options = o
  hooks : w.hooks = []
  epoch : w.state.epoch = epoch
  mirrors : w.state.Mirrors d

/-- Nothing but the log and extractions of files that declare no class tells a world from an earlier
one. -/
def Unmoved (w w' : World) : Prop :=
  ∃ pairs log, w' = { w with parses := w.parses ++ pairs, log := log } ∧
    ∀ pair ∈ pairs, w.disk.classAt? pair.source.names = none

theorem Unmoved.refl (w : World) : Unmoved w w :=
  ⟨[], w.log, by rw [List.append_nil], fun _ h => by cases h⟩

theorem Unmoved.logged (w : World) (log : List LogEntry) : Unmoved w { w with log := log } :=
  ⟨[], log, by rw [List.append_nil], fun _ h => by cases h⟩

theorem Unmoved.trans {w w' w'' : World} (h : Unmoved w w') (h' : Unmoved w' w'') : Unmoved w w'' := by
  obtain ⟨pairs, log, rfl, hpairs⟩ := h
  obtain ⟨pairs', log', rfl, hpairs'⟩ := h'
  refine ⟨pairs ++ pairs', log', by rw [← List.append_assoc], fun pair hpair => ?_⟩
  rcases List.mem_append.mp hpair with hpair | hpair
  · exact hpairs pair hpair
  · exact hpairs' pair hpair

theorem Unmoved.state_eq {w w' : World} (h : Unmoved w w') : w'.state = w.state := by
  obtain ⟨pairs, log, rfl, -⟩ := h
  rfl

theorem Unmoved.still {d : Disk} {o : Options} {epoch : Nat} {w w' : World} (hu : Unmoved w w')
    (h : Still d o epoch w) : Still d o epoch w' := by
  obtain ⟨pairs, log, rfl, -⟩ := hu
  exact ⟨h.disk, h.options, h.hooks, h.epoch, h.mirrors⟩

theorem Read.holds {w : World} {source : Path} {template : Option Path} {stamp : Stamp} {text : Text}
    (hr : w.Read source template stamp text) {signatures : Signatures}
    (hs : Source.signatures? text = some signatures) :
    w.disk.Holds (w.extract signatures source template) stamp :=
  ⟨hr.modified, text, signatures, hr.readText, hs, bare_extract hs ..⟩

/-- An extracted component has a template exactly when a time was seen for it. -/
theorem isSome_extract (w : World) (signatures : Signatures) (source : Path) (template : Option Path) :
    (w.extract signatures source template).templateFile.isSome =
      ((w.seenTemplate? template).map (·.2)).isSome := by
  rw [Option.isSome_map]
  exact Option.isSome_map

/-- **What a parse does beside a disk that stands still.** -/
theorem Still.parsed {d : Disk} {o : Options} {epoch : Nat} {w w' : World} (h : Still d o epoch w)
    {source : Path} {template : Option Path} {r : Option Component}
    (hp : Parsed w source template epoch w' r) :
    (Unmoved w w' ∧ ((∃ c, w.state.ofFile? source = some c) ∨
        ∀ text, d.readText source = .ok text → Source.signatures? text = none)) ∨
      ∃ stamp text signatures pair log, w.Read source template stamp text ∧
        Source.signatures? text = some signatures ∧
        w' = { w with
          parses := w.parses ++ [pair]
          log := log
          state := w.state.insert (w.extract signatures source template) stamp
            ((w.seenTemplate? template).map (·.2)) } := by
  obtain ⟨rfl, rfl, hhooks, rfl, hm⟩ := h
  have hbegun := begun_of_no_hooks hhooks source template
  cases hp with
  | missing log hmissing =>
    refine Or.inl ⟨.logged w log, Or.inr fun text htext => ?_⟩
    obtain ⟨time, hmodified, -⟩ := Disk.modified_of_readText htext
    rw [hmissing] at hmodified
    cases hmodified
  | fresh log _ hf => exact Or.inl ⟨.logged w log, Or.inl ⟨_, (stampOf?_of_fresh? hf).1⟩⟩
  | unread log _ _ hr =>
    refine Or.inl ⟨.logged w log, Or.inr fun text htext => ?_⟩
    rw [hr] at htext
    cases htext
  | classless log hr hs =>
    refine Or.inl ⟨⟨[_], log, by rw [hbegun], fun pair hpair => ?_⟩, Or.inr fun text htext => ?_⟩
    · rw [List.mem_singleton.mp hpair, Disk.classAt?, Disk.signaturesAt?_of_readText hr.readText, hs]
      rfl
    · rwa [Except.ok.inj (htext.symm.trans hr.readText)]
  | superseded _ _ _ he =>
    rw [hbegun] at he
    exact absurd rfl he
  | older _ hr _ _ hn =>
    -- a recorded time is that of the disk, so none is later
    obtain ⟨recorded, hrec, hbefore, -⟩ := stampOf?_of_newer? hn
    have htimed := hm.timed _ _ hrec
    rw [Disk.stampAt?_of_modified hr.modified, Option.some.injEq] at htimed
    rw [htimed, Stamp.isBefore_self] at hbefore
    cases hbefore
  | cached log hr hs _ _ => exact Or.inr ⟨_, _, _, _, log, hr, hs, by rw [hbegun]⟩

end World

/-! ## The phases of a scan -/

namespace World

theorem collectPairs_of_ok {w : World} {missing : Nat} {pairs : List FilePair}
    (h : w.disk.collect w.options.searchPaths w.options.sourceExtension w.options.templateExtension =
      (missing, .ok pairs)) :
    w.collectPairs = (w.noteAll .warn (List.replicate missing .skippedEntry), pairs) := by
  simp only [collectPairs, h]

/-- The sources of pairs are remembered under their stems, and nothing else changes. -/
theorem noteSources_spec (w : World) (pairs : List FilePair) :
    ∃ sources, w.noteSources pairs = { w with state := { w.state with knownSources := sources } } ∧
      (∀ stem p, sources.get? stem = some p →
        (∃ pair ∈ pairs, pair.source = p ∧ p.stem? = some stem) ∨
          w.state.knownSources.get? stem = some p) ∧
      (∀ stem, w.state.knownSources.has stem = true → sources.has stem = true) ∧
      ∀ pair ∈ pairs, ∀ stem, pair.source.stem? = some stem → sources.has stem = true := by
  induction pairs generalizing w with
  | nil => exact ⟨w.state.knownSources, rfl, fun _ _ h => Or.inr h, fun _ h => h, fun _ h => by cases h⟩
  | cons pair rest ih =>
    obtain ⟨noted, hnoted⟩ := w.state.noteSource_eq pair.source
    have hget := w.state.noteSource_get? pair.source
    rw [hnoted] at hget
    have hget : ∀ stem, noted.get? stem = if pair.source.stem? = some stem then some pair.source
      else w.state.knownSources.get? stem := hget
    obtain ⟨sources, heq, hold, hmono, hall⟩ := ih { w with state := w.state.noteSource pair.source }
    rw [hnoted] at heq hold hmono
    refine ⟨sources, ?_, fun stem p hp => ?_, fun stem hstem => hmono stem ?_, ?_⟩
    · show noteSources { w with state := w.state.noteSource pair.source } rest = _
      rw [hnoted]
      exact heq
    · rcases hold stem p hp with ⟨q, hq, hsource⟩ | hp
      · exact Or.inl ⟨q, List.mem_cons_of_mem _ hq, hsource⟩
      · have hp : noted.get? stem = some p := hp
        rw [hget] at hp
        split at hp
        · rename_i hstem
          obtain rfl := Option.some.inj hp
          exact Or.inl ⟨pair, List.mem_cons_self, rfl, hstem⟩
        · exact Or.inr hp
    · show noted.has stem = true
      rw [Table.has, hget]
      split
      · rfl
      · exact hstem
    · intro q hq stem hstem
      rcases List.mem_cons.mp hq with rfl | hq
      · refine hmono stem ?_
        show noted.has stem = true
        rw [Table.has, hget, if_pos hstem]
        rfl
      · exact hall q hq stem hstem

/-- The world once a scan is complete. -/
def scanned (w : World) : World :=
  { w.mergeAll with generation := w.mergeAll.generation + 1 }

theorem mem_sortedNames {s : State} {n : Text} (hn : n ∈ s.components.keys) : n ∈ s.sortedNames :=
  mem_sortBy.mpr hn

end World

namespace Work

/-- What every parse keeps holds after all pairs are parsed.  The property may depend on the pairs that
are left. -/
theorem parsePairs_of_step {epoch : Nat} {Q : List FilePair → World → Prop}
    (hepoch : ∀ rest w, Q rest w → w.state.epoch = epoch)
    (hstep : ∀ pair rest w, Q (pair :: rest) w →
      Q rest (w.parseInEpoch pair.source pair.template epoch).1) (pairs : List FilePair) {w : World}
    (h : Q pairs w) : ∃ w', parsePairs epoch pairs w = (.ok (), w') ∧ Q [] w' := by
  induction pairs generalizing w with
  | nil => exact ⟨w, rfl, h⟩
  | cons pair rest ih =>
    obtain ⟨w', hrest, hw'⟩ := ih (hstep pair rest w h)
    refine ⟨w', ?_, hw'⟩
    rw [parsePairs, bind_of_ok (rfl : ask (·.state.epoch) w = _), if_pos (hepoch _ w h),
      bind_of_ok (rfl : step _ w = _)]
    exact hrest

/-- The ancestors of all names are loaded, if those of each are.  What holds then may depend on the names
that are left. -/
theorem loadAll_of_step {epoch : Nat} {Q : List Text → World → Prop}
    (hepoch : ∀ rest w, Q rest w → w.state.epoch = epoch)
    (hstep : ∀ name rest w, Q (name :: rest) w →
      ∃ w', loadAncestors name epoch w = (.ok (), w') ∧ Q rest w') (names : List Text) {w : World}
    (h : Q names w) : ∃ w', loadAll epoch names w = (.ok true, w') ∧ Q [] w' := by
  induction names generalizing w with
  | nil => exact ⟨w, rfl, h⟩
  | cons name rest ih =>
    obtain ⟨v, hv, hQ⟩ := hstep name rest w h
    obtain ⟨w', hrest, hw'⟩ := ih hQ
    refine ⟨w', ?_, hw'⟩
    rw [loadAll, bind_of_ok (rfl : ask (·.state.epoch) w = _), if_neg (not_not_intro (hepoch _ w h)),
      bind_of_ok hv]
    exact hrest

/-- What is left of a full scan once the pairs are collected, noted and parsed. -/
theorem scanInOrder_of_parsed {order : List Text → List Text} {w parsed : World}
    (hparse : parsePairs w.state.epoch w.collectPairs.2 (w.collectPairs.1.noteSources w.collectPairs.2) =
      (.ok (), parsed)) :
    scanInOrder order w = (flattenAll w.state.epoch (order parsed.state.components.keys) >>= fun completed =>
      if completed then alter fun w => { w with generation := w.generation + 1 } else pure ()) parsed := by
  have hcollect : step (·.collectPairs) w = (.ok w.collectPairs.2, w.collectPairs.1) := rfl
  have hepoch : w.collectPairs.1.state.epoch = w.state.epoch := by
    obtain ⟨log, hlog⟩ := w.exists_collectPairs_eq
    rw [hlog]
  have hnote : alter (fun v => if v.state.epoch = w.state.epoch then v.noteSources w.collectPairs.2 else v)
      w.collectPairs.1 = (.ok (), w.collectPairs.1.noteSources w.collectPairs.2) := by
    rw [alter, if_pos hepoch]
  have hkeys : ask (·.state.components.keys) parsed = (.ok parsed.state.components.keys, parsed) := rfl
  rw [scanInOrder, bind_of_ok (show ask (·.state.epoch) w = (.ok w.state.epoch, w) from rfl),
    bind_of_ok hcollect, bind_of_ok hnote, bind_of_ok hparse, bind_of_ok hkeys]

/-- **A full scan from its phases**: pairs are collected, noted and parsed, ancestors loaded, and all
components merged. -/
theorem scanInOrder_of_ok {order : List Text → List Text} {w parsed loaded : World}
    (hparse : parsePairs w.state.epoch w.collectPairs.2 (w.collectPairs.1.noteSources w.collectPairs.2) =
      (.ok (), parsed))
    (hload : loadAll w.state.epoch (order parsed.state.components.keys) parsed = (.ok true, loaded))
    (hepoch : loaded.state.epoch = w.state.epoch) :
    scanInOrder order w = (.ok (), loaded.scanned) := by
  have hflatten : flattenAll w.state.epoch (order parsed.state.components.keys) parsed =
      (.ok true, loaded.mergeAll) := by
    rw [flattenAll, bind_of_ok hload, Bool.not_true, if_neg Bool.false_ne_true,
      bind_of_ok (rfl : ask (·.state.epoch) loaded = _), if_neg (not_not_intro hepoch)]
    rfl
  rw [scanInOrder_of_parsed hparse, bind_of_ok hflatten]
  rfl

theorem scan_eq (w : World) : scan w = scanInOrder w.nextOrder.2.arrange w.nextOrder.1 :=
  bind_of_ok (rfl : step (·.nextOrder) w = _) _

theorem scanAll_of_scan {w w' : World} (h : scan w = (.ok (), w')) :
    scanAll w = (.ok w'.state.sortedComponents, w') := by
  rw [scanAll_eq, bind_of_ok h]
  rfl

end Work

end TemplateAssist
