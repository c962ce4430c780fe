import TemplateAssist.Proofs.Coherence
import TemplateAssist.Proofs.Index
import TemplateAssist.Proofs.Session
import TemplateAssist.Proofs.Sources

/-!
# Keeping up with single files

* `Disk.declared` — the classes that the source files of a disk declare.
* `Component.UpToDate` — a component is what stands in its source file now.
* `State.Upkept` — every cached component is up to date, but for those of some files that have changed.
* `World.UpToDate` — a world in which everything is up to date.
* `World.readSince` — whether a file that declares a class has been read since some others had been.
* `World.Tends` — a world in which everything is up to date, and the cached classes are given ones and those
  of the files that have been read since.
* `World.Edited` — a world in which one source file has changed.

Principal results: `Tends.parse`, `Edited.parse_class` and `tends_tended`.  A parse of a source file and the
loading of a parent cache the class of each file they read and lose none, merging neither caches nor loses
one, and all of them leave everything up to date.
-/

namespace TemplateAssist

/-! ## Declared classes -/

namespace Disk

/-- The signatures that the file at a place declares. -/
def signaturesAt? (d : Disk) (place : List Text) : Option Signatures :=
  match d.node? place with
  | some (.file ⟨.text text, _⟩) => Source.signatures? text
  | _ => none

def classAt? (d : Disk) (place : List Text) : Option Text :=
  (d.signaturesAt? place).map (·.className)

/-- The classes that source files declare. -/
def declared (d : Disk) (o : Options) : List Text :=
  (d.nodes.keys.filter o.isSource).filterMap d.classAt?

theorem signaturesAt?_eq_some {d : Disk} {place : List Text} {signatures : Signatures}
    (h : d.signaturesAt? place = some signatures) : ∃ text time,
      d.node? place = some (.file ⟨.text text, time⟩) ∧ Source.signatures? text = some signatures := by
  unfold signaturesAt? at h
  split at h
  · rename_i text time hnode
    exact ⟨text, time, hnode, h⟩
  · cases h

theorem signaturesAt?_of_readText {d : Disk} {p : Path} {text : Text} (h : d.readText p = .ok text) :
    d.signaturesAt? p.names = Source.signatures? text := by
  obtain ⟨time, -, hnode⟩ := modified_of_readText h
  rw [signaturesAt?, hnode]

/-- A class is declared at a place that the disk lists. -/
theorem mem_keys_of_classAt? {d : Disk} {place : List Text} {n : Text} (h : d.classAt? place = some n) :
    place ∈ d.nodes.keys := by
  obtain ⟨signatures, hs, -⟩ := Option.map_eq_some_iff.mp h
  obtain ⟨text, time, hnode, -⟩ := signaturesAt?_eq_some hs
  have hne : place ≠ [] := by
    rintro rfl
    cases hnode
  rw [node?_of_ne_nil hne] at hnode
  exact Table.mem_keys_of_get? hnode

theorem mem_declared_iff {d : Disk} {o : Options} {n : Text} :
    n ∈ d.declared o ↔ ∃ place, o.isSource place = true ∧ d.classAt? place = some n := by
  rw [declared, List.mem_filterMap]
  constructor
  · rintro ⟨place, hplace, hn⟩
    exact ⟨place, (List.mem_filter.mp hplace).2, hn⟩
  · rintro ⟨place, hsource, hn⟩
    exact ⟨place, List.mem_filter.mpr ⟨mem_keys_of_classAt? hn, hsource⟩, hn⟩

/-- What a path is stamped with, where a file stands at its place. -/
theorem stamp_of_modified {d : Disk} {p : Path} {stamp : Stamp} (h : d.modified p = .ok stamp)
    {time : Int} (ht : d.timeAt? p.names = some time) : stamp = .given time := by
  unfold modified at h
  split at h
  · rename_i names f hl
    obtain ⟨rfl, hnode⟩ := locate_ok hl
    rw [timeAt?, hnode] at ht
    rw [← Except.ok.inj h, Option.some.inj ht]
  · rename_i names hl
    obtain ⟨rfl, hnode⟩ := locate_ok hl
    rw [timeAt?, hnode] at ht
    cases ht
  · cases h

theorem exists_node?_of_isFile {d : Disk} {p : Path} (h : d.isFile p = true) :
    ∃ f, d.node? p.names = some (.file f) := by
  unfold isFile at h
  split at h
  · rename_i names f hl
    obtain ⟨rfl, hnode⟩ := locate_ok hl
    exact ⟨f, hnode⟩
  · cases h

end Disk

/-! ## Up to date states -/

/-- A component is what stands in its source file now, and the time recorded for the file is that of the
file. -/
structure Component.UpToDate (c : Component) (d : Disk) (o : Options) (s : State) : Prop where
  leads : c.sourceFile.Leads c.sourceFile.names
  source : o.isSource c.sourceFile.names = true
  signatures : ∃ signatures, d.signaturesAt? c.sourceFile.names = some signatures ∧
    c.name = signatures.className ∧ c.extendsName = signatures.parent
  time : ∀ stamp, s.recorded.get? c.sourceFile.segments = some stamp →
    ∃ time, d.timeAt? c.sourceFile.names = some time ∧ stamp = .given time

theorem Component.UpToDate.class_eq {c : Component} {d : Disk} {o : Options} {s : State}
    (h : c.UpToDate d o s) : d.classAt? c.sourceFile.names = some c.name := by
  obtain ⟨signatures, hs, hname, -⟩ := h.signatures
  rw [Disk.classAt?, hs, Option.map_some, hname]

namespace State

/-- Every cached component is up to date, but for those of the files that are `dirty`. -/
structure Upkept (d : Disk) (o : Options) (dirty : List PathKey) (s : State) : Prop where
  indexed : s.Indexed
  known : ∀ stem p, s.knownSources.get? stem = some p → p.Leads p.names ∧ o.isSource p.names = true
  current : ∀ n c, s.components.get? n = some c → c.sourceFile.segments ∉ dirty → c.UpToDate d o s

variable {d : Disk} {o : Options} {s : State}

theorem Upkept.empty (epoch : Nat) : (State.empty epoch).Upkept d o [] where
  indexed := .empty epoch
  known := fun _ _ h => by cases h
  current := fun _ _ h => by cases h

theorem Upkept.weaken (h : s.Upkept d o []) (dirty : List PathKey) : s.Upkept d o dirty :=
  ⟨h.indexed, h.known, fun n c hc _ => h.current n c hc List.not_mem_nil⟩

theorem Upkept.of_sameBare (h : s.Upkept d o []) {cs : Components}
    (hsame : Components.SameBare s.components cs) (hk : cs.Keyed) :
    Upkept d o [] { s with components := cs } where
  indexed := h.indexed.of_sameBare hsame hk
  known := h.known
  current := by
    intro n c hc _
    obtain ⟨e, he, hb⟩ := hsame.symm.get?_some hc
    obtain ⟨hname, hsource, -, hextends, -⟩ := Component.bare_eq_iff.mp hb
    obtain ⟨hl, hs, hsig, htime⟩ := h.current n e he List.not_mem_nil
    rw [hsource] at hl hs hsig htime
    rw [hname, hextends] at hsig
    exact ⟨hl, hs, hsig, htime⟩

/-- The component of the changed file dropped, everything is up to date. -/
theorem Upkept.evictFile {source : Path} (h : s.Upkept d o [source.segments]) :
    (s.evictFile source).1.Upkept d o [] where
  indexed := (Thinned.refl.evictFile h.indexed source).indexed h.indexed
  known := by
    have ht := Thinned.refl.evictFile h.indexed source
    intro stem p hp
    rw [ht.knownSources] at hp
    exact h.known stem p hp
  current := by
    intro n c hc _
    obtain ⟨hc, hother⟩ := (h.indexed.evictFile_get? source).mp hc
    obtain ⟨hl, hs, hsig, htime⟩ := h.current n c hc (by simpa using hother)
    have ht := Thinned.refl.evictFile h.indexed source
    exact ⟨hl, hs, hsig, fun stamp hrec => htime stamp (ht.recorded hrec)⟩

/-- After an insertion, a time recorded for a file is that of the file, whoever recorded it.  The new
component may bring the time of a template that is itself the source of another component. -/
theorem Indexed.insert_time (h : s.Indexed) {c : Component} {stamp : Stamp}
    (hstamp : d.modified c.sourceFile = .ok stamp) {templateStamp : Option Stamp}
    (htemplate : ∀ t stamp', c.templateFile = some t → templateStamp = some stamp' →
      d.modified t = .ok stamp') {file : Path} {signatures : Signatures}
    (hfile : d.signaturesAt? file.names = some signatures)
    (hold : c.sourceFile.segments ≠ file.segments → ∀ stamp',
      s.recorded.get? file.segments = some stamp' →
        ∃ time, d.timeAt? file.names = some time ∧ stamp' = .given time) (stamp' : Stamp)
    (hrec : (s.insert c stamp templateStamp).recorded.get? file.segments = some stamp') :
    ∃ time, d.timeAt? file.names = some time ∧ stamp' = .given time := by
  obtain ⟨text, time, hnode, -⟩ := Disk.signaturesAt?_eq_some hfile
  have hat : d.timeAt? file.names = some time := by rw [Disk.timeAt?, hnode]
  rcases h.insert_recorded hrec with ⟨hkey, hts⟩ | ⟨hkey, rfl⟩ | ⟨hkey, hrec⟩
  · obtain ⟨t, ht, hseg⟩ := Option.map_eq_some_iff.mp hkey
    have hmodified := htemplate t stamp' ht hts
    exact ⟨time, hat, Disk.stamp_of_modified hmodified (Path.names_congr hseg ▸ hat)⟩
  · exact ⟨time, hat, Disk.stamp_of_modified hstamp (Path.names_congr hkey ▸ hat)⟩
  · exact hold hkey stamp' hrec

/-- The changed file parsed, everything is up to date. -/
theorem Upkept.insert {c : Component} (h : s.Upkept d o [c.sourceFile.segments])
    (hl : c.sourceFile.Leads c.sourceFile.names) (hs : o.isSource c.sourceFile.names = true)
    (hsig : ∃ signatures, d.signaturesAt? c.sourceFile.names = some signatures ∧
      c.name = signatures.className ∧ c.extendsName = signatures.parent)
    {stamp : Stamp} (hstamp : d.modified c.sourceFile = .ok stamp) {templateStamp : Option Stamp}
    (htemplate : ∀ t stamp', c.templateFile = some t → templateStamp = some stamp' →
      d.modified t = .ok stamp') :
    (s.insert c stamp templateStamp).Upkept d o [] := by
  refine ⟨h.indexed.insert _ _ _, fun stem p hp => ?_, fun n e he _ => ?_⟩
  · rcases h.indexed.insert_known hp with rfl | hp
    · exact ⟨hl, hs⟩
    · exact h.known stem p hp
  · rcases (h.indexed.insert_get? c stamp templateStamp).mp he with ⟨-, rfl⟩ | ⟨-, he, hother⟩
    · obtain ⟨signatures, hsigs, hsame⟩ := hsig
      have htime := h.indexed.insert_time hstamp htemplate hsigs fun hne => absurd rfl hne
      exact ⟨hl, hs, ⟨signatures, hsigs, hsame⟩, htime⟩
    · obtain ⟨hl', hs', ⟨signatures, hsigs, hsame⟩, hold⟩ :=
        h.current n e he (by simpa using hother)
      have htime := h.indexed.insert_time hstamp htemplate hsigs fun _ => hold
      exact ⟨hl', hs', ⟨signatures, hsigs, hsame⟩, htime⟩

/-- The class that a source stands for is the one that it declares. -/
theorem Upkept.classAt?_eq (h : s.Upkept d o []) {source : Path} {n : Text}
    (hn : s.nameFor? source = some n) : d.classAt? source.names = some n := by
  obtain ⟨c, hc, hsame⟩ := h.indexed.listed _ _ hn
  have hnames : c.sourceFile.names = source.names := Path.names_congr hsame
  rw [← hnames, (h.current n c hc List.not_mem_nil).class_eq, h.indexed.keyed.named n c hc]

end State

/-! ## Parses and loads -/

/-- A disk and options under which single files can be kept up with.  No file is named by a dot and the
extension of sources alone: it is hidden, but it is where a parent without a name is looked for. -/
structure Orderly (d : Disk) (o : Options) : Prop where
  plain : o.Plain
  sound : d.Sound
  nameless : ∀ place f, d.node? place = some (.file f) → place.getLast? ≠ some ('.' :: o.sourceExtension)

/-- A class and an extension make a name. -/
theorem isName_of_identifier {stem extension : Text} (hne : stem ≠ [])
    (hchars : ∀ c ∈ stem, Text.isIdentChar c = true) (hslash : '/' ∉ extension) :
    IsName (stem ++ '.' :: extension) := by
  have hfree : '/' ∉ stem ++ '.' :: extension := by
    intro hmem
    rcases List.mem_append.mp hmem with hmem | hmem
    · exact absurd (hchars _ hmem) (by decide)
    · exact hslash ((List.mem_cons.mp hmem).resolve_left (by decide))
  cases stem with
  | nil => exact absurd rfl hne
  | cons c rest =>
    have hc : c ≠ '.' := by
      rintro rfl
      exact absurd (hchars '.' List.mem_cons_self) (by decide)
    exact ⟨by simp, by simp [hc], by simp [hc], hfree⟩

/-- Beside a source there is no file for a parent without a name. -/
theorem Orderly.not_isFile_nameless {d : Disk} {o : Options} (hd : Orderly d o) {dir : Path}
    {front : List Text} (hdir : dir.Leads front) (hfront : d.node? front = some .directory)
    (hslash : '/' ∉ o.sourceExtension) (hdot : '.' ∉ o.sourceExtension) :
    d.isFile (dir.join ⟨'.' :: o.sourceExtension⟩) = false := by
  rw [← Bool.not_eq_true]
  intro hfile
  obtain ⟨f, hf⟩ := Disk.exists_node?_of_isFile hfile
  by_cases hnil : o.sourceExtension = []
  · -- the join leads to the directory itself
    rw [hnil, hdir.join_dot.names_eq, hfront] at hf
    cases hf
  · have hname : IsName ('.' :: o.sourceExtension) := by
      refine ⟨by simp, by simpa using hnil, fun he => ?_, ?_⟩
      · rw [List.cons.injEq] at he
        exact hdot (he.2 ▸ List.mem_singleton.mpr rfl)
      · intro hmem
        exact hslash ((List.mem_cons.mp hmem).resolve_left (by decide))
    rw [(hdir.join hname).1.names_eq] at hf
    exact hd.nameless _ _ hf List.getLast?_concat

namespace World

/-- Everything is up to date. -/
structure UpToDate (d : Disk) (o : Options) (epoch : Nat) (w : World) : Prop where
  disk : w.disk = d
  options : w.options = o
  hooks : w.hooks = []
  epoch : w.state.epoch = epoch
  upkept : w.state.Upkept d o []

/-- Whether a file that declares a class has been read since `made` files had been. -/
def readSince (w : World) (made : Nat) (n : Text) : Bool :=
  (w.parses.drop made).any fun pair => w.disk.classAt? pair.source.names = some n

theorem readSince_length (w : World) (n : Text) : w.readSince w.parses.length n = false := by
  rw [readSince, List.drop_length]
  rfl

theorem readSince_concat {w : World} {made : Nat} (hmade : made ≤ w.parses.length) (pair : FilePair)
    (log : List LogEntry) (s : State) (n : Text) :
    readSince { w with parses := w.parses ++ [pair], log := log, state := s } made n = true ↔
      w.readSince made n = true ∨ w.disk.classAt? pair.source.names = some n := by
  simp only [readSince, List.drop_append_of_le_length hmade, List.any_append, Bool.or_eq_true]
  simp

/-- Everything is up to date, and the cached classes are those of `S` and those that a file read since
declares. -/
structure Tends (d : Disk) (o : Options) (epoch made : Nat) (S : Text → Prop) (w : World) : Prop extends
    UpToDate d o epoch w where
  made_le : made ≤ w.parses.length
  cached : ∀ n, w.state.components.has n = true ↔ S n ∨ w.readSince made n = true

theorem UpToDate.tends {d : Disk} {o : Options} {epoch : Nat} {w : World} (h : UpToDate d o epoch w) :
    Tends d o epoch w.parses.length (fun n => w.state.components.has n = true) w :=
  ⟨h, Nat.le_refl _, fun n => by simp [readSince_length]⟩

/-- A file has been read, and with it the class that it declares is cached. -/
theorem Tends.read {d : Disk} {o : Options} {epoch made : Nat} {S : Text → Prop} {w : World}
    (h : Tends d o epoch made S w) {s : State} (hepoch : s.epoch = epoch) (hup : s.Upkept d o [])
    {pair : FilePair} (hhas : ∀ n, s.components.has n = true ↔
      w.state.components.has n = true ∨ d.classAt? pair.source.names = some n) (log : List LogEntry) :
    Tends d o epoch made S { w with parses := w.parses ++ [pair], log := log, state := s } := by
  refine ⟨⟨h.disk, h.options, h.hooks, hepoch, hup⟩, ?_, fun n => ?_⟩
  · exact Nat.le_trans h.made_le (List.length_append ▸ Nat.le_add_right _ _)
  · rw [readSince_concat h.made_le, h.disk, ← or_assoc, ← h.cached]
    exact hhas n

/-- The class that a file stands for is cached. -/
theorem UpToDate.has_of_ofFile? {d : Disk} {o : Options} {epoch : Nat} {w : World}
    (h : UpToDate d o epoch w) {source : Path} {c : Component} (hc : w.state.ofFile? source = some c)
    {n : Text} (hn : d.classAt? source.names = some n) : w.state.components.has n = true := by
  obtain ⟨m, hm, hget⟩ := Option.bind_eq_some_iff.mp hc
  rw [h.upkept.classAt?_eq hm, Option.some.injEq] at hn
  exact hn ▸ Table.has_eq_true_iff.mpr ⟨c, hget⟩

theorem modified_of_seenTemplate? {w : World} {template : Option Path} {t : Path} {stamp : Stamp}
    (h : w.seenTemplate? template = some (t, stamp)) : w.disk.modified t = .ok stamp := by
  unfold seenTemplate? observeTemplate at h
  split at h
  · cases h
  · split at h
    · rename_i hm
      obtain ⟨rfl, rfl⟩ := Prod.mk.inj (Option.some.inj h)
      exact hm
    · cases h

/-- The time that is recorded for the template of an extracted component is that of the template. -/
theorem modified_of_extract {w : World} {signatures : Signatures} {source : Path}
    {template : Option Path} {t : Path} {stamp : Stamp}
    (ht : (w.extract signatures source template).templateFile = some t)
    (hstamp : (w.seenTemplate? template).map (·.2) = some stamp) : w.disk.modified t = .ok stamp := by
  have ht : (w.seenTemplate? template).map (·.1) = some t := ht
  cases hseen : w.seenTemplate? template with
  | none =>
    rw [hseen] at ht
    cases ht
  | some seen =>
    rw [hseen, Option.map_some, Option.some.injEq] at ht hstamp
    exact modified_of_seenTemplate? (hseen.trans (congrArg some (Prod.ext ht hstamp)))

/-- A source that is read and extracted is up to date once it is cached. -/
theorem Read.upkept {w : World} {source : Path} {template : Option Path} {stamp : Stamp} {text : Text}
    (hr : w.Read source template stamp text) {signatures : Signatures}
    (hs : Source.signatures? text = some signatures)
    (h : w.state.Upkept w.disk w.options [source.segments]) (hl : source.Leads source.names)
    (hsource : w.options.isSource source.names = true) :
    (w.state.insert (w.extract signatures source template) stamp
      ((w.seenTemplate? template).map (·.2))).Upkept w.disk w.options [] := by
  refine State.Upkept.insert (c := w.extract signatures source template) h hl hsource ?_ hr.modified ?_
  · exact ⟨signatures, (Disk.signaturesAt?_of_readText hr.readText).trans hs, rfl, rfl⟩
  · exact fun t stamp' => modified_of_extract

/-- **A parse of a source file keeps everything up to date, and caches the class of the file if it reads
it.** -/
theorem Tends.parse {d : Disk} {o : Options} {epoch made : Nat} {S : Text → Prop} {w w' : World}
    (h : Tends d o epoch made S w) {source : Path} (hl : source.Leads source.names)
    (hsource : o.isSource source.names = true) {template : Option Path} {r : Option Component}
    (hp : Parsed w source template epoch w' r) : Tends d o epoch made S w' := by
  have hbegun := begun_of_no_hooks h.hooks source template
  have hup := h.upkept
  have hclass : ∀ {stamp text}, w.Read source template stamp text →
      d.classAt? source.names = (Source.signatures? text).map (·.className) := by
    intro stamp text hr
    rw [Disk.classAt?, ← h.disk, Disk.signaturesAt?_of_readText hr.readText]
  cases hp with
  | missing _ _ | fresh _ _ _ | unread _ _ _ _ =>
    exact ⟨⟨h.disk, h.options, h.hooks, h.epoch, hup⟩, h.made_le, h.cached⟩
  | classless _ hr hs =>
    rw [hbegun]
    refine h.read h.epoch hup (fun n => ?_) _
    simp [hclass hr, hs]
  | superseded _ _ _ he =>
    rw [hbegun] at he
    exact absurd h.epoch he
  | older _ _ _ _ hn =>
    rw [hbegun]
    obtain ⟨_, -, -, hfile⟩ := stampOf?_of_newer? hn
    exact h.read h.epoch hup (fun n => (or_iff_left_of_imp (h.has_of_ofFile? hfile)).symm) _
  | @cached _ _ _ signatures hr hs _ _ =>
    rw [hbegun]
    refine h.read ((State.insert_epoch ..).trans h.epoch) ?_ (fun n => ?_) _
    · have hupkept := hr.upkept hs (h.disk ▸ h.options ▸ hup.weaken _) hl (h.options ▸ hsource)
      rwa [h.disk, h.options] at hupkept
    · -- the class that the file stood for is the one that it declares
      have hself : w.state.nameFor? source = some n → d.classAt? source.names = some n := hup.classAt?_eq
      rw [hclass hr, hs, Option.map_some, Option.some.injEq] at *
      rw [hup.indexed.insert_has_iff]
      show n = signatures.className ∨ _ ∧ w.state.nameFor? source ≠ some n ↔ _
      grind

/-- **A parse of a source file that declares a class caches it.** -/
theorem UpToDate.parse_class {d : Disk} {o : Options} {epoch : Nat} {w w' : World}
    (h : UpToDate d o epoch w) {source : Path} (hl : source.Leads source.names)
    (hsource : o.isSource source.names = true) {text : Text} (htext : d.readText source = .ok text)
    {template : Option Path} {r : Option Component} (hp : Parsed w source template epoch w' r) {n : Text}
    (hn : d.classAt? source.names = some n) : w'.state.components.has n = true := by
  have htends := h.tends.parse hl hsource hp
  have hbegun := begun_of_no_hooks h.hooks source template
  cases hp with
  | missing _ hm =>
    obtain ⟨time, hmodified, -⟩ := Disk.modified_of_readText htext
    rw [h.disk, hmodified] at hm
    cases hm
  | unread _ _ _ hr =>
    rw [h.disk, htext] at hr
    cases hr
  | fresh _ _ hf => exact h.has_of_ofFile? (stampOf?_of_fresh? hf).1 hn
  | classless _ _ _ | superseded _ _ _ _ | older _ _ _ _ _ | cached _ _ _ _ _ =>
    refine (htends.cached n).mpr (Or.inr ?_)
    rw [hbegun]
    exact (readSince_concat (Nat.le_refl _) ..).mpr (Or.inr (h.disk ▸ hn))

/-- Everything is up to date but the component of a source file, which has changed since its time was
recorded. -/
structure Edited (w : World) (source : Path) : Prop where
  hooks : w.hooks = []
  leads : source.Leads source.names
  isSource : w.options.isSource source.names = true
  upkept : w.state.Upkept w.disk w.options [source.segments]
  stale : ∀ c stamp, w.state.ofFile? source = some c → w.state.stampOf? source = some stamp →
    ∃ old, stamp = .given old ∧ ∀ time, w.disk.timeAt? source.names = some time → old < time

theorem Edited.of_segments_eq {w : World} {p q : Path} (h : w.Edited p) (hq : q.segments = p.segments) :
    w.Edited q := by
  have hnames : q.names = p.names := Path.names_congr hq
  refine ⟨h.hooks, ?_, ?_, ?_, ?_⟩
  · rw [hnames]
    exact h.leads.of_segments_eq hq
  · rw [hnames]
    exact h.isSource
  · rw [hq]
    exact h.upkept
  · rw [hnames, State.ofFile?, State.nameFor?, State.stampOf?, hq]
    exact h.stale

theorem Edited.ne_of_modified {w : World} {source : Path} (h : w.Edited source) {text : Text}
    (htext : w.disk.readText source = .ok text) {c : Component} {stamp stamp' : Stamp}
    (hc : w.state.ofFile? source = some c) (hrec : w.state.stampOf? source = some stamp)
    (hm : w.disk.modified source = .ok stamp') :
    stamp ≠ stamp' ∧ stamp'.isBefore stamp = false := by
  obtain ⟨time, -, hnode⟩ := Disk.modified_of_readText htext
  have hat : w.disk.timeAt? source.names = some time := by rw [Disk.timeAt?, hnode]
  obtain ⟨old, rfl, hlt⟩ := h.stale c stamp hc hrec
  have hlt := hlt time hat
  rw [Disk.stamp_of_modified hm hat]
  constructor
  · intro he
    have := Stamp.given.inj he
    omega
  · simp only [Stamp.isBefore, decide_eq_false_iff_not]
    omega

/-- A changed source file is never answered from the cache. -/
theorem Edited.parsed {w w' : World} {source : Path} (h : w.Edited source) {text : Text}
    (htext : w.disk.readText source = .ok text) {template : Option Path} {r : Option Component}
    (hp : Parsed w source template w.state.epoch w' r) :
    Source.signatures? text = none ∧ r = none ∧
        (∃ pair log, pair.source = source ∧ w' = { w with parses := w.parses ++ [pair], log := log }) ∨
      ∃ signatures stamp log, w.Read source template stamp text ∧
        Source.signatures? text = some signatures ∧ r = some (w.extract signatures source template) ∧
        w' = { w.begun source template with
          log := log
          state := w.state.insert (w.extract signatures source template) stamp
            ((w.seenTemplate? template).map (·.2)) } := by
  have hbegun := begun_of_no_hooks h.hooks source template
  cases hp with
  | missing _ hm =>
    obtain ⟨time, hmodified, -⟩ := Disk.modified_of_readText htext
    rw [hm] at hmodified
    cases hmodified
  | unread _ _ _ hr =>
    rw [hr] at htext
    cases htext
  | fresh _ hm hf =>
    obtain ⟨hfile, hstamp⟩ := stampOf?_of_fresh? hf
    exact absurd rfl (h.ne_of_modified htext hfile hstamp hm).1
  | classless log hr hs =>
    rw [Except.ok.inj (hr.readText.symm.trans htext)] at hs
    exact Or.inl ⟨hs, rfl, _, log, rfl, by rw [hbegun]⟩
  | superseded _ _ _ he =>
    rw [hbegun] at he
    exact absurd rfl he
  | older _ hr _ _ hn =>
    obtain ⟨recorded, hstamp, hbefore, hfile⟩ := stampOf?_of_newer? hn
    rw [(h.ne_of_modified htext hfile hstamp hr.modified).2] at hbefore
    cases hbefore
  | @cached log stamp text' signatures hr hs _ _ =>
    obtain rfl := Except.ok.inj (hr.readText.symm.trans htext)
    refine Or.inr ⟨signatures, stamp, log, hr, hs, rfl, ?_⟩
    rw [hbegun]

/-- **A changed source file that declares a class, parsed.**  No class is lost but the one that the file
stood for. -/
theorem Edited.parse_class {w w' : World} {source : Path} (h : w.Edited source) {text : Text}
    (htext : w.disk.readText source = .ok text) {template : Option Path} {c : Component}
    (hp : Parsed w source template w.state.epoch w' (some c)) :
    Tends w.disk w.options w.state.epoch w.parses.length
        (fun n => w.state.components.has n = true ∧ w.state.nameFor? source ≠ some n) w' ∧
      ∀ n, w.disk.classAt? source.names = some n → w'.state.components.has n = true := by
  rcases h.parsed htext hp with ⟨-, hnone, -⟩ | ⟨signatures, stamp, log, hr, hs, -, rfl⟩
  · cases hnone
  have hclass : w.disk.classAt? source.names = some signatures.className := by
    rw [Disk.classAt?, Disk.signaturesAt?_of_readText htext, hs, Option.map_some]
  have hhas : ∀ n, _ ↔ n = signatures.className ∨ _ := fun n =>
    h.upkept.indexed.insert_has_iff (w.extract signatures source template) stamp
      ((w.seenTemplate? template).map (·.2))
  rw [begun_of_no_hooks h.hooks]
  have hup := hr.upkept hs h.upkept h.leads h.isSource
  refine ⟨⟨⟨rfl, rfl, h.hooks, State.insert_epoch .., hup⟩, ?_, fun n => ?_⟩, fun n hn => ?_⟩
  · exact List.length_append ▸ Nat.le_add_right _ _
  · refine (hhas n).trans (or_comm.trans (or_congr_right ?_))
    refine Iff.trans ?_ (readSince_concat (Nat.le_refl _) ..).symm
    simp [readSince_length, hclass, eq_comm]
  · exact (hhas n).mpr (Or.inl (Option.some.inj (hn.symm.trans hclass)))

/-! ## Loading parents -/

/-- Where a parent is looked for there is a source file or none. -/
theorem UpToDate.parentSource {d : Disk} {o : Options} (hd : Orderly d o) {epoch : Nat}
    {w : World} (h : UpToDate d o epoch w) {current parent : Text} {child : Component}
    (hchild : w.state.lookup? current = some child) (hparent : child.parentName? = some parent)
    (hfile : d.isFile (w.parentSource child parent) = true) :
    (w.parentSource child parent).Leads (w.parentSource child parent).names ∧
      o.isSource (w.parentSource child parent).names = true := by
  unfold World.parentSource at hfile ⊢
  cases hknown : w.state.knownSources.get? parent with
  | some p => exact h.upkept.known parent p hknown
  | none =>
    rw [hknown, Option.getD_none, h.options] at hfile
    rw [Option.getD_none, h.options]
    have hup := h.upkept.current current child hchild List.not_mem_nil
    obtain ⟨signatures, hsigs, -, hextends⟩ := hup.signatures
    obtain ⟨text, time, hnode, hs⟩ := Disk.signaturesAt?_eq_some hsigs
    obtain ⟨extendsName, he, rfl⟩ := Option.map_eq_some_iff.mp hparent
    have hchars := Source.signatures?_shortName hs (hextends.symm.trans he)
    generalize Source.shortName extendsName = stem at hchars hfile ⊢
    have hsource := hup.source
    obtain ⟨front, last, hplace, hsplit, -⟩ := Options.isSource_last hsource
    have hl := hup.leads
    rw [hplace] at hl hnode hsource
    have hlast := hl.isName (List.mem_append_right front List.mem_cons_self)
    have hdot := (Path.splitName_some hsplit).2.2
    have hslash : '/' ∉ o.sourceExtension := fun hmem =>
      hlast.2.2.2 (List.mem_append_right _ (List.mem_cons_of_mem _ hmem))
    obtain ⟨dir, hdir, hbeside⟩ := hl.withFileName (stem ++ '.' :: o.sourceExtension)
    rw [hbeside] at hfile ⊢
    cases stem with
    | nil =>
      have hnone := hd.not_isFile_nameless hdir (hd.sound.rooted _ _ _ hnode) hslash hdot
      exact absurd hfile (by simpa using hnone)
    | cons c rest =>
      have hc : c ≠ '.' := by
        rintro rfl
        exact absurd (hchars '.' List.mem_cons_self) (by decide)
      have hjoin := (hdir.join (isName_of_identifier (List.cons_ne_nil c rest) hchars hslash)).1
      rw [hjoin.names_eq]
      refine ⟨hjoin, ?_⟩
      have := Options.isSource_beside hsource (List.cons_ne_nil c rest) (by simpa using hc)
      rwa [List.dropLast_concat] at this

/-- **Loading parents and merging keep everything up to date.** -/
theorem tends_tended {d : Disk} {o : Options} (hd : Orderly d o) (epoch made : Nat) (S : Text → Prop) :
    Work.Tended (Tends d o epoch made S) False epoch where
  load := by
    intro w current child parent h hchild hparent
    unfold Work.loadParent
    refine .bind_ask ?_
    split
    · rename_i hfile
      obtain ⟨hl, hs⟩ := h.parentSource hd hchild hparent (h.disk ▸ hfile)
      refine Work.Keeps.bind (.asked fun v e' hv he => ?_) (fun template => ?_) w h
      · have := pairedTemplate?_eq_error_iff.mp ⟨e', he⟩
        rw [hv.options, hd.plain.template] at this
        cases this
      · refine .bind (.step fun v hv => ?_) fun _ => .pure _
        exact hv.parse hl hs (v.parseInEpoch_parsed _ template epoch)
    · exact Work.Keeps.pure _ w h
  merge := by
    intro w level names h
    have hsame := Components.resolveEach_sameBare names h.upkept.indexed.keyed.named
    have hup := h.upkept.of_sameBare hsame (h.upkept.indexed.keyed.resolveEach names)
    refine ⟨⟨h.disk, h.options, h.hooks, h.epoch, hup⟩, h.made_le, fun n => ?_⟩
    show Table.has (Components.resolveEach w.state.components names).1 n = true ↔ _
    rw [← hsame.has_eq n]
    exact h.cached n
  aside := fun _ _ _ _ h => ⟨⟨h.disk, h.options, h.hooks, h.epoch,
    ⟨⟨h.upkept.indexed.1, h.upkept.indexed.2, h.upkept.indexed.3⟩, h.upkept.known,
      fun n c hc hd => ⟨(h.upkept.current n c hc hd).1, (h.upkept.current n c hc hd).2,
        (h.upkept.current n c hc hd).3, (h.upkept.current n c hc hd).4⟩⟩⟩, h.made_le, h.cached⟩

end World

end TemplateAssist
