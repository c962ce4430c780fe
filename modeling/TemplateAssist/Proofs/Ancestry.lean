import TemplateAssist.Proofs.LoadRuns
import TemplateAssist.Proofs.Session
import TemplateAssist.Proofs.Spellings
import TemplateAssist.Proofs.Survey

/-!
# The ancestors of a class

When the registry agrees with the disk, loading the ancestors of a class brings in all that can be found.

* `Disk.Declares` — a file that can be read declares a class.
* `World.Agrees` — a cached component is what the disk has: its class, the template beside its source and the
  times of both files.
* `World.Faithful` — every cached component agrees with a disk on which no class is declared twice.
* `World.ChainEnds` — how the chain of parents of a class ends.

Principal result: `loadAncestors_complete`.  Loading is a run that visits no name twice; from a faithful
registry it alters nothing that is cached, and leaves a chain that cannot be loaded further.
-/

namespace TemplateAssist

namespace Disk

/-- The path leads to a file that can be read and declares a class. -/
def Declares (d : Disk) (p : Path) (n : Text) : Prop :=
  ∃ text signatures, d.readText p = .ok text ∧ Source.signatures? text = some signatures ∧
    signatures.className = n

variable {d : Disk} {p q : Path} {n : Text}

theorem isFile_of_readText {text : Text} (h : d.readText p = .ok text) : d.isFile p = true := by
  unfold readText at h
  split at h
  · rename_i hlocate
    rw [isFile, hlocate]
  · cases h
  · cases h
  · cases h

theorem isAbsolute_of_isFile (h : d.isFile p = true) : p.isAbsolute = true := by
  obtain ⟨f, hlocate⟩ := exists_locate_of_isFile h
  unfold locate at hlocate
  split at hlocate
  · assumption
  · cases hlocate

theorem Declares.isFile (h : d.Declares p n) : d.isFile p = true := by
  obtain ⟨text, -, htext, -⟩ := h
  exact isFile_of_readText htext

theorem Declares.classAt?_eq (h : d.Declares p n) : d.classAt? p.names = some n := by
  obtain ⟨text, signatures, htext, hs, rfl⟩ := h
  rw [classAt?, signaturesAt?_of_readText htext, hs, Option.map_some]

/-- Paths of the same segments are stamped alike. -/
theorem stamp_congr (h : p.segments = q.segments) {stamp stamp' : Stamp} (hp : d.modified p = .ok stamp)
    (hq : d.modified q = .ok stamp') : stamp = stamp' := by
  have hstamp := stampAt?_of_modified hp
  rw [h, stampAt?_of_modified hq] at hstamp
  exact (Option.some.inj hstamp).symm

end Disk

/-- The times of a component's files, as the disk has them, overwrite no time of the disk. -/
theorem State.recordTimes_of_stampAt? {d : Disk} {c : Component} {stamp : Stamp}
    (hstamp : d.modified c.sourceFile = .ok stamp) {templateStamp : Option Stamp}
    (htemplate : ∀ t stamp', c.templateFile = some t → templateStamp = some stamp' →
      d.modified t = .ok stamp')
    (hsome : c.templateFile.isSome = templateStamp.isSome) {recorded : Table PathKey Stamp} {k : PathKey}
    {stamp' : Stamp} (hd : d.stampAt? k = some stamp')
    (hk : k ∈ c.files ∨ recorded.get? k = some stamp') :
    (recordTimes recorded c stamp templateStamp).get? k = some stamp' := by
  rw [recordTimes_get?]
  split
  · rename_i h
    obtain ⟨t, ht, rfl⟩ := Option.map_eq_some_iff.mp h.1
    obtain ⟨seen, hseen⟩ := Option.isSome_iff_exists.mp h.2
    rw [Disk.stampAt?_of_modified (htemplate t seen ht hseen)] at hd
    rw [hseen, hd]
  · rename_i hnot
    split
    · rename_i hsource
      rw [← hsource, Disk.stampAt?_of_modified hstamp] at hd
      exact hd
    · rename_i hsource
      refine hk.resolve_left fun hmem => ?_
      obtain ⟨t, ht, hsame⟩ := (Component.mem_files_iff.mp hmem).resolve_left hsource
      refine hnot ⟨by rw [ht, Option.map_some, hsame], ?_⟩
      rw [← hsome, ht, Option.isSome_some]

namespace World

/-! ## Agreement with the disk -/

/-- The file behind a path has the time that is recorded for it. -/
def Timed (w : World) (p : Path) : Prop :=
  ∃ stamp, w.disk.modified p = .ok stamp ∧ w.state.stampOf? p = some stamp

/-- A component agrees with the disk: its source declares its class, its template is the file beside the
source if there is one, and the times of both are recorded. -/
structure Agrees (w : World) (c : Component) : Prop where
  declares : w.disk.Declares c.sourceFile c.name
  paired : ∀ template, w.pairedTemplate? c.sourceFile = .ok template →
    c.templateFile.map Path.segments = template.map Path.segments
  timed : w.Timed c.sourceFile
  templateTimed : ∀ t, c.templateFile = some t → w.Timed t

/-- The registry agrees with a disk that no hook will change.  Templates can be named, no class is declared
at two places, and no cached source is spelled with `..`. -/
structure Faithful (w : World) : Prop where
  hooks : w.hooks = []
  sound : w.disk.Sound
  template : w.options.templateExtension.contains '/' = false
  unique : ∀ place place' n, w.disk.classAt? place = some n → w.disk.classAt? place' = some n →
    place = place'
  indexed : w.state.Indexed
  agrees : ∀ n c, w.state.lookup? n = some c → w.Agrees c
  direct : ∀ n c, w.state.lookup? n = some c → .up ∉ c.sourceFile.segments

/-- How the chain of parents of a cached class ends: at a class without a parent, at a name it has passed,
or at a class whose parent is not cached and not declared where it is looked for. -/
inductive ChainEnds (w : World) (n : Text) : Prop
  | root {top : Text} {c : Component} (hr : Components.Reaches w.state.components n top)
      (hc : w.state.lookup? top = some c) (hp : c.parentName? = none)
  | revisits (h : Components.Revisits w.state.components n)
  | stops {last parent : Text} {c : Component} (hr : Components.Reaches w.state.components n last)
      (hc : w.state.lookup? last = some c) (hp : c.parentName? = some parent)
      (hmissing : w.state.components.has parent = false)
      (hnot : ¬ w.disk.Declares (w.parentSource c parent) parent)

theorem ChainEnds.of_extends {w : World} {n m : Text} (h : w.ChainEnds m)
    (hext : Components.Extends w.state.components n m) : w.ChainEnds n := by
  cases h with
  | root hr hc hp => exact .root (.head hext hr) hc hp
  | revisits h => exact .revisits (hext.revisits_iff.mpr h)
  | stops hr hc hp hmissing hnot => exact .stops (.head hext hr) hc hp hmissing hnot

variable {w : World} {source : Path} {template : Option Path}

theorem isFile_of_pairedTemplate? {t : Path} (h : w.pairedTemplate? source = .ok (some t)) :
    w.disk.isFile t = true :=
  Disk.isFile_of_pair (pairedTemplate?_eq_ok_iff.mp h) rfl

theorem Timed.congr {p q : Path} (h : w.Timed p) (hsame : q.segments = p.segments) {stamp : Stamp}
    (hq : w.disk.modified q = .ok stamp) : w.state.stampOf? q = some stamp := by
  obtain ⟨stamp', hp, hrec⟩ := h
  rw [Disk.stamp_congr hsame hq hp, ← hrec, State.stampOf?, State.stampOf?, hsame]

namespace Faithful

/-- **A source that stands for a class is fresh.** -/
theorem fresh (h : w.Faithful) {n : Text} (hn : w.state.nameFor? source = some n) {stamp : Stamp}
    (hfile : w.disk.isFile source = true) (hm : w.disk.modified source = .ok stamp)
    (ht : w.pairedTemplate? source = .ok template) :
    ∃ c, w.state.fresh? source stamp (w.seenTemplate? template) = some c := by
  obtain ⟨c, hc, hsource⟩ := h.indexed.listed _ _ hn
  have hagrees := h.agrees n c hc
  have hof : w.state.ofFile? source = some c := by
    rw [State.ofFile?, hn]
    exact hc
  obtain ⟨own, hown⟩ := exists_pairedTemplate? h.template c.sourceFile
  have hbeside : c.templateFile.map Path.segments = template.map Path.segments :=
    (hagrees.paired own hown).trans (h.sound.pair_congr hagrees.declares.isFile hfile hsource h.template
      (pairedTemplate?_eq_ok_iff.mp hown) (pairedTemplate?_eq_ok_iff.mp ht))
  have hseen : (w.seenTemplate? template).map (·.1) = template :=
    map_seenTemplate? fun t he => isFile_of_pairedTemplate? (he ▸ ht)
  have hpath : (w.seenTemplate? template).map (·.1.segments) = c.templateFile.map Path.segments := by
    rw [hbeside]
    conv_rhs => rw [← hseen, Option.map_map]
    rfl
  refine ⟨c, fresh?_eq_some_iff.mpr ⟨hof, hagrees.timed.congr hsource.symm hm, hpath, fun seen hs => ?_⟩⟩
  rw [Option.mem_def.mp hs, Option.map_some] at hpath
  obtain ⟨t, htemplate, hsame⟩ := Option.map_eq_some_iff.mp hpath.symm
  exact (hagrees.templateTimed t htemplate).congr hsame.symm (modified_of_seenTemplate? hs)

/-- **What is extracted is new**: neither its source nor its class is cached. -/
theorem new_of_read (h : w.Faithful) (hup : .up ∉ source.segments)
    (ht : w.pairedTemplate? source = .ok template) {stamp : Stamp} {text : Text}
    (hr : w.Read source template stamp text) {signatures : Signatures}
    (hs : Source.signatures? text = some signatures) :
    w.state.nameFor? source = none ∧ w.state.lookup? signatures.className = none := by
  have hdeclares : w.disk.Declares source signatures.className := ⟨text, signatures, hr.readText, hs, rfl⟩
  have hfile := hdeclares.isFile
  have hnew : w.state.nameFor? source = none := by
    cases hn : w.state.nameFor? source with
    | none => rfl
    | some n =>
      obtain ⟨c, hfresh⟩ := h.fresh hn hfile hr.modified ht
      rw [hr.stale] at hfresh
      cases hfresh
  refine ⟨hnew, ?_⟩
  cases hc : w.state.lookup? signatures.className with
  | none => rfl
  | some c =>
    -- the class is declared at one place, and two direct paths to it have the same segments
    have hagrees := (h.agrees _ c hc).declares
    have hname : c.name = signatures.className := h.indexed.keyed.named _ c hc
    have hplace : c.sourceFile.names = source.names :=
      h.unique _ _ _ (hname ▸ hagrees.classAt?_eq) hdeclares.classAt?_eq
    have hleads := Path.leads_names (Disk.isAbsolute_of_isFile hagrees.isFile) (h.direct _ c hc)
    have hleads' := Path.leads_names (Disk.isAbsolute_of_isFile hfile) hup
    have hsame : c.sourceFile.segments = source.segments := by
      rw [hleads, hleads', hplace]
    have hreg := h.indexed.registered _ c hc
    rw [hsame] at hreg
    rw [State.nameFor?, hreg] at hnew
    cases hnew

/-- A new component that the disk declares leaves the registry faithful. -/
theorem insert (h : w.Faithful) {c : Component} (hfile : w.state.nameFor? c.sourceFile = none)
    (hclass : w.state.lookup? c.name = none) (hup : .up ∉ c.sourceFile.segments)
    (hdeclares : w.disk.Declares c.sourceFile c.name)
    (hpaired : w.pairedTemplate? c.sourceFile = .ok c.templateFile) {stamp : Stamp}
    (hstamp : w.disk.modified c.sourceFile = .ok stamp) {templateStamp : Option Stamp}
    (htemplate : ∀ t stamp', c.templateFile = some t → templateStamp = some stamp' →
      w.disk.modified t = .ok stamp')
    (hsome : c.templateFile.isSome = templateStamp.isSome) (parses : List FilePair) (log : List LogEntry) :
    Faithful { w with
      parses := parses
      log := log
      state := w.state.insert c stamp templateStamp } := by
  have hinsert := State.insert_of_new hfile hclass stamp templateStamp
  have hget : ∀ {n : Text} {e : Component}, (w.state.insert c stamp templateStamp).lookup? n = some e →
      e = c ∨ w.state.lookup? n = some e := by
    intro n e he
    rcases (h.indexed.insert_get? c stamp templateStamp).mp he with ⟨-, rfl⟩ | ⟨-, he, -⟩
    · exact Or.inl rfl
    · exact Or.inr he
  have htimes : ∀ {p : Path} {stamp' : Stamp}, w.disk.modified p = .ok stamp' →
      p.segments ∈ c.files ∨ w.state.stampOf? p = some stamp' →
      (w.state.insert c stamp templateStamp).stampOf? p = some stamp' := by
    intro p stamp' hp hrec
    rw [hinsert]
    exact State.recordTimes_of_stampAt? hstamp htemplate hsome (Disk.stampAt?_of_modified hp) hrec
  have hmono : ∀ {p : Path}, w.Timed p → ∃ stamp', w.disk.modified p = .ok stamp' ∧
      (w.state.insert c stamp templateStamp).stampOf? p = some stamp' := by
    rintro p ⟨stamp', hp, hrec⟩
    exact ⟨stamp', hp, htimes hp (Or.inr hrec)⟩
  refine ⟨h.hooks, h.sound, h.template, h.unique, h.indexed.insert c stamp templateStamp,
    fun n e he => ?_, fun n e he => ?_⟩
  · rcases hget he with rfl | he
    · refine ⟨hdeclares, fun template ht => ?_, ⟨stamp, hstamp, ?_⟩, fun t ht => ?_⟩
      · rw [Except.ok.inj (hpaired.symm.trans ht)]
      · exact htimes hstamp (Or.inl e.source_mem_files)
      · obtain ⟨stamp', hm⟩ := Disk.modified_of_isFile (isFile_of_pairedTemplate? (ht ▸ hpaired))
        exact ⟨stamp', hm, htimes hm (Or.inl (Component.mem_files_iff.mpr (Or.inr ⟨t, ht, rfl⟩)))⟩
    · have hagrees := h.agrees n e he
      exact ⟨hagrees.declares, hagrees.paired, hmono hagrees.timed, fun t ht =>
        hmono (hagrees.templateTimed t ht)⟩
  · rcases hget he with rfl | he
    · exact hup
    · exact h.direct n e he

theorem unmoved (h : w.Faithful) (parses : List FilePair) (log : List LogEntry) :
    Faithful { w with parses := parses, log := log } :=
  ⟨h.hooks, h.sound, h.template, h.unique, h.indexed,
    fun n c hc => ⟨(h.agrees n c hc).declares, (h.agrees n c hc).paired, (h.agrees n c hc).timed,
      (h.agrees n c hc).templateTimed⟩, h.direct⟩

/-- An empty registry over a disk on which no class is declared twice is faithful. -/
theorem start {d : Disk} {o : Options} (hd : d.Sound) (ht : o.templateExtension.contains '/' = false)
    (hunique : ∀ place ∈ d.nodes.keys, ∀ place' ∈ d.nodes.keys, ∀ n ∈ d.classAt? place,
      n ∈ d.classAt? place' → place = place') : (World.start d o [] []).Faithful where
  hooks := rfl
  sound := hd
  template := ht
  unique := fun place place' n hn hn' =>
    hunique place (Disk.mem_keys_of_classAt? hn) place' (Disk.mem_keys_of_classAt? hn') n hn hn'
  indexed := .empty 0
  agrees := fun _ _ hc => by cases hc
  direct := fun _ _ hc => by cases hc

/-- A class that a fresh source declares is cached. -/
theorem has_of_ofFile? (h : w.Faithful) {c : Component} (hc : w.state.ofFile? source = some c) {n : Text}
    (hn : w.disk.Declares source n) : w.state.components.has n = true := by
  obtain ⟨m, -, hget, hsource⟩ := h.indexed.exists_of_ofFile? hc
  have hclass := (h.agrees m c hget).declares.classAt?_eq
  rw [Path.names_congr hsource, hn.classAt?_eq, Option.some.injEq] at hclass
  rw [hclass, h.indexed.keyed.named m c hget]
  exact Table.has_eq_true_iff.mpr ⟨c, hget⟩

/-- **What a parse does to a faithful registry**: nothing, if the class that the source declares is cached or
there is none, and otherwise that class comes in. -/
theorem parsed (h : w.Faithful) (hup : .up ∉ source.segments)
    (ht : w.pairedTemplate? source = .ok template) {w' : World} {r : Option Component}
    (hp : Parsed w source template w.state.epoch w' r) :
    ((∃ parses log, w' = { w with parses := parses, log := log }) ∧
        ∀ n, w.disk.Declares source n → w.state.components.has n = true) ∨
      ∃ stamp text signatures parses log, w.Read source template stamp text ∧
        Source.signatures? text = some signatures ∧
        w' = { w with
          parses := parses
          log := log
          state := w.state.insert (w.extract signatures source template) stamp
            ((w.seenTemplate? template).map (·.2)) } := by
  have hbegun := begun_of_no_hooks h.hooks source template
  cases hp with
  | missing log hmissing =>
    refine Or.inl ⟨⟨w.parses, log, rfl⟩, fun n hn => ?_⟩
    obtain ⟨stamp, hm⟩ := Disk.modified_of_isFile hn.isFile
    rw [hmissing] at hm
    cases hm
  | fresh log hm hf =>
    exact Or.inl ⟨⟨w.parses, log, rfl⟩, fun n hn => h.has_of_ofFile? (stampOf?_of_fresh? hf).1 hn⟩
  | unread log _ _ hr =>
    refine Or.inl ⟨⟨w.parses, log, rfl⟩, fun n hn => ?_⟩
    obtain ⟨text, -, htext, -⟩ := hn
    rw [hr] at htext
    cases htext
  | classless log hr hs =>
    refine Or.inl ⟨⟨_, log, by rw [hbegun]⟩, fun n hn => ?_⟩
    obtain ⟨text, signatures, htext, hsig, -⟩ := hn
    rw [Except.ok.inj (hr.readText.symm.trans htext), hsig] at hs
    cases hs
  | superseded _ _ _ he =>
    rw [hbegun] at he
    exact absurd rfl he
  | older _ hr hs _ hn =>
    -- a source that is read stands for no class, so nothing later is recorded for it
    obtain ⟨_, -, -, hof⟩ := stampOf?_of_newer? hn
    rw [State.ofFile?, (h.new_of_read hup ht hr hs).1] at hof
    cases hof
  | cached log hr hs _ _ => exact Or.inr ⟨_, _, _, _, log, hr, hs, by rw [hbegun]⟩

/-- **A source parsed with the template beside it.**  Nothing that is cached is altered, and the class that
the source declares is cached then.  Where a parent was looked for there, it still would be. -/
theorem parse (h : w.Faithful) (hup : .up ∉ source.segments)
    (ht : w.pairedTemplate? source = .ok template) {w' : World} {r : Option Component}
    (hp : Parsed w source template w.state.epoch w' r) :
    w'.Faithful ∧ Grows w w' ∧ w'.state.epoch = w.state.epoch ∧
      (∀ child parent, w.parentSource child parent = source → w'.parentSource child parent = source) ∧
      ∀ n, w'.disk.Declares source n → w'.state.components.has n = true := by
  rcases h.parsed hup ht hp with
    ⟨⟨parses, log, rfl⟩, hall⟩ | ⟨stamp, text, signatures, parses, log, hr, hs, rfl⟩
  · exact ⟨h.unmoved parses log, fun _ _ hc => hc, rfl, fun _ _ hsource => hsource, hall⟩
  obtain ⟨hnew, hclass⟩ := h.new_of_read hup ht hr hs
  have hextract : w.pairedTemplate? source = .ok (w.extract signatures source template).templateFile :=
    ht.trans (congrArg Except.ok (map_seenTemplate? fun t he => isFile_of_pairedTemplate? (he ▸ ht)).symm)
  refine ⟨h.insert hnew hclass hup ⟨text, signatures, hr.readText, hs, rfl⟩ hextract hr.modified
    (fun t stamp' => modified_of_extract) (w.isSome_extract ..) parses log, fun n c hc => ?_,
    State.insert_epoch .., fun child parent hsource => ?_, fun n hn => ?_⟩
  · refine (h.indexed.insert_get? ..).mpr (Or.inr ⟨fun hname => ?_, hc, fun hsame => ?_⟩)
    · have hnone : w.state.components.get? n = none := hname ▸ hclass
      rw [hc] at hnone
      cases hnone
    · have hreg := h.indexed.registered n c hc
      have hnone : w.state.byFile.get? c.sourceFile.segments = none := hsame ▸ hnew
      rw [hreg] at hnone
      cases hnone
  · rw [World.parentSource, h.indexed.insert_knownSources]
    split
    · rfl
    · exact hsource
  · obtain ⟨text', signatures', htext, hsig, rfl⟩ := hn
    rw [← Except.ok.inj (hr.readText.symm.trans htext), hs] at hsig
    rw [← Option.some.inj hsig]
    exact (h.indexed.insert_has_iff ..).mpr (Or.inl rfl)

/-- **A missing parent looked for.**  Nothing that is cached is altered, and the parent is cached then if it
is declared where it is looked for. -/
theorem loadParent (h : w.Faithful) {child : Component} {parent : Text}
    (hup : .up ∉ (w.parentSource child parent).segments) :
    ∃ w', Work.loadParent (w.parentSource child parent) w.state.epoch w = (.ok (), w') ∧ w'.Faithful ∧
      Grows w w' ∧ w'.state.epoch = w.state.epoch ∧
      (w'.disk.Declares (w'.parentSource child parent) parent →
        w'.state.components.has parent = true) := by
  cases hfile : w.disk.isFile (w.parentSource child parent) with
  | true =>
    obtain ⟨template, ht⟩ := exists_pairedTemplate? h.template (w.parentSource child parent)
    obtain ⟨hw', hgrows, hepoch, hsource, hdeclared⟩ :=
      h.parse hup ht (w.parseInEpoch_parsed _ template w.state.epoch)
    refine ⟨_, Work.loadParent_of_paired hfile ht _, hw', hgrows, hepoch, fun hd => hdeclared parent ?_⟩
    rwa [hsource child parent rfl] at hd
  | false =>
    refine ⟨w, Work.loadParent_of_not_isFile hfile _, h, .refl w, rfl, fun hd => ?_⟩
    rw [hd.isFile] at hfile
    cases hfile

/-! ## Runs -/

/-- **A run from a faithful registry.**  Nothing that is cached is altered, and the chain of the class it
starts from ends, or comes to a name that was seen before. -/
theorem run {seen visited : List Text} {current : Text} {epoch : Nat} {looked : List Path}
    {out : Except ExtensionError Unit × World}
    (hrun : Work.LoadRun epoch seen current w visited looked out) (h : w.Faithful)
    (hepoch : w.state.epoch = epoch) (hup : ∀ p ∈ looked, .up ∉ p.segments)
    (hcached : w.state.components.has current = true) :
    ∃ w', out = (.ok (), w') ∧ Grows w w' ∧ (w'.ChainEnds current ∨
      ∃ s ∈ seen, Components.Reaches w'.state.components current s) := by
  -- one step to the parent, and what is known of the chain from there
  have hstep : ∀ {w w' : World} {seen : List Text} {current parent : Text} {child : Component},
      w.state.lookup? current = some child → child.parentName? = some parent → Grows w w' →
      (w'.ChainEnds parent ∨ ∃ s ∈ current :: seen, Components.Reaches w'.state.components parent s) →
      w'.ChainEnds current ∨ ∃ s ∈ seen, Components.Reaches w'.state.components current s := by
    intro w w' seen current parent child hc hp hgrows hparent
    have hext : Components.Extends w'.state.components current parent := ⟨child, hgrows _ _ hc, hp⟩
    rcases hparent with hends | ⟨s, hs, hreach⟩
    · exact Or.inl (hends.of_extends hext)
    · rcases List.mem_cons.mp hs with rfl | hs
      · exact Or.inl (.revisits ⟨s, .refl, .head' hext hreach⟩)
      · exact Or.inr ⟨s, hs, .head hext hreach⟩
  induction hrun with
  | seen hmem => exact ⟨_, rfl, .refl _, Or.inr ⟨_, hmem, .refl⟩⟩
  | absent _ hc =>
    rw [has_eq_false_iff.mpr hc] at hcached
    cases hcached
  | root _ hc hp => exact ⟨_, rfl, .refl _, Or.inl (.root .refl hc hp)⟩
  | cached _ hc hp hhas _ ih =>
    obtain ⟨w', hout, hgrows, hends⟩ := ih h hepoch hup hhas
    exact ⟨w', hout, hgrows, hstep hc hp hgrows hends⟩
  | loaded _ hc hp _ hload hhas _ ih =>
    subst hepoch
    obtain ⟨v, hload', hv, hgrows, hsame, -⟩ := h.loadParent (hup _ List.mem_cons_self)
    obtain rfl := congrArg Prod.snd (hload.symm.trans hload')
    obtain ⟨w', hout, hgrows', hends⟩ := ih hv hsame (fun p hp => hup p (List.mem_cons_of_mem _ hp)) hhas
    exact ⟨w', hout, hgrows.trans hgrows', hstep hc hp (hgrows.trans hgrows') hends⟩
  | unloaded _ hc hp _ hload hhas =>
    subst hepoch
    obtain ⟨v, hload', -, hgrows, -, hdeclared⟩ := h.loadParent (hup _ List.mem_cons_self)
    obtain rfl := congrArg Prod.snd (hload.symm.trans hload')
    refine ⟨_, rfl, hgrows, Or.inl (.stops .refl (hgrows _ _ hc) hp hhas fun hd => ?_)⟩
    rw [hdeclared hd] at hhas
    cases hhas
  | refused _ _ _ _ hload =>
    subst hepoch
    obtain ⟨v, hload', -⟩ := h.loadParent (hup _ List.mem_cons_self)
    cases congrArg Prod.fst (hload.symm.trans hload')

end Faithful

/-- **Loading ancestors ends and brings in all that can be found.**  It is a run that visits no name twice.
From a faithful registry, if no path it looks at is spelled with `..`, it alters no cached component, and the
chain of a cached class then ends at a class without a parent, revisits a name, or stops where the parent
cannot be loaded. -/
theorem loadAncestors_complete (w : World) (name : Text) (epoch : Nat) :
    ∃ visited looked, Work.LoadRun epoch [] name w visited looked (Work.loadAncestors name epoch w) ∧
      visited.Nodup ∧
      (w.Faithful → w.state.epoch = epoch → (∀ p ∈ looked, .up ∉ p.segments) →
        ∃ w', Work.loadAncestors name epoch w = (.ok (), w') ∧
          (∀ n c, w.state.lookup? n = some c → w'.state.lookup? n = some c) ∧
          (w.state.components.has name = false → w' = w) ∧
          (w.state.components.has name = true → w'.ChainEnds name)) := by
  obtain ⟨visited, looked, hrun⟩ := Work.exists_loadRun_loadAncestors w name epoch
  refine ⟨visited, looked, hrun, hrun.nodup.1, fun h hepoch hup => ?_⟩
  cases hcached : w.state.components.has name with
  | true =>
    obtain ⟨w', hout, hgrows, hends⟩ := h.run hrun hepoch hup hcached
    refine ⟨w', hout, hgrows, fun hno => absurd hno (by decide), fun _ => hends.resolve_right ?_⟩
    rintro ⟨s, hs, -⟩
    cases hs
  | false =>
    refine ⟨w, ?_, fun _ _ hc => hc, fun _ => rfl, fun hno => absurd hno (by decide)⟩
    rw [Work.loadAncestors, Work.bind_of_ok (rfl : Work.ask (·.classBound) w = _)]
    exact loadFrom_of_missing (has_eq_false_iff.mp hcached)

/-- A class whose parent has a template and is not cached, and whose grandparent has a file that declares
another class. -/
def misfiled : List FileStep :=
  [.writeIn "Leaf.php" "class Leaf extends Middle {}" 1000,
    .writeIn "Middle.php" "class Middle extends Base {}" 1000, .writeIn "Middle.html" "" 2000,
    .writeIn "Base.php" "class Other {}" 1000]

theorem loadAncestors_complete_misfiled :
    let w := ((workspace misfiled).parseOne ⟨"/w/Leaf.php".toList⟩ none).1
    w.Faithful ∧ w.state.components.keys = ["Leaf".toList] ∧ ∃ visited w',
      Work.LoadRun 0 [] "Leaf".toList w visited [⟨"/w/Middle.php".toList⟩, ⟨"/w/Base.php".toList⟩]
        (Work.loadAncestors "Leaf".toList 0 w) ∧ visited.Nodup ∧
      Work.loadAncestors "Leaf".toList 0 w = (.ok (), w') ∧
      w'.state.lookup? "Leaf".toList = w.state.lookup? "Leaf".toList ∧ w'.ChainEnds "Leaf".toList := by
  intro w
  have hd : (Disk.workspace misfiled).Sound := (Disk.Sound.empty.foldl_apply _).foldl_apply _
  have hstart : (workspace misfiled).Faithful := .start hd (by decide) (by decide +kernel)
  have hpaired : (workspace misfiled).pairedTemplate? ⟨"/w/Leaf.php".toList⟩ = .ok none := by decide +kernel
  have hw : w.Faithful := (hstart.parse (by decide) hpaired (parseInEpoch_parsed ..)).1
  let leaf : Component := ⟨"Leaf".toList, ⟨"/w/Leaf.php".toList⟩, none, some "Middle".toList, [], [], false⟩
  let middle : Component := ⟨"Middle".toList, ⟨"/w/Middle.php".toList⟩, some ⟨"/w/Middle.html".toList⟩,
    some "Base".toList, [], [], false⟩
  obtain ⟨hkeys, hepoch, hleaf, hlacks, hsource⟩ :
      w.state.components.keys = ["Leaf".toList] ∧ w.state.epoch = 0 ∧
      w.state.lookup? "Leaf".toList = some leaf ∧ w.state.components.has "Middle".toList = false ∧
      w.parentSource leaf "Middle".toList = ⟨"/w/Middle.php".toList⟩ := by decide +kernel
  have hpair : ∀ (x : Work Unit) (v : World), (x v).1 = .ok () → x v = (.ok (), (x v).2) :=
    fun _ _ h => Prod.ext h rfl
  -- the parent is loaded on the way, and the grandparent is looked for in vain
  obtain ⟨w₁, hload, ⟨hhas, hmiddle, hlacks₁, hsource₁⟩, w₂, hload₁, hlacks₂⟩ : ∃ w₁,
      Work.loadParent ⟨"/w/Middle.php".toList⟩ 0 w = (.ok (), w₁) ∧
      (w₁.state.components.has "Middle".toList = true ∧ w₁.state.lookup? "Middle".toList = some middle ∧
        w₁.state.components.has "Base".toList = false ∧
        w₁.parentSource middle "Base".toList = ⟨"/w/Base.php".toList⟩) ∧
      ∃ w₂, Work.loadParent ⟨"/w/Base.php".toList⟩ 0 w₁ = (.ok (), w₂) ∧
        w₂.state.components.has "Base".toList = false :=
    ⟨_, hpair _ w (by decide +kernel), by decide +kernel, _, hpair _ _ (by decide +kernel), by decide +kernel⟩
  clear_value w
  have hrest : Work.LoadRun 0 ["Leaf".toList] "Middle".toList w₁ ["Middle".toList]
      [w₁.parentSource middle "Base".toList] (.ok (), w₂) :=
    .unloaded (by decide) hmiddle rfl hlacks₁ (hsource₁.symm ▸ hload₁) hlacks₂
  have hexpected : Work.LoadRun 0 [] "Leaf".toList w ["Leaf".toList, "Middle".toList]
      [w.parentSource leaf "Middle".toList, w₁.parentSource middle "Base".toList] (.ok (), w₂) :=
    .loaded (by decide) hleaf rfl hlacks (hsource.symm ▸ hload) hhas hrest
  rw [hsource, hsource₁] at hexpected
  obtain ⟨visited, looked, hrun, hnodup, hends⟩ := loadAncestors_complete w "Leaf".toList 0
  obtain ⟨-, rfl, -⟩ := hrun.unique hexpected
  obtain ⟨w', hout, hkept, -, hchain⟩ := hends hw hepoch (by decide)
  exact ⟨hw, hkeys, visited, w', hrun, hnodup, hout, (hkept _ _ hleaf).trans hleaf.symm,
    hchain (Table.has_eq_true_iff.mpr ⟨leaf, hleaf⟩)⟩

end World

end TemplateAssist
