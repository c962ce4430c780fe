import TemplateAssist.Proofs.Still
import TemplateAssist.Proofs.Walks

/-!
# Surveys

Pairs of files of which nothing is hidden and no class is declared twice, and the registry that parses
them.

* `Exposed` — search paths that are directories with nothing hidden below them.
* `Charted` — what the pairs that a scan of them collects have in common (`Exposed.charted`).
* `State.Surveys` — a state whose components come from given pairs of files, with the times of their
  files and no others.
* `State.Covers` — the class that a pair declares is cached from it.

Principal result: `Still.parse_pair`.  A parse of one of the pairs covers it, and learns nothing if it is
covered already.
-/

namespace TemplateAssist

open Disk (isHiddenName)

/-- The search paths are directories with nothing hidden below them, and templates can be named. -/
structure Exposed (d : Disk) (o : Options) : Prop where
  sound : d.Sound
  directories : d.HasDirectories o
  shown : ∀ dir ∈ o.searchPaths, ∀ e ∈ d.nodes, dir.names <+: e.1 →
    ∀ n ∈ e.1.drop dir.names.length, isHiddenName n = false
  template : o.templateExtension.contains '/' = false

/-! ## The pairs of an exposed disk -/

namespace Exposed

variable {d : Disk} {o : Options}

theorem not_hidden (h : Exposed d o) {root : Path} (hroot : root ∈ o.searchPaths) {inner : List Text}
    {n : Text} {node : Node} (hnode : d.node? (root.names ++ (inner ++ [n])) = some node) :
    ∀ m ∈ inner ++ [n], isHiddenName m = false := by
  rw [Disk.node?_of_ne_nil (by simp)] at hnode
  have hshown := h.shown root hroot _ (Table.mem_of_get? hnode) (List.prefix_append _ _)
  rwa [List.drop_left] at hshown

/-- Where a collected pair stands. -/
theorem exists_fileIn (h : Exposed d o) {missing : Nat} {pairs : List FilePair}
    (hc : d.collect o.searchPaths o.sourceExtension o.templateExtension = (missing, .ok pairs))
    {pair : FilePair} (hpair : pair ∈ pairs) :
    ∃ root ∈ o.searchPaths, ∃ inner n f,
      pair.source = (inner.foldl (fun q n => q.join ⟨n⟩) root).join ⟨n⟩ ∧
      (inner.foldl (fun q n => q.join ⟨n⟩) root).names = root.names ++ inner ∧
      d.FileIn (inner.foldl (fun q n => q.join ⟨n⟩) root) n f ∧
      ∀ m ∈ inner ++ [n], isHiddenName m = false := by
  obtain ⟨root, hroot, files, hfiles, hsource, -⟩ := Disk.exists_root_of_mem_collect hc hpair
  have hdir := h.directories root hroot
  obtain ⟨files', hfiles', hmem⟩ := h.sound.mem_below_iff hdir
  obtain rfl := Except.ok.inj (hfiles.symm.trans hfiles')
  obtain ⟨inner, f, hnode, hall, hp⟩ := (hmem _).mp hsource
  rcases List.eq_nil_or_concat inner with rfl | ⟨front, n, rfl⟩
  · rw [List.append_nil, (Disk.locate_ok hdir).2] at hnode
    cases hnode
  · rw [List.concat_eq_append] at hnode hall hp
    obtain ⟨hnames, hfile⟩ := h.sound.fileIn hdir hnode
    refine ⟨root, hroot, front, n, f, ?_, hnames, hfile, hall⟩
    rw [hp, List.foldl_append]
    rfl

theorem pair_eq {missing : Nat} {pairs : List FilePair}
    (hc : d.collect o.searchPaths o.sourceExtension o.templateExtension = (missing, .ok pairs))
    {pair : FilePair} (hpair : pair ∈ pairs) : d.pair pair.source o.templateExtension = .ok pair := by
  obtain ⟨-, -, -, -, -, -, hp⟩ := Disk.exists_root_of_mem_collect hc hpair
  exact hp

/-- One source has one template, however it is spelled. -/
theorem template_congr (h : Exposed d o) {missing : Nat} {pairs : List FilePair}
    (hc : d.collect o.searchPaths o.sourceExtension o.templateExtension = (missing, .ok pairs))
    {a b : FilePair} (ha : a ∈ pairs) (hb : b ∈ pairs) (hsame : a.source.segments = b.source.segments) :
    a.template.map Path.segments = b.template.map Path.segments := by
  have hpa := pair_eq hc ha
  have hpb := pair_eq hc hb
  obtain ⟨_, _, _, _, _, hsa, -, hfa, hshown⟩ := h.exists_fileIn hc ha
  obtain ⟨_, _, _, _, _, hsb, -, hfb, -⟩ := h.exists_fileIn hc hb
  rw [hsa] at hsame hpa
  rw [hsb] at hsame hpb
  exact hfa.pair_congr hfb (hshown _ (by simp)) hsame h.template hpa hpb

/-- **A file beside a collected source that has the stem of a class is collected.** -/
theorem exists_stem_of_beside (h : Exposed d o) {missing : Nat} {pairs : List FilePair}
    (hc : d.collect o.searchPaths o.sourceExtension o.templateExtension = (missing, .ok pairs))
    {pair : FilePair} (hpair : pair ∈ pairs) {stem : Text}
    (hstem : ∀ c ∈ stem, Text.isIdentChar c = true)
    (hfile : d.isFile (pair.source.withFileName (stem ++ '.' :: o.sourceExtension)) = true) :
    ∃ found ∈ pairs, found.source.stem? = some stem := by
  obtain ⟨-, -, -, -, -, hext, -⟩ := Disk.exists_root_of_mem_collect hc hpair
  obtain ⟨root, hroot, inner, n, f, hsource, hnames, hin, hshown⟩ := h.exists_fileIn hc hpair
  generalize hdir : inner.foldl (fun q n => q.join ⟨n⟩) root = dir at hsource hnames hin
  have hname : pair.source.fileName? = some n := hsource ▸ Path.join_fileName? dir hin.isName
  -- the extension is that of a file, so it has neither a dot nor a separator
  have hsplit : Path.splitName n = ((Path.splitName n).1, some o.sourceExtension) := by
    refine Prod.ext rfl ?_
    have hext : pair.source.extension? = some o.sourceExtension := by simpa [Path.hasExtension] using hext
    rwa [Path.extension?, hname] at hext
  obtain ⟨hn, -, hdot⟩ := Path.splitName_some hsplit
  have hslash : '/' ∉ o.sourceExtension := fun hmem => by
    refine hin.isName.2.2.2 ?_
    rw [hn]
    exact List.mem_append_right _ (List.mem_cons_of_mem _ hmem)
  obtain ⟨q, hq, hbeside⟩ := Path.exists_withFileName hname
  have hqdir : q.segments = dir.segments := by
    rw [hq, hsource, Path.join_segments dir hin.isName, List.dropLast_concat]
  have hqnames : q.names = root.names ++ inner := (Path.names_congr hqdir).trans hnames
  rw [hbeside] at hfile
  obtain ⟨f', hf'⟩ := Disk.exists_node?_of_isFile hfile
  cases stem with
  | nil =>
    -- a name that starts with the dot of the extension would be hidden
    rw [List.nil_append] at hf'
    by_cases hnil : o.sourceExtension = []
    · have hspelling : q.spelling ≠ [] := fun he => by
        have hroot : dir.segments ≠ [] := by
          rw [Path.segments, Path.leading_of_isAbsolute hin.isAbsolute]
          exact List.cons_ne_nil _ _
        obtain ⟨spelling⟩ := q
        obtain rfl : spelling = [] := he
        exact hroot hqdir.symm
      rw [hnil, Path.names_congr (Path.join_dot_segments hspelling), Path.names_congr hqdir,
        (Disk.locate_ok hin.located).2] at hf'
      cases hf'
    · have hdotted : IsName ('.' :: o.sourceExtension) := by
        refine ⟨by simp, by simpa using hnil, fun he => ?_, fun hmem => ?_⟩
        · rw [List.cons.injEq] at he
          exact hdot (he.2 ▸ List.mem_singleton.mpr rfl)
        · exact hslash ((List.mem_cons.mp hmem).resolve_left (by decide))
      rw [Path.join_names q hdotted, hqnames, List.append_assoc] at hf'
      have := h.not_hidden hroot hf' ('.' :: o.sourceExtension) (by simp)
      cases this
  | cons c rest =>
    have hisName : IsName (c :: rest ++ '.' :: o.sourceExtension) :=
      isName_of_identifier (List.cons_ne_nil c rest) hstem hslash
    have hstemExt : Path.splitName (c :: rest ++ '.' :: o.sourceExtension) =
        (c :: rest, some o.sourceExtension) := Path.splitName_append (List.cons_ne_nil c rest) hdot
    rw [Path.join_names q hisName, hqnames, List.append_assoc] at hf'
    obtain ⟨files, hfiles, hmem⟩ := h.sound.mem_below_iff (h.directories root hroot)
    have hbelow := (hmem _).mpr ⟨inner ++ [_], f', hf', h.not_hidden hroot hf', rfl⟩
    have hfileName' : ((inner ++ [c :: rest ++ '.' :: o.sourceExtension]).foldl
        (fun q n => q.join ⟨n⟩) root).fileName? = some (c :: rest ++ '.' :: o.sourceExtension) := by
      rw [List.foldl_append]
      exact Path.join_fileName? _ hisName
    obtain ⟨found, hfound, hsegments⟩ := Disk.exists_mem_collect hc h.template hroot hfiles hbelow (by
      rw [Path.hasExtension, Path.extension?, hfileName', Option.bind_some, hstemExt, decide_eq_true_eq])
    refine ⟨found, hfound, ?_⟩
    have hfileName : found.source.fileName? = some (c :: rest ++ '.' :: o.sourceExtension) := by
      rw [Path.fileName?, hsegments]
      exact hfileName'
    rw [Path.stem?, hfileName, Option.map_some, hstemExt]

end Exposed

/-- Pairs of files that are told apart by their classes and have all possible parents beside them: what
the surveys below rest on. -/
structure Charted (d : Disk) (o : Options) (pairs : List FilePair) : Prop where
  isFile : ∀ pair ∈ pairs, d.isFile pair.source = true
  paired : ∀ pair ∈ pairs, d.pair pair.source o.templateExtension = .ok pair
  template_congr : ∀ a ∈ pairs, ∀ b ∈ pairs, a.source.segments = b.source.segments →
    a.template.map Path.segments = b.template.map Path.segments
  beside : ∀ pair ∈ pairs, ∀ stem, (∀ c ∈ stem, Text.isIdentChar c = true) →
    d.isFile (pair.source.withFileName (stem ++ '.' :: o.sourceExtension)) = true →
      ∃ found ∈ pairs, found.source.stem? = some stem
  unique : ∀ a ∈ pairs, ∀ b ∈ pairs, ∀ n, d.classAt? a.source.names = some n →
    d.classAt? b.source.names = some n → a.source.segments = b.source.segments

namespace Disk

theorem modified_of_isFile {d : Disk} {p : Path} (h : d.isFile p = true) :
    ∃ stamp, d.modified p = .ok stamp := by
  unfold isFile at h
  split at h
  · rename_i names f hl
    exact ⟨.given f.modified, by rw [modified, hl]⟩
  · cases h

/-- The text of a file that declares a class. -/
theorem readText_of_classAt? {d : Disk} {p : Path} (h : d.isFile p = true) {n : Text}
    (hn : d.classAt? p.names = some n) : ∃ text signatures, d.readText p = .ok text ∧
      Source.signatures? text = some signatures ∧ signatures.className = n := by
  obtain ⟨signatures, hs, hclass⟩ := Option.map_eq_some_iff.mp hn
  obtain ⟨text, time, hnode, hsig⟩ := signaturesAt?_eq_some hs
  unfold isFile at h
  split at h
  · rename_i names f hl
    obtain ⟨rfl, hnode'⟩ := locate_ok hl
    obtain rfl := Node.file.inj (Option.some.inj (hnode'.symm.trans hnode))
    exact ⟨text, signatures, by rw [readText, hl], hsig, hclass⟩
  · cases h

theorem isFile_of_pair {d : Disk} {source : Path} {extension : Text} {pair : FilePair}
    (h : d.pair source extension = .ok pair) {t : Path} (ht : pair.template = some t) :
    d.isFile t = true := by
  unfold Disk.pair at h
  split at h
  · rw [← Except.ok.inj h] at ht
    have ht : (if d.isFile _ = true then some _ else none) = some t := ht
    split at ht
    · rename_i hfile
      exact Option.some.inj ht ▸ hfile
    · cases ht
  · cases h

end Disk

namespace World

theorem pairedTemplate?_eq_ok_iff {w : World} {source : Path} {template : Option Path} :
    w.pairedTemplate? source = .ok template ↔
      w.disk.pair source w.options.templateExtension = .ok ⟨source, template⟩ := by
  rw [pairedTemplate?, Options.templatePathFor, Disk.pair]
  cases source.withExtension w.options.templateExtension <;> simp [Except.map]

/-- A template that is a file is seen. -/
theorem map_seenTemplate? {w : World} {template : Option Path}
    (h : ∀ t, template = some t → w.disk.isFile t = true) :
    (w.seenTemplate? template).map (·.1) = template := by
  cases template with
  | none => rfl
  | some t =>
    obtain ⟨stamp, hm⟩ := Disk.modified_of_isFile (h t rfl)
    simp only [seenTemplate?, observeTemplate, hm, Option.map_some]

end World

namespace Charted

variable {d : Disk} {o : Options} {pairs : List FilePair}

theorem isFile_template (hd : Charted d o pairs) {pair : FilePair} (hpair : pair ∈ pairs) {t : Path}
    (ht : pair.template = some t) : d.isFile t = true :=
  Disk.isFile_of_pair (hd.paired pair hpair) ht

theorem pairedTemplate?_eq (hd : Charted d o pairs) {pair : FilePair} (hpair : pair ∈ pairs) {w : World}
    (hdisk : w.disk = d) (ho : w.options = o) : w.pairedTemplate? pair.source = .ok pair.template := by
  rw [World.pairedTemplate?_eq_ok_iff, hdisk, ho]
  exact hd.paired pair hpair

/-- The template of a pair is seen. -/
theorem seenTemplate?_eq (hd : Charted d o pairs) {pair : FilePair} (hpair : pair ∈ pairs) {w : World}
    (hdisk : w.disk = d) : (w.seenTemplate? pair.template).map (·.1) = pair.template :=
  World.map_seenTemplate? fun _ ht => hdisk ▸ hd.isFile_template hpair ht

end Charted

/-- The pairs that a scan of an exposed disk collects. -/
theorem Exposed.charted {d : Disk} {o : Options} (h : Exposed d o) {missing : Nat}
    {pairs : List FilePair}
    (hc : d.collect o.searchPaths o.sourceExtension o.templateExtension = (missing, .ok pairs))
    (hunique : ∀ a ∈ pairs, ∀ b ∈ pairs, ∀ n, d.classAt? a.source.names = some n →
      d.classAt? b.source.names = some n → a.source.segments = b.source.segments) :
    Charted d o pairs where
  isFile := fun _ => h.sound.isFile_of_mem_collect hc
  paired := fun _ => Exposed.pair_eq hc
  template_congr := fun _ ha _ hb => h.template_congr hc ha hb
  beside := fun _ hpair _ => h.exists_stem_of_beside hc hpair
  unique := hunique

/-! ## Surveyed states -/

namespace State

/-- Every cached component comes from one of the pairs, the times of its files are recorded and no
others, and the sources of the pairs are remembered and no others. -/
structure Surveys (d : Disk) (pairs : List FilePair) (s : State) : Prop where
  mirrors : s.Mirrors d
  paired : ∀ n c, s.components.get? n = some c →
    ∃ pair ∈ pairs, c.sourceFile = pair.source ∧ c.templateFile = pair.template
  times : ∀ k, s.recorded.has k = true ↔ ∃ n c, s.components.get? n = some c ∧ k ∈ c.files
  known : ∀ stem p, s.knownSources.get? stem = some p → ∃ pair ∈ pairs, pair.source = p
  noted : ∀ pair ∈ pairs, ∀ stem, pair.source.stem? = some stem → s.knownSources.has stem = true

/-- The class that a pair declares is cached from it. -/
def Covers (d : Disk) (s : State) (pair : FilePair) : Prop :=
  ∀ n, d.classAt? pair.source.names = some n → s.nameFor? pair.source = some n

variable {d : Disk} {o : Options} {pairs : List FilePair} {s : State}

theorem Surveys.stampOf?_eq (h : s.Surveys d pairs) {n : Text} {c : Component}
    (hc : s.components.get? n = some c) {p : Path} (hp : p.segments ∈ c.files) {stamp : Stamp}
    (hm : d.modified p = .ok stamp) : s.stampOf? p = some stamp := by
  obtain ⟨stamp', hrec⟩ := Table.has_eq_true_iff.mp ((h.times _).mpr ⟨n, c, hc, hp⟩)
  have htimed := h.mirrors.timed _ _ hrec
  rw [Disk.stampAt?_of_modified hm] at htimed
  exact hrec.trans htimed.symm

/-- A component of a new class from one of the pairs is added. -/
theorem Surveys.insert (h : s.Surveys d pairs) {pair : FilePair} (hpair : pair ∈ pairs) {c : Component}
    (hsource : c.sourceFile = pair.source) (htemplate : c.templateFile = pair.template)
    (hfile : s.nameFor? c.sourceFile = none) (hclass : s.lookup? c.name = none) {stamp : Stamp}
    (hheld : d.Holds c stamp) {templateStamp : Option Stamp}
    (hstamp : c.templateFile.isSome = templateStamp.isSome)
    (hmodified : ∀ t stamp', c.templateFile = some t → templateStamp = some stamp' →
      d.modified t = .ok stamp') : (s.insert c stamp templateStamp).Surveys d pairs := by
  have hi := h.mirrors.indexed
  have hnew : ∀ n e, (s.insert c stamp templateStamp).components.get? n = some e ↔
      n = c.name ∧ e = c ∨ s.components.get? n = some e := by
    intro n e
    rw [insert_of_new hfile hclass]
    show (s.components.insert c.name c).get? n = some e ↔ _
    rw [Table.get?_insert]
    have hclass : s.components.get? c.name = none := hclass
    split
    · rename_i hn
      subst hn
      simp [hclass, eq_comm]
    · rename_i hn
      simp [Ne.symm hn]
  refine ⟨h.mirrors.insert hheld hmodified, fun n e he => ?_, fun k => ?_, fun stem p hp => ?_, ?_⟩
  · rcases (hnew n e).mp he with ⟨-, rfl⟩ | he
    · exact ⟨pair, hpair, hsource, htemplate⟩
    · exact h.paired n e he
  · have hrec : (s.insert c stamp templateStamp).recorded = recordTimes s.recorded c stamp templateStamp := by
      rw [insert_of_new hfile hclass]
    rw [hrec, recordTimes_has_iff hstamp, h.times]
    simp only [hnew]
    constructor
    · rintro (⟨n, e, he, hk⟩ | hk)
      · exact ⟨n, e, Or.inr he, hk⟩
      · exact ⟨c.name, c, Or.inl ⟨rfl, rfl⟩, hk⟩
    · rintro ⟨n, e, ⟨-, rfl⟩ | he, hk⟩
      · exact Or.inr hk
      · exact Or.inl ⟨n, e, he, hk⟩
  · rcases hi.insert_known hp with rfl | hp
    · exact ⟨pair, hpair, hsource.symm⟩
    · exact h.known stem p hp
  · intro other hother stem hstem
    rw [Table.has, hi.insert_knownSources]
    split
    · rfl
    · exact h.noted other hother stem hstem

/-- A survey depends on the components only up to what was merged. -/
theorem Surveys.of_sameBare (h : s.Surveys d pairs) {cs : Components}
    (hsame : Components.SameBare s.components cs) (hk : cs.Keyed) :
    Surveys d pairs { s with components := cs } := by
  refine ⟨h.mirrors.of_sameBare hsame hk, fun n c hc => ?_, fun k => ?_, h.known, h.noted⟩
  · obtain ⟨e, he, hb⟩ := hsame.symm.get?_some hc
    obtain ⟨-, hsource, htemplate, -⟩ := Component.bare_eq_iff.mp hb
    obtain ⟨pair, hpair, hps, hpt⟩ := h.paired n e he
    exact ⟨pair, hpair, hsource.symm.trans hps, htemplate.symm.trans hpt⟩
  · rw [show Table.has s.recorded k = true ↔ _ from h.times k]
    constructor
    · rintro ⟨n, e, he, hfile⟩
      obtain ⟨c, hc, hb⟩ := hsame.get?_some he
      exact ⟨n, c, hc, Component.files_eq_of_bare_eq hb ▸ hfile⟩
    · rintro ⟨n, c, hc, hfile⟩
      obtain ⟨e, he, hb⟩ := hsame.symm.get?_some hc
      exact ⟨n, e, he, Component.files_eq_of_bare_eq hb ▸ hfile⟩

/-- What is covered stays covered when a component of a new file is added. -/
theorem Covers.insert {other : FilePair} (h : s.Covers d other) {c : Component}
    (hfile : s.nameFor? c.sourceFile = none) (hclass : s.lookup? c.name = none) (stamp : Stamp)
    (templateStamp : Option Stamp) : (s.insert c stamp templateStamp).Covers d other := by
  intro n hn
  have hold := h n hn
  rw [insert_of_new hfile hclass]
  show (s.byFile.insert c.sourceFile.segments c.name).get? other.source.segments = some n
  rw [Table.get?_insert, if_neg]
  · exact hold
  · intro hsame
    rw [nameFor?, ← hsame, show s.byFile.get? c.sourceFile.segments = none from hfile] at hold
    cases hold

end State

namespace World

open State (Surveys Covers)

variable {d : Disk} {o : Options} {pairs : List FilePair}

/-- What the cache has of a pair is fresh. -/
theorem fresh?_of_surveys (hd : Charted d o pairs) {w : World} (hdisk : w.disk = d)
    (h : w.state.Surveys d pairs) {pair : FilePair} (hpair : pair ∈ pairs) {c : Component}
    (hc : w.state.ofFile? pair.source = some c) {stamp : Stamp}
    (hm : d.modified pair.source = .ok stamp) :
    w.state.fresh? pair.source stamp (w.seenTemplate? pair.template) = some c := by
  obtain ⟨n, -, hget, hsource⟩ := h.mirrors.indexed.exists_of_ofFile? hc
  obtain ⟨old, hold, hos, hot⟩ := h.paired n c hget
  have htemplate : (w.seenTemplate? pair.template).map (·.1.segments) =
      c.templateFile.map Path.segments := by
    have hseen := congrArg (Option.map Path.segments) (hd.seenTemplate?_eq hpair hdisk)
    rw [Option.map_map] at hseen
    rw [hot, hd.template_congr old hold pair hpair (hos ▸ hsource), ← hseen]
    rfl
  refine fresh?_eq_some_iff.mpr ⟨hc, ?_, htemplate, fun seen hseen => ?_⟩
  · exact h.stampOf?_eq hget (hsource ▸ c.source_mem_files) hm
  · have hmodified : w.disk.modified seen.1 = .ok seen.2 := modified_of_seenTemplate? hseen
    refine h.stampOf?_eq hget ?_ (hdisk ▸ hmodified)
    rw [Option.mem_def.mp hseen, Option.map_some] at htemplate
    rw [Component.files, ← htemplate]
    simp

/-- **A parse of one of the pairs.**  It learns nothing if the pair is covered, and covers it otherwise. -/
theorem Still.parse_pair (hd : Charted d o pairs) {epoch : Nat} {w w' : World} (hw : Still d o epoch w)
    (h : w.state.Surveys d pairs) {pair : FilePair} (hpair : pair ∈ pairs) {r : Option Component}
    (hp : Parsed w pair.source pair.template epoch w' r) :
    (Unmoved w w' ∧ w.state.Covers d pair) ∨
      (¬ w.state.Covers d pair ∧ Still d o epoch w' ∧ w'.state.Surveys d pairs ∧
        w'.state.Covers d pair ∧ ∀ other, w.state.Covers d other → w'.state.Covers d other) := by
  rcases hw.parsed hp with ⟨hu, hcause⟩ | ⟨stamp, text, signatures, begun, log, hr, hs, rfl⟩
  · refine Or.inl ⟨hu, fun n hn => ?_⟩
    rcases hcause with ⟨c, hc⟩ | hno
    · obtain ⟨m, hm, -⟩ := h.mirrors.indexed.exists_of_ofFile? hc
      rw [h.mirrors.classAt?_eq hm, Option.some.injEq] at hn
      exact hn ▸ hm
    · obtain ⟨text, signatures, htext, hsig, -⟩ :=
        Disk.readText_of_classAt? (hd.isFile pair hpair) hn
      rw [hno text htext] at hsig
      cases hsig
  -- the cache had nothing of the pair, and so nothing of its class
  have hheld := hr.holds hs
  have hclass := hheld.classAt?_eq
  rw [hw.disk] at hheld hclass
  have hfile : w.state.nameFor? pair.source = none := by
    cases hn : w.state.nameFor? pair.source with
    | none => rfl
    | some n =>
      obtain ⟨c, hget, -⟩ := h.mirrors.indexed.listed _ _ hn
      have hc : w.state.ofFile? pair.source = some c := by
        rw [State.ofFile?, hn]
        exact hget
      have hfresh := fresh?_of_surveys hd hw.disk h hpair hc (hw.disk ▸ hr.modified)
      rw [hr.stale] at hfresh
      cases hfresh
  have hlookup : w.state.lookup? signatures.className = none := by
    cases hc : w.state.lookup? signatures.className with
    | none => rfl
    | some c =>
      have hget : w.state.components.get? signatures.className = some c := hc
      obtain ⟨old, hold, hos, -⟩ := h.paired _ c hget
      have hreg := h.mirrors.indexed.registered _ c hget
      have hdeclared : d.classAt? old.source.names = some signatures.className := by
        rw [← hos]
        exact h.mirrors.classAt?_eq hreg
      have hsame := hd.unique old hold pair hpair _ hdeclared hclass
      rw [hos, hsame, show w.state.byFile.get? pair.source.segments = none from hfile] at hreg
      cases hreg
  have htemplate : (w.extract signatures pair.source pair.template).templateFile = pair.template :=
    hd.seenTemplate?_eq hpair hw.disk
  have hi := h.mirrors.indexed
  refine Or.inr ⟨fun hcovers => ?_, ?_, ?_, ?_, fun other hother => hother.insert hfile hlookup _ _⟩
  · rw [hcovers _ hclass] at hfile
    cases hfile
  · refine ⟨hw.disk, hw.options, hw.hooks, (State.insert_epoch ..).trans hw.epoch, ?_⟩
    exact h.mirrors.insert hheld fun t stamp' ht hts => hw.disk ▸ modified_of_extract ht hts
  · exact h.insert hpair rfl htemplate hfile hlookup hheld (w.isSome_extract ..)
      fun t stamp' ht hts => hw.disk ▸ modified_of_extract ht hts
  · intro n hn
    have hclass : d.classAt? pair.source.names = some signatures.className := hclass
    rw [hclass, Option.some.injEq] at hn
    show (w.state.insert _ _ _).byFile.get? pair.source.segments = some n
    rw [State.insert_of_new hfile hlookup]
    show (w.state.byFile.insert pair.source.segments signatures.className).get? pair.source.segments = _
    rw [Table.get?_insert, if_pos rfl, hn]

end World

end TemplateAssist
