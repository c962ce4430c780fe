import TemplateAssist.Proofs.Disks
import TemplateAssist.Proofs.Records

/-!
# What one parse leaves alone

* `State.Displaced` — the components that a new one takes the place of: that of its file and that of its
  class.
* `State.Framed` — what a registry may have changed in, once a source is known to declare a component.
* `Indexed.framed_of_ofFile?` — an answer from the cache changes nothing.
* `Indexed.insert_framed` — an insertion changes the entries of the file and of the class, with those of the
  components that it displaces.

Principal result: `parseOne_framed`.
-/

namespace TemplateAssist

namespace State

/-! ## The frame of an insertion -/

/-- A component that another one of a source takes the place of: it stands for the source, or for the
class. -/
def Displaced (s : State) (source : Path) (c d : Component) : Prop :=
  s.ofFile? source = some d ∨ s.lookup? c.name = some d

/-- What a registry `s` becomes, once a source is known to declare a component. -/
structure Framed (s : State) (source : Path) (c : Component) (s' : State) : Prop where
  held : s'.lookup? c.name = some c
  owned : s'.nameFor? source = some c.name
  /-- Another class that the source declared before is gone. -/
  renamed : ∀ n, n ≠ c.name → s.nameFor? source = some n → s'.lookup? n = none
  otherClasses : ∀ n, n ≠ c.name → s.nameFor? source ≠ some n → s'.lookup? n = s.lookup? n
  /-- Another file that declared the class before has no class. -/
  moved : ∀ old, s.lookup? c.name = some old → old.sourceFile.segments ≠ source.segments →
    s'.nameFor? old.sourceFile = none
  otherFiles : ∀ k, k ≠ source.segments →
    (∀ old, s.lookup? c.name = some old → old.sourceFile.segments ≠ k) → s'.byFile.get? k = s.byFile.get? k
  /-- The times of other files that belonged to displaced components are gone. -/
  outdated : ∀ d, s.Displaced source c d → ∀ k ∈ d.files, k ∉ c.files → s'.recorded.get? k = none
  otherTimes : ∀ k, k ∉ c.files → (∀ d, s.Displaced source c d → k ∉ d.files) →
    s'.recorded.get? k = s.recorded.get? k
  otherStems : ∀ stem, source.stem? ≠ some stem → s'.knownSources.get? stem = s.knownSources.get? stem
  epoch : s'.epoch = s.epoch
  scanned : s'.scanned = s.scanned

/-- **An answer from the cache changes nothing.** -/
theorem Indexed.framed_of_ofFile? {s : State} (h : s.Indexed) {source : Path} {c : Component}
    (hc : s.ofFile? source = some c) : s.Framed source c s := by
  obtain ⟨n, hn, hget, hsource⟩ := h.exists_of_ofFile? hc
  obtain rfl := h.keyed.named n c hget
  have hlookup : s.lookup? c.name = some c := hget
  -- the component of the file and that of the class are one
  have hdisplaced : ∀ d, s.Displaced source c d → d = c := by
    rintro d (hd | hd)
    · exact Option.some.inj (hd.symm.trans hc)
    · exact Option.some.inj (hd.symm.trans hlookup)
  refine ⟨hlookup, hn, fun m hne hm => ?_, fun _ _ _ => rfl, fun old hold hne => ?_, fun _ _ _ => rfl,
    fun d hd k hk hkc => ?_, fun _ _ _ => rfl, fun _ _ => rfl, rfl, rfl⟩
  · exact absurd (Option.some.inj (hm.symm.trans hn)) hne
  · obtain rfl := hdisplaced old (Or.inr hold)
    exact absurd hsource hne
  · exact absurd (hdisplaced d hd ▸ hk) hkc

section Insertion

variable {s : State} (h : s.Indexed) (c : Component)
include h

/-- A component that is dropped for a new one is displaced by it. -/
theorem Indexed.displaced_of_source {n : Text} {d : Component} (hd : s.components.get? n = some d)
    (hsource : d.sourceFile.segments = c.sourceFile.segments) : s.Displaced c.sourceFile c d := by
  have hname : s.nameFor? c.sourceFile = some n := h.byFile_get?_eq_some_iff.mpr ⟨d, hd, hsource⟩
  refine Or.inl ?_
  rw [ofFile?, hname]
  exact hd

/-- The release takes no time from a file that belonged to no displaced component. -/
theorem Indexed.released_recorded_of_notMem {k : PathKey}
    (hk : ∀ d, s.Displaced c.sourceFile c d → k ∉ d.files) :
    (s.released c).recorded.get? k = s.recorded.get? k := by
  have hthin := h.releaseFile_thinned c
  have hfile : (s.releaseFile c).recorded.get? k = s.recorded.get? k := by
    rcases h.releaseFile_cases c with ⟨-, heq⟩ | ⟨n, d, -, hd, hsource, heq⟩
    · rw [heq]
    · rw [heq, drop_recorded, if_neg (hk d (h.displaced_of_source c hd hsource))]
  rw [← hfile, released]
  rcases (hthin.indexed h).releaseClass_cases c with ⟨-, heq⟩ | ⟨d, hd, -, heq⟩
  · rw [heq]
  · rw [heq, drop_recorded, if_neg (hk d (Or.inr (hthin.components hd)))]

theorem Indexed.insert_recorded_of_notMem {k : PathKey} (hkc : k ∉ c.files)
    (hk : ∀ d, s.Displaced c.sourceFile c d → k ∉ d.files) (stamp : Stamp) (templateStamp : Option Stamp) :
    (s.insert c stamp templateStamp).recorded.get? k = s.recorded.get? k := by
  obtain ⟨sources, heq⟩ := s.insert_eq c stamp templateStamp
  rw [heq]
  show (recordTimes ((s.released c).releaseTemplate c).recorded c stamp templateStamp).get? k = _
  rw [recordTimes_get?_of_notMem hkc, releaseTemplate_of_current, h.released_recorded_of_notMem c hk]
  intro old hold htemplate
  have hmem : k ∈ old.files := by
    rw [Component.files, List.mem_cons, Option.mem_toList]
    exact Or.inr htemplate
  exact absurd hmem (hk old (Or.inr ((h.released_thinned c).components hold)))

/-- The release takes the times of a component of another class or of another file. -/
theorem Indexed.released_recorded_of_mem {n : Text} {d : Component} (hd : s.components.get? n = some d)
    (hdisplaced : n ≠ c.name ∧ d.sourceFile.segments = c.sourceFile.segments ∨
      n = c.name ∧ d.sourceFile.segments ≠ c.sourceFile.segments) {k : PathKey} (hk : k ∈ d.files) :
    (s.released c).recorded.get? k = none := by
  have hi := (h.releaseFile_thinned c).indexed h
  rw [Option.eq_none_iff_forall_ne_some]
  intro stamp hstamp
  rcases hdisplaced with ⟨hne, hsource⟩ | ⟨rfl, hsource⟩
  · -- the file is released from its class
    have hfile : (s.releaseFile c).recorded.get? k = some stamp :=
      (Thinned.refl.releaseClass hi c).recorded hstamp
    have hname : s.nameFor? c.sourceFile = some n := h.byFile_get?_eq_some_iff.mpr ⟨d, hd, hsource⟩
    rcases h.releaseFile_cases c with ⟨hsame, -⟩ | ⟨m, e, -, he, hesource, heq⟩
    · exact hne (hsame n hname)
    · obtain rfl := h.name_eq hd he (hsource.trans hesource.symm)
      obtain rfl := Option.some.inj (hd.symm.trans he)
      rw [heq, drop_recorded, if_pos hk] at hfile
      cases hfile
  · -- the class is released from its file, if the first release has left it
    have hkept : (s.releaseFile c).components.get? c.name = some d := by
      rcases h.releaseFile_cases c with ⟨-, heq⟩ | ⟨m, e, hne, -, -, heq⟩
      · rw [heq]
        exact hd
      · rw [heq]
        exact drop_components_of_ne (Ne.symm hne) hd
    rw [released] at hstamp
    rcases hi.releaseClass_cases c with ⟨hsame, -⟩ | ⟨e, he, -, heq⟩
    · exact hsource (hsame d hkept)
    · obtain rfl := Option.some.inj (hkept.symm.trans he)
      rw [heq, drop_recorded, if_pos hk] at hstamp
      cases hstamp

/-- The times of a component of the same class and file are released by its successor. -/
theorem Indexed.releaseTemplate_recorded_of_mem {d : Component} (hd : s.components.get? c.name = some d)
    (hsource : d.sourceFile.segments = c.sourceFile.segments) {k : PathKey} (hk : k ∈ d.files)
    (hkc : k ∉ c.files) : ((s.released c).releaseTemplate c).recorded.get? k = none := by
  rw [Component.files, List.mem_cons, Option.mem_toList] at hk
  rw [Component.files, List.mem_cons, Option.mem_toList, not_or] at hkc
  have htemplate := hk.resolve_left fun he => hkc.1 (he.trans hsource)
  -- nothing is dropped for such a component
  have hfile : s.releaseFile c = s := by
    rcases h.releaseFile_cases c with ⟨-, heq⟩ | ⟨m, e, hne, he, hesource, -⟩
    · exact heq
    · exact absurd (h.name_eq he hd (hesource.trans hsource.symm)) hne
  have hclass : s.releaseClass c = s := by
    rcases h.releaseClass_cases c with ⟨-, heq⟩ | ⟨e, he, hne, -⟩
    · exact heq
    · obtain rfl := Option.some.inj (hd.symm.trans he)
      exact absurd hsource hne
  rw [released, hfile, hclass]
  exact releaseTemplate_of_stale hd htemplate hkc.2

theorem Indexed.insert_recorded_of_displaced {d : Component} (hd : s.Displaced c.sourceFile c d) {k : PathKey}
    (hk : k ∈ d.files) (hkc : k ∉ c.files) (stamp : Stamp) (templateStamp : Option Stamp) :
    (s.insert c stamp templateStamp).recorded.get? k = none := by
  obtain ⟨n, hget, hplace⟩ : ∃ n, s.components.get? n = some d ∧
      (d.sourceFile.segments = c.sourceFile.segments ∨ n = c.name) := by
    rcases hd with hd | hd
    · obtain ⟨n, -, hget, hsource⟩ := h.exists_of_ofFile? hd
      exact ⟨n, hget, Or.inl hsource⟩
    · exact ⟨c.name, hd, Or.inr rfl⟩
  obtain ⟨sources, heq⟩ := s.insert_eq c stamp templateStamp
  rw [heq]
  show (recordTimes ((s.released c).releaseTemplate c).recorded c stamp templateStamp).get? k = none
  rw [recordTimes_get?_of_notMem hkc]
  by_cases hboth : n = c.name ∧ d.sourceFile.segments = c.sourceFile.segments
  · exact h.releaseTemplate_recorded_of_mem c (hboth.1 ▸ hget) hboth.2 hk hkc
  · rw [Option.eq_none_iff_forall_ne_some]
    intro stamp' hstamp'
    have hone : n ≠ c.name ∧ d.sourceFile.segments = c.sourceFile.segments ∨
        n = c.name ∧ d.sourceFile.segments ≠ c.sourceFile.segments := by
      tauto
    have hrecorded := releaseTemplate_recorded hstamp'
    rw [h.released_recorded_of_mem c hget hone hk] at hrecorded
    cases hrecorded

/-- The class of the file goes, if it is another, and the classes of other files stay. -/
theorem Indexed.insert_lookup? (stamp : Stamp) (templateStamp : Option Stamp) (n : Text) :
    (s.insert c stamp templateStamp).lookup? n =
      if n = c.name then some c else if s.nameFor? c.sourceFile = some n then none else s.lookup? n := by
  refine Option.ext fun d => (h.insert_get? c stamp templateStamp).trans ?_
  by_cases hname : n = c.name
  · simp [hname, eq_comm]
  by_cases hfile : s.nameFor? c.sourceFile = some n
  · obtain ⟨old, hold, hsource⟩ := h.listed _ _ hfile
    simp only [hname, hfile, if_false, if_true, false_and, false_or, ne_eq, not_false_eq_true, true_and,
      reduceCtorEq, iff_false, not_and, not_not]
    exact fun hd => Option.some.inj (hold.symm.trans hd) ▸ hsource
  · simp only [hname, hfile, if_false, false_and, false_or, ne_eq, not_false_eq_true, true_and]
    exact and_iff_left_of_imp fun hd hsource => hfile (h.byFile_get?_eq_some_iff.mpr ⟨d, hd, hsource⟩)

/-- The file of the class goes, if it is another, and the files of other classes stay. -/
theorem Indexed.insert_byFile_get? (stamp : Stamp) (templateStamp : Option Stamp) (k : PathKey) :
    (s.insert c stamp templateStamp).byFile.get? k =
      if k = c.sourceFile.segments then some c.name
      else if (s.lookup? c.name).map (·.sourceFile.segments) = some k then none else s.byFile.get? k := by
  have hi := h.insert c stamp templateStamp
  have hget := @Indexed.insert_get? s h c stamp templateStamp
  refine Option.ext fun n => hi.byFile_get?_eq_some_iff.trans ?_
  by_cases hsource : k = c.sourceFile.segments
  · rw [if_pos hsource, Option.some.injEq]
    constructor
    · rintro ⟨d, hd, hdk⟩
      rcases hget.mp hd with ⟨hn, -⟩ | ⟨-, -, hne⟩
      · exact hn.symm
      · exact absurd (hdk.trans hsource) hne
    · rintro rfl
      exact ⟨c, hget.mpr (Or.inl ⟨rfl, rfl⟩), hsource.symm⟩
  rw [if_neg hsource]
  by_cases hclass : (s.lookup? c.name).map (·.sourceFile.segments) = some k
  · obtain ⟨old, hold, hk⟩ := Option.map_eq_some_iff.mp hclass
    rw [if_pos hclass]
    refine ⟨?_, fun hn => by cases hn⟩
    rintro ⟨d, hd, hdk⟩
    rcases hget.mp hd with ⟨-, rfl⟩ | ⟨hname, hd, -⟩
    · exact absurd hdk.symm hsource
    · exact absurd (h.name_eq hd hold (hdk.trans hk.symm)) hname
  · rw [if_neg hclass, h.byFile_get?_eq_some_iff]
    refine exists_congr fun d => and_congr_left fun hdk => hget.trans ⟨?_, fun hd => Or.inr ⟨?_, hd, ?_⟩⟩
    · rintro (⟨-, rfl⟩ | ⟨-, hd, -⟩)
      · exact absurd hdk.symm hsource
      · exact hd
    · rintro rfl
      exact hclass (Option.map_eq_some_iff.mpr ⟨d, hd, hdk⟩)
    · exact fun hsame => hsource (hdk.symm.trans hsame)

/-- **An insertion changes the entries of the file and of the class, and nothing else** but the entries of
the components that it displaces. -/
theorem Indexed.insert_framed (stamp : Stamp) (templateStamp : Option Stamp) :
    s.Framed c.sourceFile c (s.insert c stamp templateStamp) where
  held := by rw [h.insert_lookup?, if_pos rfl]
  owned := by rw [nameFor?, h.insert_byFile_get?, if_pos rfl]
  renamed := fun n hne hn => by rw [h.insert_lookup?, if_neg hne, if_pos hn]
  otherClasses := fun n hne hn => by rw [h.insert_lookup?, if_neg hne, if_neg hn]
  moved := by
    intro old hold hne
    rw [nameFor?, h.insert_byFile_get?, if_neg hne, hold, Option.map_some, if_pos rfl]
  otherFiles := by
    intro k hk hclass
    rw [h.insert_byFile_get?, if_neg hk, if_neg]
    intro hmap
    obtain ⟨old, hold, hsource⟩ := Option.map_eq_some_iff.mp hmap
    exact hclass old hold hsource
  outdated := fun d hd k hk hkc => h.insert_recorded_of_displaced c hd hk hkc stamp templateStamp
  otherTimes := fun k hkc hk => h.insert_recorded_of_notMem c hkc hk stamp templateStamp
  otherStems := fun stem hstem => by rw [h.insert_knownSources, if_neg hstem]
  epoch := s.insert_epoch c stamp templateStamp
  scanned := by
    obtain ⟨sources, heq⟩ := s.insert_eq c stamp templateStamp
    rw [heq]
    exact (h.released_thinned c).scanned

end Insertion

end State

/-! ## The frame of a parse -/

namespace World

/-- A parse that answers nothing leaves the registry as it is, and one that answers a component changes
only what that component displaces. -/
theorem Parsed.framed {w w' : World} (hi : w.state.Indexed) (hhooks : w.hooks = []) {source : Path}
    {template : Option Path} {r : Option Component} (hp : Parsed w source template w.state.epoch w' r) :
    (r = none → w'.state = w.state) ∧ ∀ c, r = some c → w.state.Framed source c w'.state := by
  have hbegun : (w.begun source template).state = w.state := by
    rw [begun_of_no_hooks hhooks]
  cases hp with
  | missing _ _ | unread _ _ _ _ => exact ⟨fun _ => rfl, fun _ hc => by cases hc⟩
  | classless _ _ _ | superseded _ _ _ _ => exact ⟨fun _ => hbegun, fun _ hc => by cases hc⟩
  | fresh _ _ hf =>
    refine ⟨fun hnone => (by cases hnone), ?_⟩
    rintro c ⟨⟩
    exact hi.framed_of_ofFile? (stampOf?_of_fresh? hf).1
  | @older _ _ _ _ later _ _ _ hn =>
    obtain ⟨-, -, -, hfile⟩ := stampOf?_of_newer? hn
    refine ⟨fun hnone => (by cases hnone), ?_⟩
    rintro c ⟨⟩
    show w.state.Framed source later (w.begun source template).state
    rw [hbegun]
    exact hi.framed_of_ofFile? hfile
  | @cached _ stamp _ signatures _ _ _ _ =>
    refine ⟨fun hnone => (by cases hnone), ?_⟩
    rintro c ⟨⟩
    rw [hbegun]
    exact hi.insert_framed (w.extract signatures source template) stamp _

/-- When a parse answers nothing: nothing in the cache is up to date, and no class can be read from the
source. -/
theorem Parsed.eq_none_iff {w w' : World} (hhooks : w.hooks = []) {source : Path} {template : Option Path}
    {r : Option Component} (hp : Parsed w source template w.state.epoch w' r) :
    r = none ↔
      (∀ stamp, w.disk.modified source = .ok stamp →
          w.state.fresh? source stamp (w.seenTemplate? template) = none) ∧
        ∀ text, w.disk.readText source = .ok text → Source.signatures? text = none := by
  cases hp with
  | missing _ hm =>
    refine iff_of_true rfl ⟨fun stamp hstamp => ?_, fun text htext => ?_⟩
    · rw [hm] at hstamp
      cases hstamp
    · obtain ⟨time, hmodified, -⟩ := Disk.modified_of_readText htext
      rw [hm] at hmodified
      cases hmodified
  | unread _ hm hf hr =>
    refine iff_of_true rfl ⟨fun stamp hstamp => ?_, fun text htext => ?_⟩
    · exact Except.ok.inj (hm.symm.trans hstamp) ▸ hf
    · rw [hr] at htext
      cases htext
  | classless _ hr hs =>
    refine iff_of_true rfl ⟨fun stamp hstamp => ?_, fun text htext => ?_⟩
    · exact Except.ok.inj (hr.modified.symm.trans hstamp) ▸ hr.stale
    · exact Except.ok.inj (hr.readText.symm.trans htext) ▸ hs
  | superseded _ _ _ he =>
    rw [begun_of_no_hooks hhooks] at he
    exact absurd rfl he
  | fresh _ hm hf =>
    refine iff_of_false (Option.some_ne_none _) fun hnone => ?_
    rw [hnone.1 _ hm] at hf
    cases hf
  | older _ hr hs _ _ | cached _ hr hs _ _ =>
    refine iff_of_false (Option.some_ne_none _) fun hnone => ?_
    rw [hnone.2 _ hr.readText] at hs
    cases hs

/-- **A parse is atomic, and framed.**  Without hooks, a parse answers nothing exactly if the cache has
nothing up to date for the source and no class can be read from it, and then the registry is as before.
Otherwise the component that it answers is cached, and all entries are as before but those of the file, those
of the class and those of the components that stood for either. -/
theorem parseOne_framed {w : World} (hi : w.state.Indexed) (hhooks : w.hooks = []) (source : Path)
    (template : Option Path) :
    let after := w.parseOne source template
    (after.2 = none ↔
        (∀ stamp, w.disk.modified source = .ok stamp →
            w.state.fresh? source stamp (w.seenTemplate? template) = none) ∧
          ∀ text, w.disk.readText source = .ok text → Source.signatures? text = none) ∧
      (after.2 = none → after.1.state = w.state) ∧
      ∀ c, after.2 = some c → w.state.Framed source c after.1.state := by
  have hp := w.parseInEpoch_parsed source template w.state.epoch
  exact ⟨hp.eq_none_iff hhooks, hp.framed hi hhooks⟩

/-- A file with its template, and another one whose class has a child. -/
def takenFiles : List FileStep :=
  [.writeIn "A.php" "class Old {}" 1000, .writeIn "A.html" "<b>" 1000,
    .writeIn "B.php" "class Taken { public $x; }" 1000, .writeIn "Kid.php" "class Kid extends Taken {}" 1000]

/-- A scan, after which the first file loses its template and takes the class of the other one. -/
def takenSession : List Step :=
  [.scan, .change (.delete ⟨"/w/A.html".toList⟩),
    .change (.writeIn "A.php" "class Taken extends Kid {}" 2000)]

theorem parseOne_framed_takenSession :
    let source : Path := ⟨"/w/A.php".toList⟩
    let w := (start (.workspace takenFiles) .workspace [] []).run takenSession
    w.state.Indexed ∧ w.hooks = [] ∧ w.state.nameFor? source = some "Old".toList ∧
      (w.state.lookup? "Taken".toList).map (·.sourceFile.spelling) = some "/w/B.php".toList ∧
      ∃ c, (w.parseOne source none).2 = some c ∧ c.name = "Taken".toList ∧
        w.state.Framed source c (w.parseOne source none).1.state := by
  intro source w
  have hstart : Recording 0 (start (.workspace takenFiles) .workspace [] []) :=
    ⟨Nat.le_refl 0, .empty 0, .empty _ 0, fun _ _ => .empty 0 _⟩
  have hindexed : w.state.Indexed :=
    ((recording_kept 0).run (fun _ fs h => h.change fs) takenSession hstart).indexed
  have hhooks : w.hooks = [] := by decide +kernel
  have hname : (w.parseOne source none).2.map (·.name) = some "Taken".toList := by decide +kernel
  obtain ⟨c, hc, hcname⟩ := Option.map_eq_some_iff.mp hname
  exact ⟨hindexed, hhooks, by decide +kernel, by decide +kernel, c, hc, hcname,
    (parseOne_framed hindexed hhooks source none).2.2 c hc⟩

end World

end TemplateAssist
