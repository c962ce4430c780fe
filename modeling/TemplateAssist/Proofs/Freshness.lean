import TemplateAssist.Proofs.Disks
import TemplateAssist.Proofs.Records

/-!
# Answers from the cache

* `Disk.Holds` — a component is what a disk holds in its source file, with a stamp.
* `Journal.Dates` — the time recorded for a file is that of a template, or the stamp of the component on
  one of the disks of a session.
* `World.changesDuring` — the changes to the disk in a session, those of the hooks among them.
* `run_traced` — every recorded time is dated by a disk of the session.

Principal result: `parseOne_transparent`.  As long as times advance, a recorded time that is still the
current one dates the current text, so an answer from the cache is what an extraction would give.
-/

namespace TemplateAssist

/-- A component is what a disk holds in its source file, which has the given stamp. -/
def Disk.Holds (d : Disk) (c : Component) (stamp : Stamp) : Prop :=
  d.modified c.sourceFile = .ok stamp ∧
    ∃ text signatures, d.readText c.sourceFile = .ok text ∧ Source.signatures? text = some signatures ∧
      c.bare = .ofSignatures signatures c.sourceFile c.templateFile

/-- A stamp recorded for a file of a component is that of its template, or one under which a disk of the
journal holds the component. -/
def Journal.Dates (j : Journal) (c : Component) (k : PathKey) (stamp : Stamp) : Prop :=
  c.templateFile.map Path.segments = some k ∨ ∃ d ∈ j.disks, d.Holds c stamp

theorem Disk.Holds.of_bare_eq {d : Disk} {c c' : Component} {stamp : Stamp} (h : d.Holds c stamp)
    (hb : c.bare = c'.bare) : d.Holds c' stamp := by
  obtain ⟨-, hsource, htemplate, -⟩ := Component.bare_eq_iff.mp hb
  rwa [Holds, ← hsource, ← htemplate, ← hb]

namespace Journal

theorem Dates.of_bare_eq {j : Journal} {c c' : Component} {k : PathKey} {stamp : Stamp}
    (hb : c.bare = c'.bare) (h : j.Dates c k stamp) : j.Dates c' k stamp := by
  rcases h with h | ⟨d, hd, h⟩
  · exact Or.inl ((Component.bare_eq_iff.mp hb).2.2.1 ▸ h)
  · exact Or.inr ⟨d, hd, h.of_bare_eq hb⟩

theorem Dates.after {j : Journal} {c : Component} {k : PathKey} {stamp : Stamp} (h : j.Dates c k stamp)
    (changes : List FileStep) : (j.after changes).Dates c k stamp := by
  rcases h with h | ⟨d, hd, h⟩
  · exact Or.inl h
  · exact Or.inr ⟨d, j.disks_subset_after changes hd, h⟩

end Journal

theorem State.Accounted.mono {P Q : Component → PathKey → Stamp → Prop} {s : State} (h : s.Accounted P)
    (hPQ : ∀ c k stamp, P c k stamp → Q c k stamp) : s.Accounted Q := by
  intro k stamp hk
  obtain ⟨n, c, hc, hfile, haccounts⟩ := h k stamp hk
  exact ⟨n, c, hc, hfile, hPQ c k stamp haccounts⟩

namespace World

/-! ## Steps and the disks they leave -/

/-- The disk is the current one of a journal, which dates every recorded time. -/
structure Traced (j : Journal) (w : World) : Prop where
  disk : w.disk = j.current
  indexed : w.state.Indexed
  dated : w.state.Accounted j.Dates

theorem Traced.change {j : Journal} {w : World} (h : Traced j w) (fs : FileStep) :
    Traced (j.write fs) (w.change fs) where
  disk := congrArg (·.apply fs) h.disk
  indexed := h.indexed
  dated := h.dated.mono fun _ _ _ hd => hd.after [fs]

theorem Traced.begun {j : Journal} {w : World} (h : Traced j w) (source : Path)
    (template : Option Path) :
    Traced (j.after (w.changesAt (w.extractions + 1))) (w.begun source template) := by
  rw [World.begun, beginExtraction_eq]
  have hdisk : (w.changesAt (w.extractions + 1)).foldl Disk.apply w.disk =
      (j.after (w.changesAt (w.extractions + 1))).current := by
    rw [Journal.current_after, h.disk]
  rcases w.beginExtraction_state ⟨source, (w.seenTemplate? template).map (·.1)⟩ with hs | ⟨e, -, hs⟩
  · rw [hs]
    exact ⟨hdisk, h.indexed, h.dated.mono fun _ _ _ hd => hd.after _⟩
  · rw [hs]
    exact ⟨hdisk, .empty e, .empty _ e⟩

/-- A component that is cached accounts for the times recorded with it: its source was read from the disk
as it was before the hooks. -/
theorem Read.dates {w : World} {source : Path} {template : Option Path} {stamp : Stamp} {text : Text}
    (hr : w.Read source template stamp text) {signatures : Signatures}
    (hs : Source.signatures? text = some signatures) {j : Journal} (hd : w.disk ∈ j.disks)
    {recorded : Table PathKey Stamp} {templateStamp : Option Stamp} {k : PathKey} {stamp' : Stamp}
    (hk : k ∈ (w.extract signatures source template).files)
    (hrec : (State.recordTimes recorded (w.extract signatures source template) stamp templateStamp).get? k =
      some stamp') : j.Dates (w.extract signatures source template) k stamp' := by
  by_cases htemplate : (w.extract signatures source template).templateFile.map Path.segments = some k
  · exact Or.inl htemplate
  have hsource : (w.extract signatures source template).sourceFile.segments = k := by
    rw [Component.files, List.mem_cons, Option.mem_toList] at hk
    exact (hk.resolve_right htemplate).symm
  rw [State.recordTimes_get?, if_neg fun h => htemplate h.1, if_pos hsource, Option.some.injEq] at hrec
  exact Or.inr ⟨w.disk, hd, hrec ▸ hr.modified, text, signatures, hr.readText, hs, bare_extract hs ..⟩

/-- The changes that hooks make to the disk from one number of extractions to another. -/
def changesBetween (w : World) (first last : Nat) : List FileStep :=
  (List.range' (first + 1) (last - first)).flatMap w.changesAt

theorem changesBetween_self (w : World) (n : Nat) : w.changesBetween n n = [] := by
  simp [changesBetween]

theorem changesBetween_succ (w : World) {first last : Nat} (h : first ≤ last) :
    w.changesBetween first (last + 1) = w.changesBetween first last ++ w.changesAt (last + 1) := by
  have hlast : first + 1 + 1 * (last - first) = last + 1 := by omega
  rw [changesBetween, Nat.succ_sub h, List.range'_concat, hlast, List.flatMap_append]
  simp [changesBetween]

/-- Work that started in `origin` has traced its disks in the journal from there on. -/
structure Tracked (j : Journal) (origin w : World) : Prop where
  hooks : w.hooks = origin.hooks
  le : origin.extractions ≤ w.extractions
  traced : Traced (j.after (origin.changesBetween origin.extractions w.extractions)) w

theorem begun_extractions (w : World) (source : Path) (template : Option Path) :
    (w.begun source template).extractions = w.extractions + 1 := by
  rw [extractions, begun_parses, List.length_append]
  rfl

theorem Tracked.begun {j : Journal} {origin w : World} (h : Tracked j origin w) (source : Path)
    (template : Option Path) : Tracked j origin (w.begun source template) := by
  have hcount := w.begun_extractions source template
  have hchanges : w.changesAt = origin.changesAt := by
    funext call
    rw [changesAt, h.hooks, changesAt]
  refine ⟨?_, ?_, ?_⟩
  · rw [World.begun, beginExtraction_eq]
    exact h.hooks
  · rw [hcount]
    exact Nat.le_succ_of_le h.le
  · rw [hcount, changesBetween_succ _ h.le, Journal.after_append, ← hchanges]
    exact h.traced.begun source template

theorem Tracked.parse {j : Journal} {origin w w' : World} (h : Tracked j origin w) {source : Path}
    {template : Option Path} {epoch : Nat} {r : Option Component}
    (hp : Parsed w source template epoch w' r) : Tracked j origin w' := by
  have hbegun := h.begun source template
  cases hp with
  | missing _ _ | fresh _ _ _ | unread _ _ _ _ =>
    exact ⟨h.hooks, h.le, h.traced.disk, h.traced.indexed, h.traced.dated⟩
  | classless _ _ _ | superseded _ _ _ _ | older _ _ _ _ _ =>
    exact ⟨hbegun.hooks, hbegun.le, hbegun.traced.disk, hbegun.traced.indexed, hbegun.traced.dated⟩
  | cached _ hr hs _ _ =>
    refine ⟨hbegun.hooks, hbegun.le, hbegun.traced.disk, hbegun.traced.indexed.insert _ _ _, ?_⟩
    have hd : w.disk ∈ (j.after (origin.changesBetween origin.extractions
        (w.begun source template).extractions)).disks := by
      rw [begun_extractions, changesBetween_succ _ h.le, Journal.after_append]
      refine Journal.disks_subset_after _ _ ?_
      rw [h.traced.disk]
      exact List.mem_cons_self
    exact hbegun.traced.dated.insert hbegun.traced.indexed fun _ _ _ hk hrec => hr.dates hs hd hk hrec

/-- **No change to a registry loses track of the disks.** -/
theorem tracked_kept (j : Journal) (origin : World) : Work.Kept (Tracked j origin) where
  parse := fun w source template epoch h => h.parse (w.parseInEpoch_parsed source template epoch)
  merge := by
    intro w level names h
    have hsame := Components.resolveEach_sameBare names h.traced.indexed.keyed.named
    exact ⟨h.hooks, h.le, h.traced.disk,
      h.traced.indexed.of_sameBare hsame (h.traced.indexed.keyed.resolveEach names),
      h.traced.dated.of_sameBare (fun _ _ _ _ hb hd => hd.of_bare_eq hb) hsame⟩
  evict := by
    intro w source h
    have ht := State.Thinned.refl.evictFile h.traced.indexed source
    exact ⟨h.hooks, h.le, h.traced.disk, ht.indexed h.traced.indexed, ht.accounted h.traced.dated⟩
  known := fun _ _ h => ⟨h.hooks, h.le, h.traced.disk,
    ⟨h.traced.indexed.1, h.traced.indexed.2, h.traced.indexed.3⟩, h.traced.dated⟩
  aside := fun _ _ _ _ _ h => ⟨h.hooks, h.le, h.traced.disk,
    ⟨h.traced.indexed.1, h.traced.indexed.2, h.traced.indexed.3⟩, h.traced.dated⟩
  reset := fun _ _ h => ⟨h.hooks, h.le, h.traced.disk, .empty _, .empty _ _⟩

/-- The changes to the disk in a step. -/
def changesOf (w : World) : Step → List FileStep
  | .change fs => [fs]
  | s => w.changesBetween w.extractions (w.step s).extractions

/-- The changes to the disk in a session, in order. -/
def changesDuring (w : World) : List Step → List FileStep
  | [] => []
  | s :: rest => w.changesOf s ++ (w.step s).changesDuring rest

theorem Traced.step {j : Journal} {w : World} (h : Traced j w) (s : Step) :
    Traced (j.after (w.changesOf s)) (w.step s) := by
  by_cases hs : ∃ fs, s = .change fs
  · obtain ⟨fs, rfl⟩ := hs
    exact h.change fs
  · have hs : ∀ fs, s ≠ .change fs := fun fs he => hs ⟨fs, he⟩
    have horigin : Tracked j w w := by
      refine ⟨rfl, Nat.le_refl _, ?_⟩
      rw [changesBetween_self]
      exact h
    have hchanges : w.changesOf s = w.changesBetween w.extractions (w.step s).extractions := by
      unfold changesOf
      split
      · exact absurd rfl (hs _)
      · rfl
    rw [hchanges]
    exact ((tracked_kept j w).step horigin hs).traced

/-- **Every recorded time is dated by a disk of the session.** -/
theorem run_traced (steps : List Step) {j : Journal} {w : World} (h : Traced j w) :
    Traced (j.after (w.changesDuring steps)) (w.run steps) := by
  induction steps generalizing j w with
  | nil => exact h
  | cons s rest ih =>
    rw [changesDuring, Journal.after_append]
    exact ih (h.step s)

/-! ## Answers -/

/-- The recorded time of a source that is no template dates the component of that source. -/
theorem Traced.holds {j : Journal} {w : World} (h : Traced j w) {source : Path} {stamp : Stamp}
    {c : Component} (hrole : ∀ d ∈ w.state.components.values,
      d.templateFile.map Path.segments ≠ some source.segments)
    (hstamp : w.state.stampOf? source = some stamp) (hc : w.state.ofFile? source = some c) :
    c.sourceFile.segments = source.segments ∧ ∃ d ∈ j.disks, d.Holds c stamp := by
  obtain ⟨n, -, hc', hsource⟩ := h.indexed.exists_of_ofFile? hc
  refine ⟨hsource, ?_⟩
  obtain ⟨m, e, he, hfile, hdates⟩ := h.dated _ _ hstamp
  have hnot := hrole e (List.mem_map_of_mem (Table.mem_of_get? he))
  -- the component that accounts for the time is the one of the file
  have hesource : e.sourceFile.segments = source.segments := by
    rw [Component.files, List.mem_cons, Option.mem_toList] at hfile
    exact (hfile.resolve_right hnot).symm
  have hm : m = n := h.indexed.name_eq he hc' (hesource.trans hsource.symm)
  obtain rfl : e = c := by
    rw [hm, hc'] at he
    exact (Option.some.inj he).symm
  exact hdates.resolve_left hnot

/-- What a disk held under a time is still there under that time, and there is nothing under an earlier
one. -/
theorem Traced.text_of_holds {j : Journal} {w : World} (h : Traced j w) (hj : j.Ordered) {source : Path}
    {stamp stamp' : Stamp} {c : Component} (hsource : c.sourceFile.segments = source.segments) {d : Disk}
    (hd : d ∈ j.disks) (hholds : d.Holds c stamp) (hm : w.disk.modified source = .ok stamp') :
    stamp'.isBefore stamp = false ∧ (stamp' = stamp → ∃ text signatures,
      w.disk.readText source = .ok text ∧ Source.signatures? text = some signatures ∧
        c.bare = .ofSignatures signatures c.sourceFile c.templateFile) := by
  obtain ⟨hmodified, text, signatures, htext, hs, hbare⟩ := hholds
  obtain ⟨time, hm', hnode⟩ := Disk.modified_of_readText htext
  obtain rfl : stamp = .given time := Except.ok.inj (hmodified.symm.trans hm')
  have hnames : c.sourceFile.names = source.names := Path.names_congr hsource
  rw [hnames] at hnode
  cases stamp' with
  | system => exact ⟨rfl, fun he => by cases he⟩
  | given time' =>
    obtain ⟨content, hnow, hread⟩ := Disk.node?_of_modified hm
    rw [h.disk] at hnow
    rcases hj d hd _ _ _ hnode hnow with hlt | hsame
    · have hlt : time < time' := hlt
      refine ⟨by simp only [Stamp.isBefore, decide_eq_false_iff_not]; omega, fun he => ?_⟩
      have := Stamp.given.inj he
      omega
    · obtain ⟨rfl, rfl⟩ := File.mk.inj hsame
      refine ⟨by simp [Stamp.isBefore], fun _ => ⟨text, signatures, hread text rfl, hs, hbare⟩⟩

/-- **The cache is transparent.**  In any session in which times advance, and in whatever order ancestors are
loaded, what a parse answers for a path that is no template is, in its own part, what extraction makes of the
text that the path has when the parse starts. -/
theorem parseOne_transparent (disk : Disk) (options : Options) (hooks : List Hook)
    (orders : List LoadOrder) (steps : List Step) (source : Path) (template : Option Path) {c : Component}
    (hadvances : Journal.advances ⟨[], disk⟩ ((start disk options hooks orders).changesDuring steps) = true)
    (hrole : ∀ d ∈ ((start disk options hooks orders).run steps).state.components.values,
      d.templateFile.map Path.segments ≠ some source.segments)
    (hc : (((start disk options hooks orders).run steps).parseOne source template).2 = some c) :
    ∃ text signatures,
      ((start disk options hooks orders).run steps).disk.readText source = .ok text ∧
        Source.signatures? text = some signatures ∧ c.name = signatures.className ∧
        c.extendsName = signatures.parent ∧ c.own.properties = signatures.properties ∧
        c.own.methods = signatures.methods := by
  have htraced : Traced _ ((start disk options hooks orders).run steps) :=
    run_traced (j := ⟨[], disk⟩) steps ⟨rfl, .empty 0, .empty _ 0⟩
  have hordered := (Journal.ordered_singleton disk).after hadvances
  generalize (start disk options hooks orders).run steps = w at htraced hrole hc
  have hparsed := w.parseInEpoch_parsed source template w.state.epoch
  rw [show (w.parseInEpoch source template w.state.epoch).2 = some c from hc] at hparsed
  have hown : ∀ text signatures, w.disk.readText source = .ok text →
      Source.signatures? text = some signatures →
      c.bare = .ofSignatures signatures c.sourceFile c.templateFile →
      ∃ text signatures, w.disk.readText source = .ok text ∧
        Source.signatures? text = some signatures ∧ c.name = signatures.className ∧
        c.extendsName = signatures.parent ∧ c.own.properties = signatures.properties ∧
        c.own.methods = signatures.methods := by
    intro text signatures hread hs hbare
    obtain ⟨hname, -, -, hparent, hprops, hmethods, -⟩ := Component.mk.inj hbare
    exact ⟨text, signatures, hread, hs, hname, hparent, hprops, hmethods⟩
  generalize (w.parseInEpoch source template w.state.epoch).1 = w' at hparsed
  cases hparsed with
  | fresh _ hm hf =>
    obtain ⟨hfile, hstamp⟩ := stampOf?_of_fresh? hf
    obtain ⟨hsource, d, hd, hholds⟩ := htraced.holds hrole hstamp hfile
    obtain ⟨text, signatures, hread, hs, hbare⟩ :=
      (htraced.text_of_holds hordered hsource hd hholds hm).2 rfl
    exact hown text signatures hread hs hbare
  | older _ hr _ _ hn =>
    -- a record later than the file cannot be there
    obtain ⟨recorded, hstamp, hbefore, hfile⟩ := stampOf?_of_newer? hn
    obtain ⟨hsource, d, hd, hholds⟩ := htraced.holds hrole hstamp hfile
    have hnot := (htraced.text_of_holds hordered hsource hd hholds hr.modified).1
    rw [hbefore] at hnot
    cases hnot
  | cached _ hr hs _ _ => exact hown _ _ hr.readText hs (bare_extract hs ..)

/-- While the second class file is being read, the first one is written again. -/
def cardHooks : List Hook :=
  [⟨2, .change (.writeIn "Base.php" "class Base { public $y; }" 2000)⟩]

/-- After a scan, a class with a template and inherited members is answered from the cache. -/
theorem parseOne_transparent_card :
    let w := (start (.workspace cardFiles) .workspace cardHooks [.latestFirst]).run [.scan]
    Journal.advances ⟨[], .workspace cardFiles⟩
        ((start (.workspace cardFiles) .workspace cardHooks [.latestFirst]).changesDuring [.scan]) = true ∧
      (w.parseOne ⟨"/w/Card.php".toList⟩ (some ⟨"/w/Card.html".toList⟩)).1.extractions = w.extractions ∧
      ∃ c, (w.parseOne ⟨"/w/Card.php".toList⟩ (some ⟨"/w/Card.html".toList⟩)).2 = some c ∧
        ∃ text signatures, w.disk.readText ⟨"/w/Card.php".toList⟩ = .ok text ∧
          Source.signatures? text = some signatures ∧ c.name = signatures.className ∧
          c.extendsName = signatures.parent ∧ c.own.properties = signatures.properties ∧
          c.own.methods = signatures.methods := by
  refine ⟨by decide +kernel, by decide +kernel, ?_⟩
  have hsome : ((((start (.workspace cardFiles) .workspace cardHooks [.latestFirst]).run [.scan]).parseOne
      ⟨"/w/Card.php".toList⟩ (some ⟨"/w/Card.html".toList⟩)).2).isSome = true := by decide +kernel
  obtain ⟨c, hc⟩ := Option.isSome_iff_exists.mp hsome
  exact ⟨c, hc, parseOne_transparent (.workspace cardFiles) .workspace cardHooks _ [.scan]
    ⟨"/w/Card.php".toList⟩ (some ⟨"/w/Card.html".toList⟩) (by decide +kernel) (by decide +kernel) hc⟩

end World

end TemplateAssist
