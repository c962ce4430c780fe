import TemplateAssist.Proofs.Coherence
import TemplateAssist.Proofs.Index

/-!
# Records through a session

* `Options.TellApart` — extensions by which a source is never taken for a template.
* `FilePair.conforms` — a source with the extension of sources, and no template but the one beside it.
* `World.Conforming` — a session in which every parsed pair conforms to the options of its step.
* `recording_kept` — no change to a registry breaks its index, nor the completeness of its records as long
  as what is parsed conforms.

Principal result: `run_indexed`.
-/

namespace TemplateAssist

/-- The two extensions are different plain words. -/
def Options.TellApart (o : Options) : Prop :=
  Path.IsWord o.sourceExtension ∧ Path.IsWord o.templateExtension ∧
    o.sourceExtension ≠ o.templateExtension

instance (extension : Text) : Decidable (Path.IsWord extension) :=
  inferInstanceAs (Decidable (extension ≠ [] ∧ '.' ∉ extension ∧ '/' ∉ extension))

instance (o : Options) : Decidable o.TellApart :=
  inferInstanceAs (Decidable (_ ∧ _ ∧ _))

/-- Whether a source has the extension of sources, and its template, if any, is the one beside it. -/
def FilePair.conforms (o : Options) (pair : FilePair) : Bool :=
  pair.source.hasExtension o.sourceExtension && pair.template.all fun template =>
    match o.templatePathFor pair.source with
    | .ok expected => template.same expected
    | .error _ => false

theorem FilePair.conforms_iff {o : Options} {pair : FilePair} :
    pair.conforms o = true ↔ pair.source.hasExtension o.sourceExtension = true ∧
      ∀ t, pair.template = some t →
        ∃ t', pair.source.withExtension o.templateExtension = .ok t' ∧ t.segments = t'.segments := by
  rw [conforms, Bool.and_eq_true]
  refine and_congr_right fun _ => ?_
  cases pair.template with
  | none => simp
  | some t =>
    rw [Options.templatePathFor]
    cases pair.source.withExtension o.templateExtension <;> simp [Path.same]

def Component.pair (c : Component) : FilePair :=
  ⟨c.sourceFile, c.templateFile⟩

namespace State

/-- Every cached component conforms to the options. -/
def Conforming (s : State) (o : Options) : Prop :=
  ∀ n c, s.components.get? n = some c → c.pair.conforms o = true

/-- No file belongs to two components that conform. -/
theorem Indexed.apart {s : State} (h : s.Indexed) {o : Options} (ho : o.TellApart)
    (hc : s.Conforming o) : s.Apart := by
  intro n c m d hn hm k hkc hkd
  obtain ⟨hcs, hct⟩ := FilePair.conforms_iff.mp (hc n c hn)
  obtain ⟨hds, hdt⟩ := FilePair.conforms_iff.mp (hc m d hm)
  have hsources := h.name_eq hn hm
  rcases Component.mem_files_iff.mp hkc with hk | ⟨t, ht, hk⟩ <;>
    rcases Component.mem_files_iff.mp hkd with hk' | ⟨t', ht', hk'⟩
  · exact hsources (hk.trans hk'.symm)
  · obtain ⟨e, he, hte⟩ := hdt t' ht'
    exact absurd (hte.symm.trans (hk'.trans hk.symm)) (Path.template_ne_source hds ho.2.1 ho.2.2 he hcs)
  · obtain ⟨e, he, hte⟩ := hct t ht
    exact absurd (hte.symm.trans (hk.trans hk'.symm)) (Path.template_ne_source hcs ho.2.1 ho.2.2 he hds)
  · obtain ⟨e, he, hte⟩ := hct t ht
    obtain ⟨e', he', hte'⟩ := hdt t' ht'
    refine hsources (Path.template_injective hcs hds ho.2.1 he he' ?_)
    exact hte.symm.trans (hk.trans (hk'.symm.trans hte'))

/-- The records of a registry as long as what is parsed conforms to the options. -/
structure Recorded (s : State) (o : Options) : Prop where
  conforming : s.Conforming o
  complete : s.Complete

theorem Recorded.empty (epoch : Nat) (o : Options) : (State.empty epoch).Recorded o where
  conforming := fun _ _ h => by cases h
  complete := .empty epoch

theorem Recorded.of_sameBare {s : State} {o : Options} (h : s.Recorded o) {cs : Components}
    (hsame : Components.SameBare s.components cs) : Recorded { s with components := cs } o := by
  refine ⟨fun n c hc => ?_, h.complete.of_sameBare hsame⟩
  obtain ⟨d, hd, hb⟩ := hsame.symm.get?_some hc
  obtain ⟨-, hsource, htemplate, -⟩ := Component.bare_eq_iff.mp hb
  have := h.conforming n d hd
  rwa [Component.pair, hsource, htemplate] at this

theorem Recorded.evictFile {s : State} {o : Options} (h : s.Recorded o) (hi : s.Indexed)
    (ho : o.TellApart) (source : Path) : (s.evictFile source).1.Recorded o := by
  have ht := Thinned.refl.evictFile hi source
  exact ⟨fun n c hc => h.conforming n c (ht.components hc),
    ht.complete h.complete (hi.apart ho h.conforming)⟩

theorem Recorded.insert {s : State} {o : Options} (h : s.Recorded o) (hi : s.Indexed)
    (ho : o.TellApart) {c : Component} (hc : c.pair.conforms o = true) {templateStamp : Option Stamp}
    (hstamp : c.templateFile.isSome = templateStamp.isSome) (stamp : Stamp) :
    (s.insert c stamp templateStamp).Recorded o := by
  refine ⟨fun n d hd => ?_, h.complete.insert hi (hi.apart ho h.conforming) hstamp stamp⟩
  rcases (hi.insert_get? c stamp templateStamp).mp hd with ⟨-, rfl⟩ | ⟨-, hd, -⟩
  · exact hc
  · exact h.conforming n d hd

end State

/-! ## What sessions keep -/

namespace World

/-- The index stands and every time belongs to a file, and the records are complete if all that was parsed
since there were `count` parses conforms. -/
structure Recording (count : Nat) (w : World) : Prop where
  count_le : count ≤ w.parses.length
  indexed : w.state.Indexed
  accounted : w.state.Accounted fun _ _ _ => True
  recorded : w.options.TellApart → (∀ pair ∈ w.parses.drop count, pair.conforms w.options = true) →
    w.state.Recorded w.options

theorem Recording.begun {count : Nat} {w : World} (h : Recording count w) (source : Path)
    (template : Option Path) : Recording count (w.begun source template) := by
  rw [World.begun, beginExtraction_eq]
  have hparses : ∀ pair ∈ w.parses.drop count, pair ∈ (w.parses ++
      [FilePair.mk source ((w.seenTemplate? template).map (·.1))]).drop count := by
    intro pair hpair
    rw [List.drop_append_of_le_length h.count_le]
    exact List.mem_append_left _ hpair
  rcases w.beginExtraction_state ⟨source, (w.seenTemplate? template).map (·.1)⟩ with hs | ⟨e, -, hs⟩
  · rw [hs]
    exact ⟨by simpa using Nat.le_succ_of_le h.count_le, h.indexed, h.accounted,
      fun ho hall => h.recorded ho fun pair hpair => hall pair (hparses pair hpair)⟩
  · rw [hs]
    exact ⟨by simpa using Nat.le_succ_of_le h.count_le, .empty e, .empty _ e, fun _ _ => .empty e _⟩

theorem begun_parses (w : World) (source : Path) (template : Option Path) :
    (w.begun source template).parses =
      w.parses ++ [⟨source, (w.seenTemplate? template).map (·.1)⟩] := by
  rw [begun, beginExtraction_eq]

theorem Recording.parse {count : Nat} {w w' : World} (h : Recording count w) {source : Path}
    {template : Option Path} {epoch : Nat} {r : Option Component}
    (hp : Parsed w source template epoch w' r) : Recording count w' := by
  have hbegun := h.begun source template
  cases hp with
  | missing _ _ | fresh _ _ _ | unread _ _ _ _ =>
    exact ⟨h.count_le, h.indexed, h.accounted, h.recorded⟩
  | classless _ _ _ | superseded _ _ _ _ | older _ _ _ _ _ =>
    exact ⟨hbegun.count_le, hbegun.indexed, hbegun.accounted, hbegun.recorded⟩
  | cached _ _ _ _ _ =>
    refine ⟨hbegun.count_le, hbegun.indexed.insert _ _ _,
      hbegun.accounted.insert hbegun.indexed fun _ _ _ _ _ => trivial, fun ho hall => ?_⟩
    refine (hbegun.recorded ho hall).insert hbegun.indexed ho (hall _ ?_) ?_ _
    · show _ ∈ (w.begun source template).parses.drop count
      rw [begun_parses, List.drop_append_of_le_length h.count_le]
      exact List.mem_append_right _ (List.mem_singleton.mpr rfl)
    · show ((w.seenTemplate? template).map (·.1)).isSome = ((w.seenTemplate? template).map (·.2)).isSome
      rw [Option.isSome_map, Option.isSome_map]

/-- **No change to a registry breaks its index or its records.** -/
theorem recording_kept (count : Nat) : Work.Kept (Recording count) where
  parse := fun w source template epoch h => h.parse (w.parseInEpoch_parsed source template epoch)
  merge := by
    intro w level names h
    have hsame := Components.resolveEach_sameBare names h.indexed.keyed.named
    exact ⟨h.count_le, h.indexed.of_sameBare hsame (h.indexed.keyed.resolveEach names),
      h.accounted.of_sameBare (fun _ _ _ _ _ _ => trivial) hsame,
      fun ho hall => (h.recorded ho hall).of_sameBare hsame⟩
  evict := by
    intro w source h
    have ht := State.Thinned.refl.evictFile h.indexed source
    exact ⟨h.count_le, ht.indexed h.indexed, ht.accounted h.accounted,
      fun ho hall => (h.recorded ho hall).evictFile h.indexed ho source⟩
  known := fun _ _ h => ⟨h.count_le, ⟨h.indexed.1, h.indexed.2, h.indexed.3⟩, h.accounted,
    fun ho hall => ⟨(h.recorded ho hall).1, (h.recorded ho hall).2⟩⟩
  aside := fun _ _ _ _ _ h => ⟨h.count_le, ⟨h.indexed.1, h.indexed.2, h.indexed.3⟩, h.accounted,
    fun ho hall => ⟨(h.recorded ho hall).1, (h.recorded ho hall).2⟩⟩
  reset := fun w options h => ⟨h.count_le, .empty _, .empty _ _, fun _ _ => .empty _ _⟩

/-- A session in which the options always tell sources and templates apart, and every parsed pair
conforms to the options of its step. -/
def Conforming (w : World) : List Step → Prop
  | [] => True
  | s :: rest =>
    (w.step s).options.TellApart ∧
      (∀ pair ∈ (w.step s).parses.drop w.parses.length, pair.conforms (w.step s).options = true) ∧
      (w.step s).Conforming rest

instance decidableConforming (w : World) : (steps : List Step) → Decidable (w.Conforming steps)
  | [] => .isTrue trivial
  | s :: rest =>
    have := decidableConforming (w.step s) rest
    inferInstanceAs (Decidable (_ ∧ _ ∧ _))

theorem Recording.change {count : Nat} {w : World} (h : Recording count w) (fs : FileStep) :
    Recording count (w.change fs) :=
  ⟨h.count_le, h.indexed, h.accounted, h.recorded⟩

theorem Recording.step {count : Nat} {w : World} (h : Recording count w) (s : Step) :
    Recording count (w.step s) := by
  have := (recording_kept count).run (fun _ fs h => h.change fs) [s] h
  exact this

theorem run_recorded (steps : List Step) {w : World} (h : Recording w.parses.length w)
    (hr : w.state.Recorded w.options) (hc : w.Conforming steps) :
    (w.run steps).state.Recorded (w.run steps).options := by
  induction steps generalizing w with
  | nil => exact hr
  | cons s rest ih =>
    obtain ⟨ho, hall, hrest⟩ := hc
    have hstep := h.step s
    have hr' := hstep.recorded ho hall
    exact ih ⟨Nat.le_refl _, hstep.indexed, hstep.accounted, fun _ _ => hr'⟩ hr' hrest

/-- **The index and the records of every session.**  Class names and source files are inverse to each
other, and times are recorded for files of cached components only.  In a session that conforms, they are
recorded for all of these files.  The ancestors may be loaded in any order. -/
theorem run_indexed (disk : Disk) (options : Options) (hooks : List Hook) (orders : List LoadOrder)
    (steps : List Step) :
    let s := ((start disk options hooks orders).run steps).state
    (∀ p n, s.byFile.get? p = some n ↔
        ∃ c, s.components.get? n = some c ∧ c.name = n ∧ c.sourceFile.segments = p) ∧
      (∀ n c, s.components.get? n = some c → c.name = n) ∧
      (∀ k, s.recorded.has k = true → ∃ n c, s.components.get? n = some c ∧ k ∈ c.files) ∧
      ((start disk options hooks orders).Conforming steps →
        ∀ k, s.recorded.has k = true ↔ ∃ n c, s.components.get? n = some c ∧ k ∈ c.files) := by
  intro s
  have hstart : Recording 0 (start disk options hooks orders) :=
    ⟨Nat.le_refl 0, .empty 0, .empty _ 0, fun _ _ => .empty 0 options⟩
  have hrun := (recording_kept 0).run (fun _ fs h => h.change fs) steps hstart
  have hi : s.Indexed := hrun.indexed
  have htraced : ∀ k, s.recorded.has k = true → ∃ n c, s.components.get? n = some c ∧ k ∈ c.files := by
    intro k hk
    obtain ⟨stamp, hk⟩ := Table.has_eq_true_iff.mp hk
    obtain ⟨n, c, hc, hfile, -⟩ := hrun.accounted k stamp hk
    exact ⟨n, c, hc, hfile⟩
  refine ⟨fun p n => ⟨fun hp => ?_, ?_⟩, hi.keyed.named, htraced, fun hc k => ⟨htraced k, ?_⟩⟩
  · obtain ⟨c, hc, hsource⟩ := hi.listed p n hp
    exact ⟨c, hc, hi.keyed.named n c hc, hsource⟩
  · rintro ⟨c, hc, -, hsource⟩
    exact hsource ▸ hi.registered n c hc
  · rintro ⟨n, c, hget, hk⟩
    have hr := run_recorded (w := start disk options hooks orders) steps hstart (.empty 0 options) hc
    exact hr.complete n c hget k hk

/-- A class with its template and its parent. -/
def cardFiles : List FileStep :=
  [.writeIn "Base.php" "class Base { public $x; }" 1000,
    .writeIn "Card.php" "class Card extends Base {}" 1000, .writeIn "Card.html" "<b>" 1000]

/-- A scan, after which the parent is renamed and the template goes away. -/
def cardSession : List Step :=
  [.scan, .change (.writeIn "Base.php" "class Panel {}" 2000), .update ⟨"/w/Base.php".toList⟩,
    .change (.delete ⟨"/w/Card.html".toList⟩), .remove ⟨"/w/Card.html".toList⟩]

theorem run_indexed_cardSession :
    let w := start (.workspace cardFiles) .workspace [] [.latestFirst]
    w.Conforming cardSession ∧ (w.run cardSession).state.components.keys.length = 2 ∧
      ∀ k, (w.run cardSession).state.recorded.has k = true ↔
        ∃ n c, (w.run cardSession).state.components.get? n = some c ∧ k ∈ c.files :=
  ⟨by decide +kernel, by decide +kernel,
    (run_indexed (.workspace cardFiles) .workspace [] _ cardSession).2.2.2 (by decide +kernel)⟩

end World

end TemplateAssist
