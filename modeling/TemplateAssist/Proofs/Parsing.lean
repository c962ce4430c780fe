import TemplateAssist.Registry.Parse

/-!
# What one parse can do

* `beginExtraction_eq` — what the hooks of an extraction change: the disk, and the state if one of them
  clears the registry.
* `Read` — a source that is read because the cache has nothing fresh for it.
* `Parsed` — everything that a parse can do, with the condition of each case.
* `Parsed.epoch_le` — a parse never goes back to an earlier epoch.
* `fresh?_eq_some_iff`, `stampOf?_of_newer?` — what is recorded when the cache answers.

Principal result: `parseInEpoch_parsed`.  The invariants of the registry are derived from it, and no
other proof unfolds a parse.
-/

namespace TemplateAssist

namespace HookAction

/-- The change that a hook makes to the disk. -/
def change? : HookAction → Option FileStep
  | clear => none
  | change step => some step

/-- What a hook makes of the registry. -/
def applyTo (s : State) : HookAction → State
  | clear => s.cleared
  | change _ => s

end HookAction

namespace World

/-! ## Hooks -/

theorem foldl_act (hooks : List Hook) (w : World) :
    hooks.foldl (fun w h => w.act h.action) w =
      { w with
        disk := (hooks.filterMap (·.action.change?)).foldl Disk.apply w.disk
        state := hooks.foldl (fun s h => h.action.applyTo s) w.state } := by
  induction hooks generalizing w with
  | nil => rfl
  | cons h rest ih =>
    rw [List.foldl_cons, ih]
    cases ha : h.action <;> simp [act, clear, change, HookAction.change?, HookAction.applyTo, ha]

/-- Hooks leave the registry as it is, or empty it and start an epoch for each clear. -/
theorem foldl_applyTo_eq (hooks : List Hook) (s : State) :
    hooks.foldl (fun s h => h.action.applyTo s) s =
      if hooks.countP (·.action = .clear) = 0 then s
      else State.empty (s.epoch + hooks.countP (·.action = .clear)) := by
  induction hooks generalizing s with
  | nil => rfl
  | cons h rest ih =>
    rw [List.foldl_cons, ih, List.countP_cons]
    cases ha : h.action with
    | change step => simp [HookAction.applyTo]
    | clear =>
      simp only [HookAction.applyTo, decide_true, if_true, Nat.add_eq_zero_iff, Nat.one_ne_zero,
        and_false, if_false]
      split
      · rename_i hnone
        rw [hnone]
        rfl
      · show State.empty (s.epoch + 1 + _) = _
        rw [Nat.add_right_comm, Nat.add_assoc]

/-- How often the hooks of the extraction of a given number clear the registry. -/
def clearsAt (w : World) (call : Nat) : Nat :=
  (w.hooks.filter (·.call = call)).countP (·.action = .clear)

/-- The changes that the hooks of the extraction of a given number make to the disk. -/
def changesAt (w : World) (call : Nat) : List FileStep :=
  (w.hooks.filter (·.call = call)).filterMap (·.action.change?)

/-- The hooks of an extraction change the disk and perhaps the state, and nothing else. -/
theorem beginExtraction_eq (w : World) (pair : FilePair) :
    w.beginExtraction pair =
      { w with
        disk := (w.changesAt (w.extractions + 1)).foldl Disk.apply w.disk
        state := (w.beginExtraction pair).state
        parses := w.parses ++ [pair] } := by
  rw [beginExtraction, foldl_act]
  rfl

theorem beginExtraction_state_eq (w : World) (pair : FilePair) :
    (w.beginExtraction pair).state =
      if w.clearsAt (w.extractions + 1) = 0 then w.state
      else State.empty (w.state.epoch + w.clearsAt (w.extractions + 1)) := by
  rw [beginExtraction, foldl_act]
  exact foldl_applyTo_eq _ w.state

theorem beginExtraction_state (w : World) (pair : FilePair) :
    (w.beginExtraction pair).state = w.state ∨
      ∃ epoch, w.state.epoch < epoch ∧ (w.beginExtraction pair).state = State.empty epoch := by
  rw [beginExtraction_state_eq]
  split
  · exact Or.inl rfl
  · rename_i hclears
    exact Or.inr ⟨_, Nat.lt_add_of_pos_right (Nat.pos_of_ne_zero hclears), rfl⟩

theorem beginExtraction_log (w : World) (log : List LogEntry) (pair : FilePair) :
    beginExtraction { w with log := log } pair = { w.beginExtraction pair with log := log } := by
  rw [beginExtraction, beginExtraction, foldl_act, foldl_act]
  rfl

/-! ## Parses -/

/-- The template and its stamp as a parse sees them.  A template that cannot be read counts as
absent. -/
def seenTemplate? (w : World) (template : Option Path) : Option (Path × Stamp) :=
  (w.observeTemplate template).2

theorem observeTemplate_eq (w : World) (template : Option Path) :
    ∃ log, w.observeTemplate template = ({ w with log := log }, w.seenTemplate? template) := by
  unfold seenTemplate? observeTemplate
  split
  · exact ⟨w.log, rfl⟩
  · split
    · exact ⟨w.log, rfl⟩
    · exact ⟨_, rfl⟩

/-- A source is read, with the stamp it then has, because the cache has nothing fresh for it. -/
structure Read (w : World) (source : Path) (template : Option Path) (stamp : Stamp) (text : Text) :
    Prop where
  modified : w.disk.modified source = .ok stamp
  stale : w.state.fresh? source stamp (w.seenTemplate? template) = none
  readText : w.disk.readText source = .ok text

/-- The world after the hooks of the extraction of a source. -/
def begun (w : World) (source : Path) (template : Option Path) : World :=
  w.beginExtraction ⟨source, (w.seenTemplate? template).map (·.1)⟩

theorem begun_of_no_hooks {w : World} (h : w.hooks = []) (source : Path) (template : Option Path) :
    w.begun source template =
      { w with parses := w.parses ++ [⟨source, (w.seenTemplate? template).map (·.1)⟩] } := by
  rw [begun, beginExtraction, h]
  rfl

/-- The component that a source is extracted to. -/
def extract (w : World) (signatures : Signatures) (source : Path) (template : Option Path) :
    Component :=
  .ofSignatures signatures source ((w.seenTemplate? template).map (·.1))

/-- What a parse on behalf of work that started in an epoch makes of a world, and its answer. -/
inductive Parsed (w : World) (source : Path) (template : Option Path) (epoch : Nat) :
    World → Option Component → Prop
  | missing (log : List LogEntry) {e : IoError} (hm : w.disk.modified source = .error e) :
      Parsed w source template epoch { w with log := log } none
  | fresh (log : List LogEntry) {stamp : Stamp} {c : Component}
      (hm : w.disk.modified source = .ok stamp)
      (hf : w.state.fresh? source stamp (w.seenTemplate? template) = some c) :
      Parsed w source template epoch { w with log := log } (some c)
  | unread (log : List LogEntry) {stamp : Stamp} {e : IoError}
      (hm : w.disk.modified source = .ok stamp)
      (hf : w.state.fresh? source stamp (w.seenTemplate? template) = none)
      (hr : w.disk.readText source = .error e) :
      Parsed w source template epoch { w with log := log } none
  | classless (log : List LogEntry) {stamp : Stamp} {text : Text}
      (hr : w.Read source template stamp text) (hs : Source.signatures? text = none) :
      Parsed w source template epoch { w.begun source template with log := log } none
  | superseded (log : List LogEntry) {stamp : Stamp} {text : Text} {signatures : Signatures}
      (hr : w.Read source template stamp text) (hs : Source.signatures? text = some signatures)
      (he : (w.begun source template).state.epoch ≠ epoch) :
      Parsed w source template epoch { w.begun source template with log := log } none
  | older (log : List LogEntry) {stamp : Stamp} {text : Text} {signatures : Signatures}
      {later : Component} (hr : w.Read source template stamp text)
      (hs : Source.signatures? text = some signatures)
      (he : (w.begun source template).state.epoch = epoch)
      (hn : (w.begun source template).newer? source stamp = some later) :
      Parsed w source template epoch { w.begun source template with log := log } (some later)
  | cached (log : List LogEntry) {stamp : Stamp} {text : Text} {signatures : Signatures}
      (hr : w.Read source template stamp text) (hs : Source.signatures? text = some signatures)
      (he : (w.begun source template).state.epoch = epoch)
      (hn : (w.begun source template).newer? source stamp = none) :
      Parsed w source template epoch
        { w.begun source template with
          log := log
          state := (w.begun source template).state.insert (w.extract signatures source template) stamp
            ((w.seenTemplate? template).map (·.2)) }
        (some (w.extract signatures source template))

theorem parseInEpoch_of_ok {w w' : World} {source : Path} {template : Option Path} {epoch : Nat}
    {c : Component} (h : w.attempt source template epoch = (w', .ok c)) :
    w.parseInEpoch source template epoch = (w', some c) := by
  simp only [parseInEpoch, h]

theorem parseInEpoch_of_error {w w' : World} {source : Path} {template : Option Path} {epoch : Nat}
    {e : RegistryError} (h : w.attempt source template epoch = (w', .error e)) :
    w.parseInEpoch source template epoch = (w'.note (parseLevel e) (.registry e), none) := by
  simp only [parseInEpoch, h]

theorem accept_of_epoch_ne {w : World} {epoch : Nat} (h : w.state.epoch ≠ epoch)
    (log : List LogEntry) (c : Component) (stamp : Stamp) (templateStamp : Option Stamp) :
    accept { w with log := log } c epoch stamp templateStamp =
      ({ w with log := log }, .error (.superseded c.sourceFile)) := by
  rw [accept, if_pos h]

theorem accept_of_newer {w : World} {epoch : Nat} (h : w.state.epoch = epoch) {c later : Component}
    {stamp : Stamp} (hn : w.newer? c.sourceFile stamp = some later) (log : List LogEntry)
    (templateStamp : Option Stamp) :
    accept { w with log := log } c epoch stamp templateStamp = ({ w with log := log }, .ok later) := by
  rw [accept, if_neg (not_not_intro h), show newer? { w with log := log } _ _ = _ from hn]

theorem accept_of_newest {w : World} {epoch : Nat} (h : w.state.epoch = epoch) {c : Component}
    {stamp : Stamp} (hn : w.newer? c.sourceFile stamp = none) (log : List LogEntry)
    (templateStamp : Option Stamp) :
    accept { w with log := log } c epoch stamp templateStamp =
      ({ w with log := log, state := w.state.insert c stamp templateStamp }, .ok c) := by
  rw [accept, if_neg (not_not_intro h), show newer? { w with log := log } _ _ = _ from hn]

theorem attempt_of_missing {w : World} {source : Path} {e : IoError}
    (hm : w.disk.modified source = .error e) (template : Option Path) (epoch : Nat) :
    w.attempt source template epoch = (w, .error (.unreadable source e)) := by
  simp only [attempt, hm]

theorem attempt_of_fresh {w : World} {source : Path} {template : Option Path} {stamp : Stamp}
    {c : Component} (hm : w.disk.modified source = .ok stamp)
    (hf : w.state.fresh? source stamp (w.seenTemplate? template) = some c) (epoch : Nat) :
    ∃ log, w.attempt source template epoch = ({ w with log := log }, .ok c) := by
  obtain ⟨log, hobs⟩ := w.observeTemplate_eq template
  exact ⟨log, by simp only [attempt, hm, hobs, hf]⟩

theorem attempt_of_unread {w : World} {source : Path} {template : Option Path} {stamp : Stamp}
    {e : IoError} (hm : w.disk.modified source = .ok stamp)
    (hf : w.state.fresh? source stamp (w.seenTemplate? template) = none)
    (hr : w.disk.readText source = .error e) (epoch : Nat) :
    ∃ log, w.attempt source template epoch = ({ w with log := log }, .error (.unreadable source e)) := by
  obtain ⟨log, hobs⟩ := w.observeTemplate_eq template
  exact ⟨log, by simp only [attempt, hm, hobs, hf, hr]⟩

theorem attempt_of_read {w : World} {source : Path} {template : Option Path} {stamp : Stamp}
    {text : Text} (h : w.Read source template stamp text) (epoch : Nat) :
    ∃ log, w.attempt source template epoch =
      match Source.signatures? text with
      | none => ({ w.begun source template with log := log }, .error (.noClass source))
      | some signatures =>
        accept { w.begun source template with log := log } (w.extract signatures source template) epoch
          stamp ((w.seenTemplate? template).map (·.2)) := by
  obtain ⟨log, hobs⟩ := w.observeTemplate_eq template
  refine ⟨log, ?_⟩
  simp only [attempt, h.modified, hobs, h.stale, h.readText, beginExtraction_log]
  rfl

/-- **Everything that a parse can do.** -/
theorem parseInEpoch_parsed (w : World) (source : Path) (template : Option Path) (epoch : Nat) :
    Parsed w source template epoch (w.parseInEpoch source template epoch).1
      (w.parseInEpoch source template epoch).2 := by
  cases hm : w.disk.modified source with
  | error e =>
    rw [parseInEpoch_of_error (attempt_of_missing hm template epoch)]
    exact .missing _ hm
  | ok stamp =>
    cases hf : w.state.fresh? source stamp (w.seenTemplate? template) with
    | some c =>
      obtain ⟨log, hattempt⟩ := attempt_of_fresh hm hf epoch
      rw [parseInEpoch_of_ok hattempt]
      exact .fresh log hm hf
    | none =>
      cases hr : w.disk.readText source with
      | error e =>
        obtain ⟨log, hattempt⟩ := attempt_of_unread hm hf hr epoch
        rw [parseInEpoch_of_error hattempt]
        exact .unread _ hm hf hr
      | ok text =>
        have hread : w.Read source template stamp text := ⟨hm, hf, hr⟩
        obtain ⟨log, hattempt⟩ := attempt_of_read hread epoch
        cases hs : Source.signatures? text with
        | none =>
          rw [hs] at hattempt
          rw [parseInEpoch_of_error hattempt]
          exact .classless _ hread hs
        | some signatures =>
          simp only [hs] at hattempt
          by_cases he : (w.begun source template).state.epoch = epoch
          · cases hn : (w.begun source template).newer?
                (w.extract signatures source template).sourceFile stamp with
            | some later =>
              rw [accept_of_newer he hn] at hattempt
              rw [parseInEpoch_of_ok hattempt]
              exact .older log hread hs he hn
            | none =>
              rw [accept_of_newest he hn] at hattempt
              rw [parseInEpoch_of_ok hattempt]
              exact .cached log hread hs he hn
          · rw [accept_of_epoch_ne he] at hattempt
            rw [parseInEpoch_of_error hattempt]
            exact .superseded _ hread hs he

end World

/-! ## Epochs -/

namespace State

theorem evictFile_epoch (s : State) (source : Path) : (s.evictFile source).1.epoch = s.epoch := by
  unfold evictFile
  split
  · rfl
  · simp only
    split <;> rfl

theorem insert_epoch (s : State) (c : Component) (stamp : Stamp) (templateStamp : Option Stamp) :
    (s.insert c stamp templateStamp).epoch = s.epoch := by
  have hfile : (s.releaseFile c).epoch = s.epoch := by
    unfold releaseFile
    split
    · exact s.evictFile_epoch _
    · rfl
  have hclass : ((s.releaseFile c).releaseClass c).epoch = s.epoch := by
    rw [← hfile]
    unfold releaseClass
    split
    · split
      · rfl
      · exact evictFile_epoch _ _
    · rfl
  have htemplate : (((s.releaseFile c).releaseClass c).releaseTemplate c).epoch = s.epoch := by
    rw [← hclass]
    unfold releaseTemplate
    split
    · split <;> rfl
    · rfl
  rw [← htemplate]
  unfold insert noteSource
  simp only
  split <;> rfl

end State

namespace World

theorem epoch_le_begun (w : World) (source : Path) (template : Option Path) :
    w.state.epoch ≤ (w.begun source template).state.epoch := by
  rcases w.beginExtraction_state ⟨source, (w.seenTemplate? template).map (·.1)⟩ with hs | ⟨e, hlt, hs⟩
  · exact Nat.le_of_eq (congrArg State.epoch hs).symm
  · rw [begun, hs]
    exact Nat.le_of_lt hlt

/-- A parse never goes back to an earlier epoch. -/
theorem Parsed.epoch_le {w w' : World} {source : Path} {template : Option Path} {epoch : Nat}
    {r : Option Component} (h : Parsed w source template epoch w' r) : w.state.epoch ≤ w'.state.epoch := by
  have hbegun := w.epoch_le_begun source template
  cases h with
  | missing _ _ | fresh _ _ _ | unread _ _ _ _ => exact Nat.le_refl _
  | classless _ _ _ | superseded _ _ _ _ | older _ _ _ _ _ => exact hbegun
  | cached _ _ _ _ _ => exact Nat.le_trans hbegun (Nat.le_of_eq (State.insert_epoch ..).symm)

/-! ## Answers from the cache -/

/-- When the cache answers for a source: it has a component of it, with the template that is seen, and
the times of both are recorded. -/
theorem fresh?_eq_some_iff {s : State} {source : Path} {stamp : Stamp}
    {template : Option (Path × Stamp)} {c : Component} :
    s.fresh? source stamp template = some c ↔
      s.ofFile? source = some c ∧ s.stampOf? source = some stamp ∧
        template.map (·.1.segments) = c.templateFile.map Path.segments ∧
        ∀ seen ∈ template, s.stampOf? seen.1 = some seen.2 := by
  cases hfile : s.ofFile? source with
  | none => simp [State.fresh?, hfile]
  | some c' =>
    by_cases hstamp : s.stampOf? source = some stamp
    · cases template with
      | none =>
        cases ht : c'.templateFile with
        | none =>
          have hfresh : s.fresh? source stamp none = some c' := by
            simp only [State.fresh?, hfile, Option.bind_eq_bind, Option.bind_some, hstamp, ne_eq,
              not_true_eq_false, if_false, ht]
          simp only [hfresh, Option.some.injEq, hstamp, Option.map_none, true_and]
          constructor
          · rintro rfl
            simp [ht]
          · exact fun h => h.1
        | some cached =>
          have hfresh : s.fresh? source stamp none = none := by
            simp only [State.fresh?, hfile, Option.bind_eq_bind, Option.bind_some, hstamp, ne_eq,
              not_true_eq_false, if_false, ht]
          simp only [hfresh, reduceCtorEq, Option.some.injEq, hstamp, Option.map_none, true_and, false_iff]
          rintro ⟨rfl, h, -⟩
          simp [ht] at h
      | some seen =>
        cases ht : c'.templateFile with
        | none =>
          have hfresh : s.fresh? source stamp (some seen) = none := by
            simp only [State.fresh?, hfile, Option.bind_eq_bind, Option.bind_some, hstamp, ne_eq,
              not_true_eq_false, if_false, ht]
          simp only [hfresh, reduceCtorEq, Option.some.injEq, hstamp, Option.map_some, true_and, false_iff]
          rintro ⟨rfl, h, -⟩
          simp [ht] at h
        | some cached =>
          have hfresh : s.fresh? source stamp (some seen) =
              if cached.same seen.1 && s.stampOf? seen.1 = some seen.2 then some c' else none := by
            simp only [State.fresh?, hfile, Option.bind_eq_bind, Option.bind_some, hstamp, ne_eq,
              not_true_eq_false, if_false, ht]
          simp only [hfresh, Path.same, Option.ite_none_right_eq_some, Bool.and_eq_true, decide_eq_true_eq,
            Option.some.injEq, hstamp, Option.map_some, true_and, Option.mem_def, forall_eq']
          constructor
          · rintro ⟨⟨hsame, hrec⟩, rfl⟩
            exact ⟨rfl, by rw [ht, Option.map_some, hsame], hrec⟩
          · rintro ⟨rfl, hsame, hrec⟩
            rw [ht, Option.map_some, Option.some.injEq] at hsame
            exact ⟨⟨hsame.symm, hrec⟩, rfl⟩
    · simp [State.fresh?, hfile, hstamp]

theorem stampOf?_of_fresh? {s : State} {source : Path} {stamp : Stamp}
    {template : Option (Path × Stamp)} {c : Component} (h : s.fresh? source stamp template = some c) :
    s.ofFile? source = some c ∧ s.stampOf? source = some stamp :=
  ⟨(fresh?_eq_some_iff.mp h).1, (fresh?_eq_some_iff.mp h).2.1⟩

/-- A later record that a parse yields to was there before the hooks. -/
theorem stampOf?_of_newer? {w : World} {source : Path} {template : Option Path} {stamp : Stamp}
    {later : Component} (h : (w.begun source template).newer? source stamp = some later) :
    ∃ recorded, w.state.stampOf? source = some recorded ∧ stamp.isBefore recorded = true ∧
      w.state.ofFile? source = some later := by
  unfold newer? at h
  split at h
  · rename_i hbefore
    rcases w.beginExtraction_state ⟨source, (w.seenTemplate? template).map (·.1)⟩ with hs | ⟨e, -, hs⟩
    · rw [begun, hs] at hbefore h
      cases hrec : w.state.stampOf? source with
      | none =>
        rw [hrec] at hbefore
        cases hbefore
      | some recorded =>
        rw [hrec] at hbefore
        exact ⟨recorded, rfl, hbefore, h⟩
    · rw [begun, hs] at h
      cases h
  · cases h

end World

end TemplateAssist
