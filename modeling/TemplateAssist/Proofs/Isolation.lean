import Mathlib.Logic.Function.Iterate
import TemplateAssist.Proofs.Eras
import TemplateAssist.Proofs.Still

/-!
# Work that a clear overtakes

* `clearsBetween` — how often hooks clear the registry from one number of extractions to another.
* `Reached` — what work in the epoch of its start comes to: no clear has run since, or the registry is as
  the last one left it.
* `ScanOutcome` — how a scan can end: early, overtaken by a clear, or complete.

Principal result: `clears_isolate`.  Everything in the registry was learnt since the last clear, a parse
that is overtaken by a clear has no answer and no effect, a scan that is overtaken leaves the registry as
the clear left it, and a second scan is left out only if the first was completed and not cleared.
-/

namespace TemplateAssist

namespace World

/-! ## Clears in the calls of some work -/

/-- How often hooks clear the registry from one number of extractions to another. -/
def clearsBetween (w : World) (first last : Nat) : Nat :=
  w.hooks.countP fun h => h.action = .clear ∧ first < h.call ∧ h.call ≤ last

theorem clearsBetween_self (w : World) (n : Nat) : w.clearsBetween n n = 0 := by
  refine List.countP_eq_zero.mpr fun h _ => ?_
  simp only [decide_eq_true_eq]
  omega

theorem clearsBetween_succ (w : World) {first last : Nat} (hle : first ≤ last) :
    w.clearsBetween first (last + 1) = w.clearsBetween first last + w.clearsAt (last + 1) := by
  unfold clearsBetween clearsAt
  rw [List.countP_filter]
  induction w.hooks with
  | nil => rfl
  | cons h rest ih =>
    simp only [List.countP_cons, ih, Bool.and_eq_true, decide_eq_true_eq]
    by_cases hclear : h.action = .clear
    · simp only [hclear, true_and]
      split_ifs <;> omega
    · simp only [hclear, false_and, if_false]
      omega

/-- Work in the epoch of `origin`, where it started, has come to a world.  Either no clear has run since,
or the registry is as the last one left it. -/
structure Reached (origin w : World) : Prop where
  hooks : w.hooks = origin.hooks
  le : origin.extractions ≤ w.extractions
  generation : w.generation = origin.generation
  epoch : w.state.epoch = origin.state.epoch + origin.clearsBetween origin.extractions w.extractions
  emptied : w.state.epoch ≠ origin.state.epoch → w.state = State.empty w.state.epoch

namespace Reached

variable {origin w : World}

theorem refl (w : World) : Reached w w where
  hooks := rfl
  le := Nat.le_refl _
  generation := rfl
  epoch := by rw [clearsBetween_self, Nat.add_zero]
  emptied := fun h => absurd rfl h

/-- What a clear left is there in full, with the number of scans that were complete before. -/
theorem of_clears (h : Reached origin w)
    (hclears : 0 < origin.clearsBetween origin.extractions w.extractions) :
    w.state = State.empty (origin.state.epoch + origin.clearsBetween origin.extractions w.extractions) ∧
      w.generation = origin.generation := by
  have hne : w.state.epoch ≠ origin.state.epoch := by
    rw [h.epoch]
    omega
  refine ⟨?_, h.generation⟩
  rw [← h.epoch]
  exact h.emptied hne

theorem begun (h : Reached origin w) (source : Path) (template : Option Path) :
    Reached origin (w.begun source template) := by
  have hcount := w.begun_extractions source template
  have hbegun := w.beginExtraction_eq ⟨source, (w.seenTemplate? template).map (·.1)⟩
  have hclears : w.clearsAt (w.extractions + 1) = origin.clearsAt (w.extractions + 1) := by
    rw [clearsAt, h.hooks, clearsAt]
  have hstate := w.beginExtraction_state_eq ⟨source, (w.seenTemplate? template).map (·.1)⟩
  refine ⟨?_, ?_, ?_, ?_, ?_⟩
  · rw [World.begun, hbegun]
    exact h.hooks
  · rw [hcount]
    exact Nat.le_succ_of_le h.le
  · rw [World.begun, hbegun]
    exact h.generation
  · rw [hcount, clearsBetween_succ _ h.le, ← Nat.add_assoc, ← h.epoch, ← hclears, World.begun, hstate]
    split
    · rename_i hnone
      rw [hnone, Nat.add_zero]
    · rfl
  · rw [World.begun, hstate]
    split
    · exact h.emptied
    · exact fun _ => rfl

/-- A parse on behalf of work that a clear has overtaken writes nothing. -/
theorem parse (h : Reached origin w) {source : Path} {template : Option Path} {w' : World}
    {r : Option Component} (hp : Parsed w source template origin.state.epoch w' r) :
    Reached origin w' := by
  have hbegun := h.begun source template
  cases hp with
  | missing _ _ | fresh _ _ _ | unread _ _ _ _ =>
    exact ⟨h.hooks, h.le, h.generation, h.epoch, h.emptied⟩
  | classless _ _ _ | superseded _ _ _ _ | older _ _ _ _ _ =>
    exact ⟨hbegun.hooks, hbegun.le, hbegun.generation, hbegun.epoch, hbegun.emptied⟩
  | cached _ _ _ he _ =>
    -- the epoch is still that of the start, so no clear has run
    have hepoch := State.insert_epoch (w.begun source template).state
    exact ⟨hbegun.hooks, hbegun.le, hbegun.generation, (hepoch ..).trans hbegun.epoch,
      fun hne => absurd ((hepoch ..).trans he) hne⟩

theorem mergeAll (h : Reached origin w) (he : w.state.epoch = origin.state.epoch) :
    Reached origin w.mergeAll :=
  ⟨h.hooks, h.le, h.generation, h.epoch, fun hne => absurd he hne⟩

theorem parsePairs (pairs : List FilePair) :
    Work.Keeps (Reached origin) False (Work.parsePairs origin.state.epoch pairs) := by
  induction pairs with
  | nil => exact .pure _
  | cons pair rest ih =>
    refine .bind (.ask _) fun current => ?_
    split
    · exact .bind (.step fun w hw => hw.parse (w.parseInEpoch_parsed ..)) fun _ => ih
    · exact .pure _

theorem loadAll (names : List Text) :
    Work.Keeps (Reached origin) True (Work.loadAll origin.state.epoch names) := by
  refine .loadAll (fun w _ child parent hw _ _ _ => ?_) names
  exact Work.Keeps.loadParent (fun v source template hv => hv.parse (v.parseInEpoch_parsed ..))
    (fun _ _ _ _ _ => trivial) _ w hw

end Reached

/-- A parse that is overtaken by a clear has no answer, and leaves the registry as the clear left it. -/
theorem Parsed.of_clears {w w' : World} {source : Path} {template : Option Path} {epoch : Nat}
    {r : Option Component} (h : Parsed w source template epoch w' r) (hepoch : epoch ≤ w.state.epoch)
    (hclears : 0 < w.clearsBetween w.extractions w'.extractions) :
    r = none ∧
      w'.state = State.empty (w.state.epoch + w.clearsBetween w.extractions w'.extractions) := by
  have hreached := (Reached.refl w).begun source template
  have hnone : ¬ 0 < w.clearsBetween w.extractions w.extractions := by
    rw [clearsBetween_self]
    exact Nat.lt_irrefl 0
  have hsame : (w.begun source template).state.epoch = epoch →
      ¬ 0 < w.clearsBetween w.extractions (w.begun source template).extractions := by
    intro he
    rw [hreached.epoch] at he
    omega
  cases h with
  | missing _ _ | fresh _ _ _ | unread _ _ _ _ => exact absurd hclears hnone
  | classless _ _ _ | superseded _ _ _ _ => exact ⟨rfl, (hreached.of_clears hclears).1⟩
  | older _ _ _ he _ | cached _ _ _ he _ => exact absurd hclears (hsame he)

/-! ## Full scans -/

/-- How a scan can end: early, overtaken by a clear, or complete. -/
inductive ScanOutcome (w : World) : Except ExtensionError Unit × World → Prop
  | failed (e : ExtensionError) {w' : World} (h : Reached w w') : ScanOutcome w (.error e, w')
  | overtaken {w' : World} (h : Reached w w') (he : w'.state.epoch ≠ w.state.epoch) :
      ScanOutcome w (.ok (), w')
  | completed {w' : World} (h : Reached w w') (he : w'.state.epoch = w.state.epoch)
      (hs : w'.state.scanned = true) :
      ScanOutcome w (.ok (), { w' with generation := w'.generation + 1 })

end World

namespace Work

theorem loadAll_of_false {epoch : Nat} {names : List Text} {w w' : World}
    (h : loadAll epoch names w = (.ok false, w')) : w'.state.epoch ≠ epoch := by
  induction names generalizing w with
  | nil => cases h
  | cons name rest ih =>
    rw [loadAll, bind_of_ok (rfl : ask (·.state.epoch) w = _)] at h
    split at h
    · rename_i hne
      obtain rfl : w = w' := congrArg Prod.snd h
      exact hne
    · cases hr : loadAncestors name epoch w with
      | mk r v =>
        cases r with
        | error e =>
          rw [bind_of_error hr] at h
          cases h
        | ok _ =>
          rw [bind_of_ok hr] at h
          exact ih h

/-- Where the merging of a scan ends, and what its answer says about clears. -/
theorem flattenAll_reached {origin w : World} (h : World.Reached origin w) (names : List Text) :
    ∃ r w', flattenAll origin.state.epoch names w = (r, w') ∧ World.Reached origin w' ∧
      (r = .ok false → w'.state.epoch ≠ origin.state.epoch) ∧
      (r = .ok true → w'.state.epoch = origin.state.epoch ∧ w'.state.scanned = true) := by
  have hload := (World.Reached.loadAll names w h).1
  rw [flattenAll]
  cases hr : loadAll origin.state.epoch names w with
  | mk r v =>
    rw [hr] at hload
    cases r with
    | error e =>
      rw [bind_of_error hr]
      exact ⟨.error e, v, rfl, hload, by simp, by simp⟩
    | ok loaded =>
      rw [bind_of_ok hr]
      cases loaded with
      | false => exact ⟨.ok false, v, rfl, hload, fun _ => loadAll_of_false hr, by simp⟩
      | true =>
        rw [Bool.not_true, if_neg Bool.false_ne_true,
          bind_of_ok (rfl : ask (·.state.epoch) v = _)]
        split
        · rename_i hne
          exact ⟨.ok false, v, rfl, hload, fun _ => hne, by simp⟩
        · rename_i he
          have he : v.state.epoch = origin.state.epoch := not_not.mp he
          exact ⟨.ok true, v.mergeAll, rfl, hload.mergeAll he, by simp, fun _ => ⟨he, rfl⟩⟩

theorem scanInOrder_outcome (order : List Text → List Text) (w : World) :
    World.ScanOutcome w (scanInOrder order w) := by
  have hnoted : World.Reached w (w.collectPairs.1.noteSources w.collectPairs.2) := by
    obtain ⟨log, hlog⟩ := w.exists_collectPairs_eq
    obtain ⟨sources, heq, -⟩ := w.collectPairs.1.noteSources_spec w.collectPairs.2
    have hrefl := World.Reached.refl w
    rw [heq, hlog]
    exact ⟨rfl, hrefl.le, rfl, hrefl.epoch, fun hne => absurd rfl hne⟩
  obtain ⟨_, parsed, hparse, hparsed⟩ :=
    (World.Reached.parsePairs w.collectPairs.2 _ hnoted).exists_ok
  obtain ⟨r, w', hflatten, hw', hfalse, htrue⟩ := 
    flattenAll_reached hparsed (order parsed.state.components.keys)
  rw [scanInOrder_of_parsed hparse]
  cases r with
  | error e =>
    rw [bind_of_error hflatten]
    exact .failed e hw'
  | ok completed =>
    rw [bind_of_ok hflatten]
    cases completed with
    | false => exact .overtaken hw' (hfalse rfl)
    | true => exact .completed hw' (htrue rfl).1 (htrue rfl).2

/-- **How a full scan ends.** -/
theorem scan_outcome (w : World) : World.ScanOutcome w (scan w) := by
  have hreached : ∀ {w' : World}, World.Reached w.nextOrder.1 w' → World.Reached w w' :=
    fun h => ⟨h.hooks, h.le, h.generation, h.epoch, h.emptied⟩
  have houtcome := scanInOrder_outcome w.nextOrder.2.arrange w.nextOrder.1
  rw [← scan_eq] at houtcome
  generalize scan w = result at houtcome
  cases houtcome with
  | failed e h => exact .failed e (hreached h)
  | overtaken h he => exact .overtaken (hreached h) he
  | completed h he hs => exact .completed (hreached h) he hs

theorem scanAll_snd (w : World) : (scanAll w).2 = (scan w).2 := by
  rw [scanAll_eq]
  exact bind_snd (fun _ _ => rfl) w

/-- A scan that is overtaken by a clear leaves the registry as the clear left it, and does not count as
complete. -/
theorem scanAll_of_clears {w : World}
    (h : 0 < w.clearsBetween w.extractions (scanAll w).2.extractions) :
    (scanAll w).2.state =
        State.empty (w.state.epoch + w.clearsBetween w.extractions (scanAll w).2.extractions) ∧
      (scanAll w).2.generation = w.generation := by
  rw [scanAll_snd] at h ⊢
  have houtcome := scan_outcome w
  generalize scan w = result at houtcome h
  cases houtcome with
  | failed _ hw' | overtaken hw' _ => exact hw'.of_clears h
  | completed hw' he _ =>
    have hnone : w.clearsBetween w.extractions _ = 0 := Nat.left_eq_add.mp (he.symm.trans hw'.epoch)
    exact absurd h (hnone ▸ Nat.lt_irrefl 0)

/-- A scan that was completed and not cleared serves another one that was asked for when it started. -/
theorem scanFrom_of_completed {w w' : World} {cs : List Component} (h : scanAll w = (.ok cs, w'))
    (hclears : w.clearsBetween w.extractions w'.extractions = 0) :
    scanFrom w.generation w' = (.ok cs, w') := by
  have houtcome := scan_outcome w
  rw [scanAll_eq] at h
  generalize hresult : scan w = result at houtcome
  cases houtcome with
  | failed e _ =>
    rw [bind_of_error hresult] at h
    cases h
  | overtaken hw' he =>
    rw [bind_of_ok hresult] at h
    cases h
    rw [hw'.epoch, hclears] at he
    exact absurd rfl he
  | @completed v hv _ hs =>
    rw [bind_of_ok hresult] at h
    cases h
    have hjoined : (v.generation + 1 ≠ w.generation && v.state.scanned) = true := by
      rw [hs, hv.generation]
      simp
    exact scanFrom_of_joined hjoined

theorem scanTwice_of_ok {w w' w'' : World} {first second : List Component}
    (hfirst : scanAll w = (.ok first, w')) (hsecond : scanFrom w.generation w' = (.ok second, w'')) :
    scanTwice w = (.ok (first, second), w'') := by
  have hfirst : scanFrom w.generation w = (.ok first, w') := hfirst
  rw [scanTwice, bind_of_ok (rfl : ask (·.generation) w = _), bind_of_ok hfirst, bind_of_ok hsecond]
  rfl

/-- A scan that ended early or was cleared, during its calls or later, serves no other. -/
theorem scanFrom_of_clears {w : World} {k : Nat}
    (h : (∃ e, (scanAll w).1 = .error e) ∨
      0 < w.clearsBetween w.extractions (scanAll w).2.extractions ∨ 0 < k) :
    scanFrom w.generation (World.clear^[k] (scanAll w).2) = scanAll (World.clear^[k] (scanAll w).2) := by
  rw [scanAll_eq (World.clear^[k] _)]
  refine scanFrom_of_not_joined ?_
  cases k with
  | succ k =>
    rw [Function.iterate_succ_apply']
    exact Bool.and_false _
  | zero =>
    -- only a complete scan counts, and the first one was not
    have hgeneration : (scanAll w).2.generation = w.generation := by
      rcases h with ⟨e, he⟩ | hclears | hk
      · rw [scanAll_snd]
        have houtcome := scan_outcome w
        rw [scanAll_eq] at he
        generalize hresult : scan w = result at houtcome
        cases houtcome with
        | failed _ hw' | overtaken hw' _ => exact hw'.generation
        | completed _ _ _ =>
          rw [bind_of_ok hresult] at he
          cases he
      · exact (scanAll_of_clears hclears).2
      · exact absurd hk (Nat.lt_irrefl 0)
    show (decide ((scanAll w).2.generation ≠ w.generation) && _) = false
    rw [hgeneration]
    simp

end Work

namespace World

/-- **Clears isolate what comes after from what came before.**  After every session, in which ancestors may
be loaded in any order, everything in the registry was learnt in the era since the last clear.  A parse that
is overtaken by a clear has no answer and leaves the registry as the clear left it, and so does a scan, which
does not count as complete then.  Of two scans asked for together, the second is left out and has the answer
of the first if that one was completed and not cleared since, and it is carried out otherwise. -/
theorem clears_isolate :
    (∀ (disk : Disk) (options : Options) (hooks : List Hook) (orders : List LoadOrder) (steps : List Step),
      let w := start disk options hooks orders
      (w.run steps).state.LearntIn ((Era.start disk).run w steps)) ∧
      (∀ (w : World) (source : Path) (template : Option Path) (epoch : Nat), epoch ≤ w.state.epoch →
        let parsed := w.parseInEpoch source template epoch
        let clears := w.clearsBetween w.extractions parsed.1.extractions
        0 < clears → parsed.2 = none ∧ parsed.1.state = State.empty (w.state.epoch + clears)) ∧
      ∀ w : World,
        let first := Work.scanAll w
        let clears := w.clearsBetween w.extractions first.2.extractions
        (0 < clears → first.2.state = State.empty (w.state.epoch + clears) ∧
          first.2.generation = w.generation) ∧
        (∀ cs, first.1 = .ok cs → clears = 0 →
          Work.scanFrom w.generation first.2 = (.ok cs, first.2) ∧
            Work.scanTwice w = (.ok (cs, cs), first.2)) ∧
        ∀ k, (∃ e, first.1 = .error e) ∨ 0 < clears ∨ 0 < k →
          Work.scanFrom w.generation (clear^[k] first.2) = Work.scanAll (clear^[k] first.2) := by
  refine ⟨fun disk options hooks orders steps => ?_, fun w source template epoch hepoch => ?_, fun w => ?_⟩
  · have hstart : (start disk options hooks orders).Told (Era.start disk) :=
      ⟨rfl, .empty 0, .empty 0 _⟩
    exact (run_told steps hstart).learnt
  · exact (w.parseInEpoch_parsed source template epoch).of_clears hepoch
  · refine ⟨Work.scanAll_of_clears, fun cs hcs hclears => ?_, fun k => Work.scanFrom_of_clears⟩
    have hsecond := Work.scanFrom_of_completed (Prod.ext hcs rfl) hclears
    exact ⟨hsecond, Work.scanTwice_of_ok (Prod.ext hcs rfl) hsecond⟩

/-- Two classes, one of which extends the other. -/
def pairedClasses : List FileStep :=
  [.writeIn "A.php" "class A { public $x; }" 1000,
    .writeIn "B.php" "class B extends A {}" 1000]

/-- The first of two scans is overtaken by a clear while it reads the second class, so the other one is
carried out, and everything in the registry comes from the calls of that one. -/
theorem clears_isolate_pairedClasses :
    let w := start (.workspace pairedClasses) .workspace [⟨2, .clear⟩] [.latestFirst]
    let e := (Era.start (.workspace pairedClasses)).run w [.scanTwice]
    (w.run [.scanTwice]).extractions = 4 ∧ e.calls.length = 2 ∧ e.noted.length = 2 ∧
      (w.run [.scanTwice]).state.components.keys.length = 2 ∧
      (w.run [.scanTwice]).state.LearntIn e ∧ (Work.scanAll w).2.state = State.empty 1 ∧
      Work.scanFrom w.generation (Work.scanAll w).2 = Work.scanAll (Work.scanAll w).2 := by
  intro w e
  obtain ⟨hlearnt, -, hscans⟩ := clears_isolate
  obtain ⟨hovertaken, -, hagain⟩ := hscans w
  have hclears : w.clearsBetween w.extractions (Work.scanAll w).2.extractions = 1 := by decide +kernel
  have hstate := (hovertaken (hclears ▸ Nat.one_pos)).1
  rw [hclears] at hstate
  exact ⟨by decide +kernel, by decide +kernel, by decide +kernel, by decide +kernel,
    hlearnt (.workspace pairedClasses) .workspace _ _ _, hstate,
    hagain 0 (Or.inr (Or.inl (hclears ▸ Nat.one_pos)))⟩

end World

end TemplateAssist
