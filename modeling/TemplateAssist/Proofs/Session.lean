import TemplateAssist.Proofs.Work

/-!
# Sessions

* `Step` — what can be asked of a registry, and the changes to the disk in between.
* `World.step`, `World.run` — a world after one step and after a session of them.  A step that ends early
  leaves what it has done.  `LoadOrder.exists_arrange_eq` — no order in which a scan could load ancestors is
  left out.
* `World.workspace` — a small world to try things on.
* `World.clearsFirst` — whether a step clears the registry before it does anything else; `World.notedBy` — the
  sources that it remembers before it reads any file.
* `World.scansAgain` — whether the second of two scans asked for together is carried out.
* `Held.step`, `Held.step_of_clear` — what is held holds after a step, if it held before or after the clear
  with which the step starts; `Kept.run` — what no change to a registry breaks holds after every session.
-/

namespace TemplateAssist

/-- One step of a session.  Questions that change nothing are left out. -/
inductive Step where
  | scan
  | scanTwice
  | reload
  | clear
  | parse (source : Path) (template : Option Path)
  | update (path : Path)
  | remove (path : Path)
  | members (template : Path)
  | componentForTemplate (template : Path)
  | tags
  | resolve (name : Text)
  | setSearchPaths (paths : List Path)
  | reconfigure (options : Options)
  | change (step : FileStep)
  deriving Repr, DecidableEq

namespace World

def step (w : World) : Step → World
  | .scan => (Work.scanAll w).2
  | .scanTwice => (Work.scanTwice w).2
  | .reload => (Work.reload w).2
  | .clear => w.clear
  | .parse source template => (w.parseOne source template).1
  | .update path => (Work.update path w).2
  | .remove path => (Work.remove path w).2
  | .members template => (Work.membersFor template w).2
  | .componentForTemplate template => (Work.componentForTemplate template w).2
  | .tags => (Work.tags w).2
  | .resolve name => (Work.resolveInheritance name w).2
  | .setSearchPaths paths => (Work.setSearchPaths paths w).2
  | .reconfigure options => (Work.reconfigure options w).2
  | .change step => w.change step

def run (w : World) (steps : List Step) : World :=
  steps.foldl step w

end World

/-- Every arrangement of the cached names is that of a load order. -/
theorem LoadOrder.exists_arrange_eq {names arranged : List Text} (h : arranged.Perm names) :
    ∃ order : LoadOrder, order.arrange names = arranged := by
  refine ⟨⟨fun others => if others = names then arranged else others, fun others => ?_⟩, if_pos rfl⟩
  split
  · rename_i he
    rwa [he]
  · exact .refl _

/-- A file written under the workspace `/w`. -/
def FileStep.writeIn (name text : String) (time : Int) : FileStep :=
  .write ⟨("/w/" ++ name).toList⟩ (.text text.toList) time

/-- The disk with the workspace `/w` after some changes. -/
def Disk.workspace (files : List FileStep) : Disk :=
  files.foldl apply (ofDirectories [⟨"/w".toList⟩])

def Options.workspace : Options :=
  ⟨[⟨"/w".toList⟩], "php".toList, "html".toList⟩

/-- The workspace with an empty registry. -/
def World.workspace (files : List FileStep) : World :=
  start (.workspace files) .workspace [] []

namespace World

/-- Whether a step clears the registry before it does anything else. -/
def clearsFirst (w : World) : Step → Bool
  | .clear | .reload => true
  | .setSearchPaths paths => !w.options.same { w.options with searchPaths := paths }
  | .reconfigure options => !w.options.same options
  | _ => false

/-- The options with which a step works. -/
def optionsFor (w : World) : Step → Options
  | .setSearchPaths paths => { w.options with searchPaths := paths }
  | .reconfigure options => options
  | _ => w.options

/-- The sources that a step remembers before it reads any file.  Two scans asked for together are two steps
here. -/
def notedBy (w : World) : Step → List Path
  | .scan | .reload => w.sources
  | .tags => if w.state.components.isEmpty then w.sources else []
  | .setSearchPaths paths => rescanned { w.options with searchPaths := paths }
  | .reconfigure options => rescanned options
  | .update path => w.remembered path
  | .remove path =>
    match w.options.sourcePathFor path with
    | .ok source => if !source.same path && w.disk.present source then w.remembered source else []
    | .error _ => []
  | _ => []
where
  rescanned (options : Options) : List Path :=
    if w.options.same options then [] else { w with options := options }.sources

/-- The second of two scans asked for together is carried out: the first ended, and does not serve it. -/
def scansAgain (w : World) : Bool :=
  match Work.scanAll w with
  | (.error _, _) => false
  | (.ok _, w') => !(w'.generation ≠ w.generation && w'.state.scanned)

theorem step_scanTwice (w : World) :
    w.step .scanTwice = if w.scansAgain then (w.step .scan).step .scan else w.step .scan := by
  show (Work.scanTwice w).2 = if _ then (Work.scanAll (Work.scanAll w).2).2 else (Work.scanAll w).2
  rw [Work.scanTwice, Work.bind_of_ok (rfl : Work.ask (·.generation) w = _), scansAgain]
  cases hr : Work.scanAll w with
  | mk r w' =>
    have hr : Work.scanFrom w.generation w = (r, w') := hr
    cases r with
    | error e =>
      rw [Work.bind_of_error hr]
      rfl
    | ok first =>
      rw [Work.bind_of_ok hr, Work.bind_snd fun _ _ => rfl]
      simp only
      cases hjoined : (decide (w'.generation ≠ w.generation) && w'.state.scanned) with
      | true =>
        rw [Work.scanFrom_of_joined hjoined]
        rfl
      | false =>
        rw [Work.scanFrom_of_not_joined hjoined, ← Work.scanAll_eq]
        rfl

end World

namespace Work

variable {P : World → Prop} {noted : World → Path → Prop}

/-- What is held holds after every step that leaves the disk to the hooks and does not clear the registry
first. -/
theorem Held.step (hP : Held P noted) {w : World} (hw : P w) {s : Step} (hs : ∀ fs, s ≠ .change fs)
    (htwice : s ≠ .scanTwice) (hclear : w.clearsFirst s = false) (hnoted : Noting noted w (w.notedBy s)) :
    P (w.step s) := by
  have hsame : ∀ options, w.options.same options = true → P (reconfigure options w).2 := by
    intro options hsame
    rw [reconfigure, bind_of_ok (rfl : ask _ w = _), if_pos hsame]
    exact hw
  cases s with
  | scan => exact (hP.scanAll hw hnoted).1
  | scanTwice => exact absurd rfl htwice
  | reload => cases hclear
  | clear => cases hclear
  | parse source template => exact hP.parse w source template w.state.epoch (Nat.le_refl _) hw
  | update path => exact (hP.update path hw hnoted).1
  | remove path =>
    refine (hP.remove path hw fun source hs hgone => ?_).1
    rw [World.notedBy, hs] at hnoted
    simp only at hnoted
    rwa [if_pos hgone] at hnoted
  | members template => exact (hP.membersFor template w hw).1
  | componentForTemplate template => exact (hP.componentForTemplate template w hw).1
  | tags =>
    refine (hP.tags hw fun hempty => ?_).1
    rwa [World.notedBy, if_pos hempty] at hnoted
  | resolve name => exact (hP.resolveInheritance name w hw).1
  | setSearchPaths paths => exact hsame _ (by simpa [World.clearsFirst] using hclear)
  | reconfigure options => exact hsame _ (by simpa [World.clearsFirst] using hclear)
  | change fs => exact absurd rfl (hs fs)

/-- What is held after the clear with which a step starts holds after the step. -/
theorem Held.step_of_clear (hP : Held P noted) {w : World} {s : Step} (hclear : w.clearsFirst s = true)
    (hw : P { w with options := w.optionsFor s, state := w.state.cleared })
    (hnoted : Noting noted w (w.notedBy s)) : P (w.step s) := by
  have hscan : ∀ options, w.options.same options = false →
      Noting noted w (World.notedBy.rescanned w options) →
      P { w with options := options, state := w.state.cleared } → P (reconfigure options w).2 := by
    intro options hsame hnoted hw
    rw [World.notedBy.rescanned, hsame, if_neg Bool.false_ne_true] at hnoted
    rw [reconfigure, bind_of_ok (rfl : ask _ w = _), if_neg (by simp [hsame])]
    have hrest : KeepsAt P True (do let _ ← Work.scanAll; return true)
        { w with options := options, state := w.state.cleared } :=
      (hP.scanAll hw (hnoted.scanned rfl rfl rfl)).bind fun _ => .pure _
    exact hrest.1
  cases s with
  | reload => exact (hP.scanAll hw (hnoted.scanned rfl rfl rfl)).1
  | clear => exact hw
  | setSearchPaths paths => exact hscan _ (by simpa [World.clearsFirst] using hclear) hnoted hw
  | reconfigure options => exact hscan _ (by simpa [World.clearsFirst] using hclear) hnoted hw
  | _ => cases hclear

namespace Kept

/-- What no change to a registry breaks holds after every step that leaves the disk to the hooks. -/
theorem step (hP : Kept P) {w : World} (hw : P w) {s : Step} (hs : ∀ fs, s ≠ .change fs) :
    P (w.step s) := by
  have hscan : ∀ v, P v → P (v.step .scan) := fun v hv =>
    (hP.held.scanAll hv fun _ _ _ _ => trivial).1
  by_cases htwice : s = .scanTwice
  · rw [htwice, World.step_scanTwice]
    split
    · exact hscan _ (hscan w hw)
    · exact hscan w hw
  · cases hclear : w.clearsFirst s with
    | false => exact hP.held.step hw hs htwice hclear fun _ _ _ _ => trivial
    | true => exact hP.held.step_of_clear hclear (hP.reset w _ hw) fun _ _ _ _ => trivial

/-- What neither a change to a registry nor one to the disk breaks holds after every session. -/
theorem run (hP : Kept P) (hchange : ∀ w fs, P w → P (w.change fs)) (steps : List Step) {w : World}
    (hw : P w) : P (w.run steps) := by
  induction steps generalizing w with
  | nil => exact hw
  | cons s rest ih =>
    refine ih ?_
    by_cases hs : ∃ fs, s = .change fs
    · obtain ⟨fs, rfl⟩ := hs
      exact hchange w fs hw
    · exact hP.step hw fun fs he => hs ⟨fs, he⟩

end Kept

end Work

end TemplateAssist
