import TemplateAssist.Proofs.Orders

/-!
# Runs of loading

Loading the ancestors of a class goes from child to parent, and each parent that is not cached is first looked
for on the disk.  The fuel of `Work.loadFrom` is only a bound on the way, and it is never used up.

* `LoadRun` — the way itself, without fuel: the names that are visited, the paths that are looked at and the
  outcome.
* `World.classes` — the classes that can ever be cached: those that are, and one for each text on the disk or
  still to be written by a hook.
* `Confined` — no other class is cached and no other can be read.  No parse leads out of it.

Principal results: `LoadRun.nodup`, a run visits no name twice, and `exists_loadRun`, with fuel for all these
classes loading is a run.
-/

namespace TemplateAssist

namespace Work

/-- One way along a chain of parents.  Besides the names that were seen before, the name it has come to and the
world there, a run has the names it visits, the paths it looks at and its outcome. -/
inductive LoadRun (epoch : Nat) : List Text → Text → World → List Text → List Path →
    Except ExtensionError Unit × World → Prop
  | seen {seen : List Text} {current : Text} {w : World} (h : current ∈ seen) :
      LoadRun epoch seen current w [] [] (.ok (), w)
  | absent {seen : List Text} {current : Text} {w : World} (h : current ∉ seen)
      (hc : w.state.lookup? current = none) : LoadRun epoch seen current w [current] [] (.ok (), w)
  | root {seen : List Text} {current : Text} {w : World} {child : Component} (h : current ∉ seen)
      (hc : w.state.lookup? current = some child) (hp : child.parentName? = none) :
      LoadRun epoch seen current w [current] [] (.ok (), w)
  | cached {seen : List Text} {current parent : Text} {w : World} {child : Component}
      {visited : List Text} {looked : List Path} {out : Except ExtensionError Unit × World}
      (h : current ∉ seen) (hc : w.state.lookup? current = some child)
      (hp : child.parentName? = some parent) (hhas : w.state.components.has parent = true)
      (rest : LoadRun epoch (current :: seen) parent w visited looked out) :
      LoadRun epoch seen current w (current :: visited) looked out
  | loaded {seen : List Text} {current parent : Text} {w w' : World} {child : Component}
      {visited : List Text} {looked : List Path} {out : Except ExtensionError Unit × World}
      (h : current ∉ seen) (hc : w.state.lookup? current = some child)
      (hp : child.parentName? = some parent) (hmissing : w.state.components.has parent = false)
      (hload : loadParent (w.parentSource child parent) epoch w = (.ok (), w'))
      (hhas : w'.state.components.has parent = true)
      (rest : LoadRun epoch (current :: seen) parent w' visited looked out) :
      LoadRun epoch seen current w (current :: visited) (w.parentSource child parent :: looked) out
  | unloaded {seen : List Text} {current parent : Text} {w w' : World} {child : Component}
      (h : current ∉ seen) (hc : w.state.lookup? current = some child)
      (hp : child.parentName? = some parent) (hmissing : w.state.components.has parent = false)
      (hload : loadParent (w.parentSource child parent) epoch w = (.ok (), w'))
      (hhas : w'.state.components.has parent = false) :
      LoadRun epoch seen current w [current] [w.parentSource child parent] (.ok (), w')
  | refused {seen : List Text} {current parent : Text} {w w' : World} {child : Component}
      {e : ExtensionError} (h : current ∉ seen) (hc : w.state.lookup? current = some child)
      (hp : child.parentName? = some parent) (hmissing : w.state.components.has parent = false)
      (hload : loadParent (w.parentSource child parent) epoch w = (.error e, w')) :
      LoadRun epoch seen current w [current] [w.parentSource child parent] (.error e, w')

/-- **No name is visited twice.** -/
theorem LoadRun.nodup {epoch : Nat} {seen visited : List Text} {current : Text} {w : World}
    {looked : List Path} {out : Except ExtensionError Unit × World}
    (h : LoadRun epoch seen current w visited looked out) : visited.Nodup ∧ ∀ n ∈ visited, n ∉ seen := by
  have hpass : ∀ {seen rest : List Text} {current : Text}, current ∉ seen →
      (rest.Nodup ∧ ∀ n ∈ rest, n ∉ current :: seen) →
      (current :: rest).Nodup ∧ ∀ n ∈ current :: rest, n ∉ seen := by
    intro seen rest current hmem hrest
    refine ⟨List.nodup_cons.mpr ⟨fun h => hrest.2 current h List.mem_cons_self, hrest.1⟩, fun n hn => ?_⟩
    rcases List.mem_cons.mp hn with rfl | hn
    · exact hmem
    · exact fun h => hrest.2 n hn (List.mem_cons_of_mem _ h)
  have hnone : ∀ seen : List Text, ([] : List Text).Nodup ∧ ∀ n ∈ ([] : List Text), n ∉ seen :=
    fun seen => ⟨List.nodup_nil, fun n hn => absurd hn List.not_mem_nil⟩
  induction h with
  | seen _ => exact hnone _
  | absent hmem _ | root hmem _ _ | unloaded hmem _ _ _ _ _ | refused hmem _ _ _ _ =>
    exact hpass hmem (hnone _)
  | cached hmem _ _ _ _ ih | loaded hmem _ _ _ _ _ _ ih => exact hpass hmem ih

/-- A run is determined by where it starts. -/
theorem LoadRun.unique {epoch : Nat} {seen visited visited' : List Text} {current : Text} {w : World}
    {looked looked' : List Path} {out out' : Except ExtensionError Unit × World}
    (h : LoadRun epoch seen current w visited looked out)
    (h' : LoadRun epoch seen current w visited' looked' out') :
    visited = visited' ∧ looked = looked' ∧ out = out' := by
  -- two rules for one name have conditions that contradict each other
  induction h generalizing visited' looked' out' <;> cases h' <;> grind

theorem loadFrom_of_refused {epoch fuel : Nat} {seen : List Text} {current parent : Text} {w w' : World}
    {child : Component} {e : ExtensionError} (h : current ∉ seen)
    (hc : w.state.lookup? current = some child) (hp : child.parentName? = some parent)
    (hmissing : w.state.components.has parent = false)
    (hload : loadParent (w.parentSource child parent) epoch w = (.error e, w')) :
    loadFrom epoch (fuel + 1) seen current w = (.error e, w') := by
  have hnot : seen.contains current = false := by simpa using h
  have hask : ask (·.state.lookup? current) w = (.ok (some child), w) := by rw [ask, hc]
  have hhas : ask (·.state.components.has parent) w = (.ok false, w) := by rw [ask, hmissing]
  have hsource : ask (·.parentSource child parent) w = (.ok (w.parentSource child parent), w) := rfl
  rw [loadFrom, hnot, if_neg Bool.false_ne_true, bind_of_ok hask]
  simp only [hp]
  rw [bind_of_ok hhas, Bool.not_false, if_pos rfl, bind_of_ok hsource, bind_of_error hload]

end Work

/-! ## The classes that can be met -/

def Content.class? : Content → Option Text
  | .text t => (Source.signatures? t).map (·.className)
  | .binary => none

def Node.class? : Node → Option Text
  | .file f => f.content.class?
  | .directory => none

def FileStep.class? : FileStep → Option Text
  | .write _ content _ => content.class?
  | .touch _ _ | .delete _ | .makeDirectory _ => none

namespace Disk

/-- The class of a file after a change stood on the disk before, or the change brings it. -/
theorem class?_of_apply {d : Disk} {fs : FileStep} {place : List Text} {f : File}
    (h : (d.apply fs).node? place = some (.file f)) :
    (∃ old, d.node? place = some (.file old) ∧ old.content.class? = f.content.class?) ∨
      fs.class? = f.content.class? := by
  rcases file_of_apply h with hold | ⟨-, hfs | ⟨-, old, hold, hcontent⟩⟩
  · exact Or.inl ⟨f, hold, rfl⟩
  · exact Or.inr (by rw [hfs, FileStep.class?])
  · exact Or.inl ⟨old, hold, by rw [hcontent]⟩

end Disk

namespace State

theorem has_of_evictFile {s : State} {source : Path} {n : Text}
    (h : (s.evictFile source).1.components.has n = true) : s.components.has n = true := by
  rcases s.evictFile_components source with ⟨-, hcs⟩ | ⟨name, c, -, -, hcs⟩
  · rwa [hcs] at h
  · rw [hcs, Table.has, Table.get?_erase] at h
    split at h
    · cases h
    · exact h

/-- An insertion brings in no other class than that of the component. -/
theorem has_of_insert {s : State} {c : Component} {stamp : Stamp} {templateStamp : Option Stamp} {n : Text}
    (h : (s.insert c stamp templateStamp).components.has n = true) :
    n = c.name ∨ s.components.has n = true := by
  have hfile : ∀ {m}, (s.releaseFile c).components.has m = true → s.components.has m = true := by
    intro m hm
    unfold releaseFile at hm
    split at hm
    · exact has_of_evictFile hm
    · exact hm
  have hclass : ∀ {m}, (s.released c).components.has m = true → s.components.has m = true := by
    intro m hm
    refine hfile ?_
    unfold released releaseClass at hm
    split at hm
    · split at hm
      · exact hm
      · exact has_of_evictFile hm
    · exact hm
  obtain ⟨sources, heq⟩ := s.insert_eq c stamp templateStamp
  rw [heq] at h
  have h : ((s.released c).components.insert c.name c).has n = true := h
  rw [Table.has, Table.get?_insert] at h
  split at h
  · rename_i hname
    exact Or.inl hname.symm
  · exact Or.inr (hclass h)

end State

namespace World

/-- The classes that can ever be cached: those that are, and one for each text on the disk or still to be
written by a hook. -/
def classes (w : World) : List Text :=
  w.state.components.keys ++ (w.disk.nodes.filterMap fun e => e.2.class?) ++
    w.hooks.filterMap fun h => h.action.change?.bind FileStep.class?

theorem length_classes_lt (w : World) : w.classes.length < w.classBound := by
  have hnodes := List.length_filterMap_le (fun e : List Text × Node => e.2.class?) w.disk.nodes
  have hhooks := List.length_filterMap_le (fun h : Hook => h.action.change?.bind FileStep.class?) w.hooks
  rw [classes, List.length_append, List.length_append, Table.keys, List.length_map, classBound]
  omega

/-- No class is cached but the known ones, and no other is on the disk or to be written. -/
structure Confined (known : List Text) (w : World) : Prop where
  cached : ∀ n, w.state.components.has n = true → n ∈ known
  files : ∀ place f n, w.disk.node? place = some (.file f) → f.content.class? = some n → n ∈ known
  hooks : ∀ h ∈ w.hooks, ∀ fs n, h.action.change? = some fs → fs.class? = some n → n ∈ known

theorem confined_classes (w : World) : Confined w.classes w where
  cached := by
    intro n hn
    obtain ⟨c, hc⟩ := Table.has_eq_true_iff.mp hn
    exact List.mem_append_left _ (List.mem_append_left _ (Table.mem_keys_of_get? hc))
  files := by
    intro place f n hnode hn
    have hne : place ≠ [] := by
      rintro rfl
      cases hnode
    rw [Disk.node?_of_ne_nil hne] at hnode
    exact List.mem_append_left _ (List.mem_append_right _
      (List.mem_filterMap.mpr ⟨_, Table.mem_of_get? hnode, hn⟩))
  hooks := by
    intro h hh fs n hfs hn
    refine List.mem_append_right _ (List.mem_filterMap.mpr ⟨h, hh, ?_⟩)
    rw [hfs]
    exact hn

variable {known : List Text} {w : World}

/-- The hooks of an extraction bring in known classes only. -/
theorem Confined.begun (h : Confined known w) (source : Path) (template : Option Path) :
    Confined known (w.begun source template) := by
  have hfold : ∀ (changes : List FileStep) (d : Disk),
      (∀ fs ∈ changes, ∀ n, fs.class? = some n → n ∈ known) →
      (∀ place f n, d.node? place = some (.file f) → f.content.class? = some n → n ∈ known) →
      ∀ place f n, (changes.foldl Disk.apply d).node? place = some (.file f) → f.content.class? = some n →
        n ∈ known := by
    intro changes
    induction changes with
    | nil => intro d _ hd; exact hd
    | cons fs rest ih =>
      intro d hchanges hd
      refine ih (d.apply fs) (fun fs hfs => hchanges fs (List.mem_cons_of_mem _ hfs)) ?_
      intro place f n hnode hn
      rcases Disk.class?_of_apply hnode with ⟨f', hold, hclass⟩ | hclass
      · exact hd place f' n hold (hclass.trans hn)
      · exact hchanges fs List.mem_cons_self n (hclass.trans hn)
  rw [World.begun, beginExtraction_eq]
  refine ⟨fun n hn => ?_, hfold _ w.disk ?_ h.files, h.hooks⟩
  · rcases w.beginExtraction_state ⟨source, (w.seenTemplate? template).map (·.1)⟩ with hs | ⟨_, -, hs⟩
    · rw [hs] at hn
      exact h.cached n hn
    · rw [hs] at hn
      cases hn
  · intro fs hfs n hn
    obtain ⟨hook, hhook, hchange⟩ := List.mem_filterMap.mp hfs
    exact h.hooks hook (List.mem_filter.mp hhook).1 fs n hchange hn

/-- **No parse leads out of the known classes.** -/
theorem Confined.parse (h : Confined known w) (source : Path) (template : Option Path) (epoch : Nat) :
    Confined known (w.parseInEpoch source template epoch).1 := by
  have hbegun := h.begun source template
  have hparsed := w.parseInEpoch_parsed source template epoch
  generalize (w.parseInEpoch source template epoch).1 = w' at hparsed ⊢
  generalize (w.parseInEpoch source template epoch).2 = r at hparsed
  cases hparsed with
  | missing _ _ | fresh _ _ _ | unread _ _ _ _ => exact ⟨h.cached, h.files, h.hooks⟩
  | classless _ _ _ | superseded _ _ _ _ | older _ _ _ _ _ => exact ⟨hbegun.cached, hbegun.files, hbegun.hooks⟩
  | @cached _ stamp text signatures hr hs _ _ =>
    refine ⟨fun n hn => ?_, hbegun.files, hbegun.hooks⟩
    rcases State.has_of_insert hn with rfl | hn
    · obtain ⟨time, -, hnode⟩ := Disk.modified_of_readText hr.readText
      refine h.files _ _ _ hnode ?_
      show (Source.signatures? text).map (·.className) = some signatures.className
      rw [hs, Option.map_some]
    · exact hbegun.cached n hn

theorem Confined.loadParent (h : Confined known w) (source : Path) (epoch : Nat) :
    Confined known (Work.loadParent source epoch w).2 :=
  (Work.Keeps.loadParent (fun _ source template hv => hv.parse source template epoch)
    (fun _ _ _ _ _ => trivial) source w h : Work.KeepsAt _ True _ w).1

end World

/-! ## Loading is a run -/

namespace Work

open World (Confined)

/-- **Loading with enough fuel is a run.** -/
theorem exists_loadRun {known : List Text} (epoch fuel : Nat) (seen : List Text) (current : Text)
    {w : World} (hw : Confined known w) (hnd : seen.Nodup) (hsub : seen ⊆ known)
    (hfuel : known.length < fuel + seen.length) :
    ∃ visited looked, LoadRun epoch seen current w visited looked (loadFrom epoch fuel seen current w) := by
  induction fuel generalizing seen current w with
  | zero =>
    have hle := (hnd.subperm hsub).length_le
    omega
  | succ fuel ih =>
    by_cases hmem : current ∈ seen
    · rw [World.loadFrom_of_seen hmem]
      exact ⟨_, _, .seen hmem⟩
    cases hchild : w.state.lookup? current with
    | none =>
      rw [World.loadFrom_of_missing hchild]
      exact ⟨_, _, .absent hmem hchild⟩
    | some child =>
      cases hparent : child.parentName? with
      | none =>
        rw [World.loadFrom_of_root hchild hparent]
        exact ⟨_, _, .root hmem hchild hparent⟩
      | some parent =>
        -- the name that the run is at is a known class, and counts as seen for the rest of it
        have hcurrent : current ∈ known := hw.cached current (Table.has_eq_true_iff.mpr ⟨child, hchild⟩)
        have hrest : ∀ {v : World}, Confined known v → ∃ visited looked,
            LoadRun epoch (current :: seen) parent v visited looked
              (loadFrom epoch fuel (current :: seen) parent v) := fun hv =>
          ih (current :: seen) parent hv (List.nodup_cons.mpr ⟨hmem, hnd⟩)
            (List.cons_subset.mpr ⟨hcurrent, hsub⟩) (by
              rw [List.length_cons]
              omega)
        cases hhas : w.state.components.has parent with
        | true =>
          rw [World.loadFrom_of_parent hmem hchild hparent (Or.inl ⟨hhas, rfl⟩), if_pos hhas]
          obtain ⟨visited, looked, hrun⟩ := hrest hw
          exact ⟨_, _, .cached hmem hchild hparent hhas hrun⟩
        | false =>
          have hw' := hw.loadParent (w.parentSource child parent) epoch
          cases hload : loadParent (w.parentSource child parent) epoch w with
          | mk r w' =>
            rw [hload] at hw'
            cases r with
            | error e =>
              rw [loadFrom_of_refused hmem hchild hparent hhas hload]
              exact ⟨_, _, .refused hmem hchild hparent hhas hload⟩
            | ok _ =>
              rw [World.loadFrom_of_parent hmem hchild hparent (Or.inr ⟨hhas, hload⟩)]
              cases hhas' : w'.state.components.has parent with
              | true =>
                obtain ⟨visited, looked, hrun⟩ := hrest hw'
                rw [if_pos rfl]
                exact ⟨_, _, .loaded hmem hchild hparent hhas hload hhas' hrun⟩
              | false =>
                rw [if_neg Bool.false_ne_true]
                exact ⟨_, _, .unloaded hmem hchild hparent hhas hload hhas'⟩

/-- **Loading ancestors is a run**, whatever the world and the hooks to come. -/
theorem exists_loadRun_loadAncestors (w : World) (name : Text) (epoch : Nat) :
    ∃ visited looked, LoadRun epoch [] name w visited looked (loadAncestors name epoch w) := by
  have hbound := w.length_classes_lt
  refine exists_loadRun epoch (w.classBound + 1) [] name w.confined_classes List.nodup_nil
    (List.nil_subset _) ?_
  rw [List.length_nil]
  omega

end Work

end TemplateAssist
