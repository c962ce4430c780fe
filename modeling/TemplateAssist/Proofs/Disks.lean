import TemplateAssist.Proofs.Paths

/-!
# Disks and their changes

* `locate_ok` — a path that leads somewhere leads to its own names, so paths of equal segments lead to one
  place.
* `apply_node?_file` — where a file stands after a change, it stood before, or the change put it there with
  its time.
* `Precedes` — on the later of two disks a file has a later time, or it is the same file.
* `Journal` — the disks of a session; `Journal.advances` — every change gives its file a time that is later
  than any it had.

Principal result: `Journal.Ordered.after`.  When times advance, every disk of a journal precedes the
current one.
-/

namespace TemplateAssist

namespace Table

variable {κ α : Type} [DecidableEq κ]

theorem get?_filter (keep : κ → Bool) (t : Table κ α) (key : κ) :
    get? (t.filter fun e => keep e.1) key = if keep key = true then get? t key else none := by
  induction t with
  | nil => simp
  | cons e rest ih =>
    obtain ⟨k, v⟩ := e
    by_cases hk : k = key
    · subst hk
      by_cases hkeep : keep k = true
      · simp [hkeep, get?]
      · simpa [hkeep, get?] using ih
    · by_cases hkeep : keep k = true
      · simpa [hkeep, get?, hk] using ih
      · simpa [hkeep, get?, hk] using ih

end Table

/-! ## Where a path leads -/

/-- The names after one more step. -/
def walkStep (names : List Text) (step : Text) : List Text :=
  if step = ['.'] then names else if step = ['.', '.'] then names.dropLast else names ++ [step]

/-- The names after one more segment. -/
def walkSegment (names : List Text) : Segment → List Text
  | .name n => names ++ [n]
  | .up => names.dropLast
  | .root | .here => names

theorem Path.names_eq (p : Path) : p.names = p.segments.foldl walkSegment [] := by
  unfold Path.names
  congr 1

theorem Path.names_congr {p q : Path} (h : p.segments = q.segments) : p.names = q.names := by
  rw [names_eq, names_eq, h]

/-- Steps and segments lead to the same names. -/
theorem foldl_walkSegment (parts : List Text) (names : List Text) :
    (parts.filterMap Segment.ofPart?).foldl walkSegment names =
      (parts.filter (· ≠ [])).foldl walkStep names := by
  induction parts generalizing names with
  | nil => rfl
  | cons part rest ih =>
    by_cases hnil : part = []
    · simp [hnil, Segment.ofPart?, ih]
    by_cases hdot : part = ['.']
    · simp [hdot, Segment.ofPart?, walkStep, ih]
    by_cases hup : part = ['.', '.']
    · simp [hup, Segment.ofPart?, walkStep, walkSegment, ih]
    · simp [hnil, hdot, hup, Segment.ofPart?, walkStep, walkSegment, ih]

namespace Disk

theorem follow_ok {d : Disk} {steps : List Text} {names result : List Text} {node : Node}
    (h : d.follow names steps = .ok (result, node)) :
    result = steps.foldl walkStep names ∧ d.node? result = some node := by
  induction steps generalizing names with
  | nil =>
    unfold follow at h
    split at h
    · rename_i n hn
      obtain ⟨rfl, rfl⟩ := Prod.mk.inj (Except.ok.inj h)
      exact ⟨rfl, hn⟩
    · cases h
  | cons step rest ih =>
    unfold follow at h
    split at h
    · rw [List.foldl_cons, walkStep]
      split at h
      · rename_i hdot
        rw [if_pos hdot]
        exact ih h
      · rename_i hdot
        split at h
        · rename_i hup
          rw [if_neg hdot, if_pos hup]
          exact ih h
        · rename_i hup
          rw [if_neg hdot, if_neg hup]
          exact ih h
    · cases h
    · cases h

/-- **A path that leads somewhere leads to its own names.** -/
theorem locate_ok {d : Disk} {p : Path} {names : List Text} {node : Node}
    (h : d.locate p = .ok (names, node)) : names = p.names ∧ d.node? names = some node := by
  unfold locate at h
  split at h
  · rename_i habs
    obtain ⟨hnames, hnode⟩ := follow_ok h
    refine ⟨?_, hnode⟩
    rw [Path.names_eq, Path.segments, Path.leading_of_isAbsolute habs, hnames, Path.steps,
      List.foldl_append]
    show _ = (List.filterMap Segment.ofPart? _).foldl walkSegment []
    rw [foldl_walkSegment]
    -- the step that a separator at the end asks for goes nowhere
    split <;> rfl
  · cases h

theorem modified_of_readText {d : Disk} {p : Path} {text : Text} (h : d.readText p = .ok text) :
    ∃ time, d.modified p = .ok (.given time) ∧ d.node? p.names = some (.file ⟨.text text, time⟩) := by
  unfold readText at h
  split at h
  · rename_i names t time hl
    obtain ⟨rfl, hnode⟩ := locate_ok hl
    rw [Except.ok.inj h] at hl hnode
    exact ⟨time, by rw [modified, hl], hnode⟩
  · cases h
  · cases h
  · cases h

theorem node?_of_modified {d : Disk} {p : Path} {time : Int} (h : d.modified p = .ok (.given time)) :
    ∃ content, d.node? p.names = some (.file ⟨content, time⟩) ∧
      ∀ text, content = .text text → d.readText p = .ok text := by
  unfold modified at h
  split at h
  · rename_i names f hl
    obtain ⟨rfl, hnode⟩ := locate_ok hl
    obtain ⟨content, time'⟩ := f
    obtain rfl : time' = time := Stamp.given.inj (Except.ok.inj h)
    refine ⟨content, hnode, fun text ht => ?_⟩
    rw [readText, hl, ht]
  · cases h
  · cases h

/-! ## Changes -/

theorem node?_of_ne_nil {d : Disk} {names : List Text} (h : names ≠ []) :
    d.node? names = d.nodes.get? names := by
  rw [node?, if_neg h]

theorem node?_insert (d : Disk) {names : List Text} (h : names ≠ []) (node : Node)
    (place : List Text) :
    node? ⟨d.nodes.insert names node⟩ place = if names = place then some node else d.node? place := by
  by_cases hplace : names = place
  · rw [if_pos hplace, ← hplace, node?_of_ne_nil h, Table.get?_insert, if_pos rfl]
  · rw [node?, node?, Table.get?_insert, if_neg hplace, if_neg hplace]

/-- Making directories neither makes nor changes a file, and reaches no further than the names go. -/
theorem makeDirectories_node? {d d' : Disk} {done names : List Text}
    (h : d.makeDirectories done names = some d') (place : List Text) :
    d'.node? place = d.node? place ∨ d.node? place = none ∧ d'.node? place = some .directory ∧
      place.length ≤ done.length + names.length := by
  induction names generalizing d done with
  | nil =>
    rw [makeDirectories, Option.some.injEq] at h
    exact Or.inl (h ▸ rfl)
  | cons n rest ih =>
    have hlength : (done ++ [n]).length + rest.length = done.length + (n :: rest).length := by
      simp only [List.length_append, List.length_cons, List.length_nil]
      omega
    unfold makeDirectories at h
    simp only at h
    split at h
    · cases h
    · rw [← hlength]
      exact ih h
    · rename_i hnone
      have hne : done ++ [n] ≠ [] := by simp
      have hrest := ih h
      rw [node?_insert d hne] at hrest
      split at hrest
      · rename_i hplace
        rcases hrest with hsame | ⟨hgone, -⟩
        · refine Or.inr ⟨hplace ▸ hnone, hsame, ?_⟩
          rw [← hlength, ← hplace]
          exact Nat.le_add_right _ _
        · cases hgone
      · rw [← hlength]
        exact hrest

end Disk

def FileStep.time? : FileStep → Option Int
  | write _ _ time | touch _ time => some time
  | delete _ | makeDirectory _ => none

namespace Disk

/-- A write that is made puts the file at its place, after the directories above it are made. -/
theorem apply_write (d : Disk) (path : Path) (content : Content) (time : Int) :
    d.apply (.write path content time) = d ∨
      path.names ≠ [] ∧ d.node? path.names ≠ some .directory ∧
        ∃ d', d.makeDirectories [] path.names.dropLast = some d' ∧
        d.apply (.write path content time) = ⟨d'.nodes.insert path.names (.file ⟨content, time⟩)⟩ := by
  unfold apply
  simp only [FileStep.path]
  split
  · exact Or.inl rfl
  · rename_i d' hd' hdir
    refine Or.inr ⟨fun hnil => hdir ?_, hdir, d', hd', rfl⟩
    rw [hnil, node?, if_pos rfl]
  · exact Or.inl rfl

/-- A touch that is made gives the file at its place another time. -/
theorem apply_touch (d : Disk) (path : Path) (time : Int) :
    d.apply (.touch path time) = d ∨
      path.names ≠ [] ∧ ∃ f, d.node? path.names = some (.file f) ∧
        d.apply (.touch path time) = ⟨d.nodes.insert path.names (.file ⟨f.content, time⟩)⟩ := by
  unfold apply
  simp only [FileStep.path]
  split
  · rename_i f hf
    refine Or.inr ⟨fun hnil => ?_, f, hf, rfl⟩
    rw [hnil, node?, if_pos rfl] at hf
    cases hf
  · exact Or.inl rfl

theorem apply_delete_node? (d : Disk) (path : Path) (place : List Text) :
    (d.apply (.delete path)).node? place =
      if place ≠ [] ∧ path.names.isPrefixOf place = true then none else d.node? place := by
  show node? ⟨d.nodes.filter fun e => !path.names.isPrefixOf e.1⟩ place = _
  by_cases hnil : place = []
  · simp [node?, hnil]
  · rw [node?, node?, if_neg hnil, if_neg hnil, Table.get?_filter (fun k => !path.names.isPrefixOf k)]
    cases path.names.isPrefixOf place <;> simp [hnil]

/-- A file that stands somewhere after a change stood there before, or it was written there, or it was
touched and keeps its content. -/
theorem file_of_apply {d : Disk} {fs : FileStep} {place : List Text} {f : File}
    (h : (d.apply fs).node? place = some (.file f)) :
    d.node? place = some (.file f) ∨ place = fs.path.names ∧
      (fs = .write fs.path f.content f.modified ∨ fs = .touch fs.path f.modified ∧
        ∃ old, d.node? place = some (.file old) ∧ old.content = f.content) := by
  have hmade : ∀ {d' : Disk} {names : List Text}, d.makeDirectories [] names = some d' →
      d'.node? place = some (.file f) → d.node? place = some (.file f) := by
    intro d' names hd' hf
    rcases makeDirectories_node? hd' place with hsame | ⟨-, hdir, -⟩
    · rw [← hsame, hf]
    · rw [hf] at hdir
      cases hdir
  cases fs with
  | write path content time =>
    rcases d.apply_write path content time with hsame | ⟨hne, -, d', hd', happly⟩
    · exact Or.inl (hsame ▸ h)
    · rw [happly, node?_insert d' hne] at h
      split at h
      · rename_i hplace
        obtain rfl := Node.file.inj (Option.some.inj h)
        exact Or.inr ⟨hplace.symm, Or.inl rfl⟩
      · exact Or.inl (hmade hd' h)
  | touch path time =>
    rcases d.apply_touch path time with hsame | ⟨hne, old, hold, happly⟩
    · exact Or.inl (hsame ▸ h)
    · rw [happly, node?_insert d hne] at h
      split at h
      · rename_i hplace
        obtain rfl := Node.file.inj (Option.some.inj h)
        exact Or.inr ⟨hplace.symm, Or.inr ⟨rfl, old, hplace ▸ hold, rfl⟩⟩
      · exact Or.inl h
  | delete path =>
    rw [apply_delete_node?] at h
    split at h
    · cases h
    · exact Or.inl h
  | makeDirectory path =>
    have h : ((d.makeDirectories [] path.names).getD d).node? place = some (.file f) := h
    cases hd' : d.makeDirectories [] path.names with
    | none =>
      rw [hd'] at h
      exact Or.inl h
    | some d' =>
      rw [hd'] at h
      exact Or.inl (hmade hd' h)

/-- **Where a file stands after a change, it stood before, or the change put it there with its time.** -/
theorem apply_node?_file {d : Disk} {fs : FileStep} {place : List Text} {f : File}
    (h : (d.apply fs).node? place = some (.file f)) :
    d.node? place = some (.file f) ∨ place = fs.path.names ∧ fs.time? = some f.modified := by
  rcases file_of_apply h with hold | ⟨hplace, hfs | ⟨hfs, -⟩⟩
  · exact Or.inl hold
  · exact Or.inr ⟨hplace, by rw [hfs, FileStep.time?]⟩
  · exact Or.inr ⟨hplace, by rw [hfs, FileStep.time?]⟩

/-- On the later of two disks a file has a later time, or it is the same file. -/
def Precedes (d d' : Disk) : Prop :=
  ∀ place f f', d.node? place = some (.file f) → d'.node? place = some (.file f') →
    f.modified < f'.modified ∨ f = f'

theorem Precedes.refl (d : Disk) : d.Precedes d := by
  intro place f f' hf hf'
  rw [hf] at hf'
  exact Or.inr (Node.file.inj (Option.some.inj hf'))

def timeAt? (d : Disk) (place : List Text) : Option Int :=
  match d.node? place with
  | some (.file f) => some f.modified
  | _ => none

end Disk

/-! ## Journals -/

/-- The disks of a session: the current one, and all before it. -/
structure Journal where
  past : List Disk
  current : Disk

namespace Journal

def disks (j : Journal) : List Disk :=
  j.current :: j.past

/-- The journal after a change. -/
def write (j : Journal) (fs : FileStep) : Journal :=
  ⟨j.disks, j.current.apply fs⟩

def after (j : Journal) (changes : List FileStep) : Journal :=
  changes.foldl write j

/-- Whether the time that a change gives to a file is later than any that the file had.  Nothing is asked
of a change that is not made. -/
def later (j : Journal) (fs : FileStep) : Bool :=
  j.current.apply fs = j.current || fs.time?.all fun time =>
    (j.disks.filterMap (·.timeAt? fs.path.names)).all (· < time)

/-- Whether every change gives its file a later time. -/
def advances : Journal → List FileStep → Bool
  | _, [] => true
  | j, fs :: rest => j.later fs && (j.write fs).advances rest

/-- Every disk of a journal precedes the current one. -/
def Ordered (j : Journal) : Prop :=
  ∀ d ∈ j.disks, d.Precedes j.current

theorem after_append (j : Journal) (a b : List FileStep) : j.after (a ++ b) = (j.after a).after b :=
  List.foldl_append

theorem current_after (j : Journal) (changes : List FileStep) :
    (j.after changes).current = changes.foldl Disk.apply j.current := by
  induction changes generalizing j with
  | nil => rfl
  | cons fs rest ih => exact ih (j.write fs)

theorem disks_subset_after (j : Journal) (changes : List FileStep) : j.disks ⊆ (j.after changes).disks := by
  induction changes generalizing j with
  | nil => exact List.Subset.refl _
  | cons fs rest ih => exact List.Subset.trans (List.subset_cons_self _ _) (ih (j.write fs))

theorem lt_of_later {j : Journal} {fs : FileStep} (h : j.later fs = true)
    (hmade : j.current.apply fs ≠ j.current) {time : Int} (ht : fs.time? = some time) {d : Disk}
    (hd : d ∈ j.disks) {f : File} (hf : d.node? fs.path.names = some (.file f)) : f.modified < time := by
  have hat : d.timeAt? fs.path.names = some f.modified := by rw [Disk.timeAt?, hf]
  have hall : (j.disks.filterMap (·.timeAt? fs.path.names)).all (· < time) = true := by
    simpa [later, hmade, ht] using h
  simpa using List.all_eq_true.mp hall _ (List.mem_filterMap.mpr ⟨d, hd, hat⟩)

theorem Ordered.write {j : Journal} (h : j.Ordered) {fs : FileStep} (hl : j.later fs = true) :
    (j.write fs).Ordered := by
  intro d hd
  rcases List.mem_cons.mp hd with rfl | hd
  · exact .refl _
  by_cases hmade : j.current.apply fs = j.current
  · show d.Precedes (j.current.apply fs)
    rw [hmade]
    exact h d hd
  intro place f f' hf hf'
  rcases Disk.apply_node?_file hf' with hold | ⟨rfl, ht⟩
  · exact h d hd place f f' hf hold
  · exact Or.inl (lt_of_later hl hmade ht hd hf)

/-- **When times advance, every disk precedes the current one.** -/
theorem Ordered.after {j : Journal} (h : j.Ordered) {changes : List FileStep}
    (hc : j.advances changes = true) : (j.after changes).Ordered := by
  induction changes generalizing j with
  | nil => exact h
  | cons fs rest ih =>
    rw [advances, Bool.and_eq_true] at hc
    exact ih (h.write hc.1) hc.2

theorem ordered_singleton (d : Disk) : Ordered ⟨[], d⟩ := by
  intro e he
  rw [List.mem_singleton.mp he]
  exact .refl d

end Journal

end TemplateAssist
