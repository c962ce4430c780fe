import TemplateAssist.Proofs.Dependents
import TemplateAssist.Proofs.Disks

/-!
# Places on a disk

* `IsName` — a text that can name a file.
* `Path.Leads` — a path leads to a place without going up; then its segments and its place determine each
  other.
* `Path.EndsInName` — the spelling of a path ends with a name, so the path can lead to a file.
* `Disk.Sound` — what holds of every disk that changes make from the empty one: places are lists of names,
  and everything stands in a directory.

Principal result: `locate_of_leads`.  On a sound disk, a path leads to what stands at its place.
-/

namespace TemplateAssist

/-- A text that can name a file. -/
def IsName (n : Text) : Prop :=
  n ≠ [] ∧ n ≠ ['.'] ∧ n ≠ ['.', '.'] ∧ '/' ∉ n

theorem ofPart?_of_isName {n : Text} (h : IsName n) : Segment.ofPart? n = some (.name n) := by
  simp [Segment.ofPart?, h.1, h.2.1, h.2.2.1]

theorem notMem_of_mem_splitSlashes {t part : Text} (h : part ∈ splitSlashes t) : '/' ∉ part := by
  induction t generalizing part with
  | nil =>
    rw [List.mem_singleton.mp h]
    exact List.not_mem_nil
  | cons c rest ih =>
    unfold splitSlashes at h
    split at h
    · rcases List.mem_cons.mp h with rfl | h
      · exact List.not_mem_nil
      · exact ih h
    · rename_i hc
      split at h
      · rename_i hs
        exact absurd hs (splitSlashes_ne_nil rest)
      · rename_i s more hs
        rcases List.mem_cons.mp h with rfl | h
        · have := ih (hs ▸ List.mem_cons_self)
          simp [this, Ne.symm hc]
        · exact ih (hs ▸ List.mem_cons_of_mem _ h)

/-- The names in the segments of a path can name files. -/
theorem isName_of_mem_segments {p : Path} {n : Text} (h : .name n ∈ p.segments) : IsName n := by
  rcases List.mem_append.mp h with h | h
  · unfold Path.leading at h
    split at h
    · cases h
    · split at h
      · simp at h
      · split at h <;> simp at h
  · obtain ⟨part, hpart, hn⟩ := List.mem_filterMap.mp h
    unfold Segment.ofPart? at hn
    split at hn
    · cases hn
    · rename_i hne
      split at hn
      · cases hn
      · rename_i hup
        obtain rfl := Segment.name.inj (Option.some.inj hn)
        rw [not_or] at hne
        exact ⟨hne.1, hne.2, hup, notMem_of_mem_splitSlashes hpart⟩

namespace Path

theorem isName_of_mem_names {p : Path} {n : Text} (h : n ∈ p.names) : IsName n := by
  have hfold : ∀ (segments : List Segment) (names : List Text),
      (∀ m, .name m ∈ segments → IsName m) → (∀ m ∈ names, IsName m) →
      ∀ m ∈ segments.foldl walkSegment names, IsName m := by
    intro segments
    induction segments with
    | nil => intro names _ hn; exact hn
    | cons s rest ih =>
      intro names hs hn
      refine ih _ (fun m hm => hs m (List.mem_cons_of_mem _ hm)) ?_
      cases s with
      | root | here => exact hn
      | up => exact fun m hm => hn m (List.dropLast_subset _ hm)
      | name t =>
        intro m hm
        rcases List.mem_append.mp hm with hm | hm
        · exact hn m hm
        · rw [List.mem_singleton.mp hm]
          exact hs t List.mem_cons_self
  rw [names_eq] at h
  exact hfold p.segments [] (fun _ => isName_of_mem_segments) (by simp) n h

/-- A path leads from the root to a place, without going up. -/
def Leads (p : Path) (place : List Text) : Prop :=
  p.segments = .root :: place.map .name

theorem foldl_walkSegment_names (place names : List Text) :
    (place.map Segment.name).foldl walkSegment names = names ++ place := by
  induction place generalizing names with
  | nil => simp
  | cons n rest ih => simp [walkSegment, ih]

theorem Leads.names_eq {p : Path} {place : List Text} (h : p.Leads place) : p.names = place := by
  rw [Path.names_eq, h, List.foldl_cons]
  exact foldl_walkSegment_names place []

theorem Leads.isName {p : Path} {place : List Text} (h : p.Leads place) {n : Text} (hn : n ∈ place) :
    IsName n :=
  isName_of_mem_names (h.names_eq.symm ▸ hn)

theorem Leads.of_segments_eq {p q : Path} {place : List Text} (h : p.Leads place)
    (hs : q.segments = p.segments) : q.Leads place :=
  hs.trans h

theorem isAbsolute_of_mem_root {p : Path} (h : .root ∈ p.segments) : p.isAbsolute = true := by
  by_contra habs
  rcases List.mem_append.mp h with hroot | hroot
  · unfold leading at hroot
    split at hroot
    · cases hroot
    · rw [if_neg habs] at hroot
      split at hroot <;> simp at hroot
  · obtain ⟨part, -, hpart⟩ := List.mem_filterMap.mp hroot
    unfold Segment.ofPart? at hpart
    split at hpart
    · cases hpart
    · split at hpart <;> cases hpart

theorem Leads.isAbsolute {p : Path} {place : List Text} (h : p.Leads place) : p.isAbsolute = true := by
  refine isAbsolute_of_mem_root ?_
  rw [h]
  exact List.mem_cons_self

/-- A path from the root that does not go up leads to the names in it. -/
theorem leads_names {p : Path} (habs : p.isAbsolute = true) (hup : .up ∉ p.segments) : p.Leads p.names := by
  have hplace : ∀ parts : List Text, .up ∉ parts.filterMap Segment.ofPart? →
      ∃ place : List Text, parts.filterMap Segment.ofPart? = place.map Segment.name := by
    intro parts hparts
    induction parts with
    | nil => exact ⟨[], rfl⟩
    | cons part rest ih =>
      cases hpart : Segment.ofPart? part with
      | none =>
        rw [List.filterMap_cons_none hpart] at hparts ⊢
        exact ih hparts
      | some s =>
        rw [List.filterMap_cons_some hpart] at hparts ⊢
        obtain ⟨place, hplace⟩ := ih fun h => hparts (List.mem_cons_of_mem _ h)
        unfold Segment.ofPart? at hpart
        split at hpart
        · cases hpart
        · split at hpart
          · obtain rfl := Option.some.inj hpart
            exact absurd List.mem_cons_self hparts
          · obtain rfl := Option.some.inj hpart
            exact ⟨part :: place, by rw [hplace, List.map_cons]⟩
  obtain ⟨place, hparts⟩ := hplace (splitSlashes p.spelling) fun h => hup (List.mem_append_right _ h)
  have hleads : p.Leads place := by
    rw [Leads, segments, leading_of_isAbsolute habs, hparts]
    rfl
  rwa [hleads.names_eq]

/-- A path that does not go up has no `..` among its parts. -/
theorem Leads.ne_up {p : Path} {place : List Text} (h : p.Leads place) {part : Text}
    (hpart : part ∈ splitSlashes p.spelling) : part ≠ ['.', '.'] := by
  rintro rfl
  have hup : Segment.up ∈ p.segments :=
    List.mem_append_right _ (List.mem_filterMap.mpr ⟨_, hpart, by simp [Segment.ofPart?]⟩)
  rw [h] at hup
  simp at hup

/-- The spelling of a path ends with a name. -/
def EndsInName (p : Path) : Prop :=
  ∃ dir n, p.spelling = dir ++ n ∧ IsDirectory dir ∧ IsName n

theorem EndsInName.steps {p : Path} (h : p.EndsInName) :
    p.steps = (splitSlashes p.spelling).filter (· ≠ []) ∧ p.steps.getLast? ≠ some ['.'] := by
  obtain ⟨dir, n, hp, hdir, hn⟩ := h
  have hlast : p.spelling.getLast? ≠ some '/' := by
    rw [hp, List.getLast?_append_of_ne_nil _ hn.1]
    intro he
    exact hn.2.2.2 (List.mem_of_getLast? he)
  have hsteps : p.steps = (splitSlashes p.spelling).filter (· ≠ []) := by
    rw [Path.steps, if_neg hlast, List.append_nil]
  have hparts : ∃ front, splitSlashes p.spelling = front ++ [n] := by
    rw [hp]
    rcases hdir with rfl | ⟨d, rfl⟩
    · exact ⟨[], splitSlashes_of_notMem hn.2.2.2⟩
    · refine ⟨splitSlashes d, ?_⟩
      rw [List.append_assoc, List.singleton_append, splitSlashes_append,
        splitSlashes_of_notMem hn.2.2.2]
  obtain ⟨front, hfront⟩ := hparts
  refine ⟨hsteps, ?_⟩
  rw [hsteps, hfront, List.filter_append]
  simp [hn.1, hn.2.1]

/-- A name put behind a directory. -/
theorem leads_append {dir n : Text} (hdir : IsDirectory dir) (hn : IsName n) {place : List Text}
    (h : Leads ⟨dir⟩ place) : Leads ⟨dir ++ n⟩ (place ++ [n]) ∧ EndsInName ⟨dir ++ n⟩ := by
  refine ⟨?_, dir, n, rfl, hdir, hn⟩
  rw [Leads, segments_append hdir hn.2.2.2 fun _ => hn.2.1, h, ofPart?_of_isName hn]
  simp

/-- The spelling of a path with the separator that a name is put behind. -/
def slashed (p : Path) : Text :=
  if p.spelling = [] ∨ p.spelling.getLast? = some '/' then p.spelling else p.spelling ++ ['/']

theorem isDirectory_slashed (p : Path) : IsDirectory p.slashed := by
  unfold slashed
  split
  · rename_i h
    exact h.imp_right List.getLast?_eq_some_iff.mp
  · exact Or.inr ⟨p.spelling, rfl⟩

theorem segments_slashed (p : Path) : segments ⟨p.slashed⟩ = p.segments := by
  unfold slashed
  split
  · rfl
  · rename_i h
    exact segments_append_slash (not_or.mp h).1

/-- A path followed by a part is its directory and that part. -/
theorem join_eq (p : Path) {part : Text} (hpart : '/' ∉ part) : p.join ⟨part⟩ = ⟨p.slashed ++ part⟩ := by
  have hrel : Path.isAbsolute ⟨part⟩ = false := by
    rw [Path.isAbsolute, decide_eq_false_iff_not]
    intro he
    exact hpart (List.mem_of_head? he)
  unfold Path.join slashed
  rw [hrel]
  simp only [Bool.false_eq_true, if_false]
  split
  · rfl
  · simp

theorem join_segments (p : Path) {n : Text} (hn : IsName n) :
    (p.join ⟨n⟩).segments = p.segments ++ [.name n] := by
  rw [join_eq p hn.2.2.2, segments_append p.isDirectory_slashed hn.2.2.2 fun _ => hn.2.1,
    segments_slashed, ofPart?_of_isName hn]
  rfl

theorem Leads.join {p : Path} {place : List Text} (h : p.Leads place) {n : Text} (hn : IsName n) :
    (p.join ⟨n⟩).Leads (place ++ [n]) ∧ (p.join ⟨n⟩).EndsInName := by
  rw [join_eq p hn.2.2.2]
  exact leads_append p.isDirectory_slashed hn (p.segments_slashed.trans h)

theorem join_dot_segments {p : Path} (h : p.spelling ≠ []) : (p.join ⟨['.']⟩).segments = p.segments := by
  have hne : p.slashed ≠ [] := by
    unfold slashed
    split
    · exact h
    · simp
  rw [join_eq p (by simp), segments_append p.isDirectory_slashed (by simp) fun hnil => absurd hnil hne,
    segments_slashed]
  simp [Segment.ofPart?]

theorem Leads.join_dot {p : Path} {place : List Text} (h : p.Leads place) :
    (p.join ⟨['.']⟩).Leads place := by
  refine (join_dot_segments fun hnil => ?_).trans h
  have := h.isAbsolute
  simp [Path.isAbsolute, hnil] at this

theorem Leads.foldl_join {p : Path} {place : List Text} (h : p.Leads place) {inner : List Text}
    (hinner : ∀ n ∈ inner, IsName n) (hne : inner ≠ []) :
    (inner.foldl (fun q n => q.join ⟨n⟩) p).Leads (place ++ inner) ∧
      (inner.foldl (fun q n => q.join ⟨n⟩) p).EndsInName := by
  induction inner generalizing p place with
  | nil => exact absurd rfl hne
  | cons n rest ih =>
    have hjoin := h.join (hinner n List.mem_cons_self)
    cases rest with
    | nil => exact hjoin
    | cons m more =>
      have := ih hjoin.1 (fun x hx => hinner x (List.mem_cons_of_mem _ hx)) (by simp)
      rwa [List.append_assoc, List.singleton_append] at this

end Path

/-! ## Sound disks -/

namespace Disk

/-- Every place is a list of names, no place is taken twice, and everything stands in a directory. -/
structure Sound (d : Disk) : Prop where
  named : ∀ e ∈ d.nodes, e.1 ≠ [] ∧ ∀ n ∈ e.1, IsName n
  nodup : d.nodes.keys.Nodup
  rooted : ∀ dir n node, d.node? (dir ++ [n]) = some node → d.node? dir = some .directory

theorem Sound.empty : Sound ⟨[]⟩ where
  named := by simp
  nodup := List.nodup_nil
  rooted := by
    intro dir n node h
    simp [node?] at h

/-- A node put into a directory, where nothing stands below it, leaves a disk sound. -/
theorem Sound.insert {d : Disk} (h : d.Sound) {dir : List Text} {n : Text} {node : Node}
    (hnames : ∀ m ∈ dir ++ [n], IsName m) (hdir : d.node? dir = some .directory)
    (hbelow : node = .directory ∨ d.node? (dir ++ [n]) ≠ some .directory) :
    Sound ⟨d.nodes.insert (dir ++ [n]) node⟩ where
  named := by
    intro e he
    rcases Table.mem_insert he with rfl | he
    · exact ⟨by simp, hnames⟩
    · exact h.named e he
  nodup := Table.nodup_keys_insert h.nodup _ _
  rooted := by
    intro dir' n' node' hnode
    have hne : dir ++ [n] ≠ [] := by simp
    have hparent : d.node? dir' = some .directory := by
      rw [node?_insert d hne] at hnode
      split at hnode
      · rename_i hsame
        rw [← List.append_inj_left' hsame rfl]
        exact hdir
      · exact h.rooted dir' n' node' hnode
    rw [node?_insert d hne]
    split
    · rename_i hplace
      rcases hbelow with rfl | hbelow
      · rfl
      · exact absurd (hplace ▸ hparent) hbelow
    · exact hparent

theorem Sound.makeDirectories {d d' : Disk} {done names : List Text} (h : d.Sound)
    (hdone : d.node? done = some .directory) (hnames : ∀ n ∈ done ++ names, IsName n)
    (hd' : d.makeDirectories done names = some d') :
    d'.Sound ∧ d'.node? (done ++ names) = some .directory := by
  induction names generalizing d done with
  | nil =>
    rw [Disk.makeDirectories, Option.some.injEq] at hd'
    subst hd'
    exact ⟨h, by rwa [List.append_nil]⟩
  | cons n rest ih =>
    have hsplit : done ++ n :: rest = (done ++ [n]) ++ rest := by simp
    rw [hsplit] at hnames ⊢
    have hne : done ++ [n] ≠ [] := by simp
    unfold Disk.makeDirectories at hd'
    simp only at hd'
    split at hd'
    · cases hd'
    · rename_i hthere
      exact ih h hthere hnames hd'
    · refine ih (h.insert (fun m hm => hnames m (List.mem_append_left _ hm)) hdone (Or.inl rfl)) ?_
        hnames hd'
      rw [node?_insert d hne, if_pos rfl]

/-- **Changes leave a disk sound.** -/
theorem Sound.apply {d : Disk} (h : d.Sound) (fs : FileStep) : (d.apply fs).Sound := by
  have hroot : d.node? [] = some .directory := rfl
  have hnames : ∀ n ∈ [] ++ fs.path.names, IsName n := fun n hn => Path.isName_of_mem_names hn
  cases fs with
  | write path content time =>
    rcases d.apply_write path content time with hsame | ⟨hne, hfree, d', hd', happly⟩
    · rwa [hsame]
    · have hsplit := List.dropLast_append_getLast hne
      have hnames' : ∀ n ∈ path.names, IsName n := hnames
      rw [← hsplit] at hnames'
      have hmade := h.makeDirectories hroot
        (fun n hn => hnames' n (List.mem_append_left _ hn)) hd'
      rw [happly, ← hsplit]
      refine hmade.1.insert hnames' hmade.2 (Or.inr ?_)
      rw [hsplit]
      rcases makeDirectories_node? hd' path.names with hsame | ⟨-, -, hle⟩
      · rwa [hsame]
      · have := List.length_pos_iff.mpr hne
        simp only [List.length_nil, List.length_dropLast] at hle
        omega
  | touch path time =>
    rcases d.apply_touch path time with hsame | ⟨hne, f, hf, happly⟩
    · rwa [hsame]
    · have hsplit := List.dropLast_append_getLast hne
      have hnames' : ∀ n ∈ path.names, IsName n := hnames
      rw [← hsplit] at hf hnames'
      rw [happly, ← hsplit]
      refine h.insert hnames' (h.rooted _ _ _ hf) (Or.inr ?_)
      rw [hf]
      simp
  | delete path =>
    refine ⟨fun e he => h.named e (List.mem_filter.mp he).1, ?_, fun dir n node hnode => ?_⟩
    · exact h.nodup.sublist (List.filter_sublist.map _)
    · rw [apply_delete_node?] at hnode ⊢
      split at hnode
      · cases hnode
      rename_i hkept
      rw [if_neg]
      · exact h.rooted dir n node hnode
      · rintro ⟨-, hprefix⟩
        refine hkept ⟨by simp, ?_⟩
        rw [List.isPrefixOf_iff_prefix] at hprefix ⊢
        exact hprefix.trans (List.prefix_append _ _)
  | makeDirectory path =>
    show Sound ((d.makeDirectories [] path.names).getD d)
    cases hd' : d.makeDirectories [] path.names with
    | none => exact h
    | some d' => exact (h.makeDirectories hroot hnames hd').1

theorem Sound.foldl_apply {d : Disk} (h : d.Sound) (changes : List FileStep) :
    (changes.foldl Disk.apply d).Sound := by
  induction changes generalizing d with
  | nil => exact h
  | cons fs rest ih => exact ih (h.apply fs)

/-- What stands above something is a directory. -/
theorem Sound.directory_of_append {d : Disk} (h : d.Sound) {above below : List Text} {node : Node}
    (hnode : d.node? (above ++ below) = some node) (hne : below ≠ []) :
    d.node? above = some .directory := by
  induction below generalizing above with
  | nil => exact absurd rfl hne
  | cons n rest ih =>
    have hsplit : above ++ n :: rest = (above ++ [n]) ++ rest := by simp
    rw [hsplit] at hnode
    by_cases hrest : rest = []
    · rw [hrest, List.append_nil] at hnode
      exact h.rooted above n node hnode
    · exact h.rooted above n _ (ih hnode hrest)

/-! ## Where paths lead on a sound disk -/

theorem foldl_walkStep {steps : List Text} (h : ∀ s ∈ steps, s ≠ ['.', '.']) (names : List Text) :
    steps.foldl walkStep names = names ++ steps.filter (· ≠ ['.']) := by
  induction steps generalizing names with
  | nil => simp
  | cons s rest ih =>
    have hrest := ih fun t ht => h t (List.mem_cons_of_mem _ ht)
    have hs := h s List.mem_cons_self
    by_cases hdot : s = ['.']
    · simp [hdot, walkStep, hrest]
    · simp [hdot, hs, walkStep, hrest]

theorem Sound.follow {d : Disk} (h : d.Sound) {steps : List Text} (hup : ∀ s ∈ steps, s ≠ ['.', '.'])
    (hlast : steps.getLast? ≠ some ['.']) {names : List Text} {node : Node}
    (hnode : d.node? (steps.foldl walkStep names) = some node) :
    d.follow names steps = .ok (steps.foldl walkStep names, node) := by
  induction steps generalizing names with
  | nil =>
    have hnode : d.node? names = some node := hnode
    simp only [Disk.follow, hnode, List.foldl_nil]
  | cons s rest ih =>
    have hrest : rest.getLast? ≠ some ['.'] := by
      intro he
      exact hlast (by rw [List.getLast?_cons, he]; rfl)
    -- the last step is a name, so what is passed on the way is a directory
    have hdir : d.node? names = some .directory := by
      rw [foldl_walkStep hup] at hnode
      refine h.directory_of_append hnode fun hnil => ?_
      rw [List.filter_eq_nil_iff] at hnil
      cases hl : (s :: rest).getLast? with
      | none => exact absurd (List.getLast?_eq_none_iff.mp hl) (List.cons_ne_nil s rest)
      | some last =>
        have hdot : last = ['.'] := by simpa using hnil last (List.mem_of_getLast? hl)
        exact hlast (hdot ▸ hl)
    have hnext := ih (fun t ht => hup t (List.mem_cons_of_mem _ ht)) hrest hnode
    have hs := hup s List.mem_cons_self
    unfold Disk.follow
    rw [hdir, List.foldl_cons, walkStep] at *
    by_cases hdot : s = ['.']
    · simpa [hdot] using hnext
    · simpa [hdot, hs] using hnext

/-- **On a sound disk, a path leads to what stands at its place.** -/
theorem Sound.locate_of_leads {d : Disk} (h : d.Sound) {p : Path} {place : List Text}
    (hl : p.Leads place) (he : p.EndsInName) {node : Node} (hnode : d.node? place = some node) :
    d.locate p = .ok (place, node) := by
  obtain ⟨hsteps, hlast⟩ := he.steps
  have hplace : p.steps.foldl walkStep [] = place := by
    rw [hsteps, ← foldl_walkSegment, ← hl.names_eq, Path.names_eq, Path.segments,
      Path.leading_of_isAbsolute hl.isAbsolute]
    rfl
  have hup : ∀ s ∈ p.steps, s ≠ ['.', '.'] := by
    intro s hs
    rw [hsteps] at hs
    exact hl.ne_up (List.mem_filter.mp hs).1
  rw [locate, if_pos hl.isAbsolute, h.follow hup hlast (hplace.symm ▸ hnode), hplace]

theorem Sound.readText_of_leads {d : Disk} (h : d.Sound) {p : Path} {place : List Text}
    (hl : p.Leads place) (he : p.EndsInName) {text : Text} {time : Int}
    (hnode : d.node? place = some (.file ⟨.text text, time⟩)) :
    d.readText p = .ok text ∧ d.modified p = .ok (.given time) := by
  have hlocate := h.locate_of_leads hl he hnode
  exact ⟨by rw [readText, hlocate], by rw [modified, hlocate]⟩

end Disk

end TemplateAssist
