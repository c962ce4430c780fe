import TemplateAssist.Proofs.Places
import TemplateAssist.Registry.World

/-!
# Source files under the search paths

* `Options.isSource` — a place for source files: below a search directory, nowhere hidden, and with the
  extension of sources.
* `Options.Plain` — search paths that start at the root and never go up, and a template extension that can
  be given to a path.
* `mem_below_iff`, `mem_visit_iff` — the files that a walk finds, and the pairs it makes of them.
* `exists_root_of_mem_collect`, `exists_mem_collect` — the pairs that a scan collects.

Principal result: `collect_ok`.  What a scan collects are paths that lead to places for source files, and
it collects every file at such a place.
-/

namespace TemplateAssist

/-! ## Order and repetition -/

theorem eq_of_compareText {s t : Text} (h : compareText s t = .eq) : s = t := by
  induction s generalizing t with
  | nil =>
    cases t with
    | nil => rfl
    | cons b t => cases h
  | cons a s ih =>
    cases t with
    | nil => cases h
    | cons b t =>
      unfold compareText at h
      split at h
      · cases h
      split at h
      · cases h
      rename_i hlt hgt
      have hab : a.toNat = b.toNat := by omega
      rw [Char.toNat_inj.mp hab, ih h]

theorem Segment.eq_of_compare {s t : Segment} (h : s.compare t = .eq) : s = t := by
  cases s with
  | name n =>
    cases t with
    | name m => exact congrArg Segment.name (eq_of_compareText h)
    | root | here | up => cases h
  | root | here | up =>
    cases t <;> cases h
    rfl

theorem eq_of_compareSegments {s t : List Segment} (h : compareSegments s t = .eq) : s = t := by
  induction s generalizing t with
  | nil =>
    cases t with
    | nil => rfl
    | cons b t => cases h
  | cons a s ih =>
    cases t with
    | nil => cases h
    | cons b t =>
      unfold compareSegments at h
      split at h
      · rename_i hab
        rw [Segment.eq_of_compare hab, ih h]
      · rename_i hne
        exact absurd h hne

namespace FilePair

theorem source_eq_of_compare {a b : FilePair} (h : a.compare b = .eq) :
    a.source.segments = b.source.segments :=
  eq_of_compareSegments (Ordering.then_eq_eq.mp h).1

theorem dedupAfter_subset (last : FilePair) (pairs : List FilePair) : dedupAfter last pairs ⊆ pairs := by
  induction pairs generalizing last with
  | nil => exact List.Subset.refl _
  | cons a rest ih =>
    unfold dedupAfter
    split
    · exact List.Subset.trans (ih last) (List.subset_cons_self _ _)
    · exact List.cons_subset_cons _ (ih a)

theorem dedup_subset (pairs : List FilePair) : dedup pairs ⊆ pairs := by
  cases pairs with
  | nil => exact List.Subset.refl _
  | cons a rest => exact List.cons_subset_cons _ (dedupAfter_subset a rest)

/-- For every pair, one with the same source is kept. -/
theorem exists_mem_dedupAfter (last : FilePair) {pairs : List FilePair} {a : FilePair}
    (h : a ∈ last :: pairs) :
    ∃ b ∈ last :: dedupAfter last pairs, b.source.segments = a.source.segments := by
  induction pairs generalizing last with
  | nil => exact ⟨a, h, rfl⟩
  | cons x rest ih =>
    rcases List.mem_cons.mp h with rfl | h
    · exact ⟨a, List.mem_cons_self, rfl⟩
    unfold dedupAfter
    split
    · rename_i hsame
      rcases List.mem_cons.mp h with rfl | h
      · exact ⟨last, List.mem_cons_self, source_eq_of_compare hsame⟩
      · exact ih last (List.mem_cons_of_mem _ h)
    · obtain ⟨b, hb, hsource⟩ := ih x h
      exact ⟨b, List.mem_cons_of_mem _ hb, hsource⟩

theorem exists_mem_dedup {pairs : List FilePair} {a : FilePair} (h : a ∈ pairs) :
    ∃ b ∈ dedup pairs, b.source.segments = a.source.segments := by
  cases pairs with
  | nil => cases h
  | cons x rest => exact exists_mem_dedupAfter x h

end FilePair

/-! ## Places for source files -/

theorem Path.Leads.fileName? {p : Path} {place : List Text} (h : p.Leads place) :
    p.fileName? = place.getLast? := by
  unfold Path.fileName?
  rw [h]
  cases hp : place.getLast? with
  | none =>
    rw [List.getLast?_eq_none_iff.mp hp]
    rfl
  | some n =>
    obtain ⟨front, rfl⟩ := List.getLast?_eq_some_iff.mp hp
    rw [List.map_append, ← List.cons_append, List.map_singleton, List.getLast?_concat]

/-- The extension of the last name of a place. -/
def extensionOf? (place : List Text) : Option Text :=
  place.getLast?.bind fun n => (Path.splitName n).2

theorem Path.Leads.hasExtension_iff {p : Path} {place : List Text} (h : p.Leads place)
    {extension : Text} : p.hasExtension extension = true ↔ extensionOf? place = some extension := by
  rw [Path.hasExtension, Path.extension?, h.fileName?, decide_eq_true_eq, extensionOf?]

namespace Options

/-- Whether a place is one for source files: below a search directory, nowhere hidden, and with the
extension of sources. -/
def isSource (o : Options) (place : List Text) : Bool :=
  extensionOf? place = some o.sourceExtension && o.searchPaths.any fun dir =>
    dir.names.isPrefixOf place && dir.names.length < place.length &&
      (place.drop dir.names.length).all fun n => !Disk.isHiddenName n

theorem isSource_iff {o : Options} {place : List Text} :
    o.isSource place = true ↔ extensionOf? place = some o.sourceExtension ∧
      ∃ dir ∈ o.searchPaths, ∃ inner, inner ≠ [] ∧ place = dir.names ++ inner ∧
        ∀ n ∈ inner, Disk.isHiddenName n = false := by
  rw [isSource, Bool.and_eq_true, decide_eq_true_eq, List.any_eq_true]
  refine and_congr_right fun _ => exists_congr fun dir => and_congr_right fun _ => ?_
  rw [Bool.and_eq_true, Bool.and_eq_true, List.isPrefixOf_iff_prefix, decide_eq_true_eq,
    List.all_eq_true]
  constructor
  · rintro ⟨⟨⟨inner, rfl⟩, hlt⟩, hall⟩
    refine ⟨inner, ?_, rfl, fun n hn => ?_⟩
    · rintro rfl
      simp at hlt
    · simpa using hall n (by simpa using hn)
  · rintro ⟨inner, hne, rfl, hall⟩
    have := List.length_pos_iff.mpr hne
    refine ⟨⟨List.prefix_append _ _, by simp only [List.length_append]; omega⟩, fun n hn => ?_⟩
    simpa using hall n (by simpa using hn)

/-- The search paths start at the root and never go up, so that a file below them has one key.  Templates
can be named, and one of the extensions is not empty. -/
structure Plain (o : Options) : Prop where
  leads : ∀ dir ∈ o.searchPaths, dir.Leads dir.names
  template : o.templateExtension.contains '/' = false
  nonempty : o.sourceExtension = [] → o.templateExtension ≠ []

instance (p : Path) (place : List Text) : Decidable (p.Leads place) :=
  inferInstanceAs (Decidable (_ = _))

instance (o : Options) : Decidable o.Plain :=
  decidable_of_iff ((∀ dir ∈ o.searchPaths, dir.Leads dir.names) ∧
      o.templateExtension.contains '/' = false ∧ (o.sourceExtension = [] → o.templateExtension ≠ []))
    ⟨fun h => ⟨h.1, h.2.1, h.2.2⟩, fun h => ⟨h.1, h.2, h.3⟩⟩

/-- The last name at a place for source files. -/
theorem isSource_last {o : Options} {place : List Text} (h : o.isSource place = true) :
    ∃ front stem, place = front ++ [stem ++ '.' :: o.sourceExtension] ∧
      Path.splitName (stem ++ '.' :: o.sourceExtension) = (stem, some o.sourceExtension) ∧
      stem ≠ [] ∧ stem ≠ ['.'] := by
  obtain ⟨hext, dir, -, inner, hne, rfl, hall⟩ := isSource_iff.mp h
  have hlast : (dir.names ++ inner).getLast? = some (inner.getLast hne) := by
    rw [List.getLast?_append_of_ne_nil _ hne, List.getLast?_eq_some_getLast hne]
  have hhidden := hall _ (List.getLast_mem hne)
  have hplace := List.dropLast_append_getLast hne
  obtain ⟨name, hname⟩ : ∃ name, inner.getLast hne = name := ⟨_, rfl⟩
  rw [hname] at hlast hhidden hplace
  rw [extensionOf?, hlast] at hext
  obtain ⟨stem, hsplit⟩ : ∃ stem, Path.splitName name = (stem, some o.sourceExtension) :=
    ⟨_, Prod.ext rfl hext⟩
  obtain ⟨rfl, hstem, -⟩ := Path.splitName_some hsplit
  refine ⟨dir.names ++ inner.dropLast, stem, ?_, hsplit, hstem, ?_⟩
  · rw [List.append_assoc, hplace]
  · rintro rfl
    simp [Disk.isHiddenName] at hhidden

/-- A source file of another name can stand beside one. -/
theorem isSource_beside {o : Options} {place : List Text} (h : o.isSource place = true) {stem : Text}
    (hstem : stem ≠ []) (hdot : stem.head? ≠ some '.') :
    o.isSource (place.dropLast ++ [stem ++ '.' :: o.sourceExtension]) = true := by
  obtain ⟨front, last, -, hsplit, -⟩ := isSource_last h
  obtain ⟨-, dir, hdir, inner, hne, rfl, hall⟩ := isSource_iff.mp h
  have hfree := (Path.splitName_some hsplit).2.2
  refine isSource_iff.mpr ⟨?_, dir, hdir, inner.dropLast ++ [stem ++ '.' :: o.sourceExtension], ?_, ?_, ?_⟩
  · rw [extensionOf?, List.getLast?_concat, Option.bind_some, Path.splitName_append hstem hfree]
  · simp
  · rw [List.dropLast_append_of_ne_nil hne, List.append_assoc]
  · intro n hn
    rcases List.mem_append.mp hn with hn | hn
    · exact hall n (List.dropLast_subset _ hn)
    · rw [List.mem_singleton.mp hn, Disk.isHiddenName, decide_eq_false_iff_not]
      cases stem with
      | nil => exact absurd rfl hstem
      | cons c rest => exact hdot

end Options

/-! ## Paths beside a source -/

namespace Path

/-- The directory of a path, as its spelling has it, leads to the place above. -/
theorem Leads.directory {p : Path} {front : List Text} {name : Text} (h : p.Leads (front ++ [name])) :
    p.fileName? = some name ∧ IsDirectory (p.directory name) ∧ Leads ⟨p.directory name⟩ front := by
  have hname : p.fileName? = some name := by rw [h.fileName?, List.getLast?_concat]
  obtain ⟨dir, hdir, -, -, -, -, hdirectory, hsegments⟩ := exists_directory hname
  refine ⟨hname, hdirectory.symm ▸ hdir, ?_⟩
  rw [hdirectory, Leads]
  rw [h, List.map_append, ← List.cons_append] at hsegments
  exact (List.append_inj_left' hsegments rfl).symm

theorem Leads.withFileName {p : Path} {front : List Text} {old : Text}
    (h : p.Leads (front ++ [old])) (name : Text) :
    ∃ dir : Path, dir.Leads front ∧ p.withFileName name = dir.join ⟨name⟩ := by
  obtain ⟨hname, -, hdir⟩ := h.directory
  refine ⟨p.parentOf old, ?_, by simp only [Path.withFileName, hname]⟩
  rw [Leads, parentOf, segments_cutTrailing]
  exact hdir

/-- A path given its own extension leads where it led. -/
theorem Leads.withOwnExtension {p : Path} {front : List Text} {stem extension : Text}
    (h : p.Leads (front ++ [stem ++ '.' :: extension])) (hdot : stem ≠ ['.']) (hne : extension ≠ [])
    (hsplit : splitName (stem ++ '.' :: extension) = (stem, some extension)) :
    ∃ q, p.withExtension extension = .ok q ∧ q.Leads (front ++ [stem ++ '.' :: extension]) ∧
      q.EndsInName := by
  obtain ⟨hname, hisdir, hdir⟩ := h.directory
  have hisname := h.isName (List.mem_append_right front List.mem_cons_self)
  have hfree : extension.contains '/' = false := by
    rw [← Bool.not_eq_true, List.contains_iff_mem]
    exact fun hmem => hisname.2.2.2 (List.mem_append_right _ (List.mem_cons_of_mem _ hmem))
  refine ⟨⟨p.directory (stem ++ '.' :: extension) ++ (stem ++ '.' :: extension)⟩, ?_,
    leads_append hisdir hisname hdir⟩
  rw [withExtension, hfree]
  simp only [Bool.false_eq_true, if_false, hname, hsplit, hdot, false_and, suffixOf, hne,
    List.append_assoc]

end Path

/-- The source behind a source path is at the same place. -/
theorem Options.Plain.sourcePathFor {o : Options} (ho : o.Plain) {p : Path} {place : List Text}
    (hl : p.Leads place) (hs : o.isSource place = true) :
    ∃ q, o.sourcePathFor p = .ok q ∧ q.Leads place ∧ (q = p ∨ q.EndsInName) := by
  unfold Options.sourcePathFor
  split
  · rename_i htemplate
    obtain ⟨front, stem, rfl, hsplit, -, hdot⟩ := isSource_last hs
    have hext := (isSource_iff.mp hs).1
    rw [hl.hasExtension_iff, hext, Option.some.injEq] at htemplate
    have hne : o.sourceExtension ≠ [] := fun hnil => ho.nonempty hnil (htemplate ▸ hnil)
    obtain ⟨q, hq, hleads, hends⟩ := hl.withOwnExtension hdot hne hsplit
    exact ⟨q, hq, hleads, Or.inr hends⟩
  · exact ⟨p, rfl, hl, Or.inl rfl⟩

/-! ## What a walk finds -/

namespace Disk

/-- Every search path leads to a directory. -/
def HasDirectories (d : Disk) (o : Options) : Prop :=
  ∀ dir ∈ o.searchPaths, d.locate dir = .ok (dir.names, .directory)

instance (d : Disk) (o : Options) : Decidable (d.HasDirectories o) :=
  inferInstanceAs (Decidable (∀ dir ∈ _, _))

theorem Sound.get?_of_mem {d : Disk} (h : d.Sound) {place : List Text} {node : Node}
    (he : (place, node) ∈ d.nodes) : d.node? place = some node := by
  rw [node?_of_ne_nil (h.named _ he).1]
  exact Table.get?_of_mem h.nodup he

/-- The files that a walk finds below a directory. -/
theorem Sound.mem_below_iff {d : Disk} (h : d.Sound) {root : Path} {names : List Text}
    (hroot : d.locate root = .ok (names, .directory)) :
    ∃ files, d.below root = .ok files ∧ ∀ p, p ∈ files ↔
      ∃ inner f, d.node? (names ++ inner) = some (.file f) ∧
        (∀ n ∈ inner, isHiddenName n = false) ∧ p = inner.foldl (fun q n => q.join ⟨n⟩) root := by
  have hdir : d.node? names = some .directory := (locate_ok hroot).2
  refine ⟨_, by simp only [below, hroot]; rfl, fun p => ?_⟩
  rw [List.mem_filterMap]
  constructor
  · rintro ⟨⟨place, node⟩, he, hp⟩
    cases node with
    | directory => cases hp
    | file f =>
      simp only [Option.ite_none_right_eq_some, Bool.and_eq_true, List.isPrefixOf_iff_prefix,
        List.all_eq_true, Option.some.injEq] at hp
      obtain ⟨⟨⟨inner, rfl⟩, hall⟩, rfl⟩ := hp
      rw [List.drop_left] at hall ⊢
      exact ⟨inner, f, h.get?_of_mem he, fun n hn => by simpa using hall n hn, rfl⟩
  · rintro ⟨inner, f, hnode, hall, rfl⟩
    have hne : names ++ inner ≠ [] := by
      intro hnil
      rw [hnil] at hnode
      cases hnode
    rw [node?_of_ne_nil hne] at hnode
    refine ⟨(names ++ inner, .file f), Table.mem_of_get? hnode, ?_⟩
    simp only [Option.ite_none_right_eq_some, Bool.and_eq_true, List.isPrefixOf_iff_prefix,
      List.all_eq_true, List.drop_left, and_true]
    exact ⟨List.prefix_append _ _, fun n hn => by simpa using hall n hn⟩

theorem pair_source {d : Disk} {p : Path} {extension : Text} {pair : FilePair}
    (h : d.pair p extension = .ok pair) : pair.source = p := by
  unfold Disk.pair at h
  split at h
  · rw [← Except.ok.inj h]
  · cases h

theorem exists_pair {d : Disk} {extension : Text} (h : extension.contains '/' = false) (p : Path) :
    ∃ pair, d.pair p extension = .ok pair := by
  cases ht : p.withExtension extension with
  | error e =>
    have := Path.withExtension_eq_error_iff.mp ⟨e, ht⟩
    rw [h] at this
    cases this
  | ok template => exact ⟨⟨p, if d.isFile template then some template else none⟩, by simp only [pair, ht]⟩

theorem exists_mapM {α β ε : Type} {f : α → Except ε β} (l : List α) (h : ∀ a ∈ l, ∃ b, f a = .ok b) :
    ∃ r, l.mapM f = .ok r := by
  induction l with
  | nil => exact ⟨[], rfl⟩
  | cons a rest ih =>
    obtain ⟨b, hb⟩ := h a List.mem_cons_self
    obtain ⟨r, hr⟩ := ih fun x hx => h x (List.mem_cons_of_mem _ hx)
    refine ⟨b :: r, ?_⟩
    rw [List.mapM_cons, hb, hr]
    rfl

theorem mem_mapM_iff {α β ε : Type} {f : α → Except ε β} {l : List α} {r : List β}
    (h : l.mapM f = .ok r) {b : β} : b ∈ r ↔ ∃ a ∈ l, f a = .ok b := by
  induction l generalizing r with
  | nil =>
    obtain rfl := Except.ok.inj h
    simp
  | cons a rest ih =>
    rw [List.mapM_cons] at h
    cases ha : f a with
    | error e =>
      rw [ha] at h
      cases h
    | ok x =>
      cases hrest : rest.mapM f with
      | error e =>
        rw [ha, hrest] at h
        cases h
      | ok more =>
        rw [ha, hrest] at h
        obtain rfl := Except.ok.inj h
        simp [ih hrest, ha, eq_comm]

/-- The pairs that the walks of the search paths find. -/
theorem mem_visit_iff {d : Disk} {sourceExtension templateExtension : Text} {roots : List Path}
    {missing : Nat} {pairs : List FilePair}
    (h : d.visit sourceExtension templateExtension roots = (missing, .ok pairs)) {pair : FilePair} :
    pair ∈ pairs ↔ ∃ root ∈ roots, ∃ files, d.below root = .ok files ∧ pair.source ∈ files ∧
      pair.source.hasExtension sourceExtension = true ∧ d.pair pair.source templateExtension = .ok pair := by
  induction roots generalizing missing pairs with
  | nil =>
    obtain rfl := Except.ok.inj (Prod.mk.inj h).2
    simp
  | cons root rest ih =>
    unfold visit at h
    cases hbelow : d.below root with
    | error e =>
      simp only [hbelow] at h
      have hrest : d.visit sourceExtension templateExtension rest =
          ((d.visit sourceExtension templateExtension rest).1, .ok pairs) :=
        Prod.ext rfl (Prod.mk.inj h).2
      exact (ih hrest).trans (by simp [hbelow])
    | ok files =>
      simp only [hbelow] at h
      cases hmap : (files.filter (·.hasExtension sourceExtension)).mapM (d.pair · templateExtension) with
      | error e =>
        rw [hmap] at h
        cases (Prod.mk.inj h).2
      | ok found =>
        rw [hmap] at h
        simp only [Prod.mk.injEq] at h
        cases hv : (d.visit sourceExtension templateExtension rest).2 with
        | error e =>
          rw [hv] at h
          cases h.2
        | ok more =>
          rw [hv] at h
          obtain rfl := Except.ok.inj h.2
          refine (List.mem_append.trans (or_congr (mem_mapM_iff hmap) (ih (Prod.ext rfl hv)))).trans ?_
          simp only [List.mem_filter, List.mem_cons, exists_eq_or_imp, hbelow, Except.ok.injEq,
            exists_eq_left']
          refine or_congr ?_ Iff.rfl
          constructor
          · rintro ⟨p, ⟨hp, hext⟩, hpair⟩
            rw [pair_source hpair]
            exact ⟨hp, hext, hpair⟩
          · rintro ⟨hp, hext, hpair⟩
            exact ⟨pair.source, ⟨hp, hext⟩, hpair⟩

theorem exists_visit {d : Disk} (sourceExtension : Text) {templateExtension : Text}
    (ht : templateExtension.contains '/' = false) (roots : List Path) :
    ∃ missing pairs, d.visit sourceExtension templateExtension roots = (missing, .ok pairs) := by
  induction roots with
  | nil => exact ⟨0, [], rfl⟩
  | cons root rest ih =>
    obtain ⟨missing, pairs, hvisit⟩ := ih
    cases hbelow : d.below root with
    | error e => exact ⟨missing + 1, pairs, by simp only [visit, hbelow, hvisit]⟩
    | ok files =>
      obtain ⟨found, hfound⟩ :=
        exists_mapM (files.filter (·.hasExtension sourceExtension)) fun p _ => exists_pair (d := d) ht p
      refine ⟨missing, found ++ pairs, ?_⟩
      simp only [visit, hbelow, hfound, hvisit]
      rfl

/-- The walk comes to its end when templates can be named. -/
theorem exists_collect (d : Disk) (roots : List Path) (sourceExtension : Text) {templateExtension : Text}
    (ht : templateExtension.contains '/' = false) :
    ∃ missing pairs, d.collect roots sourceExtension templateExtension = (missing, .ok pairs) := by
  obtain ⟨missing, pairs, hvisit⟩ := exists_visit (d := d) sourceExtension ht roots
  exact ⟨missing, _, by rw [collect, hvisit]; rfl⟩

theorem exists_visit_of_collect {d : Disk} {roots : List Path} {sourceExtension templateExtension : Text}
    {missing : Nat} {pairs : List FilePair}
    (h : d.collect roots sourceExtension templateExtension = (missing, .ok pairs)) :
    ∃ visited, d.visit sourceExtension templateExtension roots = (missing, .ok visited) ∧
      pairs = FilePair.dedup (FilePair.sort visited) := by
  unfold collect at h
  obtain ⟨hmissing, hpairs⟩ := Prod.mk.inj h
  cases hv : (d.visit sourceExtension templateExtension roots).2 with
  | error e =>
    rw [hv] at hpairs
    cases hpairs
  | ok visited =>
    rw [hv] at hpairs
    exact ⟨visited, Prod.ext hmissing hv, (Except.ok.inj hpairs).symm⟩

/-- **Where a collected pair comes from.** -/
theorem exists_root_of_mem_collect {d : Disk} {roots : List Path}
    {sourceExtension templateExtension : Text} {missing : Nat} {pairs : List FilePair}
    (h : d.collect roots sourceExtension templateExtension = (missing, .ok pairs)) {pair : FilePair}
    (hpair : pair ∈ pairs) : ∃ root ∈ roots, ∃ files, d.below root = .ok files ∧ pair.source ∈ files ∧
      pair.source.hasExtension sourceExtension = true ∧ d.pair pair.source templateExtension = .ok pair := by
  obtain ⟨visited, hv, rfl⟩ := exists_visit_of_collect h
  exact (mem_visit_iff hv).mp (mem_sortBy.mp (FilePair.dedup_subset _ hpair))

/-- Every source file that a walk finds is collected, under a path of the same segments. -/
theorem exists_mem_collect {d : Disk} {roots : List Path} {sourceExtension templateExtension : Text}
    {missing : Nat} {pairs : List FilePair}
    (h : d.collect roots sourceExtension templateExtension = (missing, .ok pairs))
    (ht : templateExtension.contains '/' = false) {root : Path} (hroot : root ∈ roots)
    {files : List Path} (hfiles : d.below root = .ok files) {p : Path} (hp : p ∈ files)
    (hext : p.hasExtension sourceExtension = true) :
    ∃ pair ∈ pairs, pair.source.segments = p.segments := by
  obtain ⟨visited, hv, rfl⟩ := exists_visit_of_collect h
  obtain ⟨pair, hpair⟩ := exists_pair (d := d) ht p
  obtain rfl := pair_source hpair
  have hmem : pair ∈ visited := (mem_visit_iff hv).mpr ⟨root, hroot, files, hfiles, hp, hext, hpair⟩
  exact FilePair.exists_mem_dedup (mem_sortBy.mpr hmem)

/-- **What a scan collects.**  Its sources lead to places for source files, and there is one for every
file at such a place. -/
theorem Sound.collect_ok {d : Disk} (h : d.Sound) {o : Options} (ho : o.Plain)
    (hdirs : d.HasDirectories o) :
    ∃ missing pairs,
      d.collect o.searchPaths o.sourceExtension o.templateExtension = (missing, .ok pairs) ∧
        (∀ pair ∈ pairs, ∃ place, pair.source.Leads place ∧ pair.source.EndsInName ∧
          o.isSource place = true) ∧
        ∀ place f, d.node? place = some (.file f) → o.isSource place = true →
          ∃ pair ∈ pairs, pair.source.Leads place := by
  obtain ⟨missing, pairs, hcollect⟩ := d.exists_collect o.searchPaths o.sourceExtension ho.template
  -- a source found below a search path leads to the place of the file
  have hleads : ∀ root ∈ o.searchPaths, ∀ inner f,
      d.node? (root.names ++ inner) = some (.file f) →
        inner ≠ [] ∧ (inner.foldl (fun q n => q.join ⟨n⟩) root).Leads (root.names ++ inner) ∧
          (inner.foldl (fun q n => q.join ⟨n⟩) root).EndsInName := by
    intro root hroot inner f hnode
    have hdir := (locate_ok (hdirs root hroot)).2
    have hne : inner ≠ [] := by
      rintro rfl
      rw [List.append_nil, hdir] at hnode
      cases hnode
    have hplace : root.names ++ inner ≠ [] := by simp [hne]
    have hnames : ∀ n ∈ inner, IsName n := by
      intro n hn
      rw [node?_of_ne_nil hplace] at hnode
      exact (h.named _ (Table.mem_of_get? hnode)).2 n (List.mem_append_right _ hn)
    exact ⟨hne, (ho.leads root hroot).foldl_join hnames hne⟩
  refine ⟨missing, pairs, hcollect, ?_, ?_⟩
  · intro pair hpair
    obtain ⟨root, hroot, files, hfiles, hsource, hext, -⟩ := exists_root_of_mem_collect hcollect hpair
    obtain ⟨files', hfiles', hiff⟩ := h.mem_below_iff (hdirs root hroot)
    obtain rfl := Except.ok.inj (hfiles.symm.trans hfiles')
    obtain ⟨inner, f, hnode, hall, hp⟩ := (hiff pair.source).mp hsource
    obtain ⟨hne, hl, he⟩ := hleads root hroot inner f hnode
    rw [← hp] at hl he
    refine ⟨root.names ++ inner, hl, he, Options.isSource_iff.mpr ⟨hl.hasExtension_iff.mp hext, ?_⟩⟩
    exact ⟨root, hroot, inner, hne, rfl, hall⟩
  · intro place f hnode hsource
    obtain ⟨hext, root, hroot, inner, -, rfl, hall⟩ := Options.isSource_iff.mp hsource
    obtain ⟨files, hfiles, hiff⟩ := h.mem_below_iff (hdirs root hroot)
    obtain ⟨-, hl, -⟩ := hleads root hroot inner f hnode
    obtain ⟨pair, hpair, hsegments⟩ := exists_mem_collect hcollect ho.template hroot hfiles
      ((hiff _).mpr ⟨inner, f, hnode, hall, rfl⟩) (hl.hasExtension_iff.mpr hext)
    exact ⟨pair, hpair, hl.of_segments_eq hsegments⟩

end Disk

end TemplateAssist
