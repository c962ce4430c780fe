import TemplateAssist.Proofs.PathOrder
import TemplateAssist.Proofs.Session
import TemplateAssist.Proofs.Spellings

/-!
# What a scan collects

Search paths may overlap, repeat each other, name files or lead nowhere, and they may be spelled in any way.

* `Path.descend` — a path with names behind it.
* `Disk.FoundFrom` — a file at a search path or below it, under names that are not hidden.
* `Disk.Nested` — a path below a search path, under names that are not hidden.
* `Sound.exists_below_iff` — a walk finds what is found from its search path.
* `Sound.collect_pairwise` — the sources of the pairs increase strictly.
* `Sound.foundFrom_of_nested` — a nested search path leads to nothing new.

Principal result: `Sound.collect_once`.
-/

namespace TemplateAssist

namespace Path

/-- A path with names behind it. -/
def descend (p : Path) (names : List Text) : Path :=
  names.foldl (fun q n => q.join ⟨n⟩) p

theorem descend_concat (p : Path) (names : List Text) (n : Text) :
    p.descend (names ++ [n]) = (p.descend names).join ⟨n⟩ :=
  List.foldl_append

theorem descend_segments (p : Path) {names : List Text} (h : ∀ n ∈ names, IsName n) :
    (p.descend names).segments = p.segments ++ names.map .name := by
  induction names generalizing p with
  | nil => simp [descend]
  | cons n rest ih =>
    have hrest := ih (p.join ⟨n⟩) fun m hm => h m (List.mem_cons_of_mem _ hm)
    rw [join_segments p (h n List.mem_cons_self), List.append_assoc] at hrest
    exact hrest

theorem descend_names (p : Path) {names : List Text} (h : ∀ n ∈ names, IsName n) :
    (p.descend names).names = p.names ++ names := by
  rw [names_eq, descend_segments p h, List.foldl_append, foldl_walkSegment_names, ← names_eq]

theorem endsInName_descend (p : Path) {names : List Text} (h : ∀ n ∈ names, IsName n) (hne : names ≠ []) :
    (p.descend names).EndsInName := by
  obtain ⟨front, n, rfl⟩ := (List.eq_nil_or_concat names).resolve_left hne
  rw [List.concat_eq_append] at h ⊢
  rw [descend_concat]
  exact endsInName_join _ (h n (List.mem_append_right _ List.mem_cons_self))

end Path

namespace FilePair

/-- The segments of the paths of a pair. -/
def view (pair : FilePair) : List Segment × Option (List Segment) :=
  (pair.source.segments, pair.template.map Path.segments)

theorem compareOption_of_segments {p q : Option Path} (h : p.map Path.segments = q.map Path.segments) :
    compareOption p q = .eq := by
  have hkey : ∀ r : Option Path, r.map Path.key = (r.map Path.segments).map (List.map Segment.key) := by
    intro r
    rw [Option.map_map]
    rfl
  rw [compareOption_eq, hkey p, hkey q, h]
  exact Std.ReflOrd.compare_self

/-- The source of a pair comes before that of another one. -/
def Precedes (a b : List Segment × Option (List Segment)) : Prop :=
  compareSegments a.1 b.1 = .lt

theorem Precedes.asymm {a b : List Segment × Option (List Segment)} (h : Precedes a b) : ¬Precedes b a := by
  rw [Precedes, compareSegments_eq] at h ⊢
  exact Std.OrientedCmp.not_lt_of_lt h

theorem nodup_of_precedes {l : List (List Segment × Option (List Segment))} (h : l.Pairwise Precedes) :
    l.Nodup := by
  refine h.imp fun {a b} hab heq => ?_
  subst heq
  exact hab.asymm hab

end FilePair

namespace Disk

/-- A path names a file that a search path leads to: the file that the search path itself names, or one below
it under names that are not hidden. -/
def FoundFrom (d : Disk) (root q : Path) : Prop :=
  ∃ names, (∀ n ∈ names, isHiddenName n = false) ∧ q.segments = root.segments ++ names.map .name ∧
    d.isFile (root.descend names) = true

/-- A path leads below another one, under names that are not hidden, or it is another spelling of the path of
a directory. -/
def Nested (d : Disk) (root r : Path) : Prop :=
  ∃ names, (∀ n ∈ names, isHiddenName n = false) ∧ r.segments = root.segments ++ names.map .name ∧
    (names = [] → d.locate root = .ok (root.names, .directory))

theorem isName_of_segments {p root : Path} {names : List Text}
    (h : p.segments = root.segments ++ names.map .name) : ∀ n ∈ names, IsName n := by
  intro n hn
  refine isName_of_mem_segments (p := p) ?_
  rw [h]
  exact List.mem_append_right _ (List.mem_map_of_mem hn)

/-- What stands below a path stands in a directory. -/
theorem locate_of_descend {d : Disk} {root : Path} {names : List Text} (h : ∀ n ∈ names, IsName n)
    (hne : names ≠ []) {r : List Text × Node} (hr : d.locate (root.descend names) = .ok r) :
    d.locate root = .ok (root.names, .directory) := by
  induction names generalizing root with
  | nil => exact absurd rfl hne
  | cons n rest ih =>
    have hn := h n List.mem_cons_self
    cases rest with
    | nil => exact locate_of_join hn hr
    | cons m more =>
      exact locate_of_join hn (ih (fun k hk => h k (List.mem_cons_of_mem _ hk)) (by simp) hr)

/-- **A walk finds the files that its search path leads to.** -/
theorem Sound.exists_below_iff {d : Disk} (hd : d.Sound) {root p : Path} :
    (∃ files, d.below root = .ok files ∧ p ∈ files) ↔
      ∃ names, (∀ n ∈ names, IsName n ∧ isHiddenName n = false) ∧ d.isFile (root.descend names) = true ∧
        p = root.descend names := by
  constructor
  · rintro ⟨files, hfiles, hp⟩
    have hfile := hd.isFile_of_mem_below hfiles hp
    cases hroot : d.locate root with
    | error e =>
      simp only [below, hroot] at hfiles
      cases hfiles
    | ok r =>
      obtain ⟨place, node⟩ := r
      cases node with
      | file f =>
        simp only [below, hroot, Except.ok.injEq] at hfiles
        rw [← hfiles, List.mem_singleton] at hp
        subst hp
        exact ⟨[], by simp, hfile, rfl⟩
      | directory =>
        obtain ⟨files', hfiles', hmem⟩ := hd.mem_below_iff hroot
        obtain rfl := Except.ok.inj (hfiles.symm.trans hfiles')
        obtain ⟨names, f, hnode, hshown, rfl⟩ := (hmem p).mp hp
        refine ⟨names, fun n hn => ⟨?_, hshown n hn⟩, hfile, rfl⟩
        have hne : place ++ names ≠ [] := by
          intro hnil
          rw [hnil] at hnode
          cases hnode
        rw [node?_of_ne_nil hne] at hnode
        exact (hd.named _ (Table.mem_of_get? hnode)).2 n (List.mem_append_right _ hn)
  · rintro ⟨names, hnames, hfile, rfl⟩
    obtain ⟨f, hlocate⟩ := exists_locate_of_isFile hfile
    by_cases hnil : names = []
    · subst hnil
      have hroot : d.locate root = .ok (root.names, .file f) := hlocate
      exact ⟨[root], by simp only [below, hroot], List.mem_singleton.mpr rfl⟩
    · have hroot := locate_of_descend (fun n hn => (hnames n hn).1) hnil hlocate
      obtain ⟨files, hfiles, hmem⟩ := hd.mem_below_iff hroot
      refine ⟨files, hfiles, (hmem _).mpr ⟨names, f, ?_, fun n hn => (hnames n hn).2, rfl⟩⟩
      rw [← Path.descend_names root fun n hn => (hnames n hn).1]
      exact (locate_ok hlocate).2

/-- **A search path nested in another one leads to nothing new.** -/
theorem Sound.foundFrom_of_nested {d : Disk} (hd : d.Sound) {root r q : Path} (hr : d.Nested root r)
    (h : d.FoundFrom r q) : d.FoundFrom root q := by
  obtain ⟨outer, houter, hrs, hroot⟩ := hr
  obtain ⟨inner, hinner, hqs, hfile⟩ := h
  have hsegments : q.segments = root.segments ++ (outer ++ inner).map .name := by
    rw [hqs, hrs, List.map_append, List.append_assoc]
  have hnames := isName_of_segments hsegments
  have hinnerNames := isName_of_segments hqs
  refine ⟨outer ++ inner, fun n hn => (List.mem_append.mp hn).elim (houter n) (hinner n), hsegments, ?_⟩
  have hsame : (r.descend inner).segments = (root.descend (outer ++ inner)).segments := by
    rw [Path.descend_segments r hinnerNames, Path.descend_segments root hnames, ← hqs, hsegments]
  by_cases hnil : outer ++ inner = []
  · -- a file is no other spelling of a directory
    obtain ⟨rfl, rfl⟩ := List.append_eq_nil_iff.mp hnil
    obtain ⟨f, hlocate⟩ := exists_locate_of_isFile hfile
    have hnode := (locate_ok hlocate).2
    rw [Path.names_congr hsame] at hnode
    have hdir := (locate_ok (hroot rfl)).2
    cases hnode.symm.trans hdir
  · rw [← d.isFile_congr (hd.endsInName_of_isFile hfile) (root.endsInName_descend hnames hnil) hsame]
    exact hfile

/-! ## The pairs -/

section Collected

variable {d : Disk} (hd : d.Sound) {roots : List Path} {sourceExtension templateExtension : Text}
  {missing : Nat} {pairs : List FilePair}
  (h : d.collect roots sourceExtension templateExtension = (missing, .ok pairs))
  (ht : templateExtension.contains '/' = false)

include hd h ht

/-- **The sources are the files that the search paths lead to.** -/
theorem Sound.exists_mem_collect_iff (q : Path) :
    (∃ pair ∈ pairs, pair.source.segments = q.segments) ↔
      q.hasExtension sourceExtension = true ∧ ∃ root ∈ roots, d.FoundFrom root q := by
  constructor
  · rintro ⟨pair, hpair, hsegments⟩
    obtain ⟨root, hroot, files, hfiles, hsource, hext, -⟩ := exists_root_of_mem_collect h hpair
    obtain ⟨names, hnames, hfile, hp⟩ := hd.exists_below_iff.mp ⟨files, hfiles, hsource⟩
    refine ⟨by rw [← Path.hasExtension_congr hsegments, hext], root, hroot, names,
      fun n hn => (hnames n hn).2, ?_, hfile⟩
    rw [← hsegments, hp, Path.descend_segments root fun n hn => (hnames n hn).1]
  · rintro ⟨hext, root, hroot, names, hshown, hsegments, hfile⟩
    have hnames := isName_of_segments hsegments
    have hsame : (root.descend names).segments = q.segments := by
      rw [Path.descend_segments root hnames, hsegments]
    obtain ⟨files, hfiles, hmem⟩ := hd.exists_below_iff.mpr
      ⟨names, fun n hn => ⟨hnames n hn, hshown n hn⟩, hfile, rfl⟩
    obtain ⟨pair, hpair, hsource⟩ := exists_mem_collect h ht hroot hfiles hmem
      (by rw [Path.hasExtension_congr hsame, hext])
    exact ⟨pair, hpair, hsource.trans hsame⟩

/-- Pairs of one source are of one template. -/
theorem Sound.template_of_mem_collect {roots' : List Path} {missing' : Nat} {pairs' : List FilePair}
    (h' : d.collect roots' sourceExtension templateExtension = (missing', .ok pairs')) {a b : FilePair}
    (ha : a ∈ pairs) (hb : b ∈ pairs') (hs : a.source.segments = b.source.segments) :
    a.template.map Path.segments = b.template.map Path.segments := by
  obtain ⟨-, -, -, -, -, -, hpa⟩ := exists_root_of_mem_collect h ha
  obtain ⟨-, -, -, -, -, -, hpb⟩ := exists_root_of_mem_collect h' hb
  exact hd.pair_congr (hd.isFile_of_mem_collect h ha) (hd.isFile_of_mem_collect h' hb) hs ht hpa hpb

/-- **The sources increase strictly.** -/
theorem Sound.collect_pairwise : pairs.Pairwise fun a b => a.source.compare b.source = .lt := by
  obtain ⟨visited, -, hpairs⟩ := exists_visit_of_collect h
  have hsorted : pairs.Pairwise fun a b => a.compare b = .lt := by
    rw [hpairs]
    exact FilePair.dedup_sort_pairwise visited
  refine hsorted.imp_of_mem fun {a b} ha hb hlt => ?_
  rcases Ordering.then_eq_lt.mp hlt with hsource | ⟨hsource, htemplate⟩
  · exact hsource
  · -- the same source twice would have two templates
    have hsame := hd.template_of_mem_collect h ht h ha hb (eq_of_compareSegments hsource)
    rw [FilePair.compareOption_of_segments hsame] at htemplate
    cases htemplate

theorem Sound.map_view_pairwise : (pairs.map FilePair.view).Pairwise FilePair.Precedes := by
  rw [List.pairwise_map]
  exact hd.collect_pairwise h ht

/-- What some search paths lead to is collected from others that lead there too. -/
theorem Sound.map_view_subset {roots' : List Path} {missing' : Nat} {pairs' : List FilePair}
    (h' : d.collect roots' sourceExtension templateExtension = (missing', .ok pairs'))
    (hfound : ∀ q, (∃ root ∈ roots, d.FoundFrom root q) → ∃ root ∈ roots', d.FoundFrom root q) :
    pairs.map FilePair.view ⊆ pairs'.map FilePair.view := by
  intro v hv
  obtain ⟨pair, hpair, rfl⟩ := List.mem_map.mp hv
  obtain ⟨hext, hq⟩ := (hd.exists_mem_collect_iff h ht pair.source).mp ⟨pair, hpair, rfl⟩
  obtain ⟨pair', hpair', hs⟩ := (hd.exists_mem_collect_iff h' ht pair.source).mpr ⟨hext, hfound _ hq⟩
  refine List.mem_map.mpr ⟨pair', hpair', Prod.ext hs ?_⟩
  exact hd.template_of_mem_collect h' ht h hpair' hpair hs

/-- **Search paths that lead to the same files make the same pairs.** -/
theorem Sound.map_view_eq {roots' : List Path} {missing' : Nat} {pairs' : List FilePair}
    (h' : d.collect roots' sourceExtension templateExtension = (missing', .ok pairs'))
    (hfound : ∀ q, (∃ root ∈ roots, d.FoundFrom root q) ↔ ∃ root ∈ roots', d.FoundFrom root q) :
    pairs.map FilePair.view = pairs'.map FilePair.view := by
  -- increasing lists with the same members are equal
  have hsorted := hd.map_view_pairwise h ht
  have hsorted' := hd.map_view_pairwise h' ht
  have hsub := hd.map_view_subset h ht h' fun q => (hfound q).mp
  have hsub' := hd.map_view_subset h' ht h fun q => (hfound q).mpr
  have hperm := (List.perm_ext_iff_of_nodup (FilePair.nodup_of_precedes hsorted)
    (FilePair.nodup_of_precedes hsorted')).mpr fun v => ⟨fun hv => hsub hv, fun hv => hsub' hv⟩
  exact hperm.eq_of_pairwise (fun a b _ _ hab hba => (hab.asymm hba).elim) hsorted hsorted'

end Collected

/-- **Every source is collected once and in order, whatever the search paths.**  The sources are the files with
the extension that a search path names, as it is spelled, or that stand below it under no hidden name.  Each
comes with the path of its template exactly if there is a file, and search paths that are moved, repeated or
nested in others change nothing. -/
theorem Sound.collect_once {d : Disk} (hd : d.Sound) (roots : List Path) (sourceExtension : Text)
    {templateExtension : Text} (ht : templateExtension.contains '/' = false) :
    ∃ missing pairs, d.collect roots sourceExtension templateExtension = (missing, .ok pairs) ∧
      (pairs.Pairwise fun a b => a.source.compare b.source = .lt) ∧
      (∀ q : Path, (∃ pair ∈ pairs, pair.source.same q = true) ↔
        q.hasExtension sourceExtension = true ∧ ∃ root ∈ roots, d.FoundFrom root q) ∧
      (∀ pair ∈ pairs, d.isFile pair.source = true ∧
        ∃ t, pair.source.withExtension templateExtension = .ok t ∧
          pair.template = if d.isFile t then some t else none) ∧
      ∀ roots', roots ⊆ roots' → (∀ r ∈ roots', r ∈ roots ∨ ∃ root ∈ roots, d.Nested root r) →
        ∃ missing' pairs', d.collect roots' sourceExtension templateExtension = (missing', .ok pairs') ∧
          pairs'.map FilePair.view = pairs.map FilePair.view := by
  obtain ⟨missing, pairs, h⟩ := d.exists_collect roots sourceExtension ht
  refine ⟨missing, pairs, h, hd.collect_pairwise h ht, fun q => ?_, fun pair hpair => ?_, ?_⟩
  · rw [← hd.exists_mem_collect_iff h ht q]
    simp only [Path.same, decide_eq_true_eq]
  · obtain ⟨-, -, -, -, -, -, hpaired⟩ := exists_root_of_mem_collect h hpair
    refine ⟨hd.isFile_of_mem_collect h hpair, ?_⟩
    unfold Disk.pair at hpaired
    split at hpaired
    · rename_i t hwith
      exact ⟨t, hwith, (congrArg FilePair.template (Except.ok.inj hpaired)).symm⟩
    · cases hpaired
  · intro roots' hsub hnested
    obtain ⟨missing', pairs', h'⟩ := d.exists_collect roots' sourceExtension ht
    refine ⟨missing', pairs', h', hd.map_view_eq h' ht h fun q => ⟨?_, ?_⟩⟩
    · rintro ⟨r, hr, hq⟩
      rcases hnested r hr with hr | ⟨root, hroot, hin⟩
      · exact ⟨r, hr, hq⟩
      · exact ⟨root, hroot, hd.foundFrom_of_nested hin hq⟩
    · rintro ⟨root, hroot, hq⟩
      exact ⟨root, hsub hroot, hq⟩

/-- Files of which some have hidden names. -/
def hiddenFiles : List FileStep :=
  [.writeIn "a/Card.php" "" 1, .writeIn "a/Card.html" "" 1, .writeIn ".old/Nav.php" "" 1, .writeIn "..php" "" 1]

/-- The workspace, a hidden directory and a hidden file in it, and a path that leads nowhere. -/
def overlappingPaths : List Path :=
  ["/w/.old/", "/w", "/w/./..php", "/none"].map fun p => ⟨p.toList⟩

theorem Sound.collect_once_hiddenFiles :
    let d := workspace hiddenFiles
    let nested := ["/w//a", "/w/a/./Card.php"].map fun p => Path.mk p.toList
    d.Sound ∧ ∃ missing pairs, d.collect overlappingPaths "php".toList "html".toList = (missing, .ok pairs) ∧
      (pairs.Pairwise fun a b => a.source.compare b.source = .lt) ∧
      ∃ missing' pairs', d.collect (nested ++ overlappingPaths.reverse ++ overlappingPaths) "php".toList
          "html".toList = (missing', .ok pairs') ∧
        pairs'.map FilePair.view = pairs.map FilePair.view := by
  intro d nested
  have hd : d.Sound := (Sound.empty.foldl_apply _).foldl_apply _
  have ht : "html".toList.contains '/' = false := by decide
  obtain ⟨missing, pairs, hcollect, hincreasing, -, -, hmore⟩ :=
    hd.collect_once overlappingPaths "php".toList ht
  refine ⟨hd, missing, pairs, hcollect, hincreasing, hmore _ (by simp) fun r hr => ?_⟩
  rw [List.mem_append, List.mem_append, List.mem_reverse] at hr
  rcases hr with (hr | hr) | hr
  · refine Or.inr ⟨⟨"/w".toList⟩, by decide, ?_⟩
    rcases List.mem_cons.mp hr with rfl | hr
    · exact ⟨["a".toList], by decide, by decide, by simp⟩
    · rw [List.map_singleton, List.mem_singleton] at hr
      subst hr
      exact ⟨["a".toList, "Card.php".toList], by decide, by decide, by simp⟩
  · exact Or.inl hr
  · exact Or.inl hr

end Disk

end TemplateAssist
