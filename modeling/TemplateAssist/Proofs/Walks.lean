import TemplateAssist.Proofs.Sources

/-!
# What a walk finds

Search paths may be spelled in any way here: with `..`, twice, or as the path of a file.

* `locate_join` — where a name behind the path of a directory leads.
* `Disk.FileIn` — a file stands in a directory that a path leads to.  What a walk finds below a directory
  is spelled so (`Sound.fileIn`).
* `withExtension_join`, `exists_withFileName` — the paths beside a path.

Principal results: `Sound.isFile_of_mem_collect`, and `FileIn.pair_congr`, by which one source has one
template however it is spelled.
-/

namespace TemplateAssist

namespace Path

theorem join_fileName? (p : Path) {n : Text} (hn : IsName n) : (p.join ⟨n⟩).fileName? = some n := by
  rw [fileName?, join_segments p hn, List.getLast?_concat]

theorem join_names (p : Path) {n : Text} (hn : IsName n) : (p.join ⟨n⟩).names = p.names ++ [n] := by
  rw [names_eq, names_eq, join_segments p hn, List.foldl_append]
  rfl

/-- The steps that a path and a name behind it share. -/
theorem join_steps (p : Path) {n : Text} (hn : IsName n) :
    (p.join ⟨n⟩).steps = (splitSlashes p.spelling).filter (· ≠ []) ++ [n] := by
  have hlast : (p.slashed ++ n).getLast? ≠ some '/' := by
    rw [List.getLast?_append_of_ne_nil _ hn.1]
    exact fun he => hn.2.2.2 (List.mem_of_getLast? he)
  have hname : splitSlashes n = [n] := splitSlashes_of_notMem hn.2.2.2
  rw [join_eq p hn.2.2.2, steps, if_neg hlast, List.append_nil]
  show (splitSlashes (p.slashed ++ n)).filter (· ≠ []) = _
  unfold slashed
  split
  · rename_i h
    rcases h with h | h
    · rw [h, List.nil_append, hname]
      simp [splitSlashes, hn.1]
    · obtain ⟨d, hd⟩ := List.getLast?_eq_some_iff.mp h
      rw [hd, List.append_assoc, List.singleton_append, splitSlashes_append, splitSlashes_append, hname]
      simp [splitSlashes, hn.1]
  · rw [List.append_assoc, List.singleton_append, splitSlashes_append, hname, List.filter_append]
    simp [hn.1]

theorem join_isAbsolute {p : Path} (h : p.isAbsolute = true) {n : Text} (hn : IsName n) :
    (p.join ⟨n⟩).isAbsolute = true := by
  rw [join_eq p hn.2.2.2]
  obtain ⟨spelling⟩ := p
  cases spelling with
  | nil => cases h
  | cons c rest =>
    unfold slashed
    split <;> exact h

/-! ## Paths beside a path -/

/-- Nothing is cut from a spelling that ends with a name. -/
theorem cutTrailing_append (dir : Text) {n : Text} (hn : IsName n) :
    cutTrailing (dir ++ n) = dir ++ n := by
  have hpart : '/' ∉ n := hn.2.2.2
  obtain ⟨front, last, hfront⟩ : ∃ front last, n = front ++ [last] :=
    ⟨n.dropLast, n.getLast hn.1, (List.dropLast_append_getLast hn.1).symm⟩
  have hslash : last ≠ '/' := by
    rintro rfl
    exact hpart (by simp [hfront])
  unfold cutTrailing
  have hrev : (dir ++ n).reverse = last :: (front.reverse ++ dir.reverse) := by simp [hfront]
  rw [hrev, ← List.reverse_reverse (dir ++ n), hrev]
  generalize hrest : front.reverse ++ dir.reverse = rest
  unfold cutTrailing.trimBack
  split
  · rename_i h
    cases h
  · rename_i h
    exact absurd (List.cons.inj h).1 hslash
  · rename_i h
    exact absurd (List.cons.inj h).1 hslash
  · rename_i h
    rw [h]
    rfl
  · -- a last name of one dot is no name
    rename_i more h
    obtain ⟨rfl, rfl⟩ := List.cons.inj h
    cases hf : front.reverse with
    | nil =>
      rw [List.reverse_eq_nil_iff.mp hf] at hfront
      exact absurd hfront hn.2.1
    | cons c more' =>
      rw [hf, List.cons_append] at hrest
      have hmem : c ∈ n := by
        rw [hfront]
        exact List.mem_append_left _ (List.mem_reverse.mp (hf ▸ List.mem_cons_self))
      exact absurd ((List.cons.inj hrest).1 ▸ hmem) hpart
  · rename_i h
    rw [h]

theorem directory_join (p : Path) {n : Text} (hn : IsName n) :
    (p.join ⟨n⟩).directory n = p.slashed := by
  rw [join_eq p hn.2.2.2, directory, cutTrailing_append p.slashed hn]
  simp

/-- A stem that does not start with a dot makes a name with every suffix. -/
theorem isName_append_suffixOf {stem extension : Text} (hne : stem ≠ []) (hdot : stem.head? ≠ some '.')
    (hstem : '/' ∉ stem) (hext : '/' ∉ extension) : IsName (stem ++ suffixOf extension) := by
  have hsuffix : '/' ∉ suffixOf extension := by
    unfold suffixOf
    split
    · exact List.not_mem_nil
    · exact fun h => hext ((List.mem_cons.mp h).resolve_left (by decide))
  have hfree : '/' ∉ stem ++ suffixOf extension := fun h =>
    (List.mem_append.mp h).elim hstem hsuffix
  cases stem with
  | nil => exact absurd rfl hne
  | cons c rest =>
    have hc : c ≠ '.' := fun h => hdot (by rw [h]; rfl)
    exact ⟨by simp, by simp [hc], by simp [hc], hfree⟩

theorem splitName_head? (name : Text) : (splitName name).1.head? = name.head? := by
  cases he : (splitName name).2 with
  | none => rw [splitName_none he]
  | some extension =>
    obtain ⟨hname, hstem, -⟩ := splitName_some (Prod.ext rfl he)
    conv_rhs => rw [hname]
    rw [List.head?_append_of_ne_nil _ hstem]

/-- A file that is not hidden with another extension. -/
theorem withExtension_join (p : Path) {n : Text} (hn : IsName n) (hshown : Disk.isHiddenName n = false)
    {extension : Text} (hext : extension.contains '/' = false) :
    (p.join ⟨n⟩).withExtension extension = .ok (p.join ⟨(splitName n).1 ++ suffixOf extension⟩) ∧
      IsName ((splitName n).1 ++ suffixOf extension) := by
  have hfree : '/' ∉ extension := fun h => by
    rw [List.contains_iff_mem.mpr h] at hext
    cases hext
  have hdot : (splitName n).1.head? ≠ some '.' := by
    rw [splitName_head?]
    simpa [Disk.isHiddenName] using hshown
  have hname : IsName ((splitName n).1 ++ suffixOf extension) :=
    isName_append_suffixOf (splitName_fst_ne_nil hn.1) hdot
      (fun h => hn.2.2.2 (mem_of_mem_splitName_fst h)) hfree
  have hstem : (splitName n).1 ≠ ['.'] := fun h => hdot (by rw [h]; rfl)
  refine ⟨?_, hname⟩
  rw [withExtension, hext, join_eq p hname.2.2.2]
  simp only [Bool.false_eq_true, if_false, join_fileName? p hn, hstem, false_and,
    directory_join p hn, List.append_assoc]

/-- What stands beside a path is what stands behind the path of its directory. -/
theorem exists_withFileName {p : Path} {old : Text} (h : p.fileName? = some old) :
    ∃ q : Path, q.segments = p.segments.dropLast ∧ ∀ n, p.withFileName n = q.join ⟨n⟩ := by
  obtain ⟨dir, -, -, -, -, -, hdirectory, hsegments⟩ := exists_directory h
  refine ⟨p.parentOf old, ?_, fun n => by simp only [withFileName, h]⟩
  rw [parentOf, segments_cutTrailing, hdirectory, hsegments, List.dropLast_concat]

end Path

/-! ## Where a name leads -/

namespace Disk

theorem follow_append (d : Disk) (names a b : List Text) :
    d.follow names (a ++ b) =
      match d.follow names a with
      | .ok (place, _) => d.follow place b
      | .error e => .error e := by
  induction a generalizing names with
  | nil =>
    cases hn : d.node? names with
    | some node => simp only [List.nil_append, follow, hn]
    | none =>
      cases b with
      | nil => simp only [List.nil_append, follow, hn]
      | cons step rest => simp only [List.nil_append, follow, hn]
  | cons step rest ih =>
    rw [List.cons_append, follow, follow]
    split
    · split
      · exact ih names
      · split
        · exact ih names.dropLast
        · exact ih (names ++ [step])
    · rfl
    · rfl

/-- **A name behind the path of a directory leads to what stands in the directory.** -/
theorem locate_join {d : Disk} {dir : Path} {names : List Text}
    (h : d.locate dir = .ok (names, .directory)) {n : Text} (hn : IsName n) :
    d.locate (dir.join ⟨n⟩) =
      match d.node? (names ++ [n]) with
      | some node => .ok (names ++ [n], node)
      | none => .error .notFound := by
  unfold locate at h
  split at h
  · rename_i habs
    -- a separator at the end of the path asks for a directory, and there is one
    have hfollow : d.follow [] ((splitSlashes dir.spelling).filter (· ≠ [])) =
        .ok (names, .directory) := by
      rw [Path.steps, follow_append] at h
      split at h
      · rename_i place node hplace
        have hnode := (follow_ok hplace).2
        split at h
        · cases hdir : node with
          | file f =>
            rw [hdir] at hnode
            simp [follow, hnode] at h
          | directory =>
            rw [hdir] at hnode
            simp only [follow, hnode, if_true, Except.ok.injEq, Prod.mk.injEq, and_true] at h
            rw [hplace, hdir, h]
        · rw [follow, hnode] at h
          rw [hplace]
          exact h
      · cases h
    have hdir := (follow_ok hfollow).2
    rw [locate, if_pos (Path.join_isAbsolute habs hn), Path.join_steps dir hn, follow_append, hfollow]
    cases hnode : d.node? (names ++ [n]) <;> simp only [follow, hdir, hn.2.1, hn.2.2.1, if_false, hnode]
  · cases h

/-- A file stands under a name in the directory that a path leads to. -/
structure FileIn (d : Disk) (dir : Path) (name : Text) (f : File) : Prop where
  located : d.locate dir = .ok (dir.names, .directory)
  isName : IsName name
  node : d.node? (dir.names ++ [name]) = some (.file f)

theorem FileIn.isAbsolute {d : Disk} {dir : Path} {name : Text} {f : File} (h : d.FileIn dir name f) :
    dir.isAbsolute = true := by
  have hl := h.located
  unfold locate at hl
  split at hl
  · assumption
  · cases hl

theorem FileIn.locate_eq {d : Disk} {dir : Path} {name : Text} {f : File} (h : d.FileIn dir name f) :
    d.locate (dir.join ⟨name⟩) = .ok ((dir.join ⟨name⟩).names, .file f) := by
  rw [locate_join h.located h.isName, h.node, Path.join_names dir h.isName]

theorem isFile_of_locate {d : Disk} {p : Path} {names : List Text} {f : File}
    (h : d.locate p = .ok (names, .file f)) : d.isFile p = true := by
  rw [isFile, h]

theorem isFile_join_iff {d : Disk} {dir : Path} (h : d.locate dir = .ok (dir.names, .directory))
    {n : Text} (hn : IsName n) :
    d.isFile (dir.join ⟨n⟩) = true ↔ ∃ f, d.node? (dir.names ++ [n]) = some (.file f) := by
  rw [isFile, locate_join h hn]
  cases d.node? (dir.names ++ [n]) with
  | none => simp
  | some node => cases node <;> simp

/-- What a walk spells below a directory. -/
theorem Sound.fileIn {d : Disk} (h : d.Sound) {root : Path} {inner : List Text} {n : Text} {f : File}
    (hroot : d.locate root = .ok (root.names, .directory))
    (hnode : d.node? (root.names ++ (inner ++ [n])) = some (.file f)) :
    (inner.foldl (fun q n => q.join ⟨n⟩) root).names = root.names ++ inner ∧
      d.FileIn (inner.foldl (fun q n => q.join ⟨n⟩) root) n f := by
  have hname : ∀ m ∈ inner ++ [n], IsName m := by
    intro m hm
    rw [node?_of_ne_nil (by simp)] at hnode
    exact (h.named _ (Table.mem_of_get? hnode)).2 m (List.mem_append_right _ hm)
  induction inner generalizing root with
  | nil => exact ⟨(List.append_nil _).symm, hroot, hname n List.mem_cons_self, hnode⟩
  | cons m rest ih =>
    have hm : IsName m := hname m List.mem_cons_self
    have hsplit : root.names ++ (m :: rest ++ [n]) = (root.join ⟨m⟩).names ++ (rest ++ [n]) := by
      rw [Path.join_names root hm, List.append_assoc, List.singleton_append, List.cons_append]
    rw [hsplit] at hnode
    have hdir := h.directory_of_append hnode (by simp)
    have hlocate : d.locate (root.join ⟨m⟩) = .ok ((root.join ⟨m⟩).names, .directory) := by
      rw [Path.join_names root hm] at hdir ⊢
      rw [locate_join hroot hm, hdir]
    obtain ⟨hnames, hfile⟩ := ih hlocate hnode fun k hk => hname k (List.mem_cons_of_mem _ hk)
    refine ⟨?_, hfile⟩
    rw [List.foldl_cons, hnames, Path.join_names root hm, List.append_assoc, List.singleton_append]

/-- **One source has one template.**  It does not matter how the directory is spelled. -/
theorem FileIn.pair_congr {d : Disk} {dir dir' : Path} {name name' : Text} {f f' : File}
    (h : d.FileIn dir name f) (h' : d.FileIn dir' name' f') (hshown : isHiddenName name = false)
    (hsegments : (dir.join ⟨name⟩).segments = (dir'.join ⟨name'⟩).segments) {extension : Text}
    (hext : extension.contains '/' = false) {a b : FilePair}
    (ha : d.pair (dir.join ⟨name⟩) extension = .ok a)
    (hb : d.pair (dir'.join ⟨name'⟩) extension = .ok b) :
    a.template.map Path.segments = b.template.map Path.segments := by
  rw [Path.join_segments dir h.isName, Path.join_segments dir' h'.isName] at hsegments
  obtain ⟨hdirs, hlast⟩ := List.append_inj' hsegments rfl
  obtain rfl : name = name' := Segment.name.inj (List.singleton_inj.mp hlast)
  have hnames : dir.names = dir'.names := Path.names_congr hdirs
  obtain ⟨ht, hname⟩ := Path.withExtension_join dir h.isName hshown hext
  obtain ⟨ht', -⟩ := Path.withExtension_join dir' h.isName hshown hext
  have hfile : d.isFile (dir.join ⟨(Path.splitName name).1 ++ Path.suffixOf extension⟩) =
      d.isFile (dir'.join ⟨(Path.splitName name).1 ++ Path.suffixOf extension⟩) := by
    rw [Bool.eq_iff_iff, isFile_join_iff h.located hname, isFile_join_iff h'.located hname, hnames]
  rw [Disk.pair, ht] at ha
  rw [Disk.pair, ht'] at hb
  rw [← Except.ok.inj ha, ← Except.ok.inj hb, hfile]
  split
  · simp only [Option.map_some, Path.join_segments dir hname, Path.join_segments dir' hname, hdirs]
  · rfl

/-! ## The pairs of a scan -/

theorem Sound.isFile_of_mem_below {d : Disk} (h : d.Sound) {root : Path} {files : List Path}
    (hfiles : d.below root = .ok files) {p : Path} (hp : p ∈ files) : d.isFile p = true := by
  cases hroot : d.locate root with
  | error e =>
    simp only [below, hroot] at hfiles
    cases hfiles
  | ok r =>
    obtain ⟨names, node⟩ := r
    cases node with
    | file f =>
      simp only [below, hroot, Except.ok.injEq] at hfiles
      rw [← hfiles, List.mem_singleton] at hp
      rw [hp]
      exact isFile_of_locate hroot
    | directory =>
      obtain ⟨files', hfiles', hmem⟩ := h.mem_below_iff hroot
      obtain rfl := Except.ok.inj (hfiles.symm.trans hfiles')
      obtain ⟨inner, f, hnode, -, rfl⟩ := (hmem p).mp hp
      obtain ⟨rfl, hdir⟩ := locate_ok hroot
      rcases List.eq_nil_or_concat inner with rfl | ⟨front, n, rfl⟩
      · rw [List.append_nil, hdir] at hnode
        cases hnode
      · rw [List.concat_eq_append] at hnode ⊢
        rw [List.foldl_append]
        exact isFile_of_locate (h.fileIn hroot hnode).2.locate_eq

/-- **What a scan collects are files.** -/
theorem Sound.isFile_of_mem_collect {d : Disk} (h : d.Sound) {roots : List Path}
    {sourceExtension templateExtension : Text} {missing : Nat} {pairs : List FilePair}
    (hc : d.collect roots sourceExtension templateExtension = (missing, .ok pairs)) {pair : FilePair}
    (hpair : pair ∈ pairs) : d.isFile pair.source = true := by
  obtain ⟨root, -, files, hfiles, hmem, -⟩ := exists_root_of_mem_collect hc hpair
  exact h.isFile_of_mem_below hfiles hmem

end Disk

end TemplateAssist
