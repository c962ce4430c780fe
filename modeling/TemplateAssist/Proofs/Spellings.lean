import TemplateAssist.Proofs.Pairing

/-!
# Spellings of a path

Paths of the same segments can be spelled with other separators and `.` parts.  A system follows the parts
of the spelling, so that a separator or a `.` at the end makes a difference: it asks for a directory.

* `Disk.locate_congr` — paths that end with a name lead to the same file or directory when their segments
  are the same.
* `Disk.Sound.endsInName_of_isFile` — the path of a file ends with a name.
* `Path.renamed` — the name of the template beside a name.

Principal result: `Disk.Sound.pair_congr`.  One source has one template, however it is spelled.
-/

namespace TemplateAssist

/-- The step of a system for a segment behind the root. -/
def Segment.step : Segment → Text
  | .name n => n
  | .up => ['.', '.']
  | .root | .here => []

theorem filter_parts (parts : List Text) :
    (parts.filter (· ≠ [])).filter (· ≠ ['.']) = (parts.filterMap Segment.ofPart?).map Segment.step := by
  induction parts with
  | nil => rfl
  | cons part rest ih =>
    rw [List.filter_filter] at ih ⊢
    by_cases hnil : part = []
    · simpa [hnil, Segment.ofPart?] using ih
    by_cases hdot : part = ['.']
    · simpa [hdot, Segment.ofPart?] using ih
    by_cases hup : part = ['.', '.']
    · simpa [hup, Segment.ofPart?, Segment.step] using ih
    · simpa [hnil, hdot, hup, Segment.ofPart?, Segment.step] using ih

namespace Path

theorem isAbsolute_iff_mem_root {p : Path} : p.isAbsolute = true ↔ .root ∈ p.segments := by
  refine ⟨fun h => ?_, isAbsolute_of_mem_root⟩
  rw [segments, leading_of_isAbsolute h]
  exact List.mem_cons_self

theorem EndsInName.filter_steps {p : Path} (h : p.EndsInName) (habs : p.isAbsolute = true) :
    p.steps.filter (· ≠ ['.']) = p.segments.tail.map Segment.step := by
  rw [h.steps.1, filter_parts, segments, leading_of_isAbsolute habs]
  rfl

theorem segments_append_name {dir n : Text} (hdir : IsDirectory dir) (hn : IsName n) :
    segments ⟨dir ++ n⟩ = segments ⟨dir⟩ ++ [.name n] := by
  rw [segments_append hdir hn.2.2.2 fun _ => hn.2.1, ofPart?_of_isName hn]
  rfl

theorem endsInName_join (p : Path) {n : Text} (hn : IsName n) : (p.join ⟨n⟩).EndsInName :=
  ⟨p.slashed, n, by rw [join_eq p hn.2.2.2], p.isDirectory_slashed, hn⟩

theorem hasExtension_congr {p q : Path} (h : p.segments = q.segments) (extension : Text) :
    p.hasExtension extension = q.hasExtension extension := by
  rw [hasExtension, hasExtension, extension?, extension?, fileName?, fileName?, h]

/-! ## The name of a template -/

/-- What becomes of a name with another extension.  A lone dot is lost with its extension. -/
def renamed (name extension : Text) : Text :=
  if (splitName name).1 = ['.'] then ['.', '.'] else (splitName name).1 ++ suffixOf extension

theorem renamed_cases {name extension : Text} (hn : IsName name) (hext : extension.contains '/' = false) :
    renamed name extension = ['.', '.'] ∨ IsName (renamed name extension) := by
  have hfree : '/' ∉ extension := fun h => by
    rw [List.contains_iff_mem.mpr h] at hext
    cases hext
  have hstem := splitName_fst_ne_nil hn.1
  have hslash : '/' ∉ (splitName name).1 := fun h => hn.2.2.2 (mem_of_mem_splitName_fst h)
  unfold renamed
  split
  · exact Or.inl rfl
  rename_i hlone
  by_cases hnil : extension = []
  · rw [suffixOf, if_pos hnil, List.append_nil]
    by_cases hup : (splitName name).1 = ['.', '.']
    · exact Or.inl hup
    · exact Or.inr ⟨hstem, hlone, hup, hslash⟩
  · rw [suffixOf, if_neg hnil]
    exact Or.inr (isName_of_extension hstem hslash hnil hfree)

theorem withExtension_append {dir name : Text} (hdir : IsDirectory dir) (hn : IsName name)
    {extension : Text} (hext : extension.contains '/' = false) :
    withExtension ⟨dir ++ name⟩ extension = .ok ⟨dir ++ renamed name extension⟩ := by
  have hname : fileName? ⟨dir ++ name⟩ = some name := fileName?_concat (segments_append_name hdir hn)
  have hdirectory : directory ⟨dir ++ name⟩ name = dir := by
    rw [directory, cutTrailing_append dir hn]
    simp
  rw [withExtension, hext]
  simp only [Bool.false_eq_true, if_false, hname, hdirectory, cutTrailing_append dir hn, and_true, renamed]
  split
  · rfl
  · rw [List.append_assoc]

end Path

/-! ## Where a spelling leads -/

namespace Disk

theorem follow_of_file {d : Disk} {names : List Text} {f : File} (h : d.node? names = some (.file f))
    {steps : List Text} (hne : steps ≠ []) : d.follow names steps = .error .notDirectory := by
  obtain ⟨step, rest, rfl⟩ := List.exists_cons_of_ne_nil hne
  simp only [follow, h]

theorem follow_of_missing {d : Disk} {names : List Text} (h : d.node? names = none) (steps : List Text) :
    d.follow names steps = .error .notFound := by
  cases steps <;> simp only [follow, h]

/-- A step that stays where it is makes no difference unless it is the last one. -/
theorem follow_filter {d : Disk} {steps : List Text} (h : steps.getLast? ≠ some ['.']) (names : List Text) :
    d.follow names (steps.filter (· ≠ ['.'])) = d.follow names steps := by
  induction steps generalizing names with
  | nil => rfl
  | cons step rest ih =>
    have hrest : rest.getLast? ≠ some ['.'] := by
      intro hlast
      rw [List.getLast?_cons, hlast] at h
      exact h rfl
    by_cases hdot : step = ['.']
    · -- something other than `.` follows
      have hfilter : rest.filter (· ≠ ['.']) ≠ [] := by
        intro hnil
        cases hr : rest.getLast? with
        | none =>
          rw [List.getLast?_cons, hr, hdot] at h
          exact h rfl
        | some last =>
          have hlast := List.mem_of_getLast? hr
          have hne : last ≠ ['.'] := fun he => hrest (he ▸ hr)
          exact List.not_mem_nil (hnil ▸ List.mem_filter.mpr ⟨hlast, by simpa using hne⟩)
      rw [List.filter_cons_of_neg (by simp [hdot])]
      cases hnode : d.node? names with
      | none => rw [follow_of_missing hnode, follow_of_missing hnode]
      | some node =>
        cases node with
        | file f => rw [follow_of_file hnode hfilter, follow_of_file hnode (List.cons_ne_nil _ _)]
        | directory =>
          rw [ih hrest]
          simp only [follow, hnode, hdot, if_true]
    · rw [List.filter_cons_of_pos (by simpa using hdot)]
      simp only [follow, ih hrest]

/-- **Where a path that ends with a name leads is a matter of its segments.** -/
theorem locate_congr (d : Disk) {p q : Path} (hp : p.EndsInName) (hq : q.EndsInName)
    (h : p.segments = q.segments) : d.locate p = d.locate q := by
  by_cases habs : p.isAbsolute = true
  · have habs' : q.isAbsolute = true := by
      rw [Path.isAbsolute_iff_mem_root, ← h]
      exact Path.isAbsolute_iff_mem_root.mp habs
    rw [locate, locate, if_pos habs, if_pos habs', ← follow_filter hp.steps.2, ← follow_filter hq.steps.2,
      hp.filter_steps habs, hq.filter_steps habs', h]
  · have habs' : ¬q.isAbsolute = true := by
      rw [Path.isAbsolute_iff_mem_root, ← h]
      exact fun hroot => habs (Path.isAbsolute_iff_mem_root.mpr hroot)
    rw [locate, locate, if_neg habs, if_neg habs']

theorem isFile_congr (d : Disk) {p q : Path} (hp : p.EndsInName) (hq : q.EndsInName)
    (h : p.segments = q.segments) : d.isFile p = d.isFile q := by
  rw [isFile, isFile, d.locate_congr hp hq h]

theorem exists_locate_of_isFile {d : Disk} {p : Path} (h : d.isFile p = true) :
    ∃ f, d.locate p = .ok (p.names, .file f) := by
  unfold isFile at h
  split at h
  · rename_i names f hlocate
    obtain ⟨rfl, -⟩ := locate_ok hlocate
    exact ⟨f, hlocate⟩
  · cases h

/-- What stands under a name behind a path stands in a directory. -/
theorem locate_of_join {d : Disk} {dir : Path} {n : Text} (hn : IsName n) {r : List Text × Node}
    (h : d.locate (dir.join ⟨n⟩) = .ok r) : d.locate dir = .ok (dir.names, .directory) := by
  suffices ∃ place, d.locate dir = .ok (place, .directory) by
    obtain ⟨place, hplace⟩ := this
    rw [← (locate_ok hplace).1]
    exact hplace
  unfold locate at h
  split at h
  · rename_i habs
    have hdir : dir.isAbsolute = true := by
      rw [Path.isAbsolute_iff_mem_root, Path.join_segments dir hn] at habs
      exact Path.isAbsolute_of_mem_root ((List.mem_append.mp habs).resolve_right (by simp))
    rw [Path.join_steps dir hn, follow_append] at h
    split at h
    · rename_i place node hplace
      have hnode : d.node? place = some .directory := by
        cases hnode : d.node? place with
        | none =>
          rw [follow_of_missing hnode] at h
          cases h
        | some node =>
          cases node with
          | file f =>
            rw [follow_of_file hnode (List.cons_ne_nil _ _)] at h
            cases h
          | directory => rfl
      refine ⟨place, ?_⟩
      rw [locate, if_pos hdir, Path.steps, follow_append, hplace]
      show d.follow place _ = _
      split <;> simp [follow, hnode]
    · cases h
  · cases h

/-- A step that names nothing leads to a directory. -/
theorem Sound.directory_of_follow {d : Disk} (hd : d.Sound) {names front : List Text} {last : Text}
    (hlast : last = ['.'] ∨ last = ['.', '.']) {result : List Text × Node}
    (h : d.follow names (front ++ [last]) = .ok result) : result.2 = .directory := by
  rw [follow_append] at h
  split at h
  · rename_i place node hplace
    cases hnode : d.node? place with
    | none =>
      rw [follow_of_missing hnode] at h
      cases h
    | some here =>
      cases here with
      | file f =>
        rw [follow_of_file hnode (List.cons_ne_nil _ _)] at h
        cases h
      | directory =>
        rcases hlast with rfl | rfl
        · simp only [Disk.follow, hnode, if_true, Except.ok.injEq] at h
          rw [← h]
        · have habove : d.node? place.dropLast = some .directory := by
            rcases List.eq_nil_or_concat place with rfl | ⟨above, n, rfl⟩
            · rfl
            · rw [List.concat_eq_append] at hnode ⊢
              rw [List.dropLast_concat]
              exact hd.rooted above n _ hnode
          simp only [Disk.follow, hnode, habove, List.cons.injEq, reduceCtorEq, and_false, if_false, if_true,
            Except.ok.injEq] at h
          rw [← h]
  · cases h

/-- **The path of a file ends with a name.** -/
theorem Sound.endsInName_of_isFile {d : Disk} (hd : d.Sound) {p : Path} (h : d.isFile p = true) :
    p.EndsInName := by
  obtain ⟨f, hlocate⟩ := exists_locate_of_isFile h
  unfold locate at hlocate
  split at hlocate
  · rename_i habs
    have hnone : ∀ front last, p.steps = front ++ [last] → last ≠ ['.'] ∧ last ≠ ['.', '.'] := by
      intro front last hsteps
      rw [hsteps] at hlocate
      rw [← not_or]
      intro hlast
      cases hd.directory_of_follow hlast hlocate
    obtain ⟨dir, n, hp, hslash, hdir⟩ := exists_last_part p.spelling
    refine ⟨dir, n, hp, hdir, ?_⟩
    rcases hdir with rfl | ⟨above, rfl⟩
    · -- a path without separators does not start at the root
      rw [List.nil_append] at hp
      rw [Path.isAbsolute, hp, decide_eq_true_eq] at habs
      exact absurd (List.mem_of_head? habs) hslash
    have hne : n ≠ [] := by
      rintro rfl
      have hsteps : p.steps = (splitSlashes p.spelling).filter (· ≠ []) ++ [['.']] := by
        rw [Path.steps, if_pos (by rw [hp]; simp)]
      exact (hnone _ _ hsteps).1 rfl
    have hsteps : p.steps = (splitSlashes above).filter (· ≠ []) ++ [n] := by
      have hend : (above ++ ['/'] ++ n).getLast? ≠ some '/' := by
        rw [List.getLast?_append_of_ne_nil _ hne]
        exact fun he => hslash (List.mem_of_getLast? he)
      rw [Path.steps, hp, if_neg hend, List.append_nil, List.append_assoc, List.singleton_append,
        splitSlashes_append, splitSlashes_of_notMem hslash, List.filter_append]
      simp [hne]
    exact ⟨hne, (hnone _ _ hsteps).1, (hnone _ _ hsteps).2, hslash⟩
  · cases hlocate

theorem Sound.not_isFile_up {d : Disk} (hd : d.Sound) {dir : Text} (hdir : Path.IsDirectory dir) :
    d.isFile ⟨dir ++ ['.', '.']⟩ = false := by
  refine Bool.eq_false_iff.mpr fun hfile => ?_
  obtain ⟨above, n, hspelling, habove, hn⟩ := hd.endsInName_of_isFile hfile
  have hup : Path.segments ⟨dir ++ ['.', '.']⟩ = Path.segments ⟨dir⟩ ++ [.up] :=
    Path.segments_append hdir (by simp) (by simp)
  rw [show dir ++ ['.', '.'] = above ++ n from hspelling, Path.segments_append_name habove hn] at hup
  cases (List.append_inj' hup rfl).2

/-- **One source has one template.**  It does not matter how the source is spelled, as long as the spelling
leads to a file. -/
theorem Sound.pair_congr {d : Disk} (hd : d.Sound) {p q : Path} (hp : d.isFile p = true)
    (hq : d.isFile q = true) (hsegments : p.segments = q.segments) {extension : Text}
    (hext : extension.contains '/' = false) {a b : FilePair} (ha : d.pair p extension = .ok a)
    (hb : d.pair q extension = .ok b) : a.template.map Path.segments = b.template.map Path.segments := by
  obtain ⟨dir, n, hpn, hdir, hn⟩ := hd.endsInName_of_isFile hp
  obtain ⟨dir', n', hqn, hdir', hn'⟩ := hd.endsInName_of_isFile hq
  obtain rfl : p = ⟨dir ++ n⟩ := congrArg Path.mk hpn
  obtain rfl : q = ⟨dir' ++ n'⟩ := congrArg Path.mk hqn
  rw [Path.segments_append_name hdir hn, Path.segments_append_name hdir' hn'] at hsegments
  obtain ⟨habove, hlast⟩ := List.append_inj' hsegments rfl
  obtain rfl : n = n' := Segment.name.inj (List.singleton_inj.mp hlast)
  rw [Disk.pair, Path.withExtension_append hdir hn hext] at ha
  rw [Disk.pair, Path.withExtension_append hdir' hn hext] at hb
  rw [← Except.ok.inj ha, ← Except.ok.inj hb]
  rcases Path.renamed_cases hn hext with hup | hname
  · rw [hup, hd.not_isFile_up hdir, hd.not_isFile_up hdir']
    rfl
  · have hsame : Path.segments ⟨dir ++ Path.renamed n extension⟩ =
        Path.segments ⟨dir' ++ Path.renamed n extension⟩ := by
      rw [Path.segments_append_name hdir hname, Path.segments_append_name hdir' hname, habove]
    have hfile := d.isFile_congr ⟨dir, _, rfl, hdir, hname⟩ ⟨dir', _, rfl, hdir', hname⟩ hsame
    rw [hfile]
    split
    · exact congrArg some hsame
    · rfl

end Disk

end TemplateAssist
