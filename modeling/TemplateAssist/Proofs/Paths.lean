import TemplateAssist.Registry.World

/-!
# Paths and their extensions

* `splitSlashes_append` — the parts of a text on both sides of a separator.
* `IsDirectory` — a spelling that a name can be put behind; `segments_append` says which segments the
  two make together.
* `segments_cutTrailing`, `exists_directory` — what is cut off the end of a spelling does not count, and a
  path with a file name is a directory and that name.
* `withExtension_segments` — the segments of a path with another extension.
* `template_ne_source`, `template_injective` — with extensions that are plain words, a template path is
  never that of a source, and it tells which source it belongs to.
-/

namespace TemplateAssist

/-! ## Parts between separators -/

theorem splitSlashes_ne_nil (t : Text) : splitSlashes t ≠ [] := by
  cases t with
  | nil => simp [splitSlashes]
  | cons c rest =>
    unfold splitSlashes
    split
    · simp
    · split <;> simp

theorem splitSlashes_append (a b : Text) :
    splitSlashes (a ++ '/' :: b) = splitSlashes a ++ splitSlashes b := by
  induction a with
  | nil => simp [splitSlashes]
  | cons c a ih =>
    by_cases hc : c = '/'
    · simp [splitSlashes, hc, ih]
    · cases hs : splitSlashes a with
      | nil => exact absurd hs (splitSlashes_ne_nil a)
      | cons s more => simp [splitSlashes, hc, ih, hs]

theorem splitSlashes_of_notMem {t : Text} (h : '/' ∉ t) : splitSlashes t = [t] := by
  induction t with
  | nil => rfl
  | cons c rest ih =>
    rw [List.mem_cons, not_or] at h
    simp [splitSlashes, Ne.symm h.1, ih h.2]

/-- A text is what ends at its last separator, and a rest without separators. -/
theorem exists_last_part (t : Text) :
    ∃ front last, t = front ++ last ∧ '/' ∉ last ∧ (front = [] ∨ ∃ d, front = d ++ ['/']) := by
  induction t with
  | nil => exact ⟨[], [], rfl, by simp, Or.inl rfl⟩
  | cons c rest ih =>
    obtain ⟨front, last, rfl, hlast, hfront⟩ := ih
    rcases hfront with rfl | ⟨d, rfl⟩
    · by_cases hc : c = '/'
      · exact ⟨['/'], last, by simp [hc], hlast, Or.inr ⟨[], rfl⟩⟩
      · refine ⟨[], c :: last, rfl, ?_, Or.inl rfl⟩
        rw [List.mem_cons, not_or]
        exact ⟨Ne.symm hc, hlast⟩
    · exact ⟨c :: (d ++ ['/']), last, rfl, hlast, Or.inr ⟨c :: d, rfl⟩⟩

namespace Path

/-- A spelling that a name can be put behind: nothing, or one that ends with a separator. -/
def IsDirectory (dir : Text) : Prop :=
  dir = [] ∨ ∃ d, dir = d ++ ['/']

theorem leading_append_slash (d x : Text) :
    leading ⟨d ++ '/' :: x⟩ = leading ⟨d ++ ['/']⟩ := by
  have habs : isAbsolute ⟨d ++ '/' :: x⟩ = isAbsolute ⟨d ++ ['/']⟩ := by
    cases d <;> rfl
  unfold leading
  rw [splitSlashes_append, splitSlashes_append, habs]
  cases hs : splitSlashes d with
  | nil => exact absurd hs (splitSlashes_ne_nil d)
  | cons s more => rfl

theorem leading_of_isAbsolute {p : Path} (h : p.isAbsolute = true) : p.leading = [.root] := by
  unfold leading
  split
  · rename_i hnil
    exact absurd hnil (splitSlashes_ne_nil _)
  · rw [if_pos h]

theorem leading_of_notMem {x : Text} (hx : '/' ∉ x) (hdot : x ≠ ['.']) : leading ⟨x⟩ = [] := by
  have habs : isAbsolute ⟨x⟩ = false := by
    cases x with
    | nil => rfl
    | cons c rest =>
      rw [List.mem_cons, not_or] at hx
      simpa [isAbsolute] using Ne.symm hx.1
  simp [leading, splitSlashes_of_notMem hx, habs, hdot]

/-- The segments of a directory and of a name behind it. -/
theorem segments_append {dir x : Text} (hdir : IsDirectory dir) (hx : '/' ∉ x)
    (hdot : dir = [] → x ≠ ['.']) :
    segments ⟨dir ++ x⟩ = segments ⟨dir⟩ ++ (Segment.ofPart? x).toList := by
  have hpart : [x].filterMap Segment.ofPart? = (Segment.ofPart? x).toList := by
    cases hp : Segment.ofPart? x <;> simp [hp]
  rcases hdir with rfl | ⟨d, rfl⟩
  · show leading ⟨x⟩ ++ (splitSlashes x).filterMap Segment.ofPart? = _
    rw [leading_of_notMem hx (hdot rfl), splitSlashes_of_notMem hx, hpart]
    rfl
  · rw [List.append_assoc, List.singleton_append]
    show leading ⟨d ++ '/' :: x⟩ ++ (splitSlashes (d ++ '/' :: x)).filterMap Segment.ofPart? =
      leading ⟨d ++ ['/']⟩ ++ (splitSlashes (d ++ ['/'])).filterMap Segment.ofPart? ++ _
    rw [leading_append_slash, splitSlashes_append, splitSlashes_append, splitSlashes_of_notMem hx,
      List.filterMap_append, List.filterMap_append, hpart]
    simp [splitSlashes, Segment.ofPart?]

/-! ## The end of a spelling -/

theorem segments_append_slash {t : Text} (ht : t ≠ []) : segments ⟨t ++ ['/']⟩ = segments ⟨t⟩ := by
  have habs : isAbsolute ⟨t ++ ['/']⟩ = isAbsolute ⟨t⟩ := by
    cases t with
    | nil => exact absurd rfl ht
    | cons c rest => rfl
  have hparts : splitSlashes (t ++ ['/']) = splitSlashes t ++ [[]] := splitSlashes_append t []
  have hleading : leading ⟨t ++ ['/']⟩ = leading ⟨t⟩ := by
    unfold leading
    rw [hparts, habs]
    cases hs : splitSlashes t with
    | nil => exact absurd hs (splitSlashes_ne_nil t)
    | cons s more => rfl
  show leading _ ++ (splitSlashes (t ++ ['/'])).filterMap Segment.ofPart? = _
  rw [hleading, hparts, List.filterMap_append]
  simp [segments, Segment.ofPart?]

theorem segments_append_dot (t : Text) : segments ⟨t ++ ['/', '.']⟩ = segments ⟨t ++ ['/']⟩ := by
  have hdir : IsDirectory (t ++ ['/']) := Or.inr ⟨t, rfl⟩
  have := segments_append hdir (x := ['.']) (by simp) (by simp)
  simpa [Segment.ofPart?] using this

/-- Separators and `.` parts at the end do not count. -/
theorem segments_cutTrailing (t : Text) : segments ⟨cutTrailing t⟩ = segments ⟨t⟩ := by
  have hback : ∀ r, segments ⟨cutTrailing.trimBack r⟩ = segments ⟨r.reverse⟩ := by
    intro r
    fun_induction cutTrailing.trimBack r with
    | case1 | case2 | case4 => rfl
    | case3 rest hne ih =>
      have hrest : rest.reverse ≠ [] := by simpa using hne
      rw [ih, List.reverse_cons, segments_append_slash hrest]
    | case5 rest ih =>
      rw [ih]
      simpa using (segments_append_dot rest.reverse).symm
    | case6 c rest => rfl
  rw [cutTrailing, hback, List.reverse_reverse]

/-- What is left when the end is cut off: nothing, the root, a `.`, or a text that ends with a part that
counts. -/
theorem cutTrailing_cases (t : Text) :
    cutTrailing t = [] ∨ cutTrailing t = ['/'] ∨ cutTrailing t = ['.'] ∨
      ∃ dir x, cutTrailing t = dir ++ x ∧ IsDirectory dir ∧ '/' ∉ x ∧ x ≠ [] ∧ x ≠ ['.'] := by
  unfold cutTrailing
  generalize t.reverse = r
  fun_induction cutTrailing.trimBack r with
  | case1 => exact Or.inl rfl
  | case2 => exact Or.inr (Or.inl rfl)
  | case3 rest hne ih => exact ih
  | case4 => exact Or.inr (Or.inr (Or.inl rfl))
  | case5 rest ih => exact ih
  | case6 c rest _ hslash hdot hdots =>
    obtain ⟨front, last, ht, hlast, hfront⟩ := exists_last_part (c :: rest).reverse
    refine Or.inr (Or.inr (Or.inr ⟨front, last, ht, hfront, hlast, ?_, ?_⟩))
    · rintro rfl
      rw [List.append_nil, List.reverse_cons] at ht
      rcases hfront with rfl | ⟨d, rfl⟩
      · simp at ht
      · exact hslash (List.singleton_inj.mp (List.append_inj_right' ht rfl))
    · rintro rfl
      rw [List.reverse_cons] at ht
      have hc : c = '.' := List.singleton_inj.mp (List.append_inj_right' ht rfl)
      have hrest : rest = front.reverse := by
        rw [← List.append_inj_left' ht rfl, List.reverse_reverse]
      rcases hfront with rfl | ⟨d, rfl⟩
      · exact hdot hc hrest
      · exact hdots d.reverse hc (by simpa using hrest)

/-- A path with a file name is a directory and that name. -/
theorem exists_directory {p : Path} {name : Text} (h : p.fileName? = some name) :
    ∃ dir, IsDirectory dir ∧ '/' ∉ name ∧ name ≠ [] ∧ name ≠ ['.'] ∧ name ≠ ['.', '.'] ∧
      p.directory name = dir ∧ p.segments = segments ⟨dir⟩ ++ [.name name] := by
  have hlast : p.segments.getLast? = some (.name name) := by
    unfold fileName? at h
    split at h
    · rename_i text hs
      rw [hs, Option.some.inj h]
    · cases h
  have hcut := segments_cutTrailing p.spelling
  rcases cutTrailing_cases p.spelling with hc | hc | hc | ⟨dir, x, hc, hdir, hx, hne, hdot⟩
  · rw [hc] at hcut
    rw [show p.segments = [] from hcut.symm] at hlast
    cases hlast
  · rw [hc] at hcut
    rw [show p.segments = [.root] from hcut.symm] at hlast
    cases hlast
  · rw [hc] at hcut
    rw [show p.segments = [.here] from hcut.symm] at hlast
    cases hlast
  · rw [hc, segments_append hdir hx fun _ => hdot] at hcut
    have hcut : segments ⟨dir⟩ ++ (Segment.ofPart? x).toList = p.segments := hcut
    by_cases hup : x = ['.', '.']
    · rw [← hcut, hup] at hlast
      simp [Segment.ofPart?] at hlast
    · have hpart : Segment.ofPart? x = some (.name x) := by
        simp [Segment.ofPart?, hne, hdot, hup]
      rw [hpart, Option.toList_some] at hcut
      rw [← hcut, List.getLast?_concat, Option.some.injEq, Segment.name.injEq] at hlast
      subst hlast
      refine ⟨dir, hdir, hx, hne, hdot, hup, ?_, hcut.symm⟩
      simp [directory, hc]

/-! ## Extensions -/

theorem notMem_takeWhile_ne (c : Char) (t : Text) : c ∉ t.takeWhile (· ≠ c) := by
  induction t with
  | nil => simp
  | cons a rest ih =>
    by_cases ha : a = c
    · simp [ha]
    · simp only [List.takeWhile_cons, ne_eq, ha, not_false_eq_true, decide_true, if_true,
        List.mem_cons, not_or]
      exact ⟨Ne.symm ha, ih⟩

/-- A file name with an extension is its stem, a dot and the extension. -/
theorem splitName_some {name stem extension : Text} (h : splitName name = (stem, some extension)) :
    name = stem ++ '.' :: extension ∧ stem ≠ [] ∧ '.' ∉ extension := by
  unfold splitName at h
  split at h
  · cases h
  · cases h
  · rename_i c rest hne hdrop
    obtain ⟨rfl, hext⟩ := Prod.mk.inj h
    rw [Option.some.injEq] at hext
    have hc : c = '.' := by
      have := List.head?_dropWhile_not (fun x => decide (x ≠ '.')) name.reverse
      rw [hdrop] at this
      simpa using this
    have hrest : rest ≠ [] := fun he => hne hc he
    have hsplit := List.takeWhile_append_dropWhile (p := fun x => decide (x ≠ '.')) (l := name.reverse)
    rw [hdrop] at hsplit
    refine ⟨?_, by simpa using hrest, ?_⟩
    · rw [← List.reverse_reverse name, ← hsplit, ← hext, hc]
      simp
    · rw [← hext, List.mem_reverse]
      exact notMem_takeWhile_ne '.' _

theorem splitName_append {stem extension : Text} (hstem : stem ≠ []) (hext : '.' ∉ extension) :
    splitName (stem ++ '.' :: extension) = (stem, some extension) := by
  have hall : ∀ a ∈ extension.reverse, decide (a ≠ '.') = true := by
    intro a ha
    rw [decide_eq_true_eq]
    rintro rfl
    exact hext (List.mem_reverse.mp ha)
  have hrev : (stem ++ '.' :: extension).reverse = extension.reverse ++ '.' :: stem.reverse := by simp
  unfold splitName
  rw [hrev, List.dropWhile_append_of_pos hall, List.takeWhile_append_of_pos hall]
  cases hs : stem.reverse with
  | nil => exact absurd (List.reverse_eq_nil_iff.mp hs) hstem
  | cons a more =>
    have hstem' : stem = (a :: more).reverse := by rw [← hs, List.reverse_reverse]
    simp [hstem']

theorem splitName_none {name : Text} (h : (splitName name).2 = none) : (splitName name).1 = name := by
  unfold splitName at h ⊢
  split at h
  · rfl
  · rfl
  · cases h

theorem splitName_fst_ne_nil {name : Text} (h : name ≠ []) : (splitName name).1 ≠ [] := by
  cases he : (splitName name).2 with
  | some extension => exact (splitName_some (Prod.ext rfl he)).2.1
  | none => rwa [splitName_none he]

theorem mem_of_mem_splitName_fst {name : Text} {c : Char} (h : c ∈ (splitName name).1) : c ∈ name := by
  cases he : (splitName name).2 with
  | some extension =>
    rw [(splitName_some (Prod.ext rfl he)).1]
    exact List.mem_append_left _ h
  | none => rwa [splitName_none he] at h

theorem ofPart?_of_length {x : Text} (h : 3 ≤ x.length) : Segment.ofPart? x = some (.name x) := by
  have h1 : ¬ (x = [] ∨ x = ['.']) := by
    rintro (rfl | rfl) <;> simp at h
  have h2 : x ≠ ['.', '.'] := by
    rintro rfl
    simp at h
  rw [Segment.ofPart?, if_neg h1, if_neg h2]

theorem withExtension_eq_error_iff {p : Path} {extension : Text} :
    (∃ e, p.withExtension extension = .error e) ↔ extension.contains '/' = true := by
  constructor
  · rintro ⟨e, h⟩
    unfold withExtension at h
    split at h
    · assumption
    · split at h
      · cases h
      · simp only at h
        split at h <;> cases h
  · intro h
    exact ⟨.separator, by rw [withExtension, if_pos h]⟩

/-- The segments of a path with another extension: the last name changes, unless it is left with a lone
dot for its stem. -/
theorem withExtension_segments {p q : Path} {name extension : Text} (hname : p.fileName? = some name)
    (hne : extension ≠ []) (hq : p.withExtension extension = .ok q) :
    q.segments = p.segments.dropLast ++ [.name ((splitName name).1 ++ '.' :: extension)] ∨
      (splitName name).1 = ['.'] ∧ q.segments = p.segments.dropLast ++ [.up] := by
  obtain ⟨dir, hdir, hslash, hnil, -, -, hdirectory, hsegments⟩ := exists_directory hname
  have hinit : p.segments.dropLast = segments ⟨dir⟩ := by rw [hsegments, List.dropLast_concat]
  rw [hinit]
  unfold withExtension at hq
  split at hq
  · cases hq
  rename_i hsep
  simp only [hname, hdirectory] at hq
  split at hq
  · rename_i hdot
    refine Or.inr ⟨hdot.1, ?_⟩
    rw [← Except.ok.inj hq, segments_append hdir (by simp) (by simp)]
    simp [Segment.ofPart?]
  · -- the new name is a stem, a dot and an extension, so it is neither `.` nor `..`
    refine Or.inl ?_
    have hstem := splitName_fst_ne_nil hnil
    have hfree : '/' ∉ (splitName name).1 ++ '.' :: extension := by
      intro hmem
      rcases List.mem_append.mp hmem with hmem | hmem
      · exact hslash (mem_of_mem_splitName_fst hmem)
      · exact hsep (List.contains_iff_mem.mpr ((List.mem_cons.mp hmem).resolve_left (by decide)))
    have hlength : 3 ≤ ((splitName name).1 ++ '.' :: extension).length := by
      have := List.length_pos_iff.mpr hstem
      have := List.length_pos_iff.mpr hne
      simp only [List.length_append, List.length_cons]
      omega
    have hdot : (splitName name).1 ++ '.' :: extension ≠ ['.'] := by
      intro he
      simp [he] at hlength
    rw [← Except.ok.inj hq, suffixOf, if_neg hne, List.append_assoc,
      segments_append hdir hfree fun _ => hdot, ofPart?_of_length hlength]
    rfl

/-! ## Templates and sources -/

/-- An extension that is a plain word: not empty, and without dots and separators. -/
def IsWord (extension : Text) : Prop :=
  extension ≠ [] ∧ '.' ∉ extension ∧ '/' ∉ extension

theorem segments_of_fileName? {p : Path} {name : Text} (h : p.fileName? = some name) :
    p.segments = p.segments.dropLast ++ [.name name] := by
  obtain ⟨dir, -, -, -, -, -, -, hsegments⟩ := exists_directory h
  rw [hsegments, List.dropLast_concat]

theorem fileName?_of_hasExtension {p : Path} {extension : Text} (h : p.hasExtension extension = true) :
    ∃ stem, p.fileName? = some (stem ++ '.' :: extension) ∧
      splitName (stem ++ '.' :: extension) = (stem, some extension) := by
  rw [hasExtension, decide_eq_true_eq, extension?, Option.bind_eq_some_iff] at h
  obtain ⟨name, hname, he⟩ := h
  obtain ⟨hsplit, hstem, hdot⟩ := splitName_some (Prod.ext rfl he)
  exact ⟨(splitName name).1, hsplit ▸ hname, splitName_append hstem hdot⟩

variable {sourceExtension templateExtension : Text}

/-- The segments of a source and of the template beside it. -/
theorem template_segments {source template : Path} (hs : source.hasExtension sourceExtension = true)
    (hte : IsWord templateExtension) (ht : source.withExtension templateExtension = .ok template) :
    ∃ stem, stem ≠ [] ∧
      source.segments = source.segments.dropLast ++ [.name (stem ++ '.' :: sourceExtension)] ∧
      (template.segments = source.segments.dropLast ++ [.name (stem ++ '.' :: templateExtension)] ∨
        stem = ['.'] ∧ template.segments = source.segments.dropLast ++ [.up]) := by
  obtain ⟨stem, hname, hsplit⟩ := fileName?_of_hasExtension hs
  have htemplate := withExtension_segments hname hte.1 ht
  rw [hsplit] at htemplate
  exact ⟨stem, (splitName_some hsplit).2.1, segments_of_fileName? hname, htemplate⟩

/-- A template path is never that of a source. -/
theorem template_ne_source {source template other : Path}
    (hs : source.hasExtension sourceExtension = true) (hte : IsWord templateExtension)
    (hne : sourceExtension ≠ templateExtension)
    (ht : source.withExtension templateExtension = .ok template)
    (ho : other.hasExtension sourceExtension = true) : template.segments ≠ other.segments := by
  intro hsame
  obtain ⟨stem, hstem, -, htemplate⟩ := template_segments hs hte ht
  obtain ⟨stem', hname, hsplit⟩ := fileName?_of_hasExtension ho
  rw [hsame, segments_of_fileName? hname] at htemplate
  rcases htemplate with h | ⟨-, h⟩
  · have hlast := List.append_inj_right' h rfl
    rw [List.singleton_inj, Segment.name.injEq] at hlast
    rw [hlast, splitName_append hstem hte.2.1] at hsplit
    exact hne (Option.some.inj (Prod.mk.inj hsplit).2).symm
  · have hlast := List.append_inj_right' h rfl
    cases List.singleton_inj.mp hlast

/-- A template path tells which source it belongs to. -/
theorem template_injective {source source' template template' : Path}
    (hs : source.hasExtension sourceExtension = true)
    (hs' : source'.hasExtension sourceExtension = true) (hte : IsWord templateExtension)
    (ht : source.withExtension templateExtension = .ok template)
    (ht' : source'.withExtension templateExtension = .ok template')
    (hsame : template.segments = template'.segments) : source.segments = source'.segments := by
  obtain ⟨stem, -, hsource, htemplate⟩ := template_segments hs hte ht
  obtain ⟨stem', -, hsource', htemplate'⟩ := template_segments hs' hte ht'
  rw [hsame] at htemplate
  have hboth : source.segments.dropLast = source'.segments.dropLast ∧ stem = stem' := by
    rcases htemplate with h | ⟨rfl, h⟩ <;> rcases htemplate' with h' | ⟨rfl, h'⟩
    all_goals
      have hinit := List.append_inj_left' (h.symm.trans h') rfl
      have hlast := List.singleton_inj.mp (List.append_inj_right' (h.symm.trans h') rfl)
    · rw [Segment.name.injEq] at hlast
      exact ⟨hinit, List.append_cancel_right hlast⟩
    · cases hlast
    · cases hlast
    · exact ⟨hinit, rfl⟩
  rw [hsource, hsource', hboth.1, hboth.2]

end Path

end TemplateAssist
