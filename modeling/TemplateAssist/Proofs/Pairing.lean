import TemplateAssist.Proofs.Walks
import TemplateAssist.Settings.Config

/-!
# Sources and templates in pairs

The template of a source is the source's path with another extension, and the way back is the same with the
two extensions exchanged.

* `splitName_fst_of_dotted` — behind an extension with a dot, the stem of a name is not the one it was put to.
* `withExtension_outcome` — what another extension makes of a path with a file name.
* `withExtension_back_iff` — when the old extension leads back.
* `ComesBack` — the other path of a pair leads back to the path it was made from.

Principal result: `Options.pairing_iff`.  An extension is replaced from the last dot of a name on, so an
extension with a dot in it is put behind a name but never found there.  A stem that is a lone dot is lost with
its extension, since `..` is not a name.
-/

namespace TemplateAssist

namespace Path

theorem fileName?_concat {p : Path} {init : List Segment} {name : Text}
    (h : p.segments = init ++ [.name name]) : p.fileName? = some name := by
  rw [fileName?, h, List.getLast?_concat]

theorem fileName?_up {p : Path} {init : List Segment} (h : p.segments = init ++ [.up]) :
    p.fileName? = none := by
  rw [fileName?, h, List.getLast?_concat]

theorem hasExtension_of_splitName {p : Path} {name stem extension : Text} (hname : p.fileName? = some name)
    (hsplit : splitName name = (stem, some extension)) : p.hasExtension extension = true := by
  simp [hasExtension, extension?, hname, hsplit]

theorem stem?_eq {p : Path} {name stem : Text} {extension? : Option Text} (hname : p.fileName? = some name)
    (hsplit : splitName name = (stem, extension?)) : p.stem? = some stem := by
  rw [stem?, hname, Option.map_some, hsplit]

/-- The last dot of an extension with dots is where a name that ends with it is cut. -/
theorem splitName_fst_of_dotted (stem : Text) {extension : Text} (hdot : '.' ∈ extension) :
    ∃ more, (splitName (stem ++ '.' :: extension)).1 = stem ++ '.' :: more := by
  obtain ⟨after, before, hsplit, hafter⟩ := List.eq_append_cons_of_mem (List.mem_reverse.mpr hdot)
  have hextension : extension = before.reverse ++ '.' :: after.reverse := by
    rw [← List.reverse_reverse extension, hsplit]
    simp
  have hfree : '.' ∉ after.reverse := fun h => hafter (List.mem_reverse.mp h)
  have hname : stem ++ '.' :: extension = (stem ++ '.' :: before.reverse) ++ '.' :: after.reverse := by
    rw [hextension]
    simp
  refine ⟨before.reverse, ?_⟩
  rw [hname, splitName_append (by simp) hfree]

theorem isName_of_extension {stem extension : Text} (hstem : stem ≠ []) (hslash : '/' ∉ stem)
    (hne : extension ≠ []) (hfree : '/' ∉ extension) : IsName (stem ++ '.' :: extension) := by
  obtain ⟨c, stem, rfl⟩ := List.exists_cons_of_ne_nil hstem
  obtain ⟨d, extension, rfl⟩ := List.exists_cons_of_ne_nil hne
  refine ⟨by simp, by simp, ?_, ?_⟩
  · -- a stem, a dot and an extension are three characters at least
    intro h
    have hlength := congrArg List.length h
    simp only [List.length_append, List.length_cons, List.length_nil] at hlength
    omega
  · intro hmem
    rcases List.mem_append.mp hmem with hmem | hmem
    · exact hslash hmem
    · exact hfree ((List.mem_cons.mp hmem).resolve_left (by decide))

/-- **What another extension makes of a path with a file name.**  A lone dot before the extension is lost
with it, unless separators or `.` parts follow the name. -/
theorem withExtension_outcome {p : Path} {name extension : Text} (hname : p.fileName? = some name)
    (hne : extension ≠ []) (hfree : '/' ∉ extension) :
    ∃ q, p.withExtension extension = .ok q ∧
      if (splitName name).1 = ['.'] ∧ cutTrailing p.spelling = p.spelling then
        q.segments = p.segments.dropLast ++ [.up]
      else
        q.segments = p.segments.dropLast ++ [.name ((splitName name).1 ++ '.' :: extension)] ∧
          cutTrailing q.spelling = q.spelling := by
  obtain ⟨dir, hdir, hslash, hnil, -, -, hdirectory, hsegments⟩ := exists_directory hname
  have hinit : p.segments.dropLast = segments ⟨dir⟩ := by rw [hsegments, List.dropLast_concat]
  have hcontains : ¬ extension.contains '/' = true := fun h => hfree (List.contains_iff_mem.mp h)
  rw [hinit, withExtension, if_neg hcontains]
  simp only [hname, hdirectory]
  split
  · refine ⟨_, rfl, ?_⟩
    rw [segments_append hdir (by simp) (by simp)]
    rfl
  · have hisname : IsName ((splitName name).1 ++ '.' :: extension) :=
      isName_of_extension (splitName_fst_ne_nil hnil) (fun h => hslash (mem_of_mem_splitName_fst h)) hne hfree
    refine ⟨_, rfl, ?_, ?_⟩
    · rw [suffixOf, if_neg hne, List.append_assoc,
        segments_append hdir hisname.2.2.2 fun _ => hisname.2.1, ofPart?_of_isName hisname]
      rfl
    · rw [suffixOf, if_neg hne, List.append_assoc, cutTrailing_append dir hisname]

theorem withExtension_of_no_name {p : Path} (hname : p.fileName? = none) {extension : Text}
    (hfree : '/' ∉ extension) : p.withExtension extension = .ok p := by
  have hcontains : ¬ extension.contains '/' = true := fun h => hfree (List.contains_iff_mem.mp h)
  rw [withExtension, if_neg hcontains, hname]

theorem exists_withExtension (p : Path) {extension : Text} (hfree : '/' ∉ extension) :
    ∃ q, p.withExtension extension = .ok q := by
  cases h : p.withExtension extension with
  | ok q => exact ⟨q, rfl⟩
  | error e =>
    exact absurd (List.contains_iff_mem.mp (withExtension_eq_error_iff.mp ⟨e, h⟩)) hfree

/-- **The old extension leads back to a path exactly when the new one has no dot and the stem is not a lone
dot.** -/
theorem withExtension_back_iff {p q r : Path} {stem old new : Text}
    (hname : p.fileName? = some (stem ++ '.' :: old))
    (hsplit : splitName (stem ++ '.' :: old) = (stem, some old))
    (hold : old ≠ [] ∧ '/' ∉ old) (hnew : new ≠ [] ∧ '/' ∉ new)
    (hq : p.withExtension new = .ok q) (hr : q.withExtension old = .ok r) :
    r.segments = p.segments ↔ '.' ∉ new ∧ stem ≠ ['.'] := by
  have hstem := (splitName_some hsplit).2.1
  have hlast : ∀ {t : Path} {x : Segment}, t.segments = p.segments.dropLast ++ [x] →
      (t.segments = p.segments ↔ x = .name (stem ++ '.' :: old)) := by
    intro t x ht
    rw [ht]
    conv_lhs => rhs; rw [segments_of_fileName? hname]
    rw [List.append_cancel_left_eq, List.singleton_inj]
  obtain ⟨q', hq', hqs⟩ := withExtension_outcome hname hnew.1 hnew.2
  obtain rfl := Except.ok.inj (hq.symm.trans hq')
  rw [hsplit] at hqs
  split at hqs
  · -- the stem is lost: the way back starts without a file name and ends where it starts
    rename_i hlost
    rw [withExtension_of_no_name (fileName?_up hqs) hold.2] at hr
    rw [← Except.ok.inj hr, hlast hqs]
    exact iff_of_false (by simp) fun h => h.2 hlost.1
  · obtain ⟨hqs, hcut⟩ := hqs
    have hinit : q.segments.dropLast = p.segments.dropLast := by rw [hqs, List.dropLast_concat]
    obtain ⟨r', hr', hrs⟩ := withExtension_outcome (fileName?_concat hqs) hold.1 hold.2
    obtain rfl := Except.ok.inj (hr.symm.trans hr')
    rw [hinit] at hrs
    by_cases hdot : '.' ∈ new
    · -- the name is cut at a later dot, so the stem on the way back is longer
      obtain ⟨more, hmore⟩ := splitName_fst_of_dotted stem hdot
      have hlone : stem ++ '.' :: more ≠ ['.'] := by
        simp [List.append_eq_cons_iff, hstem]
      rw [hmore, if_neg fun h => hlone h.1] at hrs
      rw [hlast hrs.1, Segment.name.injEq]
      refine iff_of_false (fun h => ?_) fun h => h.1 hdot
      have hlength := congrArg List.length h
      simp only [List.length_append, List.length_cons] at hlength
      omega
    · rw [splitName_append hstem hdot] at hrs
      by_cases hlone : stem = ['.']
      · rw [if_pos ⟨hlone, hcut⟩] at hrs
        rw [hlast hrs]
        exact iff_of_false (by simp) fun h => h.2 hlone
      · rw [if_neg fun h => hlone h.1] at hrs
        rw [hlast hrs.1]
        exact iff_of_true rfl ⟨hdot, hlone⟩

/-- The path that `there` makes of a path leads back to it by `back`. -/
def ComesBack (there back : Path → Except ExtensionError Path) (p : Path) : Prop :=
  ∃ q r, there p = .ok q ∧ back q = .ok r ∧ r.same p = true

instance (there back : Path → Except ExtensionError Path) (p : Path) : Decidable (ComesBack there back p) :=
  decidable_of_iff (((there p).bind back).toOption.any (·.same p) = true) <| by
    unfold ComesBack
    cases hq : there p with
    | error e => simp [Except.bind, Except.toOption]
    | ok q => cases hr : back q <;> simp [Except.bind, Except.toOption, hr]

theorem comesBack_iff {there back : Path → Except ExtensionError Path} {p q r : Path}
    (hq : there p = .ok q) (hr : back q = .ok r) : ComesBack there back p ↔ r.segments = p.segments := by
  constructor
  · rintro ⟨q', r', hq', hr', hsame⟩
    obtain rfl := Except.ok.inj (hq.symm.trans hq')
    obtain rfl := Except.ok.inj (hr.symm.trans hr')
    simpa [same] using hsame
  · exact fun h => ⟨q, r, hq, hr, by simpa [same] using h⟩

end Path

namespace Options

open TemplateAssist.Path

/-- **When a source and its template lead to each other.**  For any two extensions that can be given to a path
and are not empty: the way from a source to its template leads back exactly if the template extension has no
dot, the way from a template to its source exactly if the source extension has none, and neither does for a
path whose stem is a lone dot. -/
theorem pairing_iff (o : Options) (hsource : o.sourceExtension ≠ [] ∧ '/' ∉ o.sourceExtension)
    (htemplate : o.templateExtension ≠ [] ∧ '/' ∉ o.templateExtension) :
    (∀ s : Path, s.hasExtension o.sourceExtension = true →
      (ComesBack o.templatePathFor o.sourcePathFor s ↔
        '.' ∉ o.templateExtension ∧ s.stem? ≠ some ['.'])) ∧
    ∀ t : Path, t.hasExtension o.templateExtension = true →
      (ComesBack o.sourcePathFor o.templatePathFor t ↔
        '.' ∉ o.sourceExtension ∧ t.stem? ≠ some ['.']) := by
  constructor
  · intro s hs
    obtain ⟨stem, hname, hsplit⟩ := fileName?_of_hasExtension hs
    obtain ⟨q, hq, hqs⟩ := withExtension_outcome hname htemplate.1 htemplate.2
    rw [stem?_eq hname hsplit, ne_eq, Option.some.injEq]
    by_cases hext : q.hasExtension o.templateExtension = true
    · obtain ⟨r, hr⟩ := exists_withExtension q hsource.2
      have hback : o.sourcePathFor q = .ok r := by rw [sourcePathFor, if_pos hext, hr]
      rw [comesBack_iff hq hback]
      exact withExtension_back_iff hname hsplit hsource htemplate hq hr
    · -- what is not found to be a template is left as it is
      have hback : o.sourcePathFor q = .ok q := by rw [sourcePathFor, if_neg hext]
      rw [comesBack_iff hq hback]
      rw [hsplit] at hqs
      refine iff_of_false (fun hsame => hext ?_) fun h => hext ?_
      · have hqname : q.fileName? = some (stem ++ '.' :: o.sourceExtension) := by
          rw [fileName?, hsame]
          exact hname
        split at hqs
        · rw [fileName?_up hqs] at hqname
          cases hqname
        · -- the two extensions are the same one
          rw [fileName?_concat hqs.1, Option.some.injEq, List.append_cancel_left_eq] at hqname
          rw [(List.cons.inj hqname).2, hasExtension, extension?, fileName?, hsame]
          exact hs
      · obtain ⟨hdot, hlone⟩ := h
        rw [if_neg fun h => hlone h.1] at hqs
        exact hasExtension_of_splitName (fileName?_concat hqs.1)
          (splitName_append (splitName_some hsplit).2.1 hdot)
  · intro t ht
    obtain ⟨stem, hname, hsplit⟩ := fileName?_of_hasExtension ht
    obtain ⟨q, hq⟩ := exists_withExtension t hsource.2
    obtain ⟨r, hr⟩ := exists_withExtension q htemplate.2
    have hthere : o.sourcePathFor t = .ok q := by rw [sourcePathFor, if_pos ht, hq]
    rw [stem?_eq hname hsplit, ne_eq, Option.some.injEq, comesBack_iff hthere hr]
    exact withExtension_back_iff hname hsplit htemplate hsource hq hr

/-- A source with dots in its stem, spelled with parts that do not count. -/
def dottedSource : Path := ⟨"/w//./Card.list.php/.".toList⟩

/-- A template whose name starts with a dot, behind a `..`. -/
def hiddenTemplate : Path := ⟨"../.card.html".toList⟩

theorem pairing_iff_dottedSource :
    let o : Options := ⟨[], "php".toList, "html".toList⟩
    dottedSource.hasExtension o.sourceExtension = true ∧
      ComesBack o.templatePathFor o.sourcePathFor dottedSource ∧
      hiddenTemplate.hasExtension o.templateExtension = true ∧
      ComesBack o.sourcePathFor o.templatePathFor hiddenTemplate := by
  intro o
  have hpairing := pairing_iff o (by decide) (by decide)
  have hsource : dottedSource.hasExtension o.sourceExtension = true := by decide
  have htemplate : hiddenTemplate.hasExtension o.templateExtension = true := by decide
  exact ⟨hsource, (hpairing.1 _ hsource).mpr (by decide), htemplate,
    (hpairing.2 _ htemplate).mpr (by decide)⟩

/-- **A template extension with a dot is installed as it is, and then no template leads back to its source.**
Nor does that of a source whose stem is a lone dot, whatever the extensions. -/
theorem pairing_bladeTemplate :
    let blade : Options := ⟨[], "php".toList, "blade.php".toList⟩
    let plain : Options := ⟨[], "php".toList, "html".toList⟩
    normaliseExtension blade.templateExtension = blade.templateExtension ∧
      hasExtension ⟨"/w/A.php".toList⟩ blade.sourceExtension = true ∧
      ¬ ComesBack blade.templatePathFor blade.sourcePathFor ⟨"/w/A.php".toList⟩ ∧
      hasExtension ⟨"/w/..php".toList⟩ plain.sourceExtension = true ∧
      ¬ ComesBack plain.templatePathFor plain.sourcePathFor ⟨"/w/..php".toList⟩ := by
  decide +kernel

end Options

end TemplateAssist
