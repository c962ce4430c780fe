import Mathlib.Data.List.Basic
import Mathlib.Data.List.TakeWhile
import TemplateAssist.Proofs.Scanning
import TemplateAssist.Source.Parameters

/-!
# Parameters as they are written

* `trim_append`, `typeOr_append` — a text without blanks is what remains of it between blanks.
* `splitCommas_comma` — a comma cuts a text in two.
* `parameters_eq` — blank segments hold no parameter, so leaving them out changes nothing.
* `readParameterTail_eq_some` — the end of a parameter: markers, variable and default, with blanks anywhere
  between them.
* `readTyped_append` — a type without characters that can start the end of a parameter is passed.

Principal result: `parameters_intercalate`, which reads a list from the reading of each segment.
-/

namespace TemplateAssist

namespace Text

theorem trimStart_blank_append {space t : Text} (h : ∀ c ∈ space, isBlank c = true) :
    trimStart (space ++ t) = trimStart t := by
  rw [trimStart, trimStart, List.dropWhile_append_of_pos h]

theorem trimStart_trimStart (t : Text) : trimStart (trimStart t) = trimStart t :=
  trimStart_of_not_blank (any_head?_dropWhile isBlank t)

theorem trim_append {space t more : Text} (hspace : ∀ c ∈ space, isBlank c = true)
    (ht : ∀ c ∈ t, isBlank c = false) (hne : t ≠ []) (hmore : ∀ c ∈ more, isBlank c = true) :
    trim (space ++ (t ++ more)) = t := by
  have hstart : trimStart (space ++ (t ++ more)) = t ++ more :=
    trimStart_append hspace (any_head?_append_of_solid ht hne)
  have hend : (more.reverse ++ t.reverse).dropWhile isBlank = t.reverse := by
    refine dropWhile_append_stop (fun c hc => hmore c (List.mem_reverse.mp hc)) ?_
    exact any_head?_of_solid fun c hc => ht c (List.mem_reverse.mp hc)
  rw [trim, hstart, trimEnd, List.reverse_append, hend, List.reverse_reverse]

/-- Nothing remains of a text only if all of it is blank. -/
theorem trimStart_eq_nil_of_trim {t : Text} (h : trim t = []) : trimStart t = [] := by
  have hblank : ∀ c ∈ trimStart t, isBlank c = true := by
    rw [trim, trimEnd, List.reverse_eq_nil_iff] at h
    intro c hc
    exact List.dropWhile_eq_nil_iff.mp h c (List.mem_reverse.mpr hc)
  rw [← trimStart_trimStart]
  exact List.dropWhile_eq_nil_iff.mpr hblank

end Text

namespace Source

open Text

theorem typeOr_append {space t more fallback : Text} (hspace : ∀ c ∈ space, isBlank c = true)
    (ht : ∀ c ∈ t, isBlank c = false) (hne : t ≠ []) (hmore : ∀ c ∈ more, isBlank c = true) :
    typeOr (space ++ (t ++ more)) fallback = t := by
  rw [typeOr, trim_append hspace ht hne hmore]
  cases t with
  | nil => exact absurd rfl hne
  | cons c t => rfl

theorem typeOr_of_solid {t : Text} (ht : ∀ c ∈ t, isBlank c = false) (hne : t ≠ []) (fallback : Text) :
    typeOr t fallback = t := by
  have hempty : ∀ c ∈ ([] : Text), isBlank c = true := by simp
  simpa using typeOr_append hempty ht hne hempty

/-! ## Segments -/

theorem splitCommas_ne_nil (t : Text) : splitCommas t ≠ [] := by
  cases t with
  | nil => simp [splitCommas]
  | cons c t =>
    unfold splitCommas
    split
    · simp
    · split <;> simp

/-- The segments of a text on both sides of a comma. -/
theorem splitCommas_comma (a b : Text) : splitCommas (a ++ ',' :: b) = splitCommas a ++ splitCommas b := by
  induction a with
  | nil => simp [splitCommas]
  | cons c a ih =>
    by_cases hc : c = ','
    · simp [splitCommas, hc, ih]
    · cases hs : splitCommas a with
      | nil => exact absurd hs (splitCommas_ne_nil a)
      | cons s more => simp [splitCommas, hc, ih, hs]

theorem splitCommas_of_notMem {t : Text} (h : ',' ∉ t) : splitCommas t = [t] := by
  induction t with
  | nil => rfl
  | cons c t ih =>
    rw [List.mem_cons, not_or] at h
    rw [splitCommas, if_neg (Ne.symm h.1), ih h.2]

theorem mem_of_mem_splitCommas {t segment : Text} (h : segment ∈ splitCommas t) {c : Char}
    (hc : c ∈ segment) : c ∈ t := by
  induction t generalizing segment with
  | nil =>
    rw [splitCommas, List.mem_singleton] at h
    rwa [h] at hc
  | cons d t ih =>
    rw [splitCommas] at h
    split at h
    · rcases List.mem_cons.mp h with rfl | h
      · cases hc
      · exact List.mem_cons_of_mem d (ih h hc)
    · cases hs : splitCommas t with
      | nil => exact absurd hs (splitCommas_ne_nil t)
      | cons s more =>
        simp only [hs] at h ih
        rcases List.mem_cons.mp h with rfl | h
        · rcases List.mem_cons.mp hc with rfl | hc
          · exact List.mem_cons_self
          · exact List.mem_cons_of_mem d (ih List.mem_cons_self hc)
        · exact List.mem_cons_of_mem d (ih (List.mem_cons_of_mem s h) hc)

/-! ## One parameter -/

/-- Reading a marker that may be missing leaves what stands behind it. -/
theorem trimStart_dropMarker {marker mark space rest : Text} (hne : marker ≠ [])
    (hsolid : ∀ c ∈ marker, isBlank c = false) (hmark : mark = [] ∨ mark = marker)
    (hspace : ∀ c ∈ space, isBlank c = true) (hrest : stripWord marker (trimStart rest) = none) :
    trimStart (dropMarker marker (trimStart (space ++ (mark ++ rest)))) = trimStart rest := by
  rcases hmark with rfl | rfl
  · rw [List.nil_append, trimStart_blank_append hspace, dropMarker, hrest, Option.getD_none,
      trimStart_trimStart]
  · rw [trimStart_append hspace (any_head?_append_of_solid hsolid hne), dropMarker, stripWord_append,
      Option.getD_some]

/-- A default as it stands at the end of a parameter. -/
def assigned : Option Text → Text
  | none => []
  | some text => '=' :: text

theorem any_isBlank_assigned (default? : Option Text) : (assigned default?).head?.any isBlank = false := by
  cases default? with
  | none => rfl
  | some text => exact any_head?_cons (by decide) _

/-- The end of a parameter, with blanks anywhere between its pieces. -/
theorem readParameterTail_eq_some {space₁ space₂ space₃ space₄ reference variadic name : Text}
    (hspace₁ : ∀ c ∈ space₁, isBlank c = true) (hspace₂ : ∀ c ∈ space₂, isBlank c = true)
    (hspace₃ : ∀ c ∈ space₃, isBlank c = true) (hspace₄ : ∀ c ∈ space₄, isBlank c = true)
    (hreference : reference = [] ∨ reference = ['&'])
    (hvariadic : variadic = [] ∨ variadic = ['.', '.', '.']) (hname : isIdent name = true)
    (default? : Option Text) :
    readParameterTail (space₁ ++ (reference ++ (space₂ ++ (variadic ++ (space₃ ++
      '$' :: (name ++ (space₄ ++ assigned default?))))))) = some (name, default?.isSome) := by
  have hdollar : isBlank '$' = false := by decide
  have hdot : isBlank '.' = false := by decide
  -- behind the blanks stand the dots or the dollar sign, so no `&` is read there
  have hafter₃ : trimStart (space₃ ++ '$' :: (name ++ (space₄ ++ assigned default?))) =
      '$' :: (name ++ (space₄ ++ assigned default?)) :=
    trimStart_append hspace₃ (by simpa using hdollar)
  have hmark₂ : trimStart (dropMarker ['.', '.', '.'] (trimStart (space₂ ++ (variadic ++ (space₃ ++
      '$' :: (name ++ (space₄ ++ assigned default?))))))) =
        '$' :: (name ++ (space₄ ++ assigned default?)) := by
    rw [trimStart_dropMarker (by simp) (eq_false_of_any (by decide)) hvariadic hspace₂
      (by rw [hafter₃]; exact stripWord_cons_ne (by decide) _ _), hafter₃]
  have hnone₁ : stripWord ['&'] (trimStart (space₂ ++ (variadic ++ (space₃ ++
      '$' :: (name ++ (space₄ ++ assigned default?)))))) = none := by
    rw [trimStart_blank_append hspace₂]
    rcases hvariadic with rfl | rfl
    · rw [List.nil_append, hafter₃]
      exact stripWord_cons_ne (by decide) _ _
    · rw [trimStart_of_not_blank (by simpa using hdot)]
      exact stripWord_cons_ne (by decide) _ _
  have hident : readIdent (name ++ (space₄ ++ assigned default?)) =
      some (name, space₄ ++ assigned default?) := by
    refine readIdent_eq_some_iff.mpr ⟨hname, rfl, ?_⟩
    cases space₄ with
    | nil =>
      cases default? with
      | none => rfl
      | some text => exact any_head?_cons (by decide) _
    | cons c space₄ => simpa using not_isIdentChar_of_isBlank (hspace₄ c List.mem_cons_self)
  unfold readParameterTail
  simp only [trimStart_dropMarker (List.cons_ne_nil _ _) (eq_false_of_any (by decide)) hreference hspace₁ hnone₁,
    hmark₂, hident, trimStart_append hspace₄ (any_isBlank_assigned default?)]
  cases default? with
  | none => rfl
  | some text => rfl

/-- Whether a character can start the end of a parameter. -/
def isTailStart (c : Char) : Bool :=
  isBlank c || c = '&' || c = '.' || c = '$'

theorem readParameterTail_cons_eq_none {c : Char} (h : isTailStart c = false) (rest : Text) :
    readParameterTail (c :: rest) = none := by
  simp only [isTailStart, Bool.or_eq_false_iff, decide_eq_false_iff_not] at h
  obtain ⟨⟨⟨hblank, hand⟩, hdot⟩, hdollar⟩ := h
  have htrim : trimStart (c :: rest) = c :: rest := trimStart_of_not_blank (by simpa using hblank)
  simp [readParameterTail, htrim, dropMarker, stripWord_cons_ne (Ne.symm hand),
    stripWord_cons_ne (Ne.symm hdot), hdollar]

/-- A type without such characters is passed. -/
theorem readTyped_append {type : Text} (htype : ∀ c ∈ type, isTailStart c = false) (seen tail : Text) :
    readTyped seen (type ++ tail) = readTyped (type.reverse ++ seen) tail := by
  induction type generalizing seen with
  | nil => rfl
  | cons c type ih =>
    have hnone := readParameterTail_cons_eq_none (htype c List.mem_cons_self) (type ++ tail)
    rw [List.cons_append, readTyped]
    simp only [hnone]
    rw [ih fun a ha => htype a (List.mem_cons_of_mem _ ha), List.reverse_cons, List.append_assoc]
    rfl

theorem readTyped_of_tail {tail name : Text} {hasDefault : Bool} (seen : Text)
    (h : readParameterTail tail = some (name, hasDefault)) :
    readTyped seen tail = some ⟨name, typeOr seen.reverse mixedType, hasDefault⟩ := by
  cases tail with
  | nil => cases h
  | cons c tail => simp only [readTyped, h]

/-! ## Lists of parameters -/

/-- Blank segments hold no parameter. -/
theorem parameters_eq (raw : Text) : parameters raw = (splitCommas raw).filterMap parameter? := by
  rw [parameters, List.filterMap_filter]
  refine List.filterMap_congr fun segment _ => ?_
  split
  · rfl
  · rename_i hempty
    have htrim : trim segment = [] := by simpa using hempty
    rw [parameter?, trimStart_eq_nil_of_trim htrim]
    rfl

/-- What stands on both sides of a comma is read apart. -/
theorem parameters_comma (a b : Text) : parameters (a ++ ',' :: b) = parameters a ++ parameters b := by
  simp only [parameters_eq, splitCommas_comma, List.filterMap_append]

theorem parameters_of_notMem {t : Text} (h : ',' ∉ t) : parameters t = (parameter? t).toList := by
  rw [parameters_eq, splitCommas_of_notMem h]
  cases hp : parameter? t <;> simp [hp]

theorem parameters_blank_append {space : Text} (hspace : ∀ c ∈ space, isBlank c = true) (t : Text) :
    parameters (space ++ t) = parameters t := by
  induction space with
  | nil => rfl
  | cons c space ih =>
    have hblank := hspace c List.mem_cons_self
    have hcomma : c ≠ ',' := by
      rintro rfl
      cases hblank
    have hfirst : ∀ segment, parameter? (c :: segment) = parameter? segment := by
      intro segment
      have htrim : trimStart ([c] ++ segment) = trimStart segment :=
        trimStart_blank_append (List.forall_mem_singleton.mpr hblank)
      rw [parameter?, parameter?, ← htrim]
      rfl
    rw [← ih fun a ha => hspace a (List.mem_cons_of_mem c ha), parameters_eq, parameters_eq]
    cases hs : splitCommas (space ++ t) with
    | nil => exact absurd hs (splitCommas_ne_nil _)
    | cons segment more => simp [splitCommas, hcomma, hs, hfirst, List.filterMap_cons]

/-- **A list is read segment by segment**, with or without blanks behind its commas. -/
theorem parameters_intercalate {space : Text} (hspace : ∀ c ∈ space, isBlank c = true)
    (segments : List Text) :
    parameters ((',' :: space).intercalate segments) = segments.flatMap parameters := by
  induction segments with
  | nil => rfl
  | cons segment segments ih =>
    cases segments with
    | nil => simp
    | cons next segments =>
      rw [List.intercalate_cons_cons, List.append_assoc, List.cons_append, parameters_comma,
        parameters_blank_append hspace, ih, List.flatMap_cons (x := segment)]

end Source

end TemplateAssist
