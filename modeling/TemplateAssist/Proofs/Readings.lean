import TemplateAssist.Proofs.Headers
import TemplateAssist.Source.Signatures

/-!
# What the readers of class files read

Each reader recognises a declaration at one place.  Whatever it recognises, the text there has a certain
form:

* `readHeader_eq_some` — the word `class`, blanks and an identifier.
* `readProperty_eq_some` — a visibility, a blank, a run that no type stop interrupts, and a variable.
* `readMethod_eq_some` — words and blanks, the word `function`, blanks, a name and a parenthesis.

The forms are all that later arguments use of a match: a declaration is found again by its form, and
where the form is missing a reader recognises nothing.

* `finds_property_before_stop`, `finds_property_of_solid` — no property starts before a type stop other than
  `$`, nor in a text without blanks.
* `finds_method_before_stop` — no method starts before a character that ends its head, the parenthesis
  apart.
-/

namespace TemplateAssist.Source

open Text

variable {className : Text} {left : Option Char} {t tail : Text}

theorem not_isTypeStop_of_isBlank {c : Char} (h : isBlank c = true) : isTypeStop c = false :=
  eq_false_of_any (by decide +kernel) c (mem_charsOf h)

theorem not_isTypeStop_of_isIdentChar {c : Char} (h : isIdentChar c = true) : isTypeStop c = false := by
  cases hc : isTypeStop c with
  | false => rfl
  | true =>
    have hstop : c ∈ ['$', ';', '=', '(', ')', '\x7b', '\x7d'] := by simpa [isTypeStop] using hc
    have hout : isIdentChar c = false := eq_false_of_any (by decide) c hstop
    rw [hout] at h
    cases h

theorem visibility_keywords : Keywords Visibility.keywords :=
  keywords_of_all (by decide) (by decide)

theorem keyword_mem_keywords (v : Visibility) : v.keyword ∈ Visibility.keywords := by
  cases v <;> decide

theorem ofKeyword?_keyword (v : Visibility) : Visibility.ofKeyword? v.keyword = some v := by
  cases v <;> decide

theorem static_keyword : Keywords [staticWord] :=
  keywords_of_all (by decide) (by decide)

theorem readonly_keyword : Keywords [readonlyWord] :=
  keywords_of_all (by decide) (by decide)

theorem promotion_keywords : Keywords promotionWords :=
  keywords_of_all (by decide) (by decide)

theorem method_keywords : Keywords methodModifiers :=
  keywords_of_all (by decide) (by decide)

/-- The form of a class header. -/
theorem readHeader_eq_some {candidate : HeaderCandidate}
    (h : readHeader left t = some (candidate, tail)) :
    isBoundary left t.head? = true ∧ candidate.left = left ∧ isIdent candidate.header.name = true ∧
      ∃ gap rest, IsGap gap ∧ t = classWord ++ (gap ++ (candidate.header.name ++ rest)) ∧
        rest.head?.any isIdentChar = false := by
  obtain ⟨hleft, hboundary, part, rfl, hwritten⟩ := readHeader_eq_some_iff.mp h
  obtain ⟨gap, clause, hgap, hname, rfl, hend, -⟩ := hwritten.exists_eq
  exact ⟨hboundary, hleft, hname, gap, clause ++ tail, hgap, by simp, hend⟩

/-- What a flag leaves of a text follows a run that no type stop interrupts. -/
theorem readFlag_spec {word : Text} (hword : Keywords [word]) (t : Text) :
    ∃ run, t = run ++ (readFlag word t).2 ∧ ∀ c ∈ run, isTypeStop c = false := by
  unfold readFlag
  split
  · rename_i w rest hm
    obtain ⟨hw, gap, hgap, rfl, -⟩ := stripModifier_eq_some hm
    refine ⟨w ++ gap, by simp, fun c hc => ?_⟩
    rcases List.mem_append.mp hc with hc | hc
    · exact not_isTypeStop_of_isIdentChar (hword.chars w hw c hc)
    · exact not_isTypeStop_of_isBlank (hgap.blank c hc)
  · exact ⟨[], rfl, by simp⟩

theorem readVariable_eq_some {name rest : Text} (h : readVariable t = some (name, rest)) :
    isIdent name = true ∧ t = '$' :: (name ++ rest) ∧ rest.head?.any isIdentChar = false := by
  unfold readVariable at h
  split at h
  · obtain ⟨hident, rfl, hrest⟩ := readIdent_eq_some_iff.mp h
    exact ⟨hident, rfl, hrest⟩
  · cases h

/-- The start of a property: a visibility, a blank, and a run that no type stop interrupts. -/
def OpensProperty (t : Text) : Prop :=
  ∃ word blank run, word ∈ Visibility.keywords ∧ isBlank blank = true ∧
    (∀ c ∈ run, isTypeStop c = false) ∧ t = word ++ blank :: run

/-- The form of a property. -/
theorem readProperty_eq_some {p : Property} (h : readProperty className left t = some (p, tail)) :
    isBoundary left t.head? = true ∧ isIdent p.name = true ∧
      ∃ lead rest, OpensProperty lead ∧ t = lead ++ '$' :: (p.name ++ rest) ∧
        rest.head?.any isIdentChar = false := by
  unfold readProperty at h
  split at h
  · cases h
  rename_i hboundary
  simp only [Option.bind_eq_bind, Option.bind_eq_some_iff] at h
  obtain ⟨⟨word, afterWord⟩, hword, visibility, -, ⟨name, rest⟩, hname, h⟩ := h
  obtain ⟨hmem, gap, hgap, rfl, -⟩ := stripModifier_eq_some hword
  obtain ⟨run₁, hrun₁, hstop₁⟩ := readFlag_spec static_keyword afterWord
  generalize readFlag staticWord afterWord = static at hrun₁ hname h
  obtain ⟨run₂, hrun₂, hstop₂⟩ := readFlag_spec readonly_keyword static.2
  generalize readFlag readonlyWord static.2 = readonly at hrun₂ hname h
  obtain ⟨hident, hdollar, hrest⟩ := readVariable_eq_some hname
  obtain ⟨rfl, -⟩ := Prod.mk.inj (Option.some.inj h)
  obtain ⟨blank, gap, rfl⟩ := List.exists_cons_of_ne_nil hgap.ne_nil
  refine ⟨by simpa using hboundary, hident, _, rest, ⟨word, blank,
    gap ++ (run₁ ++ (run₂ ++ readonly.2.takeWhile fun c => !isTypeStop c)), hmem,
    hgap.blank blank List.mem_cons_self, fun c hc => ?_, rfl⟩, ?_, hrest⟩
  · simp only [List.mem_append] at hc
    rcases hc with hc | hc | hc | hc
    · exact not_isTypeStop_of_isBlank (hgap.blank c (List.mem_cons_of_mem _ hc))
    · exact hstop₁ c hc
    · exact hstop₂ c hc
    · simpa using mem_takeWhile c hc
  · simp only [List.append_assoc, List.cons_append]
    rw [← hdollar, List.takeWhile_append_dropWhile, ← hrun₂, ← hrun₁]

/-- A marker that may start a text. -/
theorem dropMarker_spec (marker t : Text) :
    ∃ mark, (mark = [] ∨ mark = marker) ∧ t = mark ++ dropMarker marker t := by
  unfold dropMarker
  cases h : stripWord marker t with
  | none => exact ⟨[], Or.inl rfl, rfl⟩
  | some rest => exact ⟨marker, Or.inr rfl, stripWord_eq_some_iff.mp h⟩

theorem readParameterList_eq_some {list rest : Text} (h : readParameterList t = some (list, rest)) :
    ∃ after, t = '(' :: after := by
  unfold readParameterList at h
  split at h
  · exact ⟨_, rfl⟩
  · cases h

/-- The start of a function: its word, blanks, its name with an optional `&`, and blanks. -/
def OpensFunction (name t : Text) : Prop :=
  ∃ gap mark space, IsGap gap ∧ (mark = [] ∨ mark = ['&']) ∧ (∀ c ∈ space, isBlank c = true) ∧
    t = functionWord ++ (gap ++ (mark ++ (name ++ space)))

/-- The form of a method. -/
theorem readMethod_eq_some {m : Method} (h : readMethod className left t = some (m, tail)) :
    isIdent m.name = true ∧
      ∃ lead part rest, (∀ c ∈ lead, isIdentChar c = true ∨ isBlank c = true) ∧
        isBoundary (lead.getLast?.or left) part.head? = true ∧ OpensFunction m.name part ∧
        t = lead ++ (part ++ '(' :: rest) := by
  unfold readMethod at h
  split at h
  · cases h
  rename_i hboundary
  simp only [Option.bind_eq_bind, Option.bind_eq_some_iff] at h
  obtain ⟨afterWord, hword, afterBlanks, hskip, ⟨name, afterName⟩, hname, ⟨list, afterList⟩, hlist,
    h⟩ := h
  obtain ⟨lead, hlead, hchars, hlast⟩ :=
    stripModifiers_spec method_keywords.chars t t
  obtain ⟨mark, hmark, hname'⟩ := dropMarker_spec ['&'] afterBlanks
  obtain ⟨gap, hgap, rfl, -⟩ := skipBlanks1_eq_some_iff.mp hskip
  obtain ⟨hident, heq, -⟩ := readIdent_eq_some_iff.mp hname
  obtain ⟨rest, hparen⟩ := readParameterList_eq_some hlist
  obtain ⟨rfl, -⟩ := Prod.mk.inj (Option.some.inj h)
  have hspace : afterName = afterName.takeWhile isBlank ++ '(' :: rest := by
    rw [← hparen, trimStart, List.takeWhile_append_dropWhile]
  have htext : t = lead ++ (functionWord ++ (gap ++ (mark ++ (name ++ afterName.takeWhile isBlank))) ++
      '(' :: rest) := by
    simp only [List.append_assoc]
    rw [← hspace, ← heq, ← hname', ← stripWord_eq_some_iff.mp hword]
    exact hlead
  refine ⟨hident, lead, _, rest, hchars, ?_, ⟨gap, mark, _, hgap, hmark, mem_takeWhile, rfl⟩, htext⟩
  -- the word `function` starts where the modifiers start, or after a blank
  cases hl : lead.getLast? with
  | none =>
    rw [Bool.not_eq_true, Bool.not_eq_false', htext, List.getLast?_eq_none_iff.mp hl] at hboundary
    exact hboundary
  | some c =>
    have hblank : isBlank c = true := by simpa [hl] using hlast
    have hword' : isWordChar 'f' = true := isWordChar_of_isIdentChar (by decide)
    simp [isBoundary, isWordSide, not_isWordChar_of_isBlank hblank, functionWord, hword']

/-! ## Where nothing is read -/

theorem OpensProperty.not_isTypeStop {lead : Text} (h : OpensProperty lead) :
    ∀ c ∈ lead, isTypeStop c = false := by
  obtain ⟨word, blank, run, hword, hblank, hrun, rfl⟩ := h
  intro c hc
  rw [List.mem_append, List.mem_cons] at hc
  rcases hc with hc | rfl | hc
  · exact not_isTypeStop_of_isIdentChar (visibility_keywords.chars word hword c hc)
  · exact not_isTypeStop_of_isBlank hblank
  · exact hrun c hc

theorem OpensProperty.ne_nil {t : Text} (h : OpensProperty t) : t ≠ [] := by
  obtain ⟨word, blank, run, -, -, -, rfl⟩ := h
  simp

theorem OpensProperty.of_append {t more : Text} {c : Char} (h : OpensProperty (t ++ c :: more))
    (hident : isIdentChar c = false) (hblank : isBlank c = false) : OpensProperty t := by
  obtain ⟨word, blank, run, hword, hb, hrun, heq⟩ := h
  have hc : c ∉ word ++ [blank] := by
    intro hmem
    rcases List.mem_append.mp hmem with hmem | hmem
    · simp [visibility_keywords.chars word hword c hmem] at hident
    · simp [List.mem_singleton.mp hmem, hb] at hblank
  obtain ⟨start, rfl⟩ : word ++ [blank] <+: t := prefix_of_notMem (by simpa using heq) hc
  have hsplit : start ++ c :: more = run := by simpa using heq
  refine ⟨word, blank, start, hword, hb, fun a ha => hrun a ?_, by simp⟩
  rw [← hsplit]
  exact List.mem_append_left _ ha

theorem readHeader_cons_eq_none {left : Option Char} {c : Char} (hc : c ≠ 'c') (rest : Text) :
    readHeader left (c :: rest) = none := by
  refine Option.eq_none_iff_forall_ne_some.mpr ?_
  rintro ⟨candidate, tail⟩ h
  obtain ⟨-, -, -, gap, after, -, heq, -⟩ := readHeader_eq_some h
  exact hc (List.cons.inj heq).1

theorem readProperty_cons_eq_none (left : Option Char) (c : Char) (rest : Text)
    (hc : isIdentChar c = false) : readProperty className left (c :: rest) = none := by
  refine Option.eq_none_iff_forall_ne_some.mpr ?_
  rintro ⟨p, tail⟩ h
  obtain ⟨-, -, _, _, ⟨word, blank, run, hword, -, -, rfl⟩, heq, -⟩ := readProperty_eq_some h
  obtain ⟨d, word, rfl⟩ := List.exists_cons_of_ne_nil (visibility_keywords.ne_nil word hword)
  obtain ⟨rfl, -⟩ := List.cons.inj heq
  simp [visibility_keywords.chars _ hword c List.mem_cons_self] at hc

theorem readMethod_cons_eq_none (left : Option Char) (c : Char) (rest : Text)
    (hc : isIdentChar c = false) : readMethod className left (c :: rest) = none := by
  have hf : 'f' ≠ c := by
    rintro rfl
    cases hc
  have hmodifiers : readModifiers methodModifiers (c :: rest) = ([], c :: rest) :=
    stripModifiers_of_none (method_keywords.stripModifier_cons_eq_none hc rest) _
  unfold readMethod
  simp [hmodifiers, functionWord, stripWord, hf]

/-- Nothing is found among characters outside identifiers. -/
theorem finds_of_not_isIdentChar {α : Type} {read : Reader α}
    (hread : ∀ left c rest, isIdentChar c = false → read left (c :: rest) = none) {part rest : Text}
    (hpart : ∀ c ∈ part, isIdentChar c = false) : Finds read [] part rest := by
  refine finds_of_none fun u v left huv hv => ?_
  obtain ⟨c, v, rfl⟩ := List.exists_cons_of_ne_nil hv
  exact hread left c (v ++ rest) (hpart c (by simp [huv]))

/-- No property starts before a type stop other than `$`. -/
theorem finds_property_before_stop {part rest : Text} {c : Char} (hpart : '$' ∉ part)
    (hc : isTypeStop c = true) (hdollar : '$' ≠ c) :
    Finds (readProperty className) [] part (c :: rest) := by
  refine finds_of_none fun u v left huv _ => Option.eq_none_iff_forall_ne_some.mpr ?_
  rintro ⟨p, tail⟩ h
  obtain ⟨-, -, lead, after, hopens, heq, -⟩ := readProperty_eq_some h
  have hv : '$' ∉ v ++ [c] := by
    rw [huv, List.mem_append, not_or] at hpart
    simp [hpart.2, hdollar]
  have hlead : v ++ [c] <+: lead := prefix_of_notMem (by simpa using heq.symm) hv
  have := hopens.not_isTypeStop c (hlead.subset (by simp))
  rw [hc] at this
  cases this

/-- No property starts in a text without blanks that a character outside identifiers ends. -/
theorem finds_property_of_solid {part rest : Text} {c : Char} (hpart : ∀ a ∈ part, isBlank a = false)
    (hc : isIdentChar c = false) (hblank : isBlank c = false) :
    Finds (readProperty className) [] part (c :: rest) := by
  refine finds_of_none fun u v left huv _ => Option.eq_none_iff_forall_ne_some.mpr ?_
  rintro ⟨p, tail⟩ h
  obtain ⟨-, -, _, after, ⟨word, blank, run, hword, hb, -, rfl⟩, heq, -⟩ := readProperty_eq_some h
  have hv : blank ∉ v ++ [c] := by
    intro hmem
    rcases List.mem_append.mp hmem with hmem | hmem
    · simp [hpart blank (huv ▸ List.mem_append_right u hmem)] at hb
    · simp [List.mem_singleton.mp hmem, hblank] at hb
  have hlead : v ++ [c] <+: word := prefix_of_notMem (by simpa using heq.symm) hv
  have := visibility_keywords.chars word hword c (hlead.subset (by simp))
  rw [hc] at this
  cases this

/-- Whether a character can stand in a method before its parenthesis. -/
def isHeadChar (c : Char) : Bool :=
  isIdentChar c || isBlank c || c = '&'

theorem OpensFunction.isHeadChar {name part : Text} (h : OpensFunction name part)
    (hname : isIdent name = true) : ∀ c ∈ part, isHeadChar c = true := by
  obtain ⟨gap, mark, space, hgap, hmark, hspace, rfl⟩ := h
  intro c hc
  simp only [List.mem_append] at hc
  rw [Source.isHeadChar, Bool.or_eq_true, Bool.or_eq_true]
  rcases hc with hc | hc | hc | hc | hc
  · exact Or.inl (Or.inl (List.all_eq_true.mp (by decide) c hc))
  · exact Or.inl (Or.inr (hgap.blank c hc))
  · rcases hmark with rfl | rfl
    · cases hc
    · simpa using Or.inr hc
  · exact Or.inl (Or.inl (isIdent_chars hname c hc))
  · exact Or.inl (Or.inr (hspace c hc))

/-- What stands before the parenthesis of a method. -/
theorem isHeadChar_of_mem {lead part name : Text}
    (hlead : ∀ c ∈ lead, isIdentChar c = true ∨ isBlank c = true) (hpart : OpensFunction name part)
    (hname : isIdent name = true) : ∀ c ∈ lead ++ part, isHeadChar c = true := by
  intro c hc
  rcases List.mem_append.mp hc with hc | hc
  · rw [isHeadChar, Bool.or_eq_true, Bool.or_eq_true]
    exact Or.inl (hlead c hc)
  · exact hpart.isHeadChar hname c hc

/-- No method starts before a character that ends its head, the parenthesis apart. -/
theorem finds_method_before_stop {part rest : Text} {c : Char} (hpart : '(' ∉ part)
    (hc : isHeadChar c = false) (hparen : '(' ≠ c) :
    Finds (readMethod className) [] part (c :: rest) := by
  refine finds_of_none fun u v left huv _ => Option.eq_none_iff_forall_ne_some.mpr ?_
  rintro ⟨m, tail⟩ h
  obtain ⟨hname, lead, head, after, hlead, -, hopens, heq⟩ := readMethod_eq_some h
  have hv : '(' ∉ v ++ [c] := by
    rw [huv, List.mem_append, not_or] at hpart
    simp [hpart.2, hparen]
  have hinitial : v ++ [c] <+: lead ++ head := prefix_of_notMem (by simpa using heq.symm) hv
  have := isHeadChar_of_mem hlead hopens hname c (hinitial.subset (by simp))
  rw [hc] at this
  cases this

end TemplateAssist.Source
