import TemplateAssist.Proofs.LooseParameters

/-!
# Declarations are read where they are written

* `PlainProperty.readProperty_lead` — a property.
* `PlainParameter.parameter?_source`, `PlainMethod.parameters_list` — a parameter and a list of them.
* `PlainMethod.readMethod_head`, `PlainMethod.readReturnType_returned` — a method, and its return type up to
  the body.
* `PlainClass.readHeader_header`, `PlainClass.classHeader?_source` — the header of a class, and the header
  that its text has.
-/

namespace TemplateAssist.Source

open Text

theorem not_isWordChar_newline : isWordChar '\n' = false :=
  not_isWordChar_of_isBlank (by decide)

/-! ## Properties -/

theorem readFlag_spaced {word rest : Text} (hk : Keywords [word]) (isThere : Bool)
    (hrest : rest.head?.any isBlank = false) (hnone : stripModifier [word] rest = none) :
    readFlag word (spaced isThere word ++ rest) = (isThere, rest) := by
  cases isThere with
  | false => simp [readFlag, spaced, hnone]
  | true =>
    have hstrip : stripModifier [word] (word ++ ' ' :: rest) = some (word, rest) :=
      hk.stripModifier_append List.mem_cons_self isGap_space hrest
    simp [readFlag, spaced, hstrip]

theorem any_head?_spaced {word rest : Text} (hk : Keywords [word]) (isThere : Bool)
    (hrest : rest.head?.any isBlank = false) : (spaced isThere word ++ rest).head?.any isBlank = false := by
  cases isThere with
  | false => exact hrest
  | true =>
    have hword := List.mem_singleton_self word
    have hsolid : ∀ c ∈ word, isBlank c = false :=
      fun c hc => not_isBlank_of_isIdentChar (hk.chars word hword c hc)
    rw [spaced, if_pos rfl, List.append_assoc]
    exact any_head?_append_of_solid hsolid (hk.ne_nil word hword)

section Flags

variable (isStatic isReadonly : Bool) (type? : Option TypeText) (rest : Text)

theorem readFlag_readonly :
    readFlag readonlyWord (spaced isReadonly readonlyWord ++ (typed type? ++ '$' :: rest)) =
      (isReadonly, typed type? ++ '$' :: rest) :=
  readFlag_spaced readonly_keyword _ (any_head?_typed _ (by decide) _)
    (stripModifier_typed readonly_keyword (by decide) _ (by decide) _)

theorem readFlag_static :
    readFlag staticWord (spaced isStatic staticWord ++ (spaced isReadonly readonlyWord ++
      (typed type? ++ '$' :: rest))) =
        (isStatic, spaced isReadonly readonlyWord ++ (typed type? ++ '$' :: rest)) := by
  refine readFlag_spaced static_keyword _
    (any_head?_spaced readonly_keyword _ (any_head?_typed _ (by decide) _)) ?_
  cases isReadonly with
  | false => exact stripModifier_typed static_keyword (by decide) _ (by decide) _
  | true =>
    have hsolid : ∀ c ∈ readonlyWord, isBlank c = false := eq_false_of_any (by decide)
    have hnone : stripModifier [staticWord] (readonlyWord ++ ' ' :: (typed type? ++ '$' :: rest)) = none :=
      static_keyword.stripModifier_eq_none (by decide) hsolid (by decide)
    simpa [spaced] using hnone

end Flags

namespace PlainProperty

/-- **A property is read where it is written.** -/
theorem readProperty_lead (p : PlainProperty) {className rest : Text}
    (hrest : rest.head?.any isIdentChar = false) :
    readProperty className (some '\n') (p.lead ++ '$' :: (p.name.text ++ rest)) =
      some (p.signature className, rest) := by
  have hkeyword := keyword_mem_keywords p.visibility
  have hboundary : isBoundary (some '\n') (p.lead ++ '$' :: (p.name.text ++ rest)).head? = true := by
    rw [lead, List.append_assoc]
    exact isBoundary_keyword not_isWordChar_newline visibility_keywords hkeyword _
  have hvisibility : stripModifier Visibility.keywords (p.lead ++ '$' :: (p.name.text ++ rest)) =
      some (p.visibility.keyword, spaced p.isStatic staticWord ++ (spaced p.isReadonly readonlyWord ++
        (typed p.type? ++ '$' :: (p.name.text ++ rest)))) := by
    have htype := any_head?_typed p.type? (by decide : isBlank '$' = false) (p.name.text ++ rest)
    have hflags := any_head?_spaced static_keyword p.isStatic
      (any_head?_spaced readonly_keyword p.isReadonly htype)
    simpa [lead] using visibility_keywords.stripModifier_append hkeyword isGap_space hflags
  -- the type runs up to the dollar sign
  have hrun := not_isTypeStop_typed p.type?
  have hstop : ('$' :: (p.name.text ++ rest)).head?.any (fun c => !isTypeStop c) = false :=
    any_head?_cons (by decide) _
  have hvariable : readVariable ((typed p.type? ++ '$' :: (p.name.text ++ rest)).dropWhile
      fun c => !isTypeStop c) = some (p.name.text, rest) := by
    rw [dropWhile_append_stop hrun hstop]
    exact readIdent_eq_some_iff.mpr ⟨p.name.valid, rfl, hrest⟩
  have hwritten : typeOr ((typed p.type? ++ '$' :: (p.name.text ++ rest)).takeWhile
      fun c => !isTypeStop c) mixedType = (p.type?.map (·.text)).getD mixedType := by
    rw [takeWhile_append_stop hrun hstop, typeOr_typed]
  unfold readProperty
  rw [hboundary]
  simp only [hvisibility, ofKeyword?_keyword, readFlag_static, readFlag_readonly, hvariable, hwritten,
    Bool.not_true, Bool.false_eq_true, if_false, Option.bind_eq_bind, Option.bind_some]
  rfl

end PlainProperty

/-! ## Parameters -/

/-- The type of a plain class is none of the modifiers. -/
def TypeText.parameterType (type : TypeText) : ParameterType where
  text := type.text
  ne_nil := type.ne_nil
  chars := type.chars
  notModifier := fun hmem => type.notMem_reservedWords (List.nil_append _).symm rfl
    (promotion_keywords.chars _ hmem) (List.mem_cons_of_mem _ hmem)

namespace PlainParameter

/-- A parameter of a plain class, among the parameters in any layout. -/
def loose (p : PlainParameter) : LooseParameter where
  beforeAll := .spaceIf false
  modifiers := []
  areModifiers := LooseParameter.areModifiers_nil
  type? := p.type?.map (·.parameterType)
  afterType := .spaceIf p.type?.isSome
  isReference := p.isReference
  afterReference := .spaceIf false
  isVariadic := p.isVariadic
  afterVariadic := .spaceIf false
  name := p.name
  afterName := .spaceIf p.default?.isSome
  default? := p.default?.map (' ' :: ·.text)
  noComma := by
    intro text htext
    obtain ⟨d, -, rfl⟩ := Option.map_eq_some_iff.mp htext
    simp [d.noComma]

theorem loose_source (p : PlainParameter) : p.loose.source = p.source := by
  obtain ⟨type?, isReference, isVariadic, name, default?⟩ := p
  cases type? <;> cases default? <;>
    simp [loose, LooseParameter.source, LooseParameter.typedEnding, LooseParameter.ending,
      LooseParameter.markers, source, ending, modifierText, Blanks.spaceIf, marked, typed, defaulted, assigned,
      TypeText.parameterType]

theorem loose_signature (p : PlainParameter) : p.loose.signature = p.signature := by
  obtain ⟨type?, isReference, isVariadic, name, default?⟩ := p
  cases type? <;> cases default? <;> rfl

/-- **A parameter is read where it is written.** -/
theorem parameter?_source (p : PlainParameter) : parameter? p.source = some p.signature := by
  have hread := p.loose.parameter?_source
  rwa [loose_source, loose_signature] at hread

theorem notMem_source (p : PlainParameter) {c : Char} (hc : c = ',' ∨ c = ')') : c ∉ p.source := by
  have hdefault : ∀ text ∈ p.default?.map (·.text), c ∉ text := by
    intro text htext
    obtain ⟨d, -, rfl⟩ := Option.map_eq_some_iff.mp htext
    rcases hc with rfl | rfl
    · exact d.noComma
    · exact d.noParenthesis
  have hout : isTypeChar c = false ∧ isIdentChar c = false ∧ c ∉ [' ', '=', '&', '.', '$'] := by
    rcases hc with rfl | rfl
    · decide +kernel
    · decide +kernel
  obtain ⟨htype, hident, hothers⟩ := hout
  simp only [List.mem_cons, List.not_mem_nil, or_false, not_or] at hothers
  obtain ⟨hspace, hequals, hand, hdot, hdollar⟩ := hothers
  have hreference : c ∉ marked p.isReference ['&'] := notMem_marked (by simpa using hand) _
  have hvariadic : c ∉ marked p.isVariadic ['.', '.', '.'] := notMem_marked (by simpa using hdot) _
  simp [source, ending, notMem_typed htype hspace, hreference, hvariadic, hdollar, p.name.notMem hident,
    notMem_defaulted hdefault hspace hequals]

end PlainParameter

/-! ## Methods -/

theorem dropMarker_marked {marker t : Text} (h : stripWord marker t = none) (isThere : Bool) :
    dropMarker marker (marked isThere marker ++ t) = t := by
  cases isThere with
  | false => simp [dropMarker, marked, h]
  | true => simp [dropMarker, marked]

namespace PlainMethod

/-- **A list of parameters is read where it is written.** -/
theorem parameters_list (m : PlainMethod) : Source.parameters m.list = m.parameters.map (·.signature) := by
  have hread : ∀ p : PlainParameter, Source.parameters p.source = [p.signature] := by
    intro p
    rw [parameters_of_notMem (p.notMem_source (Or.inl rfl)), p.parameter?_source, Option.toList_some]
  rw [list, parameters_intercalate isGap_space.blank, List.flatMap_map, List.map_eq_flatMap]
  exact List.flatMap_congr fun p _ => hread p

theorem notMem_list (m : PlainMethod) : ')' ∉ m.list := by
  unfold list
  induction m.parameters with
  | nil => simp
  | cons p ps ih =>
    cases ps with
    | nil => simpa using p.notMem_source (Or.inr rfl)
    | cons q ps =>
      have hp := p.notMem_source (Or.inr rfl)
      rw [List.map_cons, List.map_cons, List.intercalate_cons_cons, ← List.map_cons]
      simpa [hp] using ih

theorem readParameterList_list (m : PlainMethod) (after : Text) :
    readParameterList ('(' :: (m.list ++ ')' :: after)) = some (m.list, after) := by
  have hrun : ∀ c ∈ m.list, decide (c ≠ ')') = true := by
    intro c hc
    rw [decide_eq_true_eq]
    rintro rfl
    exact m.notMem_list hc
  have hstop : (')' :: after).head?.any (fun c => decide (c ≠ ')')) = false := by simp
  unfold readParameterList
  simp only [dropWhile_append_stop hrun hstop, takeWhile_append_stop hrun hstop]

/-- The modifiers of a method, each with the space behind it. -/
def modifiers (m : PlainMethod) : List (Text × Text) :=
  m.visibility?.toList.map (fun v => (v.keyword, [' '])) ++
    if m.isStatic then [(staticWord, [' '])] else []

theorem head_eq (m : PlainMethod) : m.head =
    modifierText m.modifiers ++ (functionWord ++ ' ' :: (marked m.isReference ['&'] ++ m.name.text)) := by
  unfold head modifiers
  cases m.visibility? with
  | none => cases m.isStatic <;> simp [modifierText, spaced]
  | some v => cases m.isStatic <;> simp [modifierText, spaced]

theorem modifiers_spec (m : PlainMethod) : ∀ w ∈ m.modifiers, w.1 ∈ methodModifiers ∧ IsGap w.2 := by
  intro w hw
  rcases List.mem_append.mp hw with hw | hw
  · obtain ⟨v, -, rfl⟩ := List.mem_map.mp hw
    exact ⟨List.mem_append_left _ (keyword_mem_keywords v), isGap_space⟩
  · cases hstatic : m.isStatic with
    | false => simp [hstatic] at hw
    | true =>
      rw [hstatic, if_pos rfl, List.mem_singleton] at hw
      rw [hw]
      exact ⟨by decide, isGap_space⟩

theorem visibility_modifiers (m : PlainMethod) :
    (m.modifiers.map (·.1)).findSome? Visibility.ofKeyword? = m.visibility? := by
  unfold modifiers
  cases m.visibility? with
  | none => cases m.isStatic <;> rfl
  | some v => simp [ofKeyword?_keyword]

theorem static_modifiers (m : PlainMethod) :
    decide (staticWord ∈ m.modifiers.map (·.1)) = m.isStatic := by
  unfold modifiers
  cases m.visibility? with
  | none => cases m.isStatic <;> rfl
  | some v => cases v <;> cases m.isStatic <;> rfl

theorem isBoundary_head (m : PlainMethod) (rest : Text) :
    isBoundary (some '\n') (m.head ++ rest).head? = true := by
  have hk : Keywords (functionWord :: methodModifiers) := keywords_of_all (by decide) (by decide)
  rw [m.head_eq]
  cases hm : m.modifiers with
  | nil =>
    rw [modifierText, List.flatMap_nil, List.nil_append, List.append_assoc]
    exact isBoundary_keyword not_isWordChar_newline hk List.mem_cons_self _
  | cons w modifiers =>
    have hw := (m.modifiers_spec w (by simp [hm])).1
    rw [modifierText, List.flatMap_cons]
    simp only [List.append_assoc]
    exact isBoundary_keyword not_isWordChar_newline hk (List.mem_cons_of_mem _ hw) _

/-- **A method is read where it is written, up to its return type.** -/
theorem readMethod_head (m : PlainMethod) {className : Text} (after : Text) :
    readMethod className (some '\n') (m.head ++ '(' :: (m.list ++ ')' :: after)) =
      (let r := (readReturnType after).getD ([], after)
       some ({ m.signature className with returnType := typeOr r.1 voidType }, r.2)) := by
  obtain ⟨afterName, hafterName⟩ : ∃ t, t = '(' :: (m.list ++ ')' :: after) := ⟨_, rfl⟩
  obtain ⟨c, name, hname⟩ := List.exists_cons_of_ne_nil (isIdent_ne_nil m.name.valid)
  have hc : isIdentChar c = true := isIdent_chars m.name.valid c (by simp [hname])
  have hand : '&' ≠ c := by
    rintro rfl
    cases hc
  have hmark : dropMarker ['&'] (marked m.isReference ['&'] ++ (m.name.text ++ afterName)) =
      m.name.text ++ afterName := by
    refine dropMarker_marked ?_ _
    rw [hname]
    exact stripWord_cons_ne hand _ _
  have hskip : skipBlanks1 (' ' :: (marked m.isReference ['&'] ++ (m.name.text ++ afterName))) =
      some (marked m.isReference ['&'] ++ (m.name.text ++ afterName)) := by
    refine skipBlanks1_space ?_
    cases m.isReference with
    | false => simpa [marked, hname] using not_isBlank_of_isIdentChar hc
    | true => exact any_head?_cons (by decide) _
  have hident : readIdent (m.name.text ++ afterName) = some (m.name.text, afterName) := by
    refine readIdent_eq_some_iff.mpr ⟨m.name.valid, rfl, ?_⟩
    rw [hafterName]
    exact any_head?_cons (by decide) _
  have hlist : readParameterList (trimStart afterName) = some (m.list, after) := by
    rw [hafterName, trimStart_of_not_blank (any_head?_cons (by decide) _)]
    exact m.readParameterList_list after
  have hmodifiers : readModifiers methodModifiers (m.head ++ afterName) = (m.modifiers.map (·.1),
      functionWord ++ ' ' :: (marked m.isReference ['&'] ++ (m.name.text ++ afterName))) := by
    have hsolid : ∀ c ∈ functionWord, isBlank c = false := eq_false_of_any (by decide)
    rw [m.head_eq, List.append_assoc, List.append_assoc, List.cons_append, List.append_assoc]
    exact method_keywords.readModifiers_append m.modifiers_spec
      (any_head?_append_of_solid hsolid (by decide))
      (method_keywords.stripModifier_eq_none (by decide) hsolid (by decide))
  rw [← hafterName]
  unfold readMethod
  rw [m.isBoundary_head]
  simp [hmodifiers, hskip, hmark, hident, hlist, m.parameters_list, m.visibility_modifiers,
    m.static_modifiers, signature]

end PlainMethod

/-! ## Return types -/

theorem readReturnType_body (rest : Text) : readReturnType ('\n' :: '\x7b' :: rest) = none := by
  have htrim : trimStart (['\n'] ++ '\x7b' :: rest) = '\x7b' :: rest :=
    trimStart_append isGap_newline.blank (any_head?_cons (by decide) _)
  unfold readReturnType
  rw [← List.singleton_append, htrim]
  rfl

theorem TypeText.isReturnChar (type : TypeText) :
    ∀ c ∈ ' ' :: (type.text ++ ['\n']), isReturnChar c = true := by
  intro c hc
  rw [List.mem_cons, List.mem_append, List.mem_singleton] at hc
  rcases hc with rfl | hc | rfl
  · decide
  · have hbrace : c ≠ '\x7b' := fun h => type.notMem (by decide +kernel) (h ▸ hc)
    have hsemicolon : c ≠ ';' := fun h => type.notMem (by decide +kernel) (h ▸ hc)
    simp [Source.isReturnChar, hbrace, hsemicolon]
  · decide

theorem TypeText.readReturnType_eq_some (type : TypeText) (rest : Text) :
    readReturnType (':' :: (' ' :: (type.text ++ ['\n']) ++ '\x7b' :: rest)) =
      some (' ' :: (type.text ++ ['\n']), '\x7b' :: rest) := by
  have htrim : trimStart (':' :: (' ' :: (type.text ++ ['\n']) ++ '\x7b' :: rest)) = _ :=
    trimStart_of_not_blank (any_head?_cons (by decide) _)
  have hstop : ('\x7b' :: rest).head?.any Source.isReturnChar = false :=
    any_head?_cons (by decide) _
  unfold readReturnType
  rw [htrim]
  simp only [takeWhile_append_stop type.isReturnChar hstop, dropWhile_append_stop type.isReturnChar hstop]

namespace PlainMethod

/-- A return type is read up to the body, and without one nothing is. -/
theorem readReturnType_returned (m : PlainMethod) (rest : Text) :
    ∃ eaten left, m.returned ++ ['\n'] = eaten ++ left ∧ (∀ c ∈ left, isIdentChar c = false) ∧
      ∃ written, (readReturnType (eaten ++ (left ++ '\x7b' :: rest))).getD
          ([], eaten ++ (left ++ '\x7b' :: rest)) = (written, left ++ '\x7b' :: rest) ∧
        typeOr written voidType = (m.returnType?.map (·.text)).getD voidType := by
  unfold returned
  cases m.returnType? with
  | none =>
    refine ⟨[], ['\n'], rfl, eq_false_of_any (by decide), [], ?_, rfl⟩
    rw [List.nil_append, List.singleton_append, readReturnType_body, Option.getD_none]
  | some type =>
    refine ⟨':' :: ' ' :: (type.text ++ ['\n']), [], by simp, by simp, ' ' :: (type.text ++ ['\n']), ?_, ?_⟩
    · rw [List.nil_append, List.cons_append, type.readReturnType_eq_some, Option.getD_some]
    · show typeOr ([' '] ++ (type.text ++ ['\n'])) voidType = type.text
      exact typeOr_append isGap_space.blank type.solid type.ne_nil isGap_newline.blank

end PlainMethod

/-! ## Headers -/

theorem QualifiedName.isQualified_text (q : QualifiedName) : IsQualified q.text := by
  refine ⟨if q.isRooted then ['\\'] else [], q.first, q.others, ?_, q.starts, q.continues, rfl⟩
  cases q.isRooted with
  | true => exact Or.inr rfl
  | false => exact Or.inl rfl

namespace PlainClass

/-- No clause starts with the brace of the members. -/
theorem readParent_members (rest : Text) : readParent ('\n' :: '\x7b' :: rest) = none := by
  have hskip : skipBlanks1 ('\n' :: '\x7b' :: rest) = some ('\x7b' :: rest) :=
    skipBlanks1_eq_some_iff.mpr ⟨['\n'], isGap_newline, rfl, any_head?_cons (by decide) _⟩
  have hextends : stripWord extendsWord ('\x7b' :: rest) = none := stripWord_cons_ne (by decide) _ _
  simp [readParent, hskip, hextends]

theorem headerText_header (c : PlainClass) (rest : Text) :
    HeaderText c.header ('\n' :: '\x7b' :: rest) ⟨c.name.text, c.parent?.map (·.text)⟩ := by
  unfold header
  cases c.parent? with
  | none =>
    rw [Option.elim_none, List.append_nil]
    exact .alone isGap_space c.name.valid (any_head?_cons (by decide) _)
      (readParent_eq_none_iff.mp (readParent_members rest))
  | some q =>
    have hclause : IsClause (' ' :: (extendsWord ++ ' ' :: q.text)) q.text :=
      ⟨[' '], [' '], isGap_space, isGap_space, q.isQualified_text, rfl⟩
    exact .extending isGap_space c.name.valid hclause (any_head?_cons (by decide) _)

/-- **The header of a class is read where it is written.** -/
theorem readHeader_header (c : PlainClass) (rest : Text) :
    ∃ tail, readHeader (some '\n') (c.header ++ '\n' :: '\x7b' :: rest) =
      some (⟨some '\n', c.name.text, c.parent?.map (·.text)⟩, tail) := by
  have hboundary : isBoundary (some '\n') (c.header ++ '\n' :: '\x7b' :: rest).head? = true :=
    isBoundary_of_isIdentChar not_isWordChar_newline (by decide)
  exact ⟨_, readHeader_eq_some_iff.mpr ⟨rfl, hboundary, c.header, rfl, c.headerText_header rest⟩⟩

theorem classHeader?_source (c : PlainClass) (rest : Text) :
    classHeader? (openingTag ++ (c.header ++ '\n' :: '\x7b' :: rest)) =
      some ⟨c.name.text, c.parent?.map (·.text)⟩ := by
  obtain ⟨tail, hread⟩ := c.readHeader_header rest
  have hopen : Finds readHeader [] openingTag (c.header ++ '\n' :: '\x7b' :: rest) := by
    refine finds_of_none fun u v left huv hv => ?_
    obtain ⟨a, v, rfl⟩ := List.exists_cons_of_ne_nil hv
    have ha : a ∈ openingTag := by simp [huv]
    have hc : a ≠ 'c' := by
      rintro rfl
      exact absurd ha (by decide)
    exact readHeader_cons_eq_none hc _
  have hdeclares : HeaderCandidate.declares ⟨some '\n', c.name.text, c.parent?.map (·.text)⟩ = true := by
    have hname := c.isName
    simp only [List.mem_cons, List.not_mem_nil, or_false, not_or] at hname
    simp [HeaderCandidate.declares, hname]
  obtain ⟨more, hfirst⟩ := exists_findAllFrom_eq_cons (by simp) hread
  have hall : findAll readHeader (openingTag ++ (c.header ++ '\n' :: '\x7b' :: rest)) =
      ⟨some '\n', c.name.text, c.parent?.map (·.text)⟩ :: more := by
    have hlast : openingTag.getLast?.or none = some '\n' := rfl
    rw [findAll, hopen none, List.nil_append, hlast, hfirst]
  rw [classHeader?, hall, List.find?_cons_of_pos hdeclares]
  rfl

end PlainClass

end TemplateAssist.Source
