import TemplateAssist.Proofs.PlainClasses

/-!
# Parameter lists in any layout

* `Blanks`, `ParameterType` — the pieces of a parameter that are not pieces of a plain class: blanks anywhere,
  and a type that is only asked not to be a modifier itself.
* `LooseParameter` — a parameter with promotion modifiers and with blanks between all its pieces.  Its default
  is any text without commas, so it may hold another variable, a marker or an equals sign.
* `ListSegment` — what stands between two commas: a parameter, or a text without `$`.
* `LooseParameter.parameter?_source` — a parameter is read as what it declares.

Principal result: `parameters_segments`.
-/

namespace TemplateAssist.Source

open Text

/-! ## Pieces -/

/-- Blanks, or nothing. -/
structure Blanks where
  text : Text
  blank : ∀ c ∈ text, isBlank c = true

/-- A space, if it is there. -/
def Blanks.spaceIf (isThere : Bool) : Blanks where
  text := marked isThere [' ']
  blank := fun c hc => isGap_space.blank c (mem_of_mem_marked hc)

/-- A type that is none of the promotion modifiers. -/
structure ParameterType where
  text : Text
  ne_nil : text ≠ []
  chars : ∀ c ∈ text, isTypeChar c = true
  notModifier : text ∉ promotionWords

/-- A parameter with blanks between all its pieces. -/
structure LooseParameter where
  beforeAll : Blanks
  /-- The promotion modifiers, each with the blanks after it. -/
  modifiers : List (Text × Text)
  areModifiers : ∀ m ∈ modifiers, m.1 ∈ promotionWords ∧ IsGap m.2
  type? : Option ParameterType
  afterType : Blanks
  isReference : Bool
  afterReference : Blanks
  isVariadic : Bool
  afterVariadic : Blanks
  name : Ident
  afterName : Blanks
  default? : Option Text
  noComma : ∀ text ∈ default?, ',' ∉ text

namespace LooseParameter

theorem areModifiers_nil : ∀ m ∈ ([] : List (Text × Text)), m.1 ∈ promotionWords ∧ IsGap m.2 := by simp

/-- What stands between the type and the variable. -/
def markers (p : LooseParameter) : Text :=
  p.afterType.text ++ (marked p.isReference ['&'] ++ (p.afterReference.text ++
    (marked p.isVariadic ['.', '.', '.'] ++ p.afterVariadic.text)))

/-- A parameter from the end of its type on. -/
def ending (p : LooseParameter) : Text :=
  p.markers ++ '$' :: (p.name.text ++ (p.afterName.text ++ assigned p.default?))

/-- A parameter without its modifiers. -/
def typedEnding (p : LooseParameter) : Text :=
  p.type?.elim [] (·.text) ++ p.ending

def source (p : LooseParameter) : Text :=
  p.beforeAll.text ++ (modifierText p.modifiers ++ p.typedEnding)

def signature (p : LooseParameter) : Parameter :=
  ⟨p.name.text, (p.type?.map (·.text)).getD mixedType, p.default?.isSome⟩

end LooseParameter

/-- What stands between two commas of a list. -/
inductive ListSegment where
  /-- A text without a variable. -/
  | other (text : Text) (noVariable : '$' ∉ text)
  | parameter (p : LooseParameter)

namespace ListSegment

def source : ListSegment → Text
  | other text _ => text
  | parameter p => p.source

/-- The parameter that a segment declares. -/
def signature? : ListSegment → Option Parameter
  | other _ _ => none
  | parameter p => some p.signature

end ListSegment

/-! ## Segments without a variable -/

theorem mem_of_mem_trimStart {t : Text} {c : Char} (h : c ∈ trimStart t) : c ∈ t :=
  (List.dropWhile_sublist _).mem h

theorem mem_of_mem_dropMarker {marker t : Text} {c : Char} (h : c ∈ dropMarker marker t) : c ∈ t := by
  obtain ⟨mark, -, heq⟩ := dropMarker_spec marker t
  rw [heq]
  exact List.mem_append_right mark h

/-- The end of a parameter holds a `$`. -/
theorem readParameterTail_of_notMem {t : Text} (h : '$' ∉ t) : readParameterTail t = none := by
  unfold readParameterTail
  simp only
  split
  · rename_i rest hdollar
    have hvariable := mem_of_mem_trimStart (hdollar ▸ List.mem_cons_self)
    have hreference := mem_of_mem_trimStart (mem_of_mem_dropMarker hvariable)
    exact absurd (mem_of_mem_trimStart (mem_of_mem_dropMarker hreference)) h
  · rfl

theorem readTyped_of_notMem {t : Text} (h : '$' ∉ t) (seen : Text) : readTyped seen t = none := by
  induction t generalizing seen with
  | nil => rfl
  | cons c t ih =>
    rw [readTyped, readParameterTail_of_notMem h]
    exact ih (fun hmem => h (List.mem_cons_of_mem c hmem)) _

theorem parameter?_of_notMem {segment : Text} (h : '$' ∉ segment) : parameter? segment = none := by
  obtain ⟨lead, hlead, -, -⟩ := stripModifiers_spec promotion_keywords.chars (trimStart segment) (trimStart segment)
  refine readTyped_of_notMem (fun hmem => h (mem_of_mem_trimStart ?_)) []
  rw [hlead]
  exact List.mem_append_right lead hmem

/-- A text without `$` holds no parameter, whatever commas it has. -/
theorem parameters_of_no_variable {t : Text} (h : '$' ∉ t) : parameters t = [] := by
  rw [parameters_eq, List.filterMap_eq_nil_iff]
  exact fun segment hs => parameter?_of_notMem fun hmem => h (mem_of_mem_splitCommas hs hmem)

/-! ## One parameter -/

theorem ParameterType.solid (type : ParameterType) : ∀ c ∈ type.text, isBlank c = false :=
  fun c hc => not_isBlank_of_isTypeChar (type.chars c hc)

theorem readParameterTail_trimStart (t : Text) : readParameterTail (trimStart t) = readParameterTail t := by
  unfold readParameterTail
  rw [trimStart_trimStart]

/-- Behind characters outside identifiers that a solid one ends, no identifier comes first. -/
theorem exists_trimStart_eq_cons {t : Text} {c : Char} (ht : ∀ a ∈ t, isIdentChar a = false)
    (hc : isIdentChar c = false) (hblank : isBlank c = false) (rest : Text) :
    ∃ d more, trimStart (t ++ c :: rest) = d :: more ∧ isIdentChar d = false := by
  induction t with
  | nil => exact ⟨c, rest, trimStart_of_not_blank hblank, hc⟩
  | cons a t ih =>
    cases ha : isBlank a with
    | true =>
      obtain ⟨d, more, htrim, hd⟩ := ih fun b hb => ht b (List.mem_cons_of_mem a hb)
      exact ⟨d, more, by rw [← htrim, trimStart, trimStart, List.cons_append, List.dropWhile_cons, if_pos ha], hd⟩
    | false => exact ⟨a, t ++ c :: rest, trimStart_of_not_blank ha, ht a List.mem_cons_self⟩

namespace LooseParameter

variable (p : LooseParameter)

theorem not_isIdentChar_of_mem_markers : ∀ c ∈ p.markers, isIdentChar c = false := by
  intro c hc
  simp only [markers, List.mem_append] at hc
  rcases hc with hc | hc | hc | hc | hc
  · exact not_isIdentChar_of_isBlank (p.afterType.blank c hc)
  · exact eq_false_of_any (by decide) c (mem_of_mem_marked hc)
  · exact not_isIdentChar_of_isBlank (p.afterReference.blank c hc)
  · exact eq_false_of_any (by decide) c (mem_of_mem_marked hc)
  · exact not_isIdentChar_of_isBlank (p.afterVariadic.blank c hc)

theorem readParameterTail_ending : readParameterTail p.ending = some (p.name.text, p.default?.isSome) := by
  have := readParameterTail_eq_some p.afterType.blank p.afterReference.blank p.afterVariadic.blank
    p.afterName.blank (marked_eq p.isReference _) (marked_eq p.isVariadic _) p.name.valid p.default?
  simpa only [ending, markers, List.append_assoc] using this

/-- Neither the type nor what follows it is read as one more modifier. -/
theorem stripModifier_typedEnding : stripModifier promotionWords (trimStart p.typedEnding) = none := by
  have hmarkers := p.not_isIdentChar_of_mem_markers
  unfold typedEnding
  cases p.type? with
  | none =>
    obtain ⟨c, more, htrim, hc⟩ := exists_trimStart_eq_cons hmarkers (c := '$') (by decide) (by decide)
      (p.name.text ++ (p.afterName.text ++ assigned p.default?))
    rw [Option.elim_none, List.nil_append, ending, htrim]
    exact promotion_keywords.stripModifier_cons_eq_none hc more
  | some type =>
    obtain ⟨c, more, hending, hc⟩ : ∃ c more, p.ending = c :: more ∧ isIdentChar c = false := by
      unfold ending
      cases hm : p.markers with
      | nil => exact ⟨'$', _, rfl, by decide⟩
      | cons c markers => exact ⟨c, _, rfl, hmarkers c (hm ▸ List.mem_cons_self)⟩
    rw [Option.elim_some, trimStart_of_not_blank (any_head?_append_of_solid type.solid type.ne_nil), hending]
    exact promotion_keywords.stripModifier_eq_none type.notModifier type.solid hc

theorem readTyped_typedEnding : readTyped [] (trimStart p.typedEnding) = some p.signature := by
  unfold typedEnding signature
  cases p.type? with
  | none =>
    refine readTyped_of_tail [] ?_
    rw [Option.elim_none, List.nil_append, readParameterTail_trimStart, p.readParameterTail_ending]
  | some type =>
    rw [Option.elim_some, trimStart_of_not_blank (any_head?_append_of_solid type.solid type.ne_nil),
      readTyped_append (fun c hc => not_isTailStart_of_isTypeChar (type.chars c hc)),
      readTyped_of_tail _ p.readParameterTail_ending]
    simp [typeOr_of_solid type.solid type.ne_nil]

/-- **A parameter is read as what it declares, whatever its layout.** -/
theorem parameter?_source : parameter? p.source = some p.signature := by
  rw [parameter?, source, trimStart_blank_append p.beforeAll.blank,
    promotion_keywords.readModifiers_trimStart p.areModifiers p.stripModifier_typedEnding]
  exact p.readTyped_typedEnding

theorem notMem_source : ',' ∉ p.source := by
  have hblanks : ∀ blanks : Blanks, ',' ∉ blanks.text := fun blanks =>
    fun hmem => by cases blanks.blank ',' hmem
  have hmodifiers : ',' ∉ modifierText p.modifiers := by
    intro hmem
    obtain ⟨m, hm, hmem⟩ := List.mem_flatMap.mp hmem
    obtain ⟨hword, hgap⟩ := p.areModifiers m hm
    rcases List.mem_append.mp hmem with hmem | hmem
    · exact promotion_keywords.notMem (by decide) hword hmem
    · cases hgap.blank ',' hmem
  have htype : ',' ∉ p.type?.elim [] (·.text) := by
    cases p.type? with
    | none => simp
    | some type =>
      have hcomma : isTypeChar ',' = false := by decide +kernel
      intro hmem
      rw [type.chars ',' hmem] at hcomma
      cases hcomma
  have hdefault : ',' ∉ assigned p.default? := by
    cases h : p.default? with
    | none => simp [assigned]
    | some text => simp [assigned, p.noComma text h]
  simp [source, typedEnding, ending, markers, hblanks, hmodifiers, htype, hdefault, notMem_marked,
    p.name.notMem (show isIdentChar ',' = false by decide)]

end LooseParameter

/-! ## Lists -/

theorem ListSegment.parameters_source (segment : ListSegment) :
    parameters segment.source = segment.signature?.toList := by
  cases segment with
  | other text h => exact parameters_of_no_variable h
  | parameter p =>
    show parameters p.source = _
    rw [parameters_of_notMem p.notMem_source, p.parameter?_source]
    rfl

/-- **Every list of segments is read as the parameters among them.**  Each parameter is read with its name,
its type and whether it has a default, in order and whatever its layout, and nothing is read from the other
segments. -/
theorem parameters_segments (segments : List ListSegment) :
    parameters ([','].intercalate (segments.map (·.source))) = segments.filterMap (·.signature?) := by
  rw [parameters_intercalate (by simp), List.flatMap_map, List.filterMap_eq_flatMap_toList]
  exact List.flatMap_congr fun segment _ => segment.parameters_source

/-- A promoted parameter whose type begins like a modifier and whose default looks like one more parameter. -/
def promotedHandler : LooseParameter where
  beforeAll := ⟨"\n  ".toList, List.all_eq_true.mp (by decide)⟩
  modifiers := [("private".toList, [' ']), ("readonly".toList, ['\n'])]
  areModifiers := List.forall_mem_cons.mpr
    ⟨⟨by decide, isGap_space⟩, List.forall_mem_singleton.mpr ⟨by decide, isGap_newline⟩⟩
  type? := some ⟨"publicly|?array[]".toList, by decide, List.all_eq_true.mp (by decide +kernel), by decide⟩
  afterType := .spaceIf false
  isReference := true
  afterReference := .spaceIf true
  isVariadic := true
  afterVariadic := .spaceIf true
  name := ⟨"on_1".toList, by decide⟩
  afterName := ⟨['\n'], isGap_newline.blank⟩
  default? := some "= public &...$off = f($x)".toList
  noComma := by
    rintro text ⟨⟩
    decide

/-- A parameter of which only the variable is written. -/
def bareVariable : LooseParameter where
  beforeAll := .spaceIf false
  modifiers := []
  areModifiers := LooseParameter.areModifiers_nil
  type? := none
  afterType := .spaceIf false
  isReference := false
  afterReference := .spaceIf false
  isVariadic := false
  afterVariadic := .spaceIf false
  name := ⟨"z".toList, by decide⟩
  afterName := .spaceIf false
  default? := none
  noComma := by simp

/-- Two parameters, with texts beside them that hold none. -/
def promotedSegments : List ListSegment :=
  [.parameter promotedHandler, .other " no, variable = (here)".toList (by decide), .parameter bareVariable,
    .other [] (by simp)]

theorem parameters_segments_promotedSegments :
    parameters ("\n  private readonly\npublicly|?array[]& ... $on_1\n== public &...$off = f($x)," ++
        " no, variable = (here),$z,").toList =
      [⟨"on_1".toList, "publicly|?array[]".toList, true⟩, ⟨"z".toList, mixedType, false⟩] := by
  have htext : ("\n  private readonly\npublicly|?array[]& ... $on_1\n== public &...$off = f($x)," ++
      " no, variable = (here),$z,").toList = [','].intercalate (promotedSegments.map (·.source)) := by
    decide +kernel
  rw [htext]
  exact parameters_segments promotedSegments

end TemplateAssist.Source
