import TemplateAssist.Proofs.WrittenMembers

/-!
# Extraction recovers what is written

Two scans go over the text of a class, one for its properties and one for its methods.  Each finds in every
piece of the text what the piece declares, and nothing else.

* `PropertyDefault.finds_properties`, `ParameterDefault.finds_properties`, `TypeText.finds_properties` — no
  property starts in a default or in a type.
* `PlainParameter.finds_properties_intercalate` — nor in a list of parameters.
* `PlainMember.finds_properties`, `PlainMember.finds_methods` — what the scans find in a member.
* `PlainClass.finds_source` — what a scan finds in a class, from what it finds in the members.

Principal result: `PlainClass.signatures?_source`.
-/

namespace TemplateAssist.Source

open Text

/-! ## What scans find in the pieces -/

/-- What is read within a text behind a space stands in that text. -/
theorem standsIn_append {before part after rest : Text} (hne : part ≠ [])
    (h : isBoundary (before.getLast?.or (some ' ')) (part ++ rest).head? = true) :
    StandsIn (before ++ (part ++ after)) part after := by
  refine ⟨before, rfl, ?_⟩
  obtain ⟨c, part, rfl⟩ := List.exists_cons_of_ne_nil hne
  rwa [isBoundary_or_space] at h

namespace PropertyDefault

variable {className rest : Text}

theorem finds_properties (d : PropertyDefault) :
    Finds (readProperty className) [] (' ' :: d.text) (';' :: rest) := by
  refine finds_cons_of_none (fun left => readProperty_cons_eq_none left ' ' _ (by decide)) ?_
  intro u v huv _
  refine Option.eq_none_iff_forall_ne_some.mpr ?_
  rintro ⟨p, tail⟩ h
  obtain ⟨hboundary, -, lead, after, hopens, heq, -⟩ := readProperty_eq_some h
  have hstop : ';' ∉ lead ++ ['$'] := by
    intro hmem
    rcases List.mem_append.mp hmem with hmem | hmem
    · exact absurd (hopens.not_isTypeStop ';' hmem) (by decide)
    · exact absurd hmem (by decide)
  obtain ⟨more, rfl⟩ : lead ++ ['$'] <+: v := prefix_of_notMem (by simpa using heq) hstop
  have hstands : StandsIn d.text lead ('$' :: more) := by
    rw [List.append_assoc, List.append_assoc] at hboundary
    rw [huv, List.append_assoc]
    exact standsIn_append hopens.ne_nil hboundary
  exact d.noProperty lead _ hstands hopens rfl

theorem finds_methods (d : PropertyDefault) :
    Finds (readMethod className) [] (' ' :: d.text) (';' :: rest) := by
  refine finds_cons_of_none (fun left => readMethod_cons_eq_none left ' ' _ (by decide)) ?_
  intro u v huv _
  refine Option.eq_none_iff_forall_ne_some.mpr ?_
  rintro ⟨m, tail⟩ h
  obtain ⟨hname, lead, part, after, hlead, hboundary, hopens, heq⟩ := readMethod_eq_some h
  have hstop : ';' ∉ lead ++ part ++ ['('] := by
    intro hmem
    rcases List.mem_append.mp hmem with hmem | hmem
    · exact absurd (isHeadChar_of_mem hlead hopens hname ';' hmem) (by decide)
    · exact absurd hmem (by decide)
  obtain ⟨more, rfl⟩ : lead ++ part ++ ['('] <+: v := prefix_of_notMem (by simpa using heq) hstop
  have hstands : StandsIn d.text part ('(' :: more) := by
    refine ⟨u ++ lead, by simp [huv], ?_⟩
    rwa [← Option.or_assoc, ← List.getLast?_append, isBoundary_or_space] at hboundary
  exact d.noFunction m.name part _ hname hstands hopens rfl

end PropertyDefault

theorem ParameterDefault.finds_properties (d : ParameterDefault) {className rest : Text} {c : Char}
    (hident : isIdentChar c = false) (hblank : isBlank c = false) (hdollar : '$' ≠ c) :
    Finds (readProperty className) [] (' ' :: d.text) (c :: rest) := by
  refine finds_cons_of_none (fun left => readProperty_cons_eq_none left ' ' _ (by decide)) ?_
  intro u v huv _
  refine Option.eq_none_iff_forall_ne_some.mpr ?_
  rintro ⟨p, tail⟩ h
  obtain ⟨hboundary, -, lead, after, hopens, heq, -⟩ := readProperty_eq_some h
  -- the start of the property either ends within the default or goes on behind it
  rcases List.append_eq_append_iff.mp heq with ⟨more, rfl, hmore⟩ | ⟨more, rfl, hmore⟩
  · cases more with
    | nil => exact hdollar (List.cons.inj hmore).1.symm
    | cons a more =>
      obtain ⟨rfl, -⟩ := List.cons.inj hmore
      have hopen := hopens.of_append hident hblank
      have hstands : StandsIn (u ++ (v ++ [])) v [] := standsIn_append hopen.ne_nil hboundary
      rw [List.append_nil, ← huv] at hstands
      exact (d.noProperty v [] hstands hopen).1 rfl
  · cases more with
    | nil => exact hdollar (List.cons.inj hmore).1
    | cons a more =>
      obtain ⟨rfl, -⟩ := List.cons.inj hmore
      have hstands : StandsIn d.text lead ('$' :: more) := by
        rw [List.append_assoc] at hboundary
        rw [huv]
        exact standsIn_append hopens.ne_nil hboundary
      exact (d.noProperty lead _ hstands hopens).2 rfl

/-- No property starts in a type. -/
theorem TypeText.finds_properties (type : TypeText) {className rest : Text} {c : Char}
    (hident : isIdentChar c = false) :
    Finds (readProperty className) [] (c :: type.text) (' ' :: rest) := by
  refine finds_cons_of_none (fun left => readProperty_cons_eq_none left c _ hident) ?_
  intro u v huv _
  refine Option.eq_none_iff_forall_ne_some.mpr ?_
  rintro ⟨p, tail⟩ h
  obtain ⟨hboundary, -, _, after, ⟨word, blank, run, hword, hblank, -, rfl⟩, heq, -⟩ :=
    readProperty_eq_some h
  have hchars := visibility_keywords.chars word hword
  have hsolid : ∀ a ∈ v, isBlank a = false :=
    fun a ha => type.solid a (huv ▸ List.mem_append_right u ha)
  have hsolid' : ∀ a ∈ word, isBlank a = false := fun a ha => not_isBlank_of_isIdentChar (hchars a ha)
  rw [List.append_assoc, List.cons_append] at heq
  obtain rfl := eq_of_blank_follows hsolid hsolid' (by decide) hblank heq
  -- the word stands at the end of the type, behind a word boundary
  have hbefore : isWordSide u.getLast? = false := by
    have hside := visibility_keywords.not_isWordSide hword hboundary
    cases hu : u.getLast? with
    | none => rfl
    | some a => rwa [hu] at hside
  refine type.notMem_reservedWords huv hbefore hchars ?_
  exact List.mem_cons_of_mem _ (List.mem_append_left _ hword)

/-! ## What scans find in parameters -/

section Parameters

variable {className rest : Text} {c d : Char}

theorem finds_properties_typed (type? : Option TypeText) (hc : isIdentChar c = false) :
    Finds (readProperty className) [] (c :: typed type?) rest := by
  cases type? with
  | none => exact finds_of_not_isIdentChar readProperty_cons_eq_none (by simpa [typed] using hc)
  | some type =>
    have hspace : Finds (readProperty className) [] [' '] rest :=
      finds_of_not_isIdentChar readProperty_cons_eq_none (eq_false_of_any (by decide))
    exact (type.finds_properties hc).append hspace

theorem not_isIdentChar_marked (isThere : Bool) {marker : Text}
    (h : ∀ c ∈ marker, isIdentChar c = false) : ∀ c ∈ marked isThere marker, isIdentChar c = false := by
  cases isThere with
  | false => simp [marked]
  | true => exact h

namespace PlainParameter

theorem finds_properties_name (p : PlainParameter) (hd : isIdentChar d = false)
    (hblank : isBlank d = false) (hdollar : '$' ≠ d) :
    Finds (readProperty className) [] (p.name.text ++ defaulted (p.default?.map (·.text)))
      (d :: rest) := by
  cases hdefault : p.default? with
  | none =>
    rw [Option.map_none, defaulted, List.append_nil]
    exact finds_property_of_solid p.name.solid hd hblank
  | some default =>
    have hname : Finds (readProperty className) [] (p.name.text ++ [' '])
        ('=' :: ' ' :: (default.text ++ d :: rest)) := by
      refine finds_property_before_stop ?_ (by decide) (by decide)
      simp [p.name.notMem (show isIdentChar '$' = false by decide)]
    have hequals : Finds (readProperty className) [] ['='] (' ' :: (default.text ++ d :: rest)) :=
      finds_of_not_isIdentChar readProperty_cons_eq_none (eq_false_of_any (by decide))
    have hdefaulted : Finds (readProperty className) [] (' ' :: default.text) (d :: rest) :=
      default.finds_properties hd hblank hdollar
    simpa [defaulted, assigned] using hname.append (hequals.append hdefaulted)

/-- No property starts in a parameter. -/
theorem finds_properties (p : PlainParameter) (hc : isIdentChar c = false) (hd : isIdentChar d = false)
    (hblank : isBlank d = false) (hdollar : '$' ≠ d) :
    Finds (readProperty className) [] (c :: p.source) (d :: rest) := by
  have hmarks : ∀ a ∈ marked p.isReference ['&'] ++ (marked p.isVariadic ['.', '.', '.'] ++ ['$']),
      isIdentChar a = false := by
    intro a ha
    simp only [List.mem_append] at ha
    rcases ha with ha | ha | ha
    · exact not_isIdentChar_marked _ (eq_false_of_any (by decide)) a ha
    · exact not_isIdentChar_marked _ (eq_false_of_any (by decide)) a ha
    · exact eq_false_of_any (by decide) a ha
  have htype : ∀ rest, Finds (readProperty className) [] (c :: typed p.type?) rest :=
    fun _ => finds_properties_typed p.type? hc
  have hvariable : ∀ rest, Finds (readProperty className) [] _ rest :=
    fun _ => finds_of_not_isIdentChar readProperty_cons_eq_none hmarks
  have hname : Finds (readProperty className) [] _ (d :: rest) :=
    p.finds_properties_name hd hblank hdollar
  simpa [source, ending] using (htype _).append ((hvariable _).append hname)

/-- No property starts in a list of parameters. -/
theorem finds_properties_intercalate (ps : List PlainParameter) (hc : isIdentChar c = false) :
    Finds (readProperty className) [] (c :: [',', ' '].intercalate (ps.map (·.source))) (')' :: rest) := by
  induction ps generalizing c with
  | nil => exact finds_of_not_isIdentChar readProperty_cons_eq_none (by simpa using hc)
  | cons p ps ih =>
    cases ps with
    | nil => simpa using p.finds_properties hc (by decide) (by decide) (by decide)
    | cons q ps =>
      have hnext := @ih ' ' (by decide)
      have hcomma : ∀ rest, Finds (readProperty className) [] [','] rest :=
        fun rest => finds_of_not_isIdentChar readProperty_cons_eq_none (eq_false_of_any (by decide))
      have hp : ∀ rest, Finds (readProperty className) [] (c :: p.source) (',' :: rest) :=
        fun rest => p.finds_properties hc (by decide) (by decide) (by decide)
      simpa [List.intercalate_cons_cons] using (hp _).append ((hcomma _).append hnext)

end PlainParameter

end Parameters

/-! ## What scans find in members -/

section Members

variable {className rest : Text}

theorem PlainMethod.finds_methods (m : PlainMethod) :
    Finds (readMethod className) [m.signature className] m.source rest := by
  obtain ⟨eaten, left, hreturned, hleft, written, hread, htype⟩ :=
    m.readReturnType_returned ('\n' :: '\x7d' :: rest)
  have hbody : ∀ c ∈ left ++ ['\x7b', '\n', '\x7d'], isIdentChar c = false := by
    intro c hc
    rcases List.mem_append.mp hc with hc | hc
    · exact hleft c hc
    · exact eq_false_of_any (by decide) c hc
  have hsource : m.source = ('\n' :: (m.head ++ '(' :: (m.list ++ ')' :: eaten))) ++
      (left ++ ['\x7b', '\n', '\x7d']) := by
    have hlines : m.returned ++ ['\n', '\x7b', '\n', '\x7d'] =
        eaten ++ (left ++ ['\x7b', '\n', '\x7d']) := by
      rw [← List.append_assoc, ← hreturned]
      simp
    simp [source, hlines]
  have hmethod : readMethod className (some '\n') ((m.head ++ '(' :: (m.list ++ ')' :: eaten)) ++
      ((left ++ ['\x7b', '\n', '\x7d']) ++ rest)) =
        some (m.signature className, (left ++ ['\x7b', '\n', '\x7d']) ++ rest) := by
    have hhead : readMethod className (some '\n') _ = _ :=
      m.readMethod_head (eaten ++ (left ++ '\x7b' :: '\n' :: '\x7d' :: rest))
    simp only [hread, htype] at hhead
    simpa [signature] using hhead
  rw [hsource]
  have hfound : Finds (readMethod className) [m.signature className] _
      ((left ++ ['\x7b', '\n', '\x7d']) ++ rest) :=
    finds_cons_of_some (fun left => readMethod_cons_eq_none left '\n' _ (by decide)) (by simp) hmethod
  exact hfound.append (finds_of_not_isIdentChar readMethod_cons_eq_none hbody)

theorem PlainMethod.notMem_head (m : PlainMethod) : '$' ∉ m.head := by
  have hdollar : isIdentChar '$' = false := by decide
  have hvisibility : '$' ∉ (m.visibility?.elim [] fun v => v.keyword ++ [' ']) := by
    cases m.visibility? with
    | none => simp
    | some v => simp [visibility_keywords.notMem hdollar (keyword_mem_keywords v)]
  have hstatic : '$' ∉ spaced m.isStatic staticWord := notMem_spaced (by decide) (by decide) _
  have hreference : '$' ∉ marked m.isReference ['&'] := notMem_marked (by decide) _
  have hfunction : '$' ∉ functionWord := by decide
  simp [head, hvisibility, hstatic, hfunction, hreference, m.name.notMem hdollar]

theorem PlainMethod.notMem_returned (m : PlainMethod) : '$' ∉ m.returned := by
  unfold returned
  cases m.returnType? with
  | none => simp
  | some type => simp [type.notMem (show isTypeChar '$' = false by decide +kernel)]

/-- No property starts in a method. -/
theorem PlainMethod.finds_properties (m : PlainMethod) :
    Finds (readProperty className) [] m.source rest := by
  have hhead : ∀ rest, Finds (readProperty className) [] ('\n' :: m.head) ('(' :: rest) :=
    fun _ => finds_property_before_stop (by simp [m.notMem_head]) (by decide) (by decide)
  have hlist : ∀ rest, Finds (readProperty className) [] ('(' :: m.list) (')' :: rest) :=
    fun _ => PlainParameter.finds_properties_intercalate m.parameters (by decide)
  have hreturned : ∀ rest, Finds (readProperty className) [] (')' :: m.returned ++ ['\n']) ('\x7b' :: rest) :=
    fun _ => finds_property_before_stop (by simp [m.notMem_returned]) (by decide) (by decide)
  have hbody : Finds (readProperty className) [] ['\x7b', '\n', '\x7d'] rest :=
    finds_of_not_isIdentChar readProperty_cons_eq_none (eq_false_of_any (by decide))
  simpa [source] using (hhead _).append ((hlist _).append ((hreturned _).append hbody))

/-- A property is found where it is written. -/
theorem PlainProperty.finds_properties (p : PlainProperty) :
    Finds (readProperty className) [p.signature className] p.source rest := by
  have hfound : ∀ rest, rest.head?.any isIdentChar = false → Finds (readProperty className)
      [p.signature className] ('\n' :: (p.lead ++ '$' :: p.name.text)) rest := by
    intro rest hrest
    refine finds_cons_of_some (fun left => readProperty_cons_eq_none left '\n' _ (by decide)) (by simp) ?_
    simpa using p.readProperty_lead hrest
  have hsemicolon : Finds (readProperty className) [] [';'] rest :=
    finds_of_not_isIdentChar readProperty_cons_eq_none (eq_false_of_any (by decide))
  unfold source
  cases p.default? with
  | none => exact (hfound _ (any_head?_cons (by decide) _)).append hsemicolon
  | some d =>
    have hequals : ∀ rest, Finds (readProperty className) [] [' ', '='] rest :=
      fun _ => finds_of_not_isIdentChar readProperty_cons_eq_none (eq_false_of_any (by decide))
    have hdefault : ∀ rest, Finds (readProperty className) [] (' ' :: d.text) (';' :: rest) :=
      fun _ => d.finds_properties
    exact (hfound _ (any_head?_cons (by decide) _)).append
      (((hequals _).append (hdefault _)).append hsemicolon)

theorem PlainProperty.notMem_lead (p : PlainProperty) : '(' ∉ p.lead := by
  have hparen : isIdentChar '(' = false := by decide
  have htype : isTypeChar '(' = false := by decide +kernel
  have hstatic : '(' ∉ spaced p.isStatic staticWord := notMem_spaced (by decide) (by decide) _
  have hreadonly : '(' ∉ spaced p.isReadonly readonlyWord := notMem_spaced (by decide) (by decide) _
  simp [lead, visibility_keywords.notMem hparen (keyword_mem_keywords p.visibility), hstatic, hreadonly,
    notMem_typed htype (by decide)]

/-- No method starts in a property. -/
theorem PlainProperty.finds_methods (p : PlainProperty) :
    Finds (readMethod className) [] p.source rest := by
  have hname : '(' ∉ p.name.text := p.name.notMem (by decide)
  have hlead : ∀ rest, Finds (readMethod className) [] ('\n' :: p.lead) ('$' :: rest) :=
    fun _ => finds_method_before_stop (by simp [p.notMem_lead]) (by decide) (by decide)
  have hdollar : ∀ rest, Finds (readMethod className) [] ['$'] rest :=
    fun _ => finds_of_not_isIdentChar readMethod_cons_eq_none (eq_false_of_any (by decide))
  have hsemicolon : Finds (readMethod className) [] [';'] rest :=
    finds_of_not_isIdentChar readMethod_cons_eq_none (eq_false_of_any (by decide))
  unfold source
  cases p.default? with
  | none =>
    have hvariable : ∀ rest, Finds (readMethod className) [] p.name.text (';' :: rest) :=
      fun _ => finds_method_before_stop hname (by decide) (by decide)
    simpa [defaulted] using (hlead _).append ((hdollar _).append ((hvariable _).append hsemicolon))
  | some d =>
    have hvariable : ∀ rest, Finds (readMethod className) [] (p.name.text ++ [' ']) ('=' :: rest) :=
      fun _ => finds_method_before_stop (by simp [hname]) (by decide) (by decide)
    have hequals : ∀ rest, Finds (readMethod className) [] ['='] rest :=
      fun _ => finds_of_not_isIdentChar readMethod_cons_eq_none (eq_false_of_any (by decide))
    have hdefault : ∀ rest, Finds (readMethod className) [] (' ' :: d.text) (';' :: rest) :=
      fun _ => d.finds_methods
    simpa [defaulted, assigned] using (hlead _).append ((hdollar _).append ((hvariable _).append
      ((hequals _).append ((hdefault _).append hsemicolon))))

namespace PlainMember

theorem finds_properties (member : PlainMember) :
    Finds (readProperty className) (member.properties className) member.source rest := by
  cases member with
  | property p => exact p.finds_properties
  | method m => exact m.finds_properties

theorem finds_methods (member : PlainMember) :
    Finds (readMethod className) (member.methods className) member.source rest := by
  cases member with
  | property p => exact p.finds_methods
  | method m => exact m.finds_methods

end PlainMember

end Members

/-! ## The whole class -/

theorem QualifiedName.notMem_text (q : QualifiedName) {c : Char} (hident : isIdentChar c = false)
    (hslash : c ≠ '\\') : c ∉ q.text := by
  have hqualified : isQualifiedChar c = false := by simp [isQualifiedChar, hident, hslash]
  have hfirst : c ≠ q.first := by
    rintro rfl
    rw [isIdentChar_of_isIdentStart q.starts] at hident
    cases hident
  have hothers : c ∉ q.others := by
    intro hmem
    rw [q.continues c hmem] at hqualified
    cases hqualified
  unfold text
  cases q.isRooted with
  | true => simp [hslash, hfirst, hothers]
  | false => simp [hfirst, hothers]

namespace PlainClass

theorem notMem_header (c : PlainClass) {a : Char} (hident : isIdentChar a = false) (hspace : a ≠ ' ')
    (hslash : a ≠ '\\') : a ∉ c.header := by
  have hk : Keywords [classWord, extendsWord] := keywords_of_all (by decide) (by decide)
  have hclass : a ∉ classWord := hk.notMem hident (by decide)
  have hextends : a ∉ extendsWord := hk.notMem hident (by decide)
  have hparent : a ∉ (c.parent?.elim [] fun q => ' ' :: (extendsWord ++ ' ' :: q.text)) := by
    cases c.parent? with
    | none => simp
    | some q => simp [hspace, hextends, q.notMem_text hident hslash]
  simp [header, hclass, hspace, c.name.notMem hident, hparent]

/-- What a scan finds in the text of a class is what it finds in the members. -/
theorem finds_source {α : Type} {read : Reader α} {found : PlainMember → List α} (c : PlainClass) (n : Nat)
    (hstart : ∀ left a rest, isIdentChar a = false → read left (a :: rest) = none)
    (hheader : ∀ rest, Finds read [] (openingTag ++ (c.header ++ ['\n'])) ('\x7b' :: rest))
    (hmember : ∀ member rest, Finds read (found member) (PlainMember.source member) rest) :
    findAll read (c.source ++ List.replicate n '\n') = c.members.flatMap found := by
  have hbrace : ∀ rest, Finds read [] ['\x7b'] rest :=
    fun _ => finds_of_not_isIdentChar hstart (eq_false_of_any (by decide))
  have hmembers := finds_flatMap hmember c.members
  have hend : ∀ a ∈ ['\n', '\x7d'] ++ List.replicate n '\n', isIdentChar a = false := by
    intro a ha
    rcases List.mem_append.mp ha with ha | ha
    · exact eq_false_of_any (by decide) a ha
    · rw [(List.mem_replicate.mp ha).2]
      decide
  have hends : Finds read [] (['\n', '\x7d'] ++ List.replicate n '\n') [] :=
    finds_of_not_isIdentChar hstart hend
  have hall := (hheader _).append ((hbrace _).append ((hmembers _).append hends))
  rw [List.nil_append, List.nil_append, List.append_nil] at hall
  rw [← hall.findAll_eq]
  simp [source]

/-- **Extraction recovers a class from its text.**  The class may be followed by line breaks. -/
theorem signatures?_source (c : PlainClass) (n : Nat) :
    signatures? (c.source ++ List.replicate n '\n') = some c.signatures := by
  have hheader : classHeader? (c.source ++ List.replicate n '\n') =
      some ⟨c.name.text, c.parent?.map (·.text)⟩ := by
    have htext : c.source ++ List.replicate n '\n' = openingTag ++ (c.header ++
        '\n' :: '\x7b' :: (c.members.flatMap (·.source) ++ '\n' :: '\x7d' :: List.replicate n '\n')) := by
      simp [source]
    rw [htext]
    exact c.classHeader?_source _
  have hproperties : properties (c.source ++ List.replicate n '\n') c.name.text =
      c.members.flatMap (·.properties c.name.text) := by
    refine c.finds_source n readProperty_cons_eq_none (fun _ => ?_) fun member _ => member.finds_properties
    have hdollar : '$' ∉ c.header := c.notMem_header (by decide) (by decide) (by decide)
    exact finds_property_before_stop (by simp [openingTag, hdollar]) (by decide) (by decide)
  have hmethods : methods (c.source ++ List.replicate n '\n') c.name.text =
      c.members.flatMap (·.methods c.name.text) := by
    refine c.finds_source n readMethod_cons_eq_none (fun _ => ?_) fun member _ => member.finds_methods
    have hparen : '(' ∉ c.header := c.notMem_header (by decide) (by decide) (by decide)
    exact finds_method_before_stop (by simp [openingTag, hparen]) (by decide) (by decide)
  rw [signatures?, hheader, Option.map_some, hproperties, hmethods]
  rfl

/-- A class whose members are named by keywords. -/
def keywordNames : PlainClass where
  name := ⟨"Public".toList, by decide⟩
  isName := by decide
  parent? := some ⟨true, 'L', "ib\\Base".toList, by decide, List.all_eq_true.mp (by decide)⟩
  members :=
    [.property {
      visibility := .isPublic, isStatic := true, isReadonly := true
      type? := some ⟨"?Item[]".toList, by decide, List.all_eq_true.mp (by decide +kernel), by decide +kernel⟩
      name := ⟨"function".toList, by decide⟩
      default? := some (PropertyDefault.ofWords "f(1, $x);".toList (by decide +kernel)) },
    .method {
      visibility? := some .isProtected, isStatic := true, isReference := true
      name := ⟨"public".toList, by decide⟩
      parameters := [
        ⟨some ⟨"publicé".toList, by decide, List.all_eq_true.mp (by decide +kernel), by decide +kernel⟩, false, false,
          ⟨"private".toList, by decide⟩, none⟩,
        ⟨none, true, true, ⟨"rest".toList, by decide⟩,
          some (ParameterDefault.ofWords "function f($x".toList (by decide) (by decide) (by decide +kernel))⟩]
      returnType? := some ⟨"int|string".toList, by decide, List.all_eq_true.mp (by decide +kernel), by decide +kernel⟩ },
    .property ⟨.isPrivate, false, false, none, ⟨"class".toList, by decide⟩, none⟩,
    .method ⟨none, false, false, ⟨"static".toList, by decide⟩, [], none⟩]

theorem signatures?_source_keywordNames :
    keywordNames.source ++ ['\n'] =
        "<?php\nclass Public extends \\Lib\\Base\n\x7b\n".toList ++
        "public static readonly ?Item[] $function = f(1, $x);;\n".toList ++
        "protected static function &public(publicé $private, &...$rest = function f($x): int|string\n".toList ++
        "\x7b\n\x7d\nprivate $class;\nfunction static()\n\x7b\n\x7d\n\x7d\n".toList ∧
      signatures? (keywordNames.source ++ ['\n']) = some keywordNames.signatures ∧
      keywordNames.signatures.methods.map (fun m => (m.name, m.parameters.map (·.typeHint))) =
        [("public".toList, ["publicé".toList, "mixed".toList]), ("static".toList, [])] :=
  ⟨by decide +kernel, signatures?_source keywordNames 1, by decide +kernel⟩

end PlainClass

end TemplateAssist.Source
