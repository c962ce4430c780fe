import TemplateAssist.Proofs.ParameterLists
import TemplateAssist.Proofs.Readings

/-!
# Classes as they are written

A plain class is the text of one class in its usual layout: a header, and members on lines of their own.

* `Ident`, `QualifiedName`, `TypeText`, `PropertyDefault`, `ParameterDefault` — the pieces, each with what it
  must not contain.  Types keep away from the words that are read before a type, and defaults from what would
  be read as a declaration.  Names are free: a method may be called `public` and a property `$function`.
* `PlainProperty`, `PlainParameter`, `PlainMethod`, `PlainMember`, `PlainClass` — declarations, each with its
  `source` and with the signature that it stands for.
* `PropertyDefault.ofWords`, `ParameterDefault.ofWords` — a default in which the keywords do not stand as
  words is one.
-/

namespace TemplateAssist.Source

open Text

/-! ## Pieces -/

/-- An identifier. -/
structure Ident where
  text : Text
  valid : isIdent text = true

/-- A class name with an optional qualification. -/
structure QualifiedName where
  isRooted : Bool
  first : Char
  others : Text
  starts : isIdentStart first = true
  continues : ∀ c ∈ others, isQualifiedChar c = true

def QualifiedName.text (q : QualifiedName) : Text :=
  (if q.isRooted then ['\\'] else []) ++ q.first :: q.others

/-- Whether a character can stand in a type. -/
def isTypeChar (c : Char) : Bool :=
  isAlphanumeric c || c ∈ ['_', '\\', '?', '|', '[', ']']

/-- The words that are read before a type. -/
def reservedWords : List Text :=
  staticWord :: promotionWords

/-- The longest runs of word characters in a text. -/
def wordRuns (t : Text) : List Text :=
  t.splitOnP fun c => !isWordChar c

/-- A type: a text in which no reserved word stands as a word.  A reserved word among the runs is a run of
identifier characters too, so a text without reserved identifiers is a type. -/
structure TypeText where
  text : Text
  ne_nil : text ≠ []
  chars : ∀ c ∈ text, isTypeChar c = true
  unreserved : ∀ w ∈ wordRuns text, w ∉ reservedWords

/-- In `t`, `part` starts at a word boundary and `after` follows it. -/
def StandsIn (t part after : Text) : Prop :=
  ∃ before, t = before ++ (part ++ after) ∧ isBoundary before.getLast? part.head? = true

/-- The default of a property: a text that declares neither a property nor a function. -/
structure PropertyDefault where
  text : Text
  noProperty : ∀ part after, StandsIn text part after → OpensProperty part → after.head? ≠ some '$'
  noFunction : ∀ name part after, isIdent name = true → StandsIn text part after →
    OpensFunction name part → after.head? ≠ some '('

/-- The default of a parameter: a text without commas and closing parentheses that neither declares a
property nor leaves the start of one open at its end. -/
structure ParameterDefault where
  text : Text
  noComma : ',' ∉ text
  noParenthesis : ')' ∉ text
  noProperty : ∀ part after, StandsIn text part after → OpensProperty part →
    after ≠ [] ∧ after.head? ≠ some '$'

/-! ## Declarations -/

/-- A marker, if it is there. -/
def marked (isThere : Bool) (marker : Text) : Text :=
  if isThere then marker else []

/-- A word with a space behind it, if it is there. -/
def spaced (isThere : Bool) (word : Text) : Text :=
  if isThere then word ++ [' '] else []

/-- A type with a space behind it, if there is one. -/
def typed : Option TypeText → Text
  | none => []
  | some type => type.text ++ [' ']

/-- A default behind an equals sign, if there is one. -/
def defaulted : Option Text → Text
  | none => []
  | some text => ' ' :: assigned (some (' ' :: text))

/-- A property on a line of its own. -/
structure PlainProperty where
  visibility : Visibility
  isStatic : Bool
  isReadonly : Bool
  type? : Option TypeText
  name : Ident
  default? : Option PropertyDefault

namespace PlainProperty

/-- What stands before the variable of a property. -/
def lead (p : PlainProperty) : Text :=
  p.visibility.keyword ++ ' ' :: (spaced p.isStatic staticWord ++
    (spaced p.isReadonly readonlyWord ++ typed p.type?))

def source (p : PlainProperty) : Text :=
  '\n' :: (p.lead ++ '$' :: p.name.text) ++ (defaulted (p.default?.map (·.text)) ++ [';'])

def signature (p : PlainProperty) (className : Text) : Property :=
  ⟨p.name.text, className, (p.type?.map (·.text)).getD mixedType, p.visibility, p.isStatic⟩

end PlainProperty

/-- A parameter of a method. -/
structure PlainParameter where
  type? : Option TypeText
  isReference : Bool
  isVariadic : Bool
  name : Ident
  default? : Option ParameterDefault

namespace PlainParameter

/-- A parameter without its type. -/
def ending (p : PlainParameter) : Text :=
  marked p.isReference ['&'] ++ (marked p.isVariadic ['.', '.', '.'] ++
    '$' :: (p.name.text ++ defaulted (p.default?.map (·.text))))

def source (p : PlainParameter) : Text :=
  typed p.type? ++ p.ending

def signature (p : PlainParameter) : Parameter :=
  ⟨p.name.text, (p.type?.map (·.text)).getD mixedType, p.default?.isSome⟩

end PlainParameter

/-- A method with an empty body, on three lines. -/
structure PlainMethod where
  visibility? : Option Visibility
  isStatic : Bool
  isReference : Bool
  name : Ident
  parameters : List PlainParameter
  returnType? : Option TypeText

namespace PlainMethod

/-- A method up to its name. -/
def head (m : PlainMethod) : Text :=
  (m.visibility?.elim [] fun v => v.keyword ++ [' ']) ++ (spaced m.isStatic staticWord ++
    (functionWord ++ ' ' :: (marked m.isReference ['&'] ++ m.name.text)))

/-- The parameters of a method between their parentheses. -/
def list (m : PlainMethod) : Text :=
  [',', ' '].intercalate (m.parameters.map (·.source))

/-- The return type behind the parameters, if there is one. -/
def returned (m : PlainMethod) : Text :=
  m.returnType?.elim [] fun type => ':' :: ' ' :: type.text

def source (m : PlainMethod) : Text :=
  '\n' :: m.head ++ ('(' :: m.list ++ (')' :: m.returned ++ ['\n', '\x7b', '\n', '\x7d']))

def signature (m : PlainMethod) (className : Text) : Method :=
  ⟨m.name.text, className, (m.returnType?.map (·.text)).getD voidType, m.visibility?.getD .isPublic,
    m.isStatic, m.parameters.map (·.signature)⟩

end PlainMethod

/-- A member of a class. -/
inductive PlainMember where
  | property (p : PlainProperty)
  | method (m : PlainMethod)

namespace PlainMember

def source : PlainMember → Text
  | property p => p.source
  | method m => m.source

def properties (className : Text) : PlainMember → List Property
  | property p => [p.signature className]
  | method _ => []

def methods (className : Text) : PlainMember → List Method
  | property _ => []
  | method m => [m.signature className]

end PlainMember

/-- A class with its members. -/
structure PlainClass where
  name : Ident
  isName : name.text ∉ [extendsWord, implementsWord]
  parent? : Option QualifiedName
  members : List PlainMember

namespace PlainClass

def header (c : PlainClass) : Text :=
  classWord ++ ' ' :: (c.name.text ++ (c.parent?.elim [] fun q => ' ' :: (extendsWord ++ ' ' :: q.text)))

def openingTag : Text := ['<', '?', 'p', 'h', 'p', '\n']

def source (c : PlainClass) : Text :=
  openingTag ++ (c.header ++ (['\n', '\x7b'] ++
    (c.members.flatMap (·.source) ++ ['\n', '\x7d'])))

def signatures (c : PlainClass) : Signatures :=
  ⟨c.name.text, c.parent?.map (·.text), c.members.flatMap (·.properties c.name.text),
    c.members.flatMap (·.methods c.name.text)⟩

end PlainClass

/-! ## Types -/

theorem not_isBlank_of_isTypeChar {c : Char} (h : isTypeChar c = true) : isBlank c = false := by
  cases hblank : isBlank c with
  | false => rfl
  | true =>
    have : isTypeChar c = false := eq_false_of_any (by decide +kernel) c (mem_charsOf hblank)
    rw [← h, this]

theorem not_isTailStart_of_isTypeChar {c : Char} (h : isTypeChar c = true) : isTailStart c = false := by
  have hout : ∀ d ∈ ['&', '.', '$'], c ≠ d := by
    rintro d hd rfl
    have : isTypeChar c = false := eq_false_of_any (by decide +kernel) c hd
    rw [h] at this
    cases this
  simp [isTailStart, not_isBlank_of_isTypeChar h, hout]

theorem mem_wordRuns_append {word after : Text} (hword : ∀ c ∈ word, isWordChar c = true)
    (hafter : isWordSide after.head? = false) : word ∈ wordRuns (word ++ after) := by
  have hsingle : word.splitOnP (fun c => !isWordChar c) = [word] :=
    List.splitOnP_eq_singleton fun c hc => by simp [hword c hc]
  cases after with
  | nil => simp [wordRuns, hsingle]
  | cons c after =>
    have hc : isWordChar c = false := hafter
    rw [wordRuns, List.splitOnP_append_cons _ _ (by simp [hc]), hsingle]
    simp

/-- A word between characters outside words is one of the runs. -/
theorem mem_wordRuns {before word after : Text} (hbefore : isWordSide before.getLast? = false)
    (hword : ∀ c ∈ word, isWordChar c = true) (hafter : isWordSide after.head? = false) :
    word ∈ wordRuns (before ++ (word ++ after)) := by
  have hmem := mem_wordRuns_append hword hafter
  rcases List.eq_nil_or_concat before with rfl | ⟨before, c, rfl⟩
  · exact hmem
  · have hc : isWordChar c = false := by simpa [isWordSide] using hbefore
    have hsplit : before.concat c ++ (word ++ after) = before ++ c :: (word ++ after) := by simp
    rw [wordRuns, hsplit, List.splitOnP_append_cons _ _ (by simp [hc])]
    exact List.mem_append_right _ hmem

namespace TypeText

theorem solid (type : TypeText) : ∀ c ∈ type.text, isBlank c = false :=
  fun c hc => not_isBlank_of_isTypeChar (type.chars c hc)

theorem notMem (type : TypeText) {c : Char} (hc : isTypeChar c = false) : c ∉ type.text := by
  intro hmem
  rw [type.chars c hmem] at hc
  cases hc

theorem not_isTypeStop (type : TypeText) : ∀ c ∈ type.text, isTypeStop c = false := by
  intro c hc
  cases hstop : isTypeStop c with
  | false => rfl
  | true =>
    have hmem : c ∈ ['$', ';', '=', '(', ')', '\x7b', '\x7d'] := by simpa [isTypeStop] using hstop
    exact absurd hc (type.notMem (eq_false_of_any (by decide +kernel) c hmem))

/-- No reserved word ends a type as a word. -/
theorem notMem_reservedWords (type : TypeText) {before word : Text} (htext : type.text = before ++ word)
    (hbefore : isWordSide before.getLast? = false) (hword : ∀ c ∈ word, isIdentChar c = true) :
    word ∉ reservedWords := by
  have hruns : word ∈ wordRuns (before ++ (word ++ [])) :=
    mem_wordRuns hbefore (fun c hc => isWordChar_of_isIdentChar (hword c hc)) rfl
  rw [List.append_nil, ← htext] at hruns
  exact type.unreserved word hruns

end TypeText

/-- No modifier is read from a type. -/
theorem stripModifier_typed {words : List Text} (hk : Keywords words)
    (hwords : ∀ w ∈ words, w ∈ reservedWords) (type? : Option TypeText) {c : Char}
    (hc : isIdentChar c = false) (rest : Text) : stripModifier words (typed type? ++ c :: rest) = none := by
  cases type? with
  | none => exact hk.stripModifier_cons_eq_none hc rest
  | some type =>
    have htext : typed (some type) ++ c :: rest = type.text ++ ' ' :: (c :: rest) := by simp [typed]
    rw [htext]
    refine hk.stripModifier_eq_none (fun hmem => ?_) type.solid (by decide)
    exact type.notMem_reservedWords (List.nil_append _).symm rfl (hk.chars _ hmem) (hwords _ hmem)

theorem any_head?_typed (type? : Option TypeText) {c : Char} (hc : isBlank c = false) (rest : Text) :
    (typed type? ++ c :: rest).head?.any isBlank = false := by
  cases type? with
  | none => simpa [typed] using hc
  | some type =>
    rw [typed, List.append_assoc]
    exact any_head?_append_of_solid type.solid type.ne_nil

theorem not_isTypeStop_typed (type? : Option TypeText) : ∀ c ∈ typed type?, (!isTypeStop c) = true := by
  intro c hc
  cases type? with
  | none => simp [typed] at hc
  | some type =>
    rw [typed, List.mem_append, List.mem_singleton] at hc
    rcases hc with hc | rfl
    · simp [type.not_isTypeStop c hc]
    · decide

theorem typeOr_typed (type? : Option TypeText) (fallback : Text) :
    typeOr (typed type?) fallback = (type?.map (·.text)).getD fallback := by
  cases type? with
  | none => rfl
  | some type =>
    show typeOr ([] ++ (type.text ++ [' '])) fallback = type.text
    exact typeOr_append (by simp) type.solid type.ne_nil isGap_space.blank

/-! ## Defaults -/

/-- A keyword that stands in a text before a blank is one of its words. -/
theorem StandsIn.mem_wordRuns {words : List Text} (hk : Keywords words) {t word more after : Text}
    {blank : Char} (hword : word ∈ words) (hblank : isBlank blank = true)
    (h : StandsIn t (word ++ blank :: more) after) : word ∈ wordRuns t := by
  obtain ⟨before, rfl, hboundary⟩ := h
  have hchars : ∀ c ∈ word, isWordChar c = true :=
    fun c hc => isWordChar_of_isIdentChar (hk.chars word hword c hc)
  rw [List.append_assoc]
  exact Source.mem_wordRuns (hk.not_isWordSide hword hboundary) hchars (not_isWordChar_of_isBlank hblank)

theorem OpensProperty.mem_wordRuns {t part after : Text} (hpart : OpensProperty part)
    (h : StandsIn t part after) : ∃ word ∈ wordRuns t, word ∈ Visibility.keywords := by
  obtain ⟨word, blank, run, hword, hblank, -, rfl⟩ := hpart
  exact ⟨word, h.mem_wordRuns visibility_keywords hword hblank, hword⟩

theorem OpensFunction.mem_wordRuns {t name part after : Text} (hpart : OpensFunction name part)
    (h : StandsIn t part after) : functionWord ∈ wordRuns t := by
  obtain ⟨gap, mark, space, hgap, -, -, rfl⟩ := hpart
  obtain ⟨blank, gap, rfl⟩ := List.exists_cons_of_ne_nil hgap.ne_nil
  have hk : Keywords [functionWord] := keywords_of_all (by decide) (by decide)
  exact StandsIn.mem_wordRuns hk List.mem_cons_self (hgap.blank blank List.mem_cons_self) h

/-- A default in which neither a visibility nor `function` stands as a word. -/
def PropertyDefault.ofWords (text : Text)
    (h : ∀ w ∈ wordRuns text, w ∉ functionWord :: Visibility.keywords) : PropertyDefault where
  text := text
  noProperty := by
    intro part after hstands hpart
    obtain ⟨word, hruns, hword⟩ := hpart.mem_wordRuns hstands
    exact absurd (List.mem_cons_of_mem _ hword) (h word hruns)
  noFunction := by
    intro name part after _ hstands hpart
    exact absurd List.mem_cons_self (h functionWord (hpart.mem_wordRuns hstands))

/-- A default without commas and closing parentheses in which no visibility stands as a word. -/
def ParameterDefault.ofWords (text : Text) (hcomma : ',' ∉ text) (hparenthesis : ')' ∉ text)
    (h : ∀ w ∈ wordRuns text, w ∉ Visibility.keywords) : ParameterDefault where
  text := text
  noComma := hcomma
  noParenthesis := hparenthesis
  noProperty := by
    intro part after hstands hpart
    obtain ⟨word, hruns, hword⟩ := hpart.mem_wordRuns hstands
    exact absurd hword (h word hruns)

theorem marked_eq (isThere : Bool) (marker : Text) :
    marked isThere marker = [] ∨ marked isThere marker = marker := by
  cases isThere with
  | false => exact Or.inl rfl
  | true => exact Or.inr rfl

/-! ## Characters that are not written -/

section NotMem

variable {c : Char}

theorem notMem_typed (hc : isTypeChar c = false) (hspace : c ≠ ' ') (type? : Option TypeText) :
    c ∉ typed type? := by
  cases type? with
  | none => simp [typed]
  | some type => simp [typed, type.notMem hc, hspace]

theorem mem_of_mem_marked {marker : Text} {isThere : Bool} (h : c ∈ marked isThere marker) : c ∈ marker := by
  rcases marked_eq isThere marker with hm | hm
  · rw [hm] at h
    cases h
  · rwa [hm] at h

theorem notMem_marked {marker : Text} (hc : c ∉ marker) (isThere : Bool) : c ∉ marked isThere marker :=
  fun h => hc (mem_of_mem_marked h)

theorem notMem_spaced {word : Text} (hc : c ∉ word) (hspace : c ≠ ' ') (isThere : Bool) :
    c ∉ spaced isThere word := by
  cases isThere with
  | false => simp [spaced]
  | true => simp [spaced, hc, hspace]

theorem notMem_defaulted {default? : Option Text} (hc : ∀ text ∈ default?, c ∉ text)
    (hspace : c ≠ ' ') (hequals : c ≠ '=') : c ∉ defaulted default? := by
  cases default? with
  | none => simp [defaulted]
  | some text => simp [defaulted, assigned, hc text rfl, hspace, hequals]

theorem Ident.notMem (name : Ident) (hc : isIdentChar c = false) : c ∉ name.text := by
  intro hmem
  rw [isIdent_chars name.valid c hmem] at hc
  cases hc

theorem Ident.solid (name : Ident) : ∀ c ∈ name.text, isBlank c = false :=
  fun c hc => not_isBlank_of_isIdentChar (isIdent_chars name.valid c hc)

end NotMem

end TemplateAssist.Source
