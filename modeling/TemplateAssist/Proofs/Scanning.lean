import TemplateAssist.Source.Scan

/-!
# Scanning texts

* `isWordChar_of_lt`, `not_isWordChar_of_isBlank` — among the ASCII characters those of identifiers make
  words, and a blank never does.
* `stripWord_eq_some_iff`, `skipBlanks1_eq_some_iff`, `readIdent_eq_some_iff` — what the pieces of a reader
  read, as an equation between the text and its parts.
* `stripModifier_eq_some`, `stripModifiers_spec` — what stands before the text that modifiers leave.
* `Keywords.stripModifier_append`, `Keywords.readModifiers_trimStart` — modifiers that are written are read.
* `mem_findAll` — everything that a scan finds was recognised by its reader somewhere in the text.
* `findFirst?_eq_some`, `findFirst?_isSome`, `findFirst?_le` — so was the first match, there is one if the
  reader recognises anything anywhere, and none starts earlier.
* `Finds` — what a scan finds in one part of a text, so that scans can be followed part by part.
-/

namespace TemplateAssist

/-! ## Characters -/

namespace Text

theorem inRanges_of_lt {ranges : List CodeRange} {bound : Nat} (h : ∀ r ∈ ranges, bound ≤ r.1)
    {c : Char} (hc : c.toNat < bound) : inRanges ranges c = false := by
  unfold inRanges
  rw [List.any_eq_false]
  intro r hr
  have := h r hr
  simp only [Bool.and_eq_true, decide_eq_true_eq, not_and]
  omega

/-- An ASCII character belongs to words exactly when it belongs to identifiers. -/
theorem isWordChar_of_lt {c : Char} (hc : c.toNat < 128) : isWordChar c = isIdentChar c := by
  have hmark : isMark c = false := inRanges_of_lt (by decide +kernel) hc
  have hconnector : isConnector c = decide (c = '_') := by
    unfold isConnector
    rw [inRanges_of_lt (by decide +kernel) hc, Bool.or_false]
  have hjoiner : isJoiner c = false := inRanges_of_lt (by decide +kernel) hc
  simp only [isWordChar, isAlphabetic, isDecimalDigit, isNewcomer, if_pos hc, hmark, hconnector,
    hjoiner, isIdentChar, Char.isAlphanum]
  cases c.isAlpha <;> cases c.isDigit <;> simp

theorem lt_of_isIdentChar {c : Char} (h : isIdentChar c = true) : c.toNat < 128 := by
  have hle : ∀ {n : UInt32}, c.val ≤ n → c.toNat ≤ n.toNat := fun h => UInt32.le_iff_toNat_le.mp h
  have hupper : c.isUpper = true → c.toNat ≤ 90 := fun h => hle (of_decide_eq_true h).2
  have hlower : c.isLower = true → c.toNat ≤ 122 :=
    fun h => hle (of_decide_eq_true (Bool.and_eq_true_iff.mp h).2)
  have hdigit : c.isDigit = true → c.toNat ≤ 57 :=
    fun h => hle (of_decide_eq_true (Bool.and_eq_true_iff.mp h).2)
  simp only [isIdentChar, Char.isAlphanum, Bool.or_eq_true, decide_eq_true_eq] at h
  rcases h with (halpha | h) | rfl
  · rcases Bool.or_eq_true_iff.mp halpha with h | h
    · have := hupper h
      omega
    · have := hlower h
      omega
  · have := hdigit h
    omega
  · decide

theorem isIdentChar_of_isIdentStart {c : Char} (h : isIdentStart c = true) : isIdentChar c = true := by
  simp only [isIdentStart, isIdentChar, Char.isAlphanum, Bool.or_eq_true] at h ⊢
  rcases h with h | h
  · exact Or.inl (Or.inl h)
  · exact Or.inr h

theorem isWordChar_of_isIdentChar {c : Char} (h : isIdentChar c = true) : isWordChar c = true := by
  rw [isWordChar_of_lt (lt_of_isIdentChar h), h]

def charsOf (ranges : List CodeRange) : List Char :=
  ranges.flatMap fun r => (List.range' r.1 (r.2 + 1 - r.1)).map Char.ofNat

theorem mem_charsOf {ranges : List CodeRange} {c : Char} (h : inRanges ranges c = true) :
    c ∈ charsOf ranges := by
  obtain ⟨r, hr, hc⟩ := List.any_eq_true.mp h
  simp only [Bool.and_eq_true, decide_eq_true_eq] at hc
  refine List.mem_flatMap.mpr ⟨r, hr, List.mem_map.mpr ⟨c.toNat, ?_, Char.ofNat_toNat c⟩⟩
  rw [List.mem_range'_1]
  omega

/-- A test that no character of a text passes.  For a given text this is a computation, whereas the
quantifier ranges over all characters. -/
theorem eq_false_of_any {p : Char → Bool} {t : Text} (h : t.any p = false) : ∀ c ∈ t, p c = false := by
  intro c hc
  simpa using List.any_eq_false.mp h c hc

theorem not_isWordChar_of_isBlank {c : Char} (h : isBlank c = true) : isWordChar c = false :=
  eq_false_of_any (by decide +kernel) c (mem_charsOf h)

theorem not_isBlank_of_isIdentChar {c : Char} (h : isIdentChar c = true) : isBlank c = false := by
  cases hc : isBlank c with
  | false => rfl
  | true => rw [← not_isWordChar_of_isBlank hc, isWordChar_of_isIdentChar h]

theorem not_isIdentChar_of_isBlank {c : Char} (h : isBlank c = true) : isIdentChar c = false := by
  cases hc : isIdentChar c with
  | false => rfl
  | true => rw [← h, not_isBlank_of_isIdentChar hc]

/-- At the start of a text a space on its left makes no difference. -/
theorem isBoundary_or_space (left right : Option Char) :
    isBoundary (left.or (some ' ')) right = isBoundary left right := by
  cases left with
  | none => simp [isBoundary, isWordSide, not_isWordChar_of_isBlank (show isBlank ' ' = true by decide)]
  | some c => rfl

/-- An identifier: a letter or underscore, and then letters, digits and underscores. -/
def isIdent : Text → Bool
  | [] => false
  | c :: rest => isIdentStart c && rest.all isIdentChar

theorem isIdent_chars {name : Text} (h : isIdent name = true) : ∀ c ∈ name, isIdentChar c = true := by
  cases name with
  | nil => simp
  | cons c rest =>
    simp only [isIdent, Bool.and_eq_true, List.all_eq_true] at h
    intro x hx
    rcases List.mem_cons.mp hx with rfl | hx
    · exact isIdentChar_of_isIdentStart h.1
    · exact h.2 x hx

theorem isIdent_ne_nil {name : Text} (h : isIdent name = true) : name ≠ [] := by
  rintro rfl
  cases h

/-! ## Runs of characters -/

theorem takeWhile_append_stop {p : Char → Bool} {run rest : Text} (hrun : ∀ c ∈ run, p c = true)
    (hrest : rest.head?.any p = false) : (run ++ rest).takeWhile p = run := by
  rw [List.takeWhile_append_of_pos hrun]
  cases rest with
  | nil => simp
  | cons c rest => simp [show p c = false by simpa using hrest]

theorem dropWhile_append_stop {p : Char → Bool} {run rest : Text} (hrun : ∀ c ∈ run, p c = true)
    (hrest : rest.head?.any p = false) : (run ++ rest).dropWhile p = rest := by
  rw [List.dropWhile_append_of_pos hrun]
  cases rest with
  | nil => rfl
  | cons c rest => simp [show p c = false by simpa using hrest]

/-- Two texts that start with runs as long as they can be start with the same run. -/
theorem run_unique {p : Char → Bool} {run run' rest rest' : Text} (hrun : ∀ c ∈ run, p c = true)
    (hrest : rest.head?.any p = false) (hrun' : ∀ c ∈ run', p c = true) (hrest' : rest'.head?.any p = false)
    (h : run ++ rest = run' ++ rest') : run = run' ∧ rest = rest' := by
  have heq : run = run' := by
    rw [← takeWhile_append_stop hrun hrest, h, takeWhile_append_stop hrun' hrest']
  subst heq
  exact ⟨rfl, List.append_cancel_left h⟩

theorem any_head?_dropWhile (p : Char → Bool) (t : Text) : (t.dropWhile p).head?.any p = false := by
  induction t with
  | nil => rfl
  | cons c t ih =>
    rw [List.dropWhile_cons]
    split
    · exact ih
    · rename_i hc
      simpa using hc

theorem any_head?_cons {p : Char → Bool} {c : Char} (h : p c = false) (rest : Text) :
    (c :: rest).head?.any p = false :=
  h

theorem mem_takeWhile {p : Char → Bool} {t : Text} : ∀ c ∈ t.takeWhile p, p c = true :=
  fun c hc => List.all_eq_true.mp List.all_takeWhile c hc

/-- A text that ends before a character comes up is an initial part of what stands before that
character. -/
theorem prefix_of_notMem {before after t rest : Text} {c : Char}
    (h : before ++ c :: after = t ++ rest) (hc : c ∉ t) : t <+: before := by
  rcases List.append_eq_append_iff.mp h with ⟨more, rfl, hmore⟩ | ⟨more, rfl, -⟩
  · cases more with
    | nil => simp
    | cons d more =>
      obtain ⟨rfl, -⟩ := List.cons.inj hmore
      exact absurd (by simp) hc
  · exact List.prefix_append t more

/-- Two texts are equal if each is followed by a character that the other does not hold. -/
theorem eq_of_follows {v w x y : Text} {c d : Char} (hc : c ∉ w) (hd : d ∉ v)
    (h : v ++ c :: x = w ++ d :: y) : v = w := by
  have hvw := (prefix_of_notMem h.symm hd).length_le
  exact ((prefix_of_notMem h hc).eq_of_length_le hvw).symm

theorem notMem_of_solid {t : Text} (ht : ∀ a ∈ t, isBlank a = false) {c : Char} (hc : isBlank c = true) :
    c ∉ t := by
  intro hmem
  rw [ht c hmem] at hc
  cases hc

/-- Two texts without blanks that a blank follows are equal. -/
theorem eq_of_blank_follows {v w x y : Text} {c d : Char} (hv : ∀ a ∈ v, isBlank a = false)
    (hw : ∀ a ∈ w, isBlank a = false) (hc : isBlank c = true) (hd : isBlank d = true)
    (h : v ++ c :: x = w ++ d :: y) : v = w :=
  eq_of_follows (notMem_of_solid hw hc) (notMem_of_solid hv hd) h

theorem any_head?_of_solid {t : Text} (ht : ∀ c ∈ t, isBlank c = false) : t.head?.any isBlank = false := by
  cases t with
  | nil => rfl
  | cons c t => simpa using ht c List.mem_cons_self

theorem any_head?_append_of_solid {t more : Text} (ht : ∀ c ∈ t, isBlank c = false) (hne : t ≠ []) :
    (t ++ more).head?.any isBlank = false := by
  obtain ⟨c, t, rfl⟩ := List.exists_cons_of_ne_nil hne
  simpa using ht c List.mem_cons_self

/-- One or more blanks. -/
structure IsGap (gap : Text) : Prop where
  ne_nil : gap ≠ []
  blank : ∀ c ∈ gap, isBlank c = true

theorem IsGap.any_head? {gap : Text} (hgap : IsGap gap) {p : Char → Bool}
    (hp : ∀ c, isBlank c = true → p c = false) (rest : Text) : (gap ++ rest).head?.any p = false := by
  obtain ⟨c, gap, rfl⟩ := List.exists_cons_of_ne_nil hgap.ne_nil
  exact any_head?_cons (hp c (hgap.blank c List.mem_cons_self)) _

theorem isGap_space : IsGap [' '] :=
  ⟨by simp, List.all_eq_true.mp (by decide)⟩

theorem isGap_newline : IsGap ['\n'] :=
  ⟨by simp, List.all_eq_true.mp (by decide)⟩

theorem trimStart_append {gap rest : Text} (hgap : ∀ c ∈ gap, isBlank c = true)
    (hrest : rest.head?.any isBlank = false) : trimStart (gap ++ rest) = rest :=
  dropWhile_append_stop hgap hrest

theorem trimStart_of_not_blank {t : Text} (h : t.head?.any isBlank = false) : trimStart t = t := by
  have hnil : ∀ c ∈ ([] : Text), isBlank c = true := by simp
  simpa using trimStart_append hnil h

end Text

/-! ## The pieces of readers -/

namespace Source

open Text

theorem stripWord_eq_some_iff {w t rest : Text} : stripWord w t = some rest ↔ t = w ++ rest := by
  induction w generalizing t with
  | nil => simp [stripWord]
  | cons c w ih =>
    cases t with
    | nil => simp [stripWord]
    | cons d t =>
      rw [stripWord]
      split
      · rename_i hcd
        simp [ih, hcd]
      · rename_i hcd
        simp [Ne.symm hcd]

@[simp] theorem stripWord_append (w rest : Text) : stripWord w (w ++ rest) = some rest :=
  stripWord_eq_some_iff.mpr rfl

theorem stripWord_cons_ne {w c : Char} (h : w ≠ c) (ws t : Text) : stripWord (w :: ws) (c :: t) = none := by
  rw [stripWord, if_neg h]

theorem skipBlanks1_eq_some_iff {t rest : Text} :
    skipBlanks1 t = some rest ↔
      ∃ gap, IsGap gap ∧ t = gap ++ rest ∧ rest.head?.any isBlank = false := by
  constructor
  · intro h
    unfold skipBlanks1 at h
    split at h
    · cases h
    · rename_i c r
      split at h
      · rename_i hc
        cases h
        refine ⟨c :: r.takeWhile isBlank, ⟨by simp, ?_⟩, ?_, any_head?_dropWhile _ _⟩
        · intro x hx
          rcases List.mem_cons.mp hx with rfl | hx
          · exact hc
          · exact mem_takeWhile x hx
        · rw [List.cons_append, List.takeWhile_append_dropWhile]
      · cases h
  · rintro ⟨gap, ⟨hne, hgap⟩, rfl, hrest⟩
    cases gap with
    | nil => exact absurd rfl hne
    | cons c gap =>
      have hc : isBlank c = true := hgap c List.mem_cons_self
      simp only [List.cons_append, skipBlanks1, hc, if_true]
      rw [dropWhile_append_stop (fun x hx => hgap x (List.mem_cons_of_mem _ hx)) hrest]

theorem skipBlanks1_space {rest : Text} (h : rest.head?.any isBlank = false) :
    skipBlanks1 (' ' :: rest) = some rest :=
  skipBlanks1_eq_some_iff.mpr ⟨[' '], isGap_space, rfl, h⟩

theorem readIdent_eq_some_iff {t name rest : Text} :
    readIdent t = some (name, rest) ↔
      isIdent name = true ∧ t = name ++ rest ∧ rest.head?.any isIdentChar = false := by
  constructor
  · intro h
    unfold readIdent at h
    split at h
    · cases h
    · rename_i c r
      split at h
      · rename_i hc
        cases h
        refine ⟨?_, ?_, any_head?_dropWhile _ _⟩
        · simp only [isIdent, hc, Bool.true_and, List.all_eq_true]
          exact mem_takeWhile
        · rw [List.cons_append, List.takeWhile_append_dropWhile]
      · cases h
  · rintro ⟨hname, rfl, hrest⟩
    cases name with
    | nil => cases hname
    | cons c name =>
      simp only [isIdent, Bool.and_eq_true, List.all_eq_true] at hname
      simp only [List.cons_append, readIdent, hname.1, if_true]
      rw [takeWhile_append_stop hname.2 hrest, dropWhile_append_stop hname.2 hrest]

/-- Words that consist of identifier characters, none of them the start of another. -/
structure Keywords (words : List Text) : Prop where
  ne_nil : ∀ w ∈ words, w ≠ []
  chars : ∀ w ∈ words, ∀ c ∈ w, isIdentChar c = true
  apart : ∀ w ∈ words, ∀ v ∈ words, v <+: w → v = w

theorem keywords_of_all {words : List Text}
    (hall : words.all (fun w => !w.isEmpty && w.all isIdentChar) = true)
    (hapart : ∀ w ∈ words, ∀ v ∈ words, v <+: w → v = w) : Keywords words := by
  have hword : ∀ w ∈ words, w ≠ [] ∧ ∀ c ∈ w, isIdentChar c = true := by
    intro w hw
    simpa using List.all_eq_true.mp hall w hw
  exact ⟨fun w hw => (hword w hw).1, fun w hw => (hword w hw).2, hapart⟩

theorem Keywords.notMem {c : Char} {words : List Text} (hk : Keywords words) (hc : isIdentChar c = false)
    {word : Text} (hword : word ∈ words) : c ∉ word := by
  intro hmem
  rw [hk.chars word hword c hmem] at hc
  cases hc

/-- A word starts behind a character outside words. -/
theorem isBoundary_of_isIdentChar {c d : Char} (hc : isWordChar c = false) (hd : isIdentChar d = true) :
    isBoundary (some c) (some d) = true := by
  simp [isBoundary, isWordSide, hc, isWordChar_of_isIdentChar hd]

theorem isBoundary_keyword {c : Char} (hc : isWordChar c = false) {words : List Text} (hk : Keywords words)
    {word : Text} (hword : word ∈ words) (rest : Text) :
    isBoundary (some c) (word ++ rest).head? = true := by
  obtain ⟨d, word, rfl⟩ := List.exists_cons_of_ne_nil (hk.ne_nil word hword)
  exact isBoundary_of_isIdentChar hc (hk.chars _ hword d List.mem_cons_self)

/-- No word character stands before a keyword that starts at a word boundary. -/
theorem Keywords.not_isWordSide {words : List Text} (hk : Keywords words) {word rest : Text}
    (hword : word ∈ words) {left : Option Char} (h : isBoundary left (word ++ rest).head? = true) :
    isWordSide left = false := by
  obtain ⟨d, word, rfl⟩ := List.exists_cons_of_ne_nil (hk.ne_nil word hword)
  have hd : isWordChar d = true := isWordChar_of_isIdentChar (hk.chars _ hword d List.mem_cons_self)
  simpa [isBoundary, isWordSide, hd] using h

theorem stripAnyWord_eq_some {words : List Text} {t w rest : Text}
    (h : stripAnyWord words t = some (w, rest)) : w ∈ words ∧ t = w ++ rest := by
  obtain ⟨v, hv, hstrip⟩ := List.exists_of_findSome?_eq_some h
  obtain ⟨r, hr, heq⟩ := Option.map_eq_some_iff.mp hstrip
  cases heq
  exact ⟨hv, stripWord_eq_some_iff.mp hr⟩

theorem stripModifier_eq_some {words : List Text} {t w rest : Text}
    (h : stripModifier words t = some (w, rest)) :
    w ∈ words ∧ ∃ gap, IsGap gap ∧ t = w ++ (gap ++ rest) ∧ rest.head?.any isBlank = false := by
  unfold stripModifier at h
  split at h
  · rename_i v r hv
    obtain ⟨r', hr', heq⟩ := Option.map_eq_some_iff.mp h
    cases heq
    obtain ⟨hw, rfl⟩ := stripAnyWord_eq_some hv
    obtain ⟨gap, hgap, rfl, hrest⟩ := skipBlanks1_eq_some_iff.mp hr'
    exact ⟨hw, gap, hgap, rfl, hrest⟩
  · cases h

/-- A keyword that starts a text in which another one is followed by a character outside identifiers is
that one. -/
theorem Keywords.eq_of_prefix {words : List Text} (hk : Keywords words) {v w rest : Text} {c : Char}
    (hv : v ∈ words) (hw : w ∈ words) (hc : isIdentChar c = false) (h : v <+: w ++ c :: rest) :
    v = w := by
  rcases List.prefix_or_prefix_of_prefix h (List.prefix_append w (c :: rest)) with h' | ⟨more, rfl⟩
  · exact hk.apart w hw v hv h'
  · -- past `w` the keyword would contain `c`
    cases more with
    | nil => simp
    | cons d more =>
      obtain ⟨rfl, -⟩ := List.cons_prefix_cons.mp ((List.prefix_append_right_inj w).mp h)
      have := hk.chars _ hv d (by simp)
      rw [hc] at this
      cases this

theorem Keywords.stripAnyWord_append {words : List Text} (hk : Keywords words) {w rest : Text}
    {c : Char} (hw : w ∈ words) (hc : isIdentChar c = false) :
    stripAnyWord words (w ++ c :: rest) = some (w, c :: rest) := by
  have hsome : (stripAnyWord words (w ++ c :: rest)).isSome = true := by
    rw [stripAnyWord, List.findSome?_isSome_iff]
    exact ⟨w, hw, by simp⟩
  obtain ⟨⟨v, r⟩, hv⟩ := Option.isSome_iff_exists.mp hsome
  obtain ⟨hmem, heq⟩ := stripAnyWord_eq_some hv
  obtain rfl := hk.eq_of_prefix hmem hw hc ⟨r, heq.symm⟩
  rw [hv, List.append_cancel_left heq]

/-- A modifier is read with all blanks that follow it. -/
theorem Keywords.stripModifier_append_blanks {words : List Text} (hk : Keywords words) {w gap : Text}
    (hw : w ∈ words) (hgap : IsGap gap) (rest : Text) :
    stripModifier words (w ++ (gap ++ rest)) = some (w, trimStart rest) := by
  obtain ⟨c, gap, rfl⟩ := List.exists_cons_of_ne_nil hgap.ne_nil
  have hblank := hgap.blank c List.mem_cons_self
  have hskip : skipBlanks1 (c :: (gap ++ rest)) = some (trimStart rest) := by
    rw [skipBlanks1, if_pos hblank, trimStart,
      List.dropWhile_append_of_pos fun a ha => hgap.blank a (List.mem_cons_of_mem c ha)]
  rw [List.cons_append]
  simp only [stripModifier, hk.stripAnyWord_append hw (not_isIdentChar_of_isBlank hblank), hskip,
    Option.map_some]

theorem Keywords.stripModifier_append {words : List Text} (hk : Keywords words) {w gap rest : Text}
    (hw : w ∈ words) (hgap : IsGap gap) (hrest : rest.head?.any isBlank = false) :
    stripModifier words (w ++ (gap ++ rest)) = some (w, rest) := by
  rw [hk.stripModifier_append_blanks hw hgap, trimStart_of_not_blank hrest]

/-- A text without blanks that is none of the modifiers is no modifier. -/
theorem Keywords.stripModifier_eq_none {words : List Text} (hk : Keywords words) {w rest : Text}
    {c : Char} (hw : w ∉ words) (hsolid : ∀ a ∈ w, isBlank a = false) (hc : isIdentChar c = false) :
    stripModifier words (w ++ c :: rest) = none := by
  cases h : stripModifier words (w ++ c :: rest) with
  | none => rfl
  | some r =>
    obtain ⟨v, tail⟩ := r
    obtain ⟨hv, gap, hgap, heq, -⟩ := stripModifier_eq_some h
    obtain ⟨d, gap, rfl⟩ := List.exists_cons_of_ne_nil hgap.ne_nil
    have hd : d ∉ w := notMem_of_solid hsolid (hgap.blank d List.mem_cons_self)
    exact absurd (eq_of_follows (hk.notMem hc hv) hd heq ▸ hv) hw

/-- A text that starts outside identifiers starts with no modifier. -/
theorem Keywords.stripModifier_cons_eq_none {words : List Text} (hk : Keywords words) {c : Char}
    (hc : isIdentChar c = false) (rest : Text) : stripModifier words (c :: rest) = none := by
  cases h : stripModifier words (c :: rest) with
  | none => rfl
  | some r =>
    obtain ⟨w, tail⟩ := r
    obtain ⟨hw, gap, -, heq, -⟩ := stripModifier_eq_some h
    obtain ⟨d, w, rfl⟩ := List.exists_cons_of_ne_nil (hk.ne_nil w hw)
    obtain ⟨rfl, -⟩ := List.cons.inj heq
    have := hk.chars _ hw c List.mem_cons_self
    rw [hc] at this
    cases this

theorem stripModifiers_of_none {words : List Text} {t : Text} (h : stripModifier words t = none)
    (bound : Text) : stripModifiers words bound t = ([], t) := by
  cases bound with
  | nil => rfl
  | cons b bound => simp [stripModifiers, h]

/-- The text of modifiers, each with the blanks after it. -/
def modifierText (written : List (Text × Text)) : Text :=
  written.flatMap fun m => m.1 ++ m.2

theorem length_le_modifierText {written : List (Text × Text)} (h : ∀ m ∈ written, IsGap m.2) :
    written.length ≤ (modifierText written).length := by
  induction written with
  | nil => simp
  | cons m written ih =>
    have hgap := List.length_pos_iff.mpr (h m List.mem_cons_self).ne_nil
    have hlen := ih fun m' hm' => h m' (List.mem_cons_of_mem m hm')
    simp only [modifierText, List.flatMap_cons, List.length_append, List.length_cons] at hlen ⊢
    omega

theorem Keywords.any_head?_append {words : List Text} (hk : Keywords words) {w : Text} (hw : w ∈ words)
    (rest : Text) : (w ++ rest).head?.any isBlank = false :=
  any_head?_append_of_solid (fun a ha => not_isBlank_of_isIdentChar (hk.chars w hw a ha)) (hk.ne_nil w hw)

theorem Keywords.any_head?_modifierText {words : List Text} (hk : Keywords words) {m : Text × Text}
    (hm : m.1 ∈ words) (written : List (Text × Text)) (rest : Text) :
    (modifierText (m :: written) ++ rest).head?.any isBlank = false := by
  rw [modifierText, List.flatMap_cons, List.append_assoc, List.append_assoc]
  exact hk.any_head?_append hm _

/-- Modifiers that are written are read with the blanks around them. -/
theorem Keywords.stripModifiers_trimStart {words : List Text} (hk : Keywords words)
    {written : List (Text × Text)} (hwritten : ∀ m ∈ written, m.1 ∈ words ∧ IsGap m.2)
    {bound rest : Text} (hbound : written.length ≤ bound.length)
    (hnone : stripModifier words (trimStart rest) = none) :
    stripModifiers words bound (trimStart (modifierText written ++ rest)) =
      (written.map (·.1), trimStart rest) := by
  induction written generalizing bound with
  | nil => exact stripModifiers_of_none hnone bound
  | cons m written ih =>
    obtain ⟨b, bound, rfl⟩ := List.exists_cons_of_length_pos (Nat.lt_of_lt_of_le (Nat.succ_pos _) hbound)
    obtain ⟨hword, hgap⟩ := hwritten m List.mem_cons_self
    have htext : modifierText (m :: written) ++ rest = m.1 ++ (m.2 ++ (modifierText written ++ rest)) := by
      simp [modifierText]
    rw [htext, trimStart_of_not_blank (hk.any_head?_append hword _)]
    simp only [stripModifiers, hk.stripModifier_append_blanks hword hgap, List.map_cons]
    rw [ih (fun m' hm' => hwritten m' (List.mem_cons_of_mem m hm')) (by simpa using hbound)]

/-- **Modifiers that are written, each before blanks, are read.** -/
theorem Keywords.readModifiers_trimStart {words : List Text} (hk : Keywords words)
    {written : List (Text × Text)} (hwritten : ∀ m ∈ written, m.1 ∈ words ∧ IsGap m.2) {rest : Text}
    (hnone : stripModifier words (trimStart rest) = none) :
    readModifiers words (trimStart (modifierText written ++ rest)) = (written.map (·.1), trimStart rest) := by
  refine hk.stripModifiers_trimStart hwritten ?_ hnone
  cases written with
  | nil => simp
  | cons m written =>
    have htext := length_le_modifierText fun m' hm' => (hwritten m' hm').2
    have hhead := hk.any_head?_modifierText (hwritten m List.mem_cons_self).1 written rest
    rw [trimStart_of_not_blank hhead, List.length_append]
    omega

theorem Keywords.readModifiers_append {words : List Text} (hk : Keywords words)
    {written : List (Text × Text)} (hwritten : ∀ m ∈ written, m.1 ∈ words ∧ IsGap m.2) {rest : Text}
    (hrest : rest.head?.any isBlank = false) (hnone : stripModifier words rest = none) :
    readModifiers words (modifierText written ++ rest) = (written.map (·.1), rest) := by
  have htrim := trimStart_of_not_blank hrest
  have hhead : (modifierText written ++ rest).head?.any isBlank = false := by
    cases written with
    | nil => exact hrest
    | cons m written => exact hk.any_head?_modifierText (hwritten m List.mem_cons_self).1 written rest
  rw [← trimStart_of_not_blank hhead, hk.readModifiers_trimStart hwritten (by rwa [htrim]), htrim]

/-- Modifiers are words and blanks, with a blank at the end. -/
theorem stripModifiers_spec {words : List Text} (hwords : ∀ w ∈ words, ∀ c ∈ w, isIdentChar c = true)
    (bound t : Text) :
    ∃ lead, t = lead ++ (stripModifiers words bound t).2 ∧
      (∀ c ∈ lead, isIdentChar c = true ∨ isBlank c = true) ∧ lead.getLast?.all isBlank = true := by
  induction bound generalizing t with
  | nil => exact ⟨[], by simp [stripModifiers]⟩
  | cons b bound ih =>
    cases hm : stripModifier words t with
    | none => exact ⟨[], by simp [stripModifiers, hm]⟩
    | some r =>
      obtain ⟨w, rest⟩ := r
      obtain ⟨hw, gap, ⟨hne, hgap⟩, rfl, -⟩ := stripModifier_eq_some hm
      obtain ⟨lead, hlead, hchars, hlast⟩ := ih rest
      refine ⟨w ++ (gap ++ lead), ?_, ?_, ?_⟩
      · simp only [stripModifiers, hm, List.append_assoc]
        rw [← hlead]
      · intro c hc
        rcases List.mem_append.mp hc with hc | hc
        · exact Or.inl (hwords w hw c hc)
        rcases List.mem_append.mp hc with hc | hc
        · exact Or.inr (hgap c hc)
        · exact hchars c hc
      · rw [List.getLast?_append, List.getLast?_append]
        cases hl : lead.getLast? with
        | some c => simpa [hl] using hlast
        | none =>
          have hgl : gap.getLast? = some (gap.getLast hne) := List.getLast?_eq_some_getLast hne
          simpa [hgl] using hgap _ (List.getLast_mem hne)

/-! ## Places -/

variable {α : Type} {read : Reader α}

/-- The character before a place of a text: the last one of what stands before it, or the one before
the whole text. -/
theorem getLast?_cons_or (c : Char) (t : Text) (left : Option Char) :
    (c :: t).getLast?.or left = t.getLast?.or (some c) := by
  rw [List.getLast?_cons]
  cases t.getLast? <;> rfl

/-- The first match of a scan stands somewhere in the text. -/
theorem findFirstFrom?_eq_some {left : Option Char} {start offset : Nat} {t : Text} {a : α}
    (h : findFirstFrom? read left start t = some (offset, a)) :
    ∃ before rest tail, t = before ++ rest ∧ offset = start + width before ∧
      read (before.getLast?.or left) rest = some (a, tail) := by
  induction t generalizing left start with
  | nil => cases h
  | cons c rest ih =>
    cases hr : read left (c :: rest) with
    | some r =>
      obtain ⟨found, tail⟩ := r
      simp only [findFirstFrom?, hr] at h
      cases h
      exact ⟨[], c :: rest, tail, rfl, rfl, hr⟩
    | none =>
      simp only [findFirstFrom?, hr] at h
      obtain ⟨before, rest', tail, rfl, rfl, hread⟩ := ih h
      refine ⟨c :: before, rest', tail, rfl, by rw [width_cons]; omega, ?_⟩
      rwa [getLast?_cons_or]

theorem findFirst?_eq_some {offset : Nat} {t : Text} {a : α}
    (h : findFirst? read t = some (offset, a)) :
    ∃ before rest tail, t = before ++ rest ∧ offset = width before ∧
      read before.getLast? rest = some (a, tail) := by
  obtain ⟨before, rest, tail, ht, ho, hread⟩ := findFirstFrom?_eq_some h
  exact ⟨before, rest, tail, ht, by omega, by rwa [Option.or_none] at hread⟩

/-- A scan for the first match finds one if there is any. -/
theorem findFirstFrom?_isSome {left : Option Char} {start : Nat} {before rest : Text} (hne : rest ≠ [])
    (h : (read (before.getLast?.or left) rest).isSome = true) :
    (findFirstFrom? read left start (before ++ rest)).isSome = true := by
  induction before generalizing left start with
  | nil =>
    obtain ⟨c, rest, rfl⟩ := List.exists_cons_of_ne_nil hne
    obtain ⟨⟨found, tail⟩, hr⟩ := Option.isSome_iff_exists.mp h
    have hr' : read left (c :: rest) = some (found, tail) := hr
    simp [findFirstFrom?, hr']
  | cons c before ih =>
    rw [getLast?_cons_or] at h
    rw [List.cons_append, findFirstFrom?]
    split
    · rfl
    · exact ih h

theorem findFirst?_isSome {before rest : Text} (hne : rest ≠ [])
    (h : (read before.getLast? rest).isSome = true) :
    (findFirst? read (before ++ rest)).isSome = true :=
  findFirstFrom?_isSome hne (by rwa [Option.or_none])

/-- The first match of a scan starts no later than any other. -/
theorem findFirstFrom?_le {left : Option Char} {start offset : Nat} {before rest : Text} {a : α}
    (hne : rest ≠ []) (h : (read (before.getLast?.or left) rest).isSome = true)
    (hfirst : findFirstFrom? read left start (before ++ rest) = some (offset, a)) :
    offset ≤ start + width before := by
  induction before generalizing left start with
  | nil =>
    obtain ⟨c, rest, rfl⟩ := List.exists_cons_of_ne_nil hne
    obtain ⟨⟨found, tail⟩, hr⟩ := Option.isSome_iff_exists.mp h
    have hr' : read left (c :: rest) = some (found, tail) := hr
    simp only [List.nil_append, findFirstFrom?, hr', Option.some.injEq, Prod.mk.injEq] at hfirst
    omega
  | cons c before ih =>
    rw [getLast?_cons_or] at h
    rw [List.cons_append, findFirstFrom?] at hfirst
    rw [width_cons]
    split at hfirst
    · cases hfirst
      omega
    · have := ih h hfirst
      omega

theorem findFirst?_le {offset : Nat} {before rest : Text} {a : α} (hne : rest ≠ [])
    (h : (read before.getLast? rest).isSome = true)
    (hfirst : findFirst? read (before ++ rest) = some (offset, a)) : offset ≤ width before := by
  have := findFirstFrom?_le hne (by rwa [Option.or_none]) hfirst
  omega

/-- Everything that a scan finds was recognised by its reader somewhere in the text. -/
theorem mem_findAllFrom {left : Option Char} {skip : Nat} {t : Text} {a : α}
    (h : a ∈ findAllFrom read left skip t) :
    ∃ before rest tail, t = before ++ rest ∧ rest ≠ [] ∧
      read (before.getLast?.or left) rest = some (a, tail) := by
  induction t generalizing left skip with
  | nil => simp [findAllFrom] at h
  | cons c rest ih =>
    have hlater : ∀ {skip}, a ∈ findAllFrom read (some c) skip rest →
        ∃ before rest' tail, c :: rest = before ++ rest' ∧ rest' ≠ [] ∧
          read (before.getLast?.or left) rest' = some (a, tail) := by
      intro skip h
      obtain ⟨before, rest', tail, rfl, hne, hread⟩ := ih h
      exact ⟨c :: before, rest', tail, rfl, hne, by rwa [getLast?_cons_or]⟩
    cases skip with
    | succ skip => exact hlater (by simpa [findAllFrom] using h)
    | zero =>
      cases hr : read left (c :: rest) with
      | none => exact hlater (by simpa [findAllFrom, hr] using h)
      | some r =>
        obtain ⟨found, tail⟩ := r
        simp only [findAllFrom, hr, List.mem_cons] at h
        rcases h with rfl | h
        · exact ⟨[], c :: rest, tail, rfl, by simp, hr⟩
        · exact hlater h

theorem mem_findAll {t : Text} {a : α} (h : a ∈ findAll read t) :
    ∃ before rest tail, t = before ++ rest ∧ rest ≠ [] ∧ read before.getLast? rest = some (a, tail) := by
  obtain ⟨before, rest, tail, ht, hne, hread⟩ := mem_findAllFrom h
  exact ⟨before, rest, tail, ht, hne, by rwa [Option.or_none] at hread⟩

/-- A scan passes what is already read. -/
theorem findAllFrom_skip (left : Option Char) (part rest : Text) :
    findAllFrom read left part.length (part ++ rest) =
      findAllFrom read (part.getLast?.or left) 0 rest := by
  induction part generalizing left with
  | nil => rfl
  | cons c part ih =>
    rw [List.length_cons, List.cons_append, findAllFrom, ih, getLast?_cons_or]

/-- **A scan passes a part of a text in which nothing starts.** -/
theorem findAllFrom_append_of_none {left : Option Char} {part rest : Text}
    (h : ∀ u v, part = u ++ v → v ≠ [] → read (u.getLast?.or left) (v ++ rest) = none) :
    findAllFrom read left 0 (part ++ rest) = findAllFrom read (part.getLast?.or left) 0 rest := by
  induction part generalizing left with
  | nil => rfl
  | cons c part ih =>
    have hhere : read left (c :: (part ++ rest)) = none := h [] (c :: part) rfl (by simp)
    rw [List.cons_append, findAllFrom]
    simp only [hhere]
    rw [ih, getLast?_cons_or]
    intro u v huv hv
    have := h (c :: u) v (by rw [huv, List.cons_append]) hv
    rwa [getLast?_cons_or] at this

/-- **A scan that finds something goes on behind it.** -/
theorem findAllFrom_append_of_some {left : Option Char} {part rest : Text} {a : α} (hne : part ≠ [])
    (h : read left (part ++ rest) = some (a, rest)) :
    findAllFrom read left 0 (part ++ rest) =
      a :: findAllFrom read (part.getLast?.or left) 0 rest := by
  obtain ⟨c, part, rfl⟩ := List.exists_cons_of_ne_nil hne
  rw [List.cons_append] at h ⊢
  have hlen : (part ++ rest).length - rest.length = part.length := by simp
  simp only [findAllFrom, h]
  rw [hlen, findAllFrom_skip, getLast?_cons_or]

theorem exists_findAllFrom_eq_cons {left : Option Char} {t tail : Text} {a : α} (hne : t ≠ [])
    (h : read left t = some (a, tail)) : ∃ more, findAllFrom read left 0 t = a :: more := by
  obtain ⟨c, t, rfl⟩ := List.exists_cons_of_ne_nil hne
  exact ⟨findAllFrom read (some c) (t.length - tail.length) t, by simp only [findAllFrom, h]⟩

/-! ## Scans part by part -/

/-- Scanning `part`, where `rest` follows it, finds `found` and goes on with `rest`. -/
def Finds (read : Reader α) (found : List α) (part rest : Text) : Prop :=
  ∀ left, findAllFrom read left 0 (part ++ rest) =
    found ++ findAllFrom read (part.getLast?.or left) 0 rest

variable {found more : List α} {part next rest : Text}

theorem finds_nil : Finds read [] [] rest :=
  fun _ => rfl

/-- Parts of a text are scanned one after the other. -/
theorem Finds.append (h : Finds read found part (next ++ rest)) (h' : Finds read more next rest) :
    Finds read (found ++ more) (part ++ next) rest := by
  intro left
  rw [List.append_assoc, h, h', List.append_assoc, List.getLast?_append, Option.or_assoc]

/-- Parts with what is found in each, one after the other. -/
theorem finds_flatMap {α β : Type} {read : Reader α} {found : β → List α} {part : β → Text}
    (h : ∀ b rest, Finds read (found b) (part b) rest) (bs : List β) (rest : Text) :
    Finds read (bs.flatMap found) (bs.flatMap part) rest := by
  induction bs with
  | nil => exact finds_nil
  | cons b bs ih => exact (h b _).append ih

theorem Finds.findAll_eq (h : Finds read found part []) : findAll read part = found := by
  have := h none
  rwa [List.append_nil, findAllFrom, List.append_nil] at this

/-- Nothing is found where nothing is read, whatever stands before. -/
theorem finds_of_none (h : ∀ u v left, part = u ++ v → v ≠ [] → read left (v ++ rest) = none) :
    Finds read [] part rest :=
  fun _ => findAllFrom_append_of_none fun u v huv hv => h u v _ huv hv

/-- Nothing is found where nothing is read behind a character at which nothing is read. -/
theorem finds_cons_of_none {c : Char} (hc : ∀ left, read left (c :: (part ++ rest)) = none)
    (h : ∀ u v, part = u ++ v → v ≠ [] → read (u.getLast?.or (some c)) (v ++ rest) = none) :
    Finds read [] (c :: part) rest := by
  intro left
  rw [List.cons_append, findAllFrom]
  simp only [hc]
  rw [findAllFrom_append_of_none h, getLast?_cons_or, List.nil_append]

/-- What is read behind a character at which nothing is read is found. -/
theorem finds_cons_of_some {c : Char} {a : α} (hc : ∀ left, read left (c :: (part ++ rest)) = none)
    (hne : part ≠ []) (h : read (some c) (part ++ rest) = some (a, rest)) :
    Finds read [a] (c :: part) rest := by
  intro left
  rw [List.cons_append, findAllFrom]
  simp only [hc]
  rw [findAllFrom_append_of_some hne h, getLast?_cons_or, List.singleton_append]

end Source

end TemplateAssist
