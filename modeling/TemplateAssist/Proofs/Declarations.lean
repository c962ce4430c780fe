import TemplateAssist.Proofs.Readings
import TemplateAssist.Source.Declaration

/-!
# Jumping to what was extracted

* `IsLead`, `IsClose` — what stands before and after a name where a file declares it.
* `DeclaredAt` — a place of a text where a name is declared, up to what follows it.
* `readDeclaration_eq_some`, `readDeclaration_isSome` — a declaration is read exactly where this form stands.
* `jumps_iff` — a jump finds a name that can be searched for exactly when it is declared somewhere and closed
  there, and the range that it gives spells the name.
* `readHeader_declared`, `readProperty_declared`, `readMethod_declared` — what was extracted is declared.

Principal result: `signatures?_jumps`.  Extraction ends a name where its identifier characters end, and a
jump asks for a word boundary there.  The two differ where a letter, digit or mark beyond ASCII follows:
such a name is extracted in part, and the jump to it fails.
-/

namespace TemplateAssist

namespace Source

open Text

/-! ## The form of a declaration -/

/-- What stands before a name where it is declared. -/
def IsLead : DeclarationKind → Text → Prop
  | .classHeader, lead => ∃ gap, IsGap gap ∧ lead = classWord ++ gap
  | .method, lead => ∃ gap mark, IsGap gap ∧ (mark = [] ∨ mark = ['&']) ∧
      lead = functionWord ++ (gap ++ mark)
  | .property, lead => ∃ start, OpensProperty start ∧ lead = start ++ ['$']

/-- What stands after a name where its declaration is recognised: the parameters of a method, and
otherwise a word boundary. -/
def IsClose : DeclarationKind → Text → Text → Text → Prop
  | .method, _, _, after => ∃ space rest, (∀ c ∈ space, isBlank c = true) ∧ after = space ++ '(' :: rest
  | .classHeader, lead, name, after | .property, lead, name, after =>
      endsWord (lead ++ name) after = true

/-- A text declares a name behind `before` and `lead`, whatever comes after it. -/
structure DeclaredAt (t : Text) (kind : DeclarationKind) (name before lead after : Text) : Prop where
  text : t = before ++ (lead ++ (name ++ after))
  boundary : isBoundary before.getLast? lead.head? = true
  lead : IsLead kind lead

theorem IsLead.ne_nil {kind : DeclarationKind} {lead : Text} (h : IsLead kind lead) : lead ≠ [] := by
  cases kind with
  | classHeader =>
    obtain ⟨gap, -, rfl⟩ := h
    simp [classWord]
  | method =>
    obtain ⟨gap, mark, -, -, rfl⟩ := h
    simp [functionWord]
  | property =>
    obtain ⟨start, -, rfl⟩ := h
    simp

/-! ## What a jump reads -/

theorem mem_blankSplitsFrom_iff {seen t lead rest : Text} :
    (lead, rest) ∈ blankSplitsFrom seen t ↔
      ∃ gap, IsGap gap ∧ t = gap ++ rest ∧ lead = seen.reverse ++ gap := by
  induction t generalizing seen with
  | nil =>
    simp only [blankSplitsFrom, List.not_mem_nil, false_iff]
    rintro ⟨gap, hgap, hnil, -⟩
    exact hgap.ne_nil (List.append_eq_nil_iff.mp hnil.symm).1
  | cons c t ih =>
    unfold blankSplitsFrom
    split
    · rename_i hc
      rw [List.mem_append, ih, List.mem_singleton, Prod.mk.injEq]
      constructor
      · rintro (⟨gap, hgap, rfl, rfl⟩ | ⟨rfl, rfl⟩)
        · refine ⟨c :: gap, ⟨by simp, fun x hx => ?_⟩, by simp, by simp⟩
          rcases List.mem_cons.mp hx with rfl | hx
          · exact hc
          · exact hgap.blank x hx
        · exact ⟨[c], ⟨by simp, by simpa using hc⟩, by simp, by simp⟩
      · rintro ⟨gap, hgap, heq, rfl⟩
        obtain ⟨d, gap, rfl⟩ := List.exists_cons_of_ne_nil hgap.ne_nil
        obtain ⟨rfl, rfl⟩ := List.cons.inj heq
        by_cases hnil : gap = []
        · exact Or.inr (by simp [hnil])
        · exact Or.inl ⟨gap, ⟨hnil, fun x hx => hgap.blank x (List.mem_cons_of_mem _ hx)⟩, rfl, by simp⟩
    · rename_i hc
      simp only [List.not_mem_nil, false_iff]
      rintro ⟨gap, hgap, heq, -⟩
      obtain ⟨d, gap, rfl⟩ := List.exists_cons_of_ne_nil hgap.ne_nil
      obtain ⟨rfl, -⟩ := List.cons.inj heq
      exact hc (hgap.blank c List.mem_cons_self)

/-- The ways to read leading blanks. -/
theorem mem_blankSplits_iff {t gap rest : Text} :
    (gap, rest) ∈ blankSplits t ↔ IsGap gap ∧ t = gap ++ rest := by
  rw [blankSplits, mem_blankSplitsFrom_iff]
  simp

theorem readCalled_eq_some_iff {name t tail : Text} :
    readCalled name t = some tail ↔
      ∃ space, (∀ c ∈ space, isBlank c = true) ∧ t = name ++ (space ++ '(' :: tail) := by
  constructor
  · intro h
    unfold readCalled at h
    split at h
    · rename_i after hname
      split at h
      · rename_i rest hparen
        cases h
        refine ⟨after.takeWhile isBlank, mem_takeWhile, ?_⟩
        rw [← hparen, trimStart, List.takeWhile_append_dropWhile]
        exact stripWord_eq_some_iff.mp hname
      · cases h
    · cases h
  · rintro ⟨space, hspace, rfl⟩
    have hparen : ('(' :: tail).head?.any isBlank = false := by simp; decide
    simp [readCalled, trimStart_append hspace hparen]

theorem readClassName_eq_some {name t lead tail : Text} (h : readClassName name t = some (lead, tail)) :
    IsGap lead ∧ t = lead ++ (name ++ tail) ∧ endsWord (lead ++ name) tail = true := by
  obtain ⟨⟨gap, rest⟩, hmem, hread⟩ := List.exists_of_findSome?_eq_some h
  obtain ⟨hgap, rfl⟩ := mem_blankSplits_iff.mp hmem
  simp only at hread
  split at hread
  · rename_i after hname
    split at hread
    · rename_i hend
      cases hread
      exact ⟨hgap, by rw [stripWord_eq_some_iff.mp hname], hend⟩
    · cases hread
  · cases hread

theorem readClassName_isSome {name gap after : Text} (hgap : IsGap gap)
    (hend : endsWord (gap ++ name) after = true) :
    (readClassName name (gap ++ (name ++ after))).isSome = true := by
  rw [readClassName, List.findSome?_isSome_iff]
  exact ⟨(gap, name ++ after), mem_blankSplits_iff.mpr ⟨hgap, rfl⟩, by simp [hend]⟩

theorem readMethodName_eq_some {name t lead tail : Text}
    (h : readMethodName name t = some (lead, tail)) :
    ∃ gap mark space, IsGap gap ∧ (mark = [] ∨ mark = ['&']) ∧ (∀ c ∈ space, isBlank c = true) ∧
      lead = gap ++ mark ∧ t = lead ++ (name ++ (space ++ '(' :: tail)) := by
  obtain ⟨⟨gap, rest⟩, hmem, hread⟩ := List.exists_of_findSome?_eq_some h
  obtain ⟨hgap, rfl⟩ := mem_blankSplits_iff.mp hmem
  simp only at hread
  split at hread
  · rename_i after hmarked
    cases hread
    obtain ⟨marked, hmark, hcalled⟩ := Option.bind_eq_some_iff.mp hmarked
    obtain ⟨space, hspace, rfl⟩ := readCalled_eq_some_iff.mp hcalled
    refine ⟨gap, ['&'], space, hgap, Or.inr rfl, hspace, rfl, ?_⟩
    rw [stripWord_eq_some_iff.mp hmark, List.append_assoc]
  · obtain ⟨after, hcalled, heq⟩ := Option.map_eq_some_iff.mp hread
    cases heq
    obtain ⟨space, hspace, rfl⟩ := readCalled_eq_some_iff.mp hcalled
    exact ⟨lead, [], space, hgap, Or.inl rfl, hspace, by simp, rfl⟩

theorem readMethodName_isSome {name gap mark space tail : Text} (hgap : IsGap gap)
    (hmark : mark = [] ∨ mark = ['&']) (hspace : ∀ c ∈ space, isBlank c = true) :
    (readMethodName name (gap ++ (mark ++ (name ++ (space ++ '(' :: tail))))).isSome = true := by
  have hcalled := readCalled_eq_some_iff.mpr ⟨space, hspace, (rfl : name ++ (space ++ '(' :: tail) = _)⟩
  rw [readMethodName, List.findSome?_isSome_iff]
  refine ⟨(gap, _), mem_blankSplits_iff.mpr ⟨hgap, rfl⟩, ?_⟩
  simp only
  split
  · rfl
  · rename_i hnone
    rcases hmark with rfl | rfl
    · simp [hcalled]
    · rw [stripWord_append, Option.bind_some, hcalled] at hnone
      cases hnone

theorem readPropertyName_eq_some_iff {name t lead tail : Text} :
    readPropertyName name t = some (lead, tail) ↔
      ∃ blank run, isBlank blank = true ∧ (∀ c ∈ run, isTypeStop c = false) ∧
        lead = blank :: (run ++ ['$']) ∧ t = lead ++ (name ++ tail) ∧
        endsWord ('$' :: name) tail = true := by
  constructor
  · intro h
    unfold readPropertyName at h
    split at h
    · cases h
    · rename_i blank rest
      split at h
      · cases h
      · rename_i hblank
        split at h
        · rename_i atName hdollar
          split at h
          · rename_i after hname
            split at h
            · rename_i hend
              cases h
              refine ⟨blank, rest.takeWhile fun c => !isTypeStop c, by simpa using hblank, ?_, rfl, ?_, hend⟩
              · exact fun c hc => by simpa using mem_takeWhile c hc
              · have hrest := List.takeWhile_append_dropWhile (p := fun c => !isTypeStop c) (l := rest)
                rw [hdollar, stripWord_eq_some_iff.mp hname] at hrest
                simpa using hrest.symm
            · cases h
          · cases h
        · cases h
  · rintro ⟨blank, run, hblank, hrun, rfl, rfl, hend⟩
    have hstop : ('$' :: (name ++ tail)).head?.any (fun c => !isTypeStop c) = false := by
      simp [isTypeStop]
    have hall : ∀ c ∈ run, (!isTypeStop c) = true := fun c hc => by simp [hrun c hc]
    have hrest : run ++ ['$'] ++ (name ++ tail) = run ++ '$' :: (name ++ tail) := by simp
    simp only [List.cons_append, readPropertyName, hblank, hrest, dropWhile_append_stop hall hstop,
      takeWhile_append_stop hall hstop, stripWord_append, hend, Bool.not_true, Bool.false_eq_true,
      if_true, if_false]

theorem endsWord_append (lead : Text) {t after : Text} (h : t ≠ []) :
    endsWord (lead ++ t) after = endsWord t after := by
  simp [endsWord, List.getLast?_append, List.getLast?_eq_some_getLast h]

theorem readDeclaration_eq_some {kind : DeclarationKind} {name t lead tail : Text} {left : Option Char}
    (h : readDeclaration kind name left t = some (lead, tail)) :
    isBoundary left t.head? = true ∧ IsLead kind lead ∧
      ∃ after, t = lead ++ (name ++ after) ∧ IsClose kind lead name after := by
  unfold readDeclaration at h
  split at h
  · cases h
  rename_i hboundary
  refine ⟨by simpa using hboundary, ?_⟩
  cases kind with
  | classHeader =>
    simp only [Option.bind_eq_bind, Option.bind_eq_some_iff] at h
    obtain ⟨afterWord, hword, ⟨gap, after⟩, hname, h⟩ := h
    cases h
    obtain ⟨hgap, rfl, hend⟩ := readClassName_eq_some hname
    refine ⟨⟨gap, hgap, rfl⟩, after, by simp [stripWord_eq_some_iff.mp hword], ?_⟩
    rwa [IsClose, List.append_assoc, endsWord_append _ (by simp [hgap.ne_nil])]
  | method =>
    simp only [Option.bind_eq_bind, Option.bind_eq_some_iff] at h
    obtain ⟨afterWord, hword, ⟨lead, after⟩, hname, h⟩ := h
    cases h
    obtain ⟨gap, mark, space, hgap, hmark, hspace, rfl, rfl⟩ := readMethodName_eq_some hname
    refine ⟨⟨gap, mark, hgap, hmark, rfl⟩, space ++ '(' :: after, ?_, space, after, hspace, rfl⟩
    simp [stripWord_eq_some_iff.mp hword]
  | property =>
    simp only [Option.bind_eq_bind, Option.bind_eq_some_iff] at h
    obtain ⟨⟨word, afterWord⟩, hword, ⟨lead, after⟩, hname, h⟩ := h
    cases h
    obtain ⟨hmem, rfl⟩ := stripAnyWord_eq_some hword
    obtain ⟨blank, run, hblank, hrun, rfl, rfl, hend⟩ := readPropertyName_eq_some_iff.mp hname
    refine ⟨⟨_, ⟨word, blank, run, hmem, hblank, hrun, rfl⟩, by simp⟩, after, by simp, ?_⟩
    simpa [IsClose, endsWord, List.getLast?_append, List.getLast?_cons] using hend

theorem readDeclaration_isSome {kind : DeclarationKind} {name lead after : Text} {left : Option Char}
    (hboundary : isBoundary left lead.head? = true) (hlead : IsLead kind lead)
    (hclose : IsClose kind lead name after) :
    (readDeclaration kind name left (lead ++ (name ++ after))).isSome = true := by
  have hhead : (lead ++ (name ++ after)).head? = lead.head? := by
    obtain ⟨c, lead, rfl⟩ := List.exists_cons_of_ne_nil hlead.ne_nil
    rfl
  unfold readDeclaration
  rw [hhead, hboundary]
  cases kind with
  | classHeader =>
    obtain ⟨gap, hgap, rfl⟩ := hlead
    rw [IsClose, List.append_assoc, endsWord_append _ (by simp [hgap.ne_nil])] at hclose
    obtain ⟨r, hr⟩ := Option.isSome_iff_exists.mp (readClassName_isSome hgap hclose)
    simp [hr]
  | method =>
    obtain ⟨gap, mark, hgap, hmark, rfl⟩ := hlead
    obtain ⟨space, rest, hspace, rfl⟩ := hclose
    obtain ⟨r, hr⟩ := Option.isSome_iff_exists.mp
      (@readMethodName_isSome name gap mark space rest hgap hmark hspace)
    simp [hr]
  | property =>
    obtain ⟨_, ⟨word, blank, run, hword, hblank, hrun, rfl⟩, rfl⟩ := hlead
    have hend : endsWord ('$' :: name) after = true := by
      simpa [IsClose, endsWord, List.getLast?_append, List.getLast?_cons] using hclose
    have hr := readPropertyName_eq_some_iff.mpr ⟨blank, run, hblank, hrun, rfl, rfl, hend⟩
    have hstrip : stripAnyWord Visibility.keywords (word ++ blank :: (run ++ '$' :: (name ++ after))) =
        some (word, blank :: (run ++ '$' :: (name ++ after))) :=
      visibility_keywords.stripAnyWord_append hword (not_isIdentChar_of_isBlank hblank)
    simp only [List.append_assoc, List.cons_append, List.nil_append] at hr ⊢
    simp [hstrip, hr]

/-! ## Jumps -/

/-- The jump to a name succeeds, and the range that it gives spells the name. -/
def Jumps (m : Matcher) (t : Text) (kind : DeclarationKind) (name : Text) : Prop :=
  ∃ range, findDeclaration? m t name kind = some range ∧ slice t range = name

theorem findDeclaration?_of_accepts {m : Matcher} {kind : DeclarationKind} {name : Text}
    (h : m.accepts kind name = true) (t : Text) :
    findDeclaration? m t name kind = (findFirst? (readDeclaration kind name) t).map fun (offset, lead) =>
      ⟨offset + width lead, offset + width lead + width name⟩ :=
  if_pos h

theorem findDeclaration?_of_refuses {m : Matcher} {kind : DeclarationKind} {name : Text}
    (h : m.accepts kind name = false) (t : Text) : findDeclaration? m t name kind = none := by
  rw [findDeclaration?, h, if_neg Bool.false_ne_true]

/-- **The jump to a name that can be searched for succeeds exactly when the name is declared somewhere and
closed there.** -/
theorem jumps_iff {m : Matcher} {t name : Text} {kind : DeclarationKind}
    (haccepts : m.accepts kind name = true) :
    Jumps m t kind name ↔
      ∃ before lead after, DeclaredAt t kind name before lead after ∧ IsClose kind lead name after := by
  unfold Jumps
  rw [findDeclaration?_of_accepts haccepts]
  constructor
  · rintro ⟨range, hfind, -⟩
    obtain ⟨⟨offset, lead⟩, hfirst, -⟩ := Option.map_eq_some_iff.mp hfind
    obtain ⟨before, rest, tail, rfl, -, hread⟩ := findFirst?_eq_some hfirst
    obtain ⟨hboundary, hlead, after, rfl, hclose⟩ := readDeclaration_eq_some hread
    refine ⟨before, lead, after, ⟨rfl, ?_, hlead⟩, hclose⟩
    obtain ⟨c, lead, rfl⟩ := List.exists_cons_of_ne_nil hlead.ne_nil
    exact hboundary
  · rintro ⟨before, lead, after, ⟨rfl, hboundary, hlead⟩, hclose⟩
    have hne : lead ++ (name ++ after) ≠ [] := by simp [hlead.ne_nil]
    obtain ⟨⟨offset, lead'⟩, hfirst⟩ := Option.isSome_iff_exists.mp
      (findFirst?_isSome hne (readDeclaration_isSome hboundary hlead hclose))
    -- the first match may stand elsewhere, but the range spells the name wherever it is
    obtain ⟨before', rest, tail, htext, rfl, hread⟩ := findFirst?_eq_some hfirst
    obtain ⟨-, -, after', rfl, -⟩ := readDeclaration_eq_some hread
    refine ⟨⟨width before' + width lead', width before' + width lead' + width name⟩, ?_, ?_⟩
    · rw [hfirst, Option.map_some]
    · rw [htext, ← List.append_assoc before', ← width_append, slice_append]

/-! ## What was extracted is declared -/

theorem endsWord_of_isIdent {lead name after : Text} (h : isIdent name = true) :
    endsWord (lead ++ name) after = true ↔ isWordSide after.head? = false := by
  have hlast : ∃ c ∈ name, name.getLast? = some c :=
    ⟨name.getLast (isIdent_ne_nil h), List.getLast_mem _, List.getLast?_eq_some_getLast _⟩
  obtain ⟨c, hc, hlast⟩ := hlast
  have hword := isWordChar_of_isIdentChar (isIdent_chars h c hc)
  simp [endsWord, isBoundary, List.getLast?_append, hlast, isWordSide, hword]

/-- The class of a header is declared where the header stands. -/
theorem readHeader_declared {before rest tail : Text} {candidate : HeaderCandidate}
    (h : readHeader before.getLast? rest = some (candidate, tail)) :
    ∃ lead after, DeclaredAt (before ++ rest) .classHeader candidate.header.name before lead after ∧
      after.head?.any isIdentChar = false := by
  obtain ⟨hboundary, -, -, gap, after, hgap, rfl, hafter⟩ := readHeader_eq_some h
  exact ⟨classWord ++ gap, after, ⟨by simp, hboundary, gap, hgap, rfl⟩, hafter⟩

/-- A property is declared where it is read. -/
theorem readProperty_declared {className before rest tail : Text} {p : Property}
    (h : readProperty className before.getLast? rest = some (p, tail)) :
    ∃ lead after, DeclaredAt (before ++ rest) .property p.name before lead after ∧
      after.head?.any isIdentChar = false := by
  obtain ⟨hboundary, -, start, after, hopens, rfl, hafter⟩ := readProperty_eq_some h
  refine ⟨start ++ ['$'], after, ⟨by simp, ?_, start, hopens, rfl⟩, hafter⟩
  simpa [List.head?_append] using hboundary

/-- A method is declared behind the modifiers that are read with it, and its parameters follow. -/
theorem readMethod_declared {className before rest tail : Text} {m : Method}
    (h : readMethod className before.getLast? rest = some (m, tail)) :
    ∃ before' lead after, DeclaredAt (before ++ rest) .method m.name before' lead after ∧
      IsClose .method lead m.name after := by
  obtain ⟨-, lead, _, after, -, hboundary, ⟨gap, mark, space, hgap, hmark, hspace, rfl⟩, rfl⟩ :=
    readMethod_eq_some h
  refine ⟨before ++ lead, functionWord ++ (gap ++ mark), space ++ '(' :: after,
    ⟨by simp, ?_, gap, mark, hgap, hmark, rfl⟩, space, after, hspace, rfl⟩
  rw [List.getLast?_append]
  exact hboundary

/-- Whether the jump to an extracted name succeeds: it does unless the name is declared where a letter,
digit or mark beyond ASCII continues it, and exactly when at one of its declarations nothing continues
it. -/
structure JumpsUnlessContinued (m : Matcher) (t : Text) (kind : DeclarationKind) (name : Text) : Prop where
  jumps_or_continued : Jumps m t kind name ∨ ∃ before lead c after,
    DeclaredAt t kind name before lead (c :: after) ∧ isWordChar c = true ∧ 128 ≤ c.toNat
  jumps_iff : Jumps m t kind name ↔ ∃ before lead after,
    DeclaredAt t kind name before lead after ∧ isWordSide after.head? = false

theorem DeclaredAt.jumpsUnlessContinued {m : Matcher} {t name before lead after : Text}
    {kind : DeclarationKind} (h : DeclaredAt t kind name before lead after) (hkind : kind ≠ .method)
    (haccepts : m.accepts kind name = true) (hname : isIdent name = true)
    (hafter : after.head?.any isIdentChar = false) : JumpsUnlessContinued m t kind name := by
  have hclose : ∀ lead after, IsClose kind lead name after ↔ isWordSide after.head? = false := by
    intro lead after
    cases kind with
    | method => exact absurd rfl hkind
    | classHeader | property => exact endsWord_of_isIdent hname
  have hiff : Jumps m t kind name ↔ ∃ before lead after,
      DeclaredAt t kind name before lead after ∧ isWordSide after.head? = false := by
    simp only [Source.jumps_iff haccepts, hclose]
  refine ⟨?_, hiff⟩
  cases hside : isWordSide after.head? with
  | false => exact Or.inl (hiff.mpr ⟨before, lead, after, h, hside⟩)
  | true =>
    refine Or.inr ⟨before, lead, ?_⟩
    cases after with
    | nil => cases hside
    | cons c after =>
      have hword : isWordChar c = true := by simpa [isWordSide] using hside
      have hident : isIdentChar c = false := by simpa using hafter
      refine ⟨c, after, h, hword, ?_⟩
      -- an ASCII character that belongs to words belongs to identifiers
      by_cases hc : c.toNat < 128
      · rw [isWordChar_of_lt hc, hident] at hword
        cases hword
      · omega

/-- The names of extracted signatures can be searched for. -/
structure Matcher.AcceptsSignatures (m : Matcher) (s : Signatures) : Prop where
  className : m.accepts .classHeader s.className = true
  methods : ∀ x ∈ s.methods, m.accepts .method x.name = true
  properties : ∀ p ∈ s.properties, m.accepts .property p.name = true

instance (m : Matcher) (s : Signatures) : Decidable (m.AcceptsSignatures s) :=
  decidable_of_iff (m.accepts .classHeader s.className = true ∧
      (∀ x ∈ s.methods, m.accepts .method x.name = true) ∧
      ∀ p ∈ s.properties, m.accepts .property p.name = true)
    ⟨fun h => ⟨h.1, h.2.1, h.2.2⟩, fun h => ⟨h.1, h.2, h.3⟩⟩

/-- What jumps to the names of extracted signatures find. -/
structure JumpsToSignatures (m : Matcher) (t : Text) (s : Signatures) : Prop where
  className : JumpsUnlessContinued m t .classHeader s.className
  methods : ∀ x ∈ s.methods, Jumps m t .method x.name
  properties : ∀ p ∈ s.properties, JumpsUnlessContinued m t .property p.name

/-- **What is extracted can be jumped to, unless a word character beyond ASCII continues its name.**  A
method is always found, since its parameters bound its name.  A class or a property is found exactly when
nothing continues the name at one of its declarations, and the range found spells the name. -/
theorem signatures?_jumps {m : Matcher} {t : Text} {s : Signatures} (h : signatures? t = some s)
    (haccepts : m.AcceptsSignatures s) : JumpsToSignatures m t s := by
  obtain ⟨header, hheader, rfl⟩ := Option.map_eq_some_iff.mp h
  obtain ⟨candidate, hfind, rfl⟩ := Option.map_eq_some_iff.mp hheader
  refine ⟨?_, fun x hx => ?_, fun p hp => ?_⟩
  · obtain ⟨before, rest, tail, rfl, -, hread⟩ := mem_findAll (List.mem_of_find?_eq_some hfind)
    obtain ⟨lead, after, hdeclared, hafter⟩ := readHeader_declared hread
    obtain ⟨-, -, hname, -⟩ := readHeader_eq_some hread
    exact hdeclared.jumpsUnlessContinued (by decide) haccepts.className hname hafter
  · have haccepted := haccepts.methods x hx
    obtain ⟨before, rest, tail, rfl, -, hread⟩ := mem_findAll hx
    obtain ⟨before', lead, after, hdeclared, hclose⟩ := readMethod_declared hread
    exact (jumps_iff haccepted).mpr ⟨before', lead, after, hdeclared, hclose⟩
  · have haccepted := haccepts.properties p hp
    obtain ⟨before, rest, tail, rfl, -, hread⟩ := mem_findAll hp
    obtain ⟨lead, after, hdeclared, hafter⟩ := readProperty_declared hread
    obtain ⟨-, hname, -⟩ := readProperty_eq_some hread
    exact hdeclared.jumpsUnlessContinued (by decide) haccepted hname hafter

/-- Two classes, where the name of the first continues beyond ASCII and the second has its initial part
as its name. -/
def continuedTwice : Text :=
  "class Fooé { public $café; } class Foo { public $caf; static function &f (): int {} }".toList

/-- A name that is extracted in part can still be declared in whole elsewhere. -/
theorem signatures?_jumps_continuedTwice : ∃ s, signatures? continuedTwice = some s ∧
    s.className = "Foo".toList ∧ Matcher.usual.AcceptsSignatures s ∧
    JumpsToSignatures .usual continuedTwice s ∧
    findDeclaration? .usual continuedTwice s.className .classHeader = some ⟨37, 40⟩ := by
  obtain ⟨s, hs⟩ : ∃ s, signatures? continuedTwice = some s :=
    Option.isSome_iff_exists.mp (by decide +kernel)
  have hname : s.className = "Foo".toList := by
    have : (signatures? continuedTwice).map (·.className) = some "Foo".toList := by decide +kernel
    simpa [hs] using this
  have haccepts : Matcher.usual.AcceptsSignatures s := by
    have : ∀ s ∈ signatures? continuedTwice, Matcher.usual.AcceptsSignatures s := by decide +kernel
    exact this s hs
  refine ⟨s, hs, hname, haccepts, signatures?_jumps hs haccepts, ?_⟩
  rw [hname]
  decide +kernel

/-- A class and a property whose names continue beyond ASCII. -/
def continuedNames : Text :=
  "class Fooé { public $café; }".toList

/-- **A name that continues beyond ASCII is extracted in part, and the jump to that part fails.** -/
theorem signatures?_continuedNames :
    (signatures? continuedNames).map (fun s => (s.className, s.properties.map (·.name))) =
        some ("Foo".toList, ["caf".toList]) ∧
      findDeclaration? .usual continuedNames "Foo".toList .classHeader = none ∧
      findDeclaration? .usual continuedNames "caf".toList .property = none := by
  decide +kernel

end Source

end TemplateAssist
