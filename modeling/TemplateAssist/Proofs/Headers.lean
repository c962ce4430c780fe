import TemplateAssist.Proofs.Scanning
import TemplateAssist.Source.ClassHeader

/-!
# The form of a class header

* `IsQualified`, `IsClause` — a class name with optional qualification, and the `extends` clause that names
  one.
* `HeaderText` — a class header as it is written: the word `class`, blanks, a name, and a clause if the text
  goes on with one.
* `readQualified_eq_some_iff`, `readParent_eq_some_iff`, `readHeader_eq_some_iff` — what is read is what is
  written, as much of it as there is.
-/

namespace TemplateAssist.Source

open Text

theorem not_isBlank_of_isQualifiedChar {c : Char} (h : isQualifiedChar c = true) : isBlank c = false := by
  rcases Bool.or_eq_true_iff.mp h with h | h
  · exact not_isBlank_of_isIdentChar h
  · rw [of_decide_eq_true h]
    decide

theorem not_isQualifiedChar_of_isBlank {c : Char} (h : isBlank c = true) : isQualifiedChar c = false := by
  cases hc : isQualifiedChar c with
  | false => rfl
  | true => rw [← h, not_isBlank_of_isQualifiedChar hc]

theorem isQualifiedChar_of_isIdentChar {c : Char} (h : isIdentChar c = true) : isQualifiedChar c = true :=
  Bool.or_eq_true_iff.mpr (Or.inl h)

/-! ## Parents -/

/-- A class name with optional qualification. -/
def IsQualified (name : Text) : Prop :=
  ∃ root first others, (root = [] ∨ root = ['\\']) ∧ isIdentStart first = true ∧
    (∀ c ∈ others, isQualifiedChar c = true) ∧ name = root ++ first :: others

theorem IsQualified.chars {name : Text} (h : IsQualified name) : ∀ c ∈ name, isQualifiedChar c = true := by
  obtain ⟨root, first, others, hroot, hfirst, hothers, rfl⟩ := h
  intro c hc
  rcases List.mem_append.mp hc with hc | hc
  · rcases hroot with rfl | rfl
    · cases hc
    · rw [List.mem_singleton.mp hc]
      decide
  · rcases List.mem_cons.mp hc with rfl | hc
    · exact isQualifiedChar_of_isIdentChar (isIdentChar_of_isIdentStart hfirst)
    · exact hothers c hc

theorem IsQualified.ne_nil {name : Text} (h : IsQualified name) : name ≠ [] := by
  obtain ⟨root, first, others, -, -, -, rfl⟩ := h
  simp

theorem IsQualified.append {name more : Text} (h : IsQualified name)
    (hmore : ∀ c ∈ more, isQualifiedChar c = true) : IsQualified (name ++ more) := by
  obtain ⟨root, first, others, hroot, hfirst, hothers, rfl⟩ := h
  refine ⟨root, first, others ++ more, hroot, hfirst, fun c hc => ?_, by simp⟩
  exact (List.mem_append.mp hc).elim (hothers c) (hmore c)

theorem readQualified_eq_some_iff {t name rest : Text} :
    readQualified t = some (name, rest) ↔
      IsQualified name ∧ t = name ++ rest ∧ rest.head?.any isQualifiedChar = false := by
  constructor
  · intro h
    unfold readQualified at h
    split at h
    rename_i root body hsplit
    have hroot : (root = [] ∨ root = ['\\']) ∧ t = root ++ body := by
      split at hsplit
      · obtain ⟨rfl, rfl⟩ := Prod.mk.inj hsplit
        exact ⟨Or.inr rfl, rfl⟩
      · obtain ⟨rfl, rfl⟩ := Prod.mk.inj hsplit
        exact ⟨Or.inl rfl, rfl⟩
    split at h
    · split at h
      · rename_i c more hc
        obtain ⟨rfl, rfl⟩ := Prod.mk.inj (Option.some.inj h)
        refine ⟨⟨root, c, _, hroot.1, hc, mem_takeWhile, rfl⟩, ?_, any_head?_dropWhile _ _⟩
        rw [hroot.2, List.append_assoc, List.cons_append, List.takeWhile_append_dropWhile]
      · cases h
    · cases h
  · rintro ⟨⟨root, first, others, hroot, hfirst, hothers, rfl⟩, rfl, hrest⟩
    have htake := takeWhile_append_stop hothers hrest
    have hdrop := dropWhile_append_stop hothers hrest
    rcases hroot with rfl | rfl
    · have hslash : first ≠ '\\' := by
        rintro rfl
        cases hfirst
      simp [readQualified, hfirst, htake, hdrop, hslash]
    · simp [readQualified, hfirst, htake, hdrop]

/-- A clause that names a parent. -/
def IsClause (clause parent : Text) : Prop :=
  ∃ gap gap', IsGap gap ∧ IsGap gap' ∧ IsQualified parent ∧ clause = gap ++ (extendsWord ++ (gap' ++ parent))

theorem IsClause.append {clause parent more : Text} (h : IsClause clause parent)
    (hmore : ∀ c ∈ more, isQualifiedChar c = true) : IsClause (clause ++ more) (parent ++ more) := by
  obtain ⟨gap, gap', hgap, hgap', hparent, rfl⟩ := h
  exact ⟨gap, gap', hgap, hgap', hparent.append hmore, by simp⟩

/-- A clause starts behind the name of a class. -/
theorem IsClause.not_isIdentChar {clause parent : Text} (h : IsClause clause parent) (rest : Text) :
    (clause ++ rest).head?.any isIdentChar = false := by
  obtain ⟨gap, gap', hgap, -, -, rfl⟩ := h
  rw [List.append_assoc]
  exact hgap.any_head? (fun _ => not_isIdentChar_of_isBlank) _

theorem readParent_eq_some_iff {t parent rest : Text} :
    readParent t = some (parent, rest) ↔
      ∃ clause, IsClause clause parent ∧ t = clause ++ rest ∧ rest.head?.any isQualifiedChar = false := by
  constructor
  · intro h
    simp only [readParent, Option.bind_eq_bind, Option.bind_eq_some_iff] at h
    obtain ⟨afterName, hskip, afterWord, hword, atParent, hskip', hparent⟩ := h
    obtain ⟨gap, hgap, rfl, -⟩ := skipBlanks1_eq_some_iff.mp hskip
    obtain rfl := stripWord_eq_some_iff.mp hword
    obtain ⟨gap', hgap', rfl, -⟩ := skipBlanks1_eq_some_iff.mp hskip'
    obtain ⟨hqualified, rfl, hrest⟩ := readQualified_eq_some_iff.mp hparent
    exact ⟨_, ⟨gap, gap', hgap, hgap', hqualified, rfl⟩, by simp, hrest⟩
  · rintro ⟨_, ⟨gap, gap', hgap, hgap', hqualified, rfl⟩, rfl, hrest⟩
    have hsolid : ∀ c ∈ parent, isBlank c = false :=
      fun c hc => not_isBlank_of_isQualifiedChar (hqualified.chars c hc)
    have hword : skipBlanks1 (gap ++ (extendsWord ++ (gap' ++ (parent ++ rest)))) = some _ :=
      skipBlanks1_eq_some_iff.mpr ⟨gap, hgap, rfl, any_head?_cons (by decide) _⟩
    have hparent : skipBlanks1 (gap' ++ (parent ++ rest)) = some (parent ++ rest) :=
      skipBlanks1_eq_some_iff.mpr ⟨gap', hgap', rfl, any_head?_append_of_solid hsolid hqualified.ne_nil⟩
    have hread := readQualified_eq_some_iff.mpr ⟨hqualified, (rfl : parent ++ rest = _), hrest⟩
    simp [readParent, hword, hparent, hread]

/-- No parent is read exactly where no clause starts. -/
theorem readParent_eq_none_iff {t : Text} :
    readParent t = none ↔ ∀ clause parent rest, IsClause clause parent → t ≠ clause ++ rest := by
  constructor
  · rintro hnone clause parent rest hclause rfl
    -- the name goes on as long as it can
    have hread : readParent (clause ++ rest) =
        some (parent ++ rest.takeWhile isQualifiedChar, rest.dropWhile isQualifiedChar) :=
      readParent_eq_some_iff.mpr ⟨_, hclause.append mem_takeWhile,
        by rw [List.append_assoc, List.takeWhile_append_dropWhile], any_head?_dropWhile _ _⟩
    rw [hnone] at hread
    cases hread
  · intro h
    refine Option.eq_none_iff_forall_ne_some.mpr ?_
    rintro ⟨parent, rest⟩ hread
    obtain ⟨clause, hclause, ht, -⟩ := readParent_eq_some_iff.mp hread
    exact h clause parent rest hclause ht

/-! ## Headers -/

/-- A class header as it is written, where `rest` follows it. -/
inductive HeaderText : Text → Text → ClassHeader → Prop where
  /-- A header without a parent. -/
  | alone {gap name rest : Text} (hgap : IsGap gap) (hname : isIdent name = true)
      (hend : rest.head?.any isIdentChar = false)
      (hnone : ∀ clause parent after, IsClause clause parent → rest ≠ clause ++ after) :
      HeaderText (classWord ++ (gap ++ name)) rest ⟨name, none⟩
  /-- A header that names a parent. -/
  | extending {gap name clause parent rest : Text} (hgap : IsGap gap) (hname : isIdent name = true)
      (hclause : IsClause clause parent) (hend : rest.head?.any isQualifiedChar = false) :
      HeaderText (classWord ++ (gap ++ (name ++ clause))) rest ⟨name, some parent⟩

/-- The parts of a header, with and without a parent. -/
theorem HeaderText.exists_eq {part rest : Text} {header : ClassHeader} (h : HeaderText part rest header) :
    ∃ gap clause, IsGap gap ∧ isIdent header.name = true ∧
      part = classWord ++ (gap ++ (header.name ++ clause)) ∧
      (clause ++ rest).head?.any isIdentChar = false ∧
      (clause = [] ∨ ∃ parent, IsClause clause parent ∧ rest.head?.any isQualifiedChar = false) := by
  cases h with
  | @alone gap name _ hgap hname hend hnone =>
    exact ⟨gap, [], hgap, hname, by simp, hend, Or.inl rfl⟩
  | @extending gap name clause parent _ hgap hname hclause hend =>
    exact ⟨gap, clause, hgap, hname, rfl, hclause.not_isIdentChar rest, Or.inr ⟨parent, hclause, hend⟩⟩

theorem HeaderText.parent_chars {part rest parent : Text} {header : ClassHeader}
    (h : HeaderText part rest header) (hparent : header.parent = some parent) :
    ∀ c ∈ parent, isQualifiedChar c = true := by
  cases h with
  | alone => cases hparent
  | extending hgap hname hclause hend =>
    obtain rfl := Option.some.inj hparent
    obtain ⟨gap, gap', -, -, hqualified, -⟩ := hclause
    exact hqualified.chars

/-- **A header is read exactly where it is written.** -/
theorem readHeader_eq_some_iff {left : Option Char} {t tail : Text} {candidate : HeaderCandidate} :
    readHeader left t = some (candidate, tail) ↔
      candidate.left = left ∧ isBoundary left t.head? = true ∧
        ∃ part, t = part ++ tail ∧ HeaderText part tail candidate.header := by
  constructor
  · intro h
    unfold readHeader at h
    split at h
    · cases h
    rename_i hboundary
    simp only [Option.bind_eq_bind, Option.bind_eq_some_iff] at h
    obtain ⟨afterWord, hword, atName, hskip, ⟨name, rest⟩, hname, h⟩ := h
    obtain rfl := stripWord_eq_some_iff.mp hword
    obtain ⟨gap, hgap, rfl, -⟩ := skipBlanks1_eq_some_iff.mp hskip
    obtain ⟨hident, rfl, hrest⟩ := readIdent_eq_some_iff.mp hname
    cases hparent : readParent rest with
    | none =>
      simp only [hparent] at h
      obtain ⟨rfl, rfl⟩ := Prod.mk.inj (Option.some.inj h)
      exact ⟨rfl, by simpa using hboundary, _, by simp,
        .alone hgap hident hrest (readParent_eq_none_iff.mp hparent)⟩
    | some r =>
      obtain ⟨parent, after⟩ := r
      simp only [hparent] at h
      obtain ⟨rfl, rfl⟩ := Prod.mk.inj (Option.some.inj h)
      obtain ⟨clause, hclause, rfl, hend⟩ := readParent_eq_some_iff.mp hparent
      exact ⟨rfl, by simpa using hboundary, _, by simp, .extending hgap hident hclause hend⟩
  · obtain ⟨left', header⟩ := candidate
    rintro ⟨rfl, hboundary, part, rfl, hpart⟩
    have hsolid : ∀ {name : Text}, isIdent name = true → ∀ c ∈ name, isBlank c = false :=
      fun hname c hc => not_isBlank_of_isIdentChar (isIdent_chars hname c hc)
    cases hpart with
    | @alone gap name _ hgap hname hend hnone =>
      have hskip : skipBlanks1 (gap ++ (name ++ tail)) = some (name ++ tail) :=
        skipBlanks1_eq_some_iff.mpr
          ⟨gap, hgap, rfl, any_head?_append_of_solid (hsolid hname) (isIdent_ne_nil hname)⟩
      have hread := readIdent_eq_some_iff.mpr ⟨hname, (rfl : name ++ tail = _), hend⟩
      rw [readHeader, hboundary]
      simp [hskip, hread, readParent_eq_none_iff.mpr hnone]
    | @extending gap name clause parent _ hgap hname hclause hend =>
      have hskip : skipBlanks1 (gap ++ (name ++ (clause ++ tail))) = some (name ++ (clause ++ tail)) :=
        skipBlanks1_eq_some_iff.mpr
          ⟨gap, hgap, rfl, any_head?_append_of_solid (hsolid hname) (isIdent_ne_nil hname)⟩
      have hread := readIdent_eq_some_iff.mpr
        ⟨hname, (rfl : name ++ (clause ++ tail) = _), hclause.not_isIdentChar tail⟩
      have hparent := readParent_eq_some_iff.mpr ⟨clause, hclause, rfl, hend⟩
      rw [readHeader, hboundary]
      simp [hskip, hread, hparent]

end TemplateAssist.Source
