import Mathlib.Order.Bounds.Basic
import TemplateAssist.Proofs.Declarations
import TemplateAssist.Proofs.Positions

/-!
# The first declaration of a name

* `DeclaresAt` — the offset of a name where a declaration of its kind is recognised.
* `IsLead.not_isNameChar` — inside what stands before a declared name, no name follows the start of another
  declaration.
* `findDeclaration?_le` — so the match that starts first has its name first.

Principal result: `findDeclaration?_first`.  A jump gives the range of the first declared occurrence of a
name that can be searched for, and as a span that range is one stretch of a line.
-/

namespace TemplateAssist

namespace Source

open Text

/-! ## Places of a name -/

/-- A name stands at an offset of a text where a declaration of the given kind is recognised. -/
def DeclaresAt (t : Text) (kind : DeclarationKind) (name : Text) (offset : Nat) : Prop :=
  ∃ before lead after, DeclaredAt t kind name before lead after ∧ IsClose kind lead name after ∧
    offset = width (before ++ lead)

theorem DeclaredAt.text_eq {t name before lead after : Text} {kind : DeclarationKind}
    (h : DeclaredAt t kind name before lead after) : t = (before ++ lead) ++ (name ++ after) := by
  rw [h.text, List.append_assoc]

theorem not_isNameChar_of_isBlank {c : Char} (h : isBlank c = true) : isNameChar c = false :=
  eq_false_of_any (by decide +kernel) c (mem_charsOf h)

/-- A character that stands past a word is part of what follows the word. -/
theorem mem_of_length_le {word rest u y : Text} {c : Char} (h : word ++ rest = u ++ c :: y)
    (hlength : word.length ≤ u.length) : c ∈ rest := by
  rcases List.append_eq_append_iff.mp h with ⟨more, -, rfl⟩ | ⟨more, rfl, hmore⟩
  · simp
  · have hnil : more = [] := by
      rw [List.length_append] at hlength
      exact List.length_eq_zero_iff.mp (by omega)
    rw [hnil, List.nil_append] at hmore
    simp [← hmore]

/-- No name follows another lead inside a lead: behind its keyword stand blanks, a marker, or a run that ends
with its only `$`. -/
theorem IsLead.not_isNameChar {kind : DeclarationKind} {lead inner x y : Text} {c : Char}
    (hlead : IsLead kind lead) (hinner : IsLead kind inner) (h : lead = x ++ (inner ++ c :: y)) :
    isNameChar c = false := by
  cases kind with
  | classHeader =>
    obtain ⟨gap, hgap, rfl⟩ := hlead
    obtain ⟨gap', -, rfl⟩ := hinner
    have hmem : c ∈ gap := by
      refine mem_of_length_le (u := x ++ (classWord ++ gap')) (by simpa using h) ?_
      simp only [List.length_append]
      omega
    exact not_isNameChar_of_isBlank (hgap.blank c hmem)
  | method =>
    obtain ⟨gap, mark, hgap, hmark, rfl⟩ := hlead
    obtain ⟨gap', mark', -, -, rfl⟩ := hinner
    have hmem : c ∈ gap ++ mark := by
      refine mem_of_length_le (u := x ++ (functionWord ++ (gap' ++ mark'))) (by simpa using h) ?_
      simp only [List.length_append]
      omega
    rcases List.mem_append.mp hmem with hmem | hmem
    · exact not_isNameChar_of_isBlank (hgap.blank c hmem)
    · rcases hmark with rfl | rfl
      · cases hmem
      · rw [List.mem_singleton.mp hmem]
        decide +kernel
  | property =>
    obtain ⟨start, hstart, rfl⟩ := hlead
    obtain ⟨start', -, rfl⟩ := hinner
    -- the `$` of the inner one would stand in the run of the outer one
    have hsplit : start ++ ['$'] = (x ++ (start' ++ ['$'])) ++ c :: y := by simpa using h
    have hstart' : start = (x ++ (start' ++ ['$'])) ++ (c :: y).dropLast := by
      rw [← List.dropLast_append_cons, ← hsplit, List.dropLast_concat]
    cases hstart.not_isTypeStop '$' (by simp [hstart'])

/-! ## Jumps -/

theorem findDeclaration?_eq_some {m : Matcher} {t name : Text} {kind : DeclarationKind} {r : ByteRange}
    (h : findDeclaration? m t name kind = some r) :
    ∃ before lead after, DeclaredAt t kind name before lead after ∧ IsClose kind lead name after ∧
      findFirst? (readDeclaration kind name) t = some (width before, lead) ∧
      r = ⟨width (before ++ lead), width (before ++ lead) + width name⟩ := by
  have haccepts : m.accepts kind name = true := by
    by_contra hrefused
    rw [findDeclaration?_of_refuses (Bool.eq_false_iff.mpr hrefused)] at h
    cases h
  rw [findDeclaration?_of_accepts haccepts] at h
  obtain ⟨⟨offset, lead⟩, hfirst, hr⟩ := Option.map_eq_some_iff.mp h
  obtain ⟨before, rest, tail, htext, rfl, hread⟩ := findFirst?_eq_some hfirst
  obtain ⟨hboundary, hlead, after, rfl, hclose⟩ := readDeclaration_eq_some hread
  refine ⟨before, lead, after, ⟨htext, ?_, hlead⟩, hclose, hfirst, by rw [← hr, width_append]⟩
  obtain ⟨c, lead, rfl⟩ := List.exists_cons_of_ne_nil hlead.ne_nil
  exact hboundary

/-- **No declared occurrence of the name stands before the one that a jump gives.**  The scan stops at the
first match, and a match that starts later would have its name earlier only inside the lead of the first. -/
theorem findDeclaration?_le {m : Matcher} {t name : Text} {kind : DeclarationKind} {r : ByteRange}
    {offset : Nat} (hne : name ≠ []) (hname : ∀ c ∈ name, isNameChar c = true)
    (h : findDeclaration? m t name kind = some r) (hd : DeclaresAt t kind name offset) : r.start ≤ offset := by
  obtain ⟨before, lead, after, hfirst, -, hscan, rfl⟩ := findDeclaration?_eq_some h
  obtain ⟨before', lead', after', hother, hclose', rfl⟩ := hd
  show width (before ++ lead) ≤ width (before' ++ lead')
  by_contra hlt
  have hstart : width before ≤ width before' := by
    rw [hother.text] at hscan
    exact findFirst?_le (by simp [hother.lead.ne_nil])
      (readDeclaration_isSome hother.boundary hother.lead hclose') hscan
  obtain ⟨x, rfl, -⟩ := exists_append_of_width_le hfirst.text hother.text hstart
  obtain ⟨y, hy, hrest⟩ :=
    exists_append_of_width_le hother.text_eq hfirst.text_eq (Nat.le_of_not_le hlt)
  cases y with
  | nil => exact hlt (by rw [hy, List.append_nil])
  | cons c y =>
    have hlead : lead = x ++ (lead' ++ c :: y) := by simpa using hy
    have hc : c ∈ name := by
      obtain ⟨d, name, rfl⟩ := List.exists_cons_of_ne_nil hne
      simp [(List.cons.inj hrest).1]
    have := hfirst.lead.not_isNameChar hother.lead hlead
    rw [hname c hc] at this
    cases this

/-- **A jump finds the first declaration of a name that can be searched for.**  There is a range exactly when
the name is declared somewhere.  The range spells the name, starts at the least offset at which the name is
declared, and as a span of positions it is one stretch of a line, with one column for each character of the
name and with ends that lead back to the range.  In a text of less than four gibibytes the numbers of the
span fit in 32 bits. -/
theorem findDeclaration?_first {m : Matcher} {t name : Text} {kind : DeclarationKind} (hne : name ≠ [])
    (hname : ∀ c ∈ name, isNameChar c = true) (haccepts : m.accepts kind name = true)
    (hsize : width t < UInt32.size) :
    ((∃ r, findDeclaration? m t name kind = some r) ↔ ∃ offset, DeclaresAt t kind name offset) ∧
      ∀ r, findDeclaration? m t name kind = some r →
        slice t r = name ∧ r.stop = r.start + width name ∧
          IsLeast {offset | DeclaresAt t kind name offset} r.start ∧
          ((spanOf t r).start.line = (spanOf t r).stop.line ∧
            (spanOf t r).stop.character = (spanOf t r).start.character + name.length ∧
            offsetOf t (spanOf t r).start = r.start ∧ offsetOf t (spanOf t r).stop = r.stop) ∧
          (spanOf t r).stop.line < UInt32.size ∧ (spanOf t r).stop.character < UInt32.size := by
  refine ⟨⟨?_, ?_⟩, fun r h => ?_⟩
  · rintro ⟨r, h⟩
    obtain ⟨before, lead, after, hdeclared, hclose, -, -⟩ := findDeclaration?_eq_some h
    exact ⟨_, before, lead, after, hdeclared, hclose, rfl⟩
  · rintro ⟨offset, before, lead, after, hdeclared, hclose, -⟩
    obtain ⟨r, h, -⟩ := (jumps_iff haccepts).mpr ⟨before, lead, after, hdeclared, hclose⟩
    exact ⟨r, h⟩
  · have hfits : (spanOf t r).stop.line + (spanOf t r).stop.character ≤ width t := positionOf_fits t r.stop
    obtain ⟨before, lead, after, hdeclared, hclose, -, rfl⟩ := findDeclaration?_eq_some h
    have hleast : IsLeast {offset | DeclaresAt t kind name offset} (width (before ++ lead)) :=
      ⟨⟨before, lead, after, hdeclared, hclose, rfl⟩, fun offset hd => findDeclaration?_le hne hname h hd⟩
    have hblank : ∀ c, isBlank c = true → c ∉ name := by
      intro c hc hmem
      have := not_isNameChar_of_isBlank hc
      rw [hname c hmem] at this
      cases this
    have hspan := spanOf_append (u := before ++ lead) (v := after) hne (hblank '\n' (by decide))
      (hblank '\r' (by decide))
    rw [← hdeclared.text_eq] at hspan
    refine ⟨?_, rfl, hleast, hspan, by omega, by omega⟩
    rw [hdeclared.text_eq, slice_append]

/-- Two properties of which the first has its type on the line before.  Their names go on behind `x²`, and a
word boundary stands there, since the superscript belongs to names but not to words. -/
def crossedLines : Text :=
  "public function f() {}\r\n  protected ?é\r\n  $x²y; private $x²z;".toList

theorem findDeclaration?_first_crossedLines :
    let name := "x²".toList
    name ≠ [] ∧ (∀ c ∈ name, isNameChar c = true) ∧ Matcher.usual.accepts .property name = true ∧
      width crossedLines < UInt32.size ∧
      findDeclaration? .usual crossedLines name .property = some ⟨44, 47⟩ ∧
      IsLeast {offset | DeclaresAt crossedLines .property name offset} 44 ∧
      spanOf crossedLines ⟨44, 47⟩ = ⟨⟨2, 3⟩, ⟨2, 5⟩⟩ ∧
      offsetOf crossedLines ⟨2, 3⟩ = 44 ∧ offsetOf crossedLines ⟨2, 5⟩ = 47 := by
  intro name
  have hname : ∀ c ∈ name, isNameChar c = true := List.all_eq_true.mp (by decide +kernel)
  have hfind : findDeclaration? .usual crossedLines name .property = some ⟨44, 47⟩ := by decide +kernel
  have hspan : spanOf crossedLines ⟨44, 47⟩ = ⟨⟨2, 3⟩, ⟨2, 5⟩⟩ := by decide +kernel
  obtain ⟨-, -, hleast, ⟨-, -, hstart, hstop⟩, -⟩ :=
    (findDeclaration?_first (by decide) hname (by decide +kernel) (by decide +kernel)).2 _ hfind
  rw [hspan] at hstart hstop
  exact ⟨by decide, hname, by decide +kernel, by decide +kernel, hfind, hleast, hspan, hstart, hstop⟩

/-! ## Names that are too long -/

/-- A class without a body, and nothing before it. -/
theorem declaresAt_bareClass {name : Text} (hlast : name.getLast?.any isWordChar = true) :
    DeclaresAt (classWord ++ ' ' :: name) .classHeader name 6 := by
  refine ⟨[], classWord ++ [' '], [], ⟨by simp, rfl, [' '], isGap_space, rfl⟩, ?_, rfl⟩
  cases hn : name.getLast? with
  | none =>
    rw [hn] at hlast
    cases hlast
  | some c =>
    rw [hn] at hlast
    show endsWord ((classWord ++ [' ']) ++ name) [] = true
    rw [endsWord, List.getLast?_append, hn]
    simpa [isBoundary, isWordSide] using hlast

/-- **A class whose name is too long is not found**, although it is declared. -/
theorem findDeclaration?_tooLong :
    let name := List.replicate 500000 'a'
    name ≠ [] ∧ (∀ c ∈ name, isNameChar c = true) ∧
      DeclaresAt (classWord ++ ' ' :: name) .classHeader name 6 ∧
      findDeclaration? .usual (classWord ++ ' ' :: name) name .classHeader = none := by
  have hlong : ∀ n, 327680 < n →
      let name := List.replicate n 'a'
      name ≠ [] ∧ (∀ c ∈ name, isNameChar c = true) ∧
        DeclaresAt (classWord ++ ' ' :: name) .classHeader name 6 ∧
        findDeclaration? .usual (classWord ++ ' ' :: name) name .classHeader = none := by
    intro n hn name
    have hwidth : width name = n := (width_replicate n 'a').trans (Nat.mul_one n)
    refine ⟨by simp [name]; omega, fun c hc => ?_, declaresAt_bareClass ?_,
      findDeclaration?_of_refuses ?_ _⟩
    · rw [(List.mem_replicate.mp hc).2]
      decide +kernel
    · rw [List.getLast?_replicate, if_neg (by omega)]
      decide +kernel
    · show decide (32 * width name ≤ 10 * 1024 * 1024) = false
      rw [hwidth, decide_eq_false_iff_not]
      omega
  exact hlong 500000 (by decide)

end Source

end TemplateAssist
