import TemplateAssist.Component
import TemplateAssist.Proofs.Headers
import TemplateAssist.Source.Signatures

/-!
# What extraction finds

* `signatures?_declaringClass` — every extracted member is declared by the extracted class.
* `signatures?_className`, `signatures?_shortName` — an extracted class has a name, and both its name and
  the short name of its parent are made of identifier characters.
-/

namespace TemplateAssist.Source

theorem readProperty_declaringClass {className : Text} {left : Option Char} {t tail : Text}
    {p : Property} (h : readProperty className left t = some (p, tail)) :
    p.declaringClass = className := by
  unfold readProperty at h
  split at h
  · cases h
  · simp only [Option.bind_eq_bind, Option.bind_eq_some_iff, Option.some.injEq, Prod.mk.injEq] at h
    obtain ⟨_, _, _, _, _, _, hp, _⟩ := h
    exact hp ▸ rfl

theorem readMethod_declaringClass {className : Text} {left : Option Char} {t tail : Text}
    {m : Method} (h : readMethod className left t = some (m, tail)) :
    m.declaringClass = className := by
  unfold readMethod at h
  split at h
  · cases h
  · simp only [Option.bind_eq_bind, Option.bind_eq_some_iff, Option.some.injEq, Prod.mk.injEq] at h
    obtain ⟨_, _, _, _, _, _, _, _, hm, _⟩ := h
    exact hm ▸ rfl

/-- Every extracted member is declared by the extracted class. -/
theorem signatures?_declaringClass {t : Text} {s : Signatures} (h : signatures? t = some s) :
    (∀ p ∈ s.properties, p.declaringClass = s.className) ∧
      ∀ m ∈ s.methods, m.declaringClass = s.className := by
  obtain ⟨header, -, rfl⟩ := Option.map_eq_some_iff.mp h
  refine ⟨fun p hp => ?_, fun m hm => ?_⟩
  · obtain ⟨_, _, _, _, _, hread⟩ := mem_findAll hp
    exact readProperty_declaringClass hread
  · obtain ⟨_, _, _, _, _, hread⟩ := mem_findAll hm
    exact readMethod_declaringClass hread

/-- An extracted class has a name, which is made of identifier characters. -/
theorem signatures?_className {t : Text} {signatures : Signatures}
    (h : signatures? t = some signatures) :
    signatures.className ≠ [] ∧ ∀ c ∈ signatures.className, Text.isIdentChar c = true := by
  obtain ⟨header, hheader, rfl⟩ := Option.map_eq_some_iff.mp h
  obtain ⟨candidate, hfind, rfl⟩ := Option.map_eq_some_iff.mp hheader
  obtain ⟨_, _, _, _, _, hread⟩ := mem_findAll (List.mem_of_find?_eq_some hfind)
  obtain ⟨-, -, part, -, hwritten⟩ := readHeader_eq_some_iff.mp hread
  obtain ⟨gap, clause, -, hident, -⟩ := hwritten.exists_eq
  exact ⟨Text.isIdent_ne_nil hident, Text.isIdent_chars hident⟩

/-- The short name of a parent is made of identifier characters. -/
theorem signatures?_shortName {t : Text} {signatures : Signatures}
    (h : signatures? t = some signatures) {parent : Text} (hp : signatures.parent = some parent) :
    ∀ c ∈ shortName parent, Text.isIdentChar c = true := by
  obtain ⟨header, hheader, rfl⟩ := Option.map_eq_some_iff.mp h
  obtain ⟨candidate, hfind, rfl⟩ := Option.map_eq_some_iff.mp hheader
  obtain ⟨_, _, _, _, _, hread⟩ := mem_findAll (List.mem_of_find?_eq_some hfind)
  obtain ⟨-, -, part, -, hwritten⟩ := readHeader_eq_some_iff.mp hread
  intro c hc
  rw [shortName, List.mem_reverse] at hc
  have hslash : c ≠ '\\' := by simpa using List.all_eq_true.mp List.all_takeWhile c hc
  have hchar := hwritten.parent_chars hp c
    (List.mem_reverse.mp ((List.takeWhile_sublist _).subset hc))
  simpa [isQualifiedChar, hslash] using hchar

end TemplateAssist.Source
