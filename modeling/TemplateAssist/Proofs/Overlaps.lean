import TemplateAssist.Proofs.Headers

/-!
# The first class of a text

A scan does not read again what it has read for one match, so it can pass a match that starts inside an
earlier one.

* `Covered` — a place that lies inside a stretch of text whose own start is not covered.
* `Clear`, `Lists` — a place to which no match that is found reads across, and the matches from a place on
  that are not covered.
* `exists_lists` — a scan lists the matches that are not covered, in the order of their places.
* `find?_findAll_eq_some_iff`, `find?_findAll_eq_none_iff` — so the first match that passes a test is the
  first one that is not covered.
* `HeaderAt`, `DeclaresClass` — a place where a class header stands, and one where it declares a class.
* `HeaderAt.overlap` — where one header starts inside another and declares a class, only its word `class`
  lies inside.

Principal result: `classHeader?_first`, the class of a text is the first one that is declared where no
earlier header has read the word `class` for its own.
-/

namespace TemplateAssist.Source

open Text

/-! ## Scans pass what they have read -/

/-- A place inside a stretch that starts at an earlier place, itself not covered.  A stretch is given by the
text before it and its own text. -/
def Covered (stretch : Text → Text → Prop) (before : Text) : Prop :=
  ∃ earlier part, ∃ _ : earlier.length < before.length,
    stretch earlier part ∧ before.length < (earlier ++ part).length ∧ ¬Covered stretch earlier
termination_by before.length

theorem covered_iff {stretch : Text → Text → Prop} {before : Text} :
    Covered stretch before ↔ ∃ earlier part, earlier.length < before.length ∧ stretch earlier part ∧
      before.length < (earlier ++ part).length ∧ ¬Covered stretch earlier := by
  rw [Covered]
  simp only [exists_prop]

variable {α : Type} {read : Reader α} {t : Text}

/-- Behind `before` the reader recognises `a`, and reads `part` for it. -/
def ReadsAt (read : Reader α) (t before part : Text) (a : α) : Prop :=
  ∃ rest, t = before ++ (part ++ rest) ∧ read before.getLast? (part ++ rest) = some (a, rest)

/-- The stretches of a text that a reader recognises. -/
def Stretch (read : Reader α) (t before part : Text) : Prop :=
  ∃ a, ReadsAt read t before part a

/-- A reader that reads at least one character for everything that it recognises. -/
def Consumes (read : Reader α) : Prop :=
  ∀ left t a tail, read left t = some (a, tail) → ∃ part, part ≠ [] ∧ t = part ++ tail

theorem Consumes.part_ne_nil (hread : Consumes read) {before part : Text} {a : α}
    (h : ReadsAt read t before part a) : part ≠ [] := by
  obtain ⟨rest, -, hr⟩ := h
  obtain ⟨part', hne, heq⟩ := hread _ _ _ _ hr
  rwa [List.append_cancel_right heq]

/-- What is recognised at a place is what the reader answers there. -/
theorem ReadsAt.eq_of_length {before rest b part : Text} {a : α} (h : ReadsAt read t b part a)
    (ht : t = before ++ rest) (hlength : b.length = before.length) :
    b = before ∧ ∃ tail, rest = part ++ tail ∧ read before.getLast? rest = some (a, tail) := by
  obtain ⟨tail, ht', hr⟩ := h
  obtain ⟨rfl, rfl⟩ := List.append_inj (ht'.symm.trans ht) hlength
  exact ⟨rfl, tail, rfl, hr⟩

/-- At most one thing is recognised at a place. -/
theorem ReadsAt.unique {before part b part' : Text} {a a' : α} (h : ReadsAt read t before part a)
    (h' : ReadsAt read t b part' a') (hlength : b.length = before.length) :
    b = before ∧ part' = part ∧ a' = a := by
  obtain ⟨rest, ht, hr⟩ := h
  obtain ⟨rfl, tail, hrest, hr'⟩ := h'.eq_of_length ht hlength
  rw [hr] at hr'
  cases hr'
  exact ⟨rfl, (List.append_cancel_right hrest).symm, rfl⟩

/-- A place that no match reaches across, of those that start before it and are not covered. -/
def Clear (read : Reader α) (t before : Text) : Prop :=
  ∀ b part a, b.length < before.length → ReadsAt read t b part a → ¬Covered (Stretch read t) b →
    (b ++ part).length ≤ before.length

theorem Clear.start : Clear read t [] :=
  fun b _ _ hlt => absurd hlt (Nat.not_lt_zero b.length)

theorem Clear.not_covered {before : Text} (h : Clear read t before) : ¬Covered (Stretch read t) before := by
  rw [covered_iff]
  rintro ⟨b, part, hlt, ⟨a, hat⟩, hinside, hcovered⟩
  have := h b part a hlt hat hcovered
  omega

/-- One character further, if nothing is recognised at a place. -/
theorem Clear.step {before : Text} {c : Char} (h : Clear read t before)
    (hnone : ∀ b part a, ReadsAt read t b part a → b.length ≠ before.length) :
    Clear read t (before ++ [c]) := by
  intro b part a hlt hat hcovered
  have hne := hnone b part a hat
  have hlength : (before ++ [c]).length = before.length + 1 := by simp
  have := h b part a (by omega) hat hcovered
  omega

/-- Matches that start inside one that is not covered are. -/
theorem Clear.covered_inside {before part b : Text} {a : α} (h : Clear read t before)
    (hat : ReadsAt read t before part a) (hlt : before.length < b.length)
    (hinside : b.length < (before ++ part).length) : Covered (Stretch read t) b :=
  covered_iff.mpr ⟨before, part, hlt, ⟨a, hat⟩, hinside, h.not_covered⟩

/-- Behind a match that starts at a clear place there is another one. -/
theorem Clear.jump {before part : Text} {a : α} (h : Clear read t before)
    (hat : ReadsAt read t before part a) : Clear read t (before ++ part) := by
  intro b part' a' hlt hat' hcovered
  rcases Nat.lt_trichotomy b.length before.length with hb | hb | hb
  · exact Nat.le_trans (h b part' a' hb hat' hcovered) (by simp)
  · obtain ⟨rfl, rfl, -⟩ := hat.unique hat' hb
    exact Nat.le_refl _
  · exact absurd (h.covered_inside hat hb hlt) hcovered

/-- The matches from a place on that are not covered, in the order of their places. -/
structure Lists (read : Reader α) (t before : Text) (places : List (Text × α)) : Prop where
  sorted : places.Pairwise fun x y => x.1.length < y.1.length
  mem_iff : ∀ b a, (b, a) ∈ places ↔
    before.length ≤ b.length ∧ ¬Covered (Stretch read t) b ∧ ∃ part, ReadsAt read t b part a

theorem Lists.finish (hread : Consumes read) : Lists read t t [] := by
  refine ⟨List.Pairwise.nil, fun b a => ?_⟩
  simp only [List.not_mem_nil, false_iff]
  rintro ⟨hle, -, part, hat⟩
  have hpos := List.length_pos_iff.mpr (hread.part_ne_nil hat)
  obtain ⟨tail, ht, -⟩ := hat
  have hlength := congrArg List.length ht
  rw [List.length_append, List.length_append] at hlength
  omega

theorem Lists.step {before : Text} {c : Char} {places : List (Text × α)}
    (h : Lists read t (before ++ [c]) places)
    (hnone : ∀ b part a, ReadsAt read t b part a → b.length ≠ before.length) :
    Lists read t before places := by
  refine ⟨h.sorted, fun b a => ?_⟩
  rw [h.mem_iff, List.length_append, List.length_singleton]
  refine and_congr_left fun ⟨_, part, hat⟩ => ?_
  have hne := hnone b part a hat
  omega

theorem Lists.cons (hread : Consumes read) {before part : Text} {a : α} {places : List (Text × α)}
    (hclear : Clear read t before) (hat : ReadsAt read t before part a)
    (h : Lists read t (before ++ part) places) : Lists read t before ((before, a) :: places) := by
  have hlt : before.length < (before ++ part).length := by
    have := List.length_pos_iff.mpr (hread.part_ne_nil hat)
    rw [List.length_append]
    omega
  refine ⟨List.pairwise_cons.mpr ⟨?_, h.sorted⟩, fun b a' => ?_⟩
  · rintro ⟨b, a'⟩ hb
    exact Nat.lt_of_lt_of_le hlt ((h.mem_iff b a').mp hb).1
  · rw [List.mem_cons, h.mem_iff, Prod.mk.injEq]
    constructor
    · rintro (⟨rfl, rfl⟩ | ⟨hle, hcovered, hreads⟩)
      · exact ⟨Nat.le_refl _, hclear.not_covered, part, hat⟩
      · exact ⟨Nat.le_trans (Nat.le_of_lt hlt) hle, hcovered, hreads⟩
    · rintro ⟨hle, hcovered, part', hat'⟩
      rcases Nat.eq_or_lt_of_le hle with heq | hbehind
      · obtain ⟨rfl, -, rfl⟩ := hat.unique hat' heq.symm
        exact Or.inl ⟨rfl, rfl⟩
      · have hout : (before ++ part).length ≤ b.length :=
          Nat.le_of_not_lt fun hinside => hcovered (hclear.covered_inside hat hbehind hinside)
        exact Or.inr ⟨hout, hcovered, part', hat'⟩

/-- **A scan lists the matches that are not covered.**  The induction is on the text that is left, which a
match takes more than one character of. -/
theorem exists_lists_from (hread : Consumes read) (n : Nat) {before rest : Text} (hn : rest.length = n)
    (ht : t = before ++ rest) (hclear : Clear read t before) :
    ∃ places, findAllFrom read before.getLast? 0 rest = places.map (·.2) ∧ Lists read t before places := by
  induction n using Nat.strongRecOn generalizing before rest with
  | ind n ih =>
  cases rest with
  | nil =>
    rw [List.append_nil] at ht
    exact ⟨[], rfl, ht ▸ Lists.finish hread⟩
  | cons c rest =>
    cases hr : read before.getLast? (c :: rest) with
    | none =>
      have hnone : ∀ b part a, ReadsAt read t b part a → b.length ≠ before.length := by
        intro b part a hat hlength
        obtain ⟨-, tail, -, hsome⟩ := hat.eq_of_length ht hlength
        rw [hr] at hsome
        cases hsome
      have ht' : t = (before ++ [c]) ++ rest := by rw [ht, List.append_cons]
      obtain ⟨places, hplaces, hlists⟩ := ih rest.length (by simp [← hn]) rfl ht' (hclear.step hnone)
      refine ⟨places, ?_, hlists.step hnone⟩
      rw [← hplaces, List.getLast?_concat, findAllFrom, hr]
    | some r =>
      obtain ⟨a, tail⟩ := r
      obtain ⟨part, hne, hpart⟩ := hread _ _ _ _ hr
      rw [hpart] at hr ht hn ⊢
      have hat : ReadsAt read t before part a := ⟨tail, ht, hr⟩
      have hshorter : tail.length < n := by
        have := List.length_pos_iff.mpr hne
        rw [List.length_append] at hn
        omega
      have ht' : t = (before ++ part) ++ tail := by rw [ht, List.append_assoc]
      obtain ⟨places, hplaces, hlists⟩ := ih tail.length hshorter rfl ht' (hclear.jump hat)
      refine ⟨(before, a) :: places, ?_, hlists.cons hread hclear hat⟩
      rw [findAllFrom_append_of_some hne hr, List.map_cons, ← hplaces, List.getLast?_append]

theorem exists_lists (hread : Consumes read) (t : Text) :
    ∃ places, findAll read t = places.map (·.2) ∧ Lists read t [] places :=
  exists_lists_from hread t.length rfl rfl Clear.start

/-- Before the first match of the list that passes a test, those that pass it are covered. -/
theorem Lists.covered_of_lt {places : List (Text × α)} (h : Lists read t [] places) {p : α → Bool}
    {before b part : Text} {a a' : α} (hfind : places.find? (fun x => p x.2) = some (before, a))
    (hat : ReadsAt read t b part a') (hpass : p a' = true) (hlt : b.length < before.length) :
    Covered (Stretch read t) b := by
  obtain ⟨-, as, bs, rfl, hfail⟩ := List.find?_eq_some_iff_append.mp hfind
  refine Classical.byContradiction fun hcovered => ?_
  have hmem := (h.mem_iff b a').mpr ⟨Nat.zero_le _, hcovered, part, hat⟩
  rcases List.mem_append.mp hmem with hmem | hmem
  · simpa [hpass] using hfail _ hmem
  · rcases List.mem_cons.mp hmem with heq | hmem
    · cases heq
      exact Nat.lt_irrefl _ hlt
    · have := (List.pairwise_cons.mp (List.pairwise_append.mp h.sorted).2.1).1 _ hmem
      exact Nat.lt_asymm hlt this

/-- The first match that passes a test is the first one that is not covered. -/
theorem find?_findAll_eq_some_iff (hread : Consumes read) {p : α → Bool} {a : α} :
    (findAll read t).find? p = some a ↔
      ∃ before part, ReadsAt read t before part a ∧ p a = true ∧ ¬Covered (Stretch read t) before ∧
        ∀ b part' a', ReadsAt read t b part' a' → p a' = true → b.length < before.length →
          Covered (Stretch read t) b := by
  obtain ⟨places, hplaces, hlists⟩ := exists_lists hread t
  rw [hplaces, List.find?_map]
  constructor
  · intro h
    obtain ⟨⟨before, a'⟩, hfind, rfl⟩ := Option.map_eq_some_iff.mp h
    obtain ⟨-, hcovered, part, hat⟩ := (hlists.mem_iff before a').mp (List.mem_of_find?_eq_some hfind)
    have hpass : p a' = true := by simpa using List.find?_some hfind
    exact ⟨before, part, hat, hpass, hcovered, fun _ _ _ => hlists.covered_of_lt hfind⟩
  · rintro ⟨before, part, hat, hpass, hcovered, hbefore⟩
    have hmem : (before, a) ∈ places := (hlists.mem_iff before a).mpr ⟨Nat.zero_le _, hcovered, part, hat⟩
    obtain ⟨⟨b, a'⟩, hfind⟩ := Option.isSome_iff_exists.mp
      (List.find?_isSome.mpr ⟨_, hmem, hpass⟩ : (places.find? fun x => p x.2).isSome = true)
    obtain ⟨-, hcovered', part', hat'⟩ := (hlists.mem_iff b a').mp (List.mem_of_find?_eq_some hfind)
    have hpass' : p a' = true := by simpa using List.find?_some hfind
    rcases Nat.lt_trichotomy b.length before.length with hlt | heq | hlt
    · exact absurd (hbefore b part' a' hat' hpass' hlt) hcovered'
    · obtain ⟨-, -, rfl⟩ := hat.unique hat' heq
      exact Option.map_eq_some_iff.mpr ⟨_, hfind, rfl⟩
    · exact absurd (hlists.covered_of_lt hfind hat hpass hlt) hcovered

theorem find?_findAll_eq_none_iff (hread : Consumes read) {p : α → Bool} :
    (findAll read t).find? p = none ↔
      ∀ before part a, ReadsAt read t before part a → p a = true → Covered (Stretch read t) before := by
  obtain ⟨places, hplaces, hlists⟩ := exists_lists hread t
  rw [hplaces, List.find?_eq_none]
  constructor
  · intro h before part a hat hpass
    refine Classical.byContradiction fun hcovered => ?_
    have hmem := (hlists.mem_iff before a).mpr ⟨Nat.zero_le _, hcovered, part, hat⟩
    exact h a (List.mem_map.mpr ⟨_, hmem, rfl⟩) hpass
  · intro h a ha hpass
    obtain ⟨⟨before, a'⟩, hmem, rfl⟩ := List.mem_map.mp ha
    obtain ⟨-, hcovered, part, hat⟩ := (hlists.mem_iff before a').mp hmem
    exact hcovered (h before part a' hat hpass)

/-! ## Headers and declarations -/

/-- A class header stands behind `before`. -/
structure HeaderAt (t before part rest : Text) (header : ClassHeader) : Prop where
  text : t = before ++ (part ++ rest)
  boundary : isBoundary before.getLast? part.head? = true
  written : HeaderText part rest header

/-- The stretches of a text that are class headers. -/
def HeaderStretch (t before part : Text) : Prop :=
  ∃ rest header, HeaderAt t before part rest header

/-- A class is declared behind `before`: a header stands there, the character before it makes it neither a
variable nor a constant access, and its name is not the next keyword of an anonymous class. -/
structure DeclaresClass (t before : Text) (header : ClassHeader) : Prop where
  stands : ∃ part rest, HeaderAt t before part rest header
  left : before.getLast? ∉ [some '$', some ':', some '>']
  name : header.name ∉ [extendsWord, implementsWord]

theorem HeaderText.head? {part rest : Text} {header : ClassHeader} (h : HeaderText part rest header)
    (more : Text) : (part ++ more).head? = some 'c' ∧ part.head? = some 'c' := by
  obtain ⟨gap, clause, -, -, rfl, -⟩ := h.exists_eq
  exact ⟨rfl, rfl⟩

theorem consumes_readHeader : Consumes readHeader := by
  intro left t candidate tail h
  obtain ⟨-, -, part, rfl, hpart⟩ := readHeader_eq_some_iff.mp h
  obtain ⟨gap, clause, -, -, rfl, -⟩ := hpart.exists_eq
  exact ⟨_, by simp [classWord], rfl⟩

theorem readsAt_header_iff {t before part : Text} {candidate : HeaderCandidate} :
    ReadsAt readHeader t before part candidate ↔
      candidate.left = before.getLast? ∧ ∃ rest, HeaderAt t before part rest candidate.header := by
  constructor
  · rintro ⟨rest, ht, hread⟩
    obtain ⟨hleft, hboundary, part', hpart, hwritten⟩ := readHeader_eq_some_iff.mp hread
    obtain rfl := List.append_cancel_right hpart
    rw [(hwritten.head? rest).1, ← (hwritten.head? rest).2] at hboundary
    exact ⟨hleft, rest, ht, hboundary, hwritten⟩
  · rintro ⟨hleft, rest, ht, hboundary, hwritten⟩
    refine ⟨rest, ht, readHeader_eq_some_iff.mpr ⟨hleft, ?_, part, rfl, hwritten⟩⟩
    rw [(hwritten.head? rest).1, ← (hwritten.head? rest).2]
    exact hboundary

theorem stretch_readHeader (t : Text) : Stretch readHeader t = HeaderStretch t := by
  funext before part
  refine propext ⟨?_, ?_⟩
  · rintro ⟨candidate, hat⟩
    obtain ⟨-, rest, hheader⟩ := readsAt_header_iff.mp hat
    exact ⟨rest, candidate.header, hheader⟩
  · rintro ⟨rest, header, hheader⟩
    exact ⟨⟨before.getLast?, header⟩, readsAt_header_iff.mpr ⟨rfl, rest, hheader⟩⟩

theorem declaresClass_iff {t before : Text} {header : ClassHeader} :
    DeclaresClass t before header ↔ ∃ part candidate, ReadsAt readHeader t before part candidate ∧
      candidate.declares = true ∧ candidate.header = header := by
  have hdeclares : ∀ candidate : HeaderCandidate, candidate.declares = true ↔
      candidate.left ∉ [some '$', some ':', some '>'] ∧
        candidate.header.name ∉ [extendsWord, implementsWord] := by
    intro candidate
    simp [HeaderCandidate.declares, and_assoc]
  constructor
  · rintro ⟨⟨part, rest, hat⟩, hleft, hname⟩
    exact ⟨part, ⟨before.getLast?, header⟩, readsAt_header_iff.mpr ⟨rfl, rest, hat⟩,
      (hdeclares _).mpr ⟨hleft, hname⟩, rfl⟩
  · rintro ⟨part, candidate, hat, hcandidate, rfl⟩
    obtain ⟨hleft, rest, hheader⟩ := readsAt_header_iff.mp hat
    obtain ⟨hout, hname⟩ := (hdeclares candidate).mp hcandidate
    exact ⟨⟨part, rest, hheader⟩, hleft ▸ hout, hname⟩

/-! ## Where a header starts inside another -/

/-- A cut at which a word with the initial `c` starts. -/
structure WordCut (u v : Text) : Prop where
  left : isWordSide u.getLast? = false
  right : v.head? = some 'c'

theorem WordCut.of_append {u u' v : Text} (h : WordCut (u ++ u') v) : WordCut u' v := by
  refine ⟨?_, h.right⟩
  cases hlast : u'.getLast? with
  | none => rfl
  | some c =>
    have hleft := h.left
    rwa [List.getLast?_append, hlast] at hleft

/-- No word starts inside another. -/
theorem WordCut.past_word {u v word rest : Text} (h : WordCut u v) (hne : u ≠ [])
    (hword : ∀ c ∈ word, isIdentChar c = true) (heq : u ++ v = word ++ rest) :
    ∃ u', u' ≠ [] ∧ WordCut u' v ∧ u = word ++ u' ∧ u' ++ v = rest := by
  have hout : ¬u <+: word := by
    intro hstart
    have hlast := hword (u.getLast hne) (hstart.subset (List.getLast_mem hne))
    have hleft := h.left
    rw [List.getLast?_eq_some_getLast hne, isWordSide, Option.any_some,
      isWordChar_of_isIdentChar hlast] at hleft
    cases hleft
  rcases List.append_eq_append_iff.mp heq with ⟨more, rfl, -⟩ | ⟨u', rfl, hrest⟩
  · exact absurd (List.prefix_append u more) hout
  · refine ⟨u', ?_, h.of_append, rfl, hrest.symm⟩
    rintro rfl
    exact hout (by simp)

/-- No word starts among blanks. -/
theorem WordCut.past_gap {u v gap rest : Text} (h : WordCut u v) (hgap : ∀ c ∈ gap, isBlank c = true)
    (heq : u ++ v = gap ++ rest) : ∃ u', WordCut u' v ∧ u = gap ++ u' ∧ u' ++ v = rest := by
  rcases List.append_eq_append_iff.mp heq with ⟨more, rfl, hv⟩ | ⟨u', rfl, hrest⟩
  · cases more with
    | nil => exact ⟨[], ⟨rfl, h.right⟩, by simp, by simpa using hv⟩
    | cons c more =>
      have hblank := hgap c (by simp)
      have hc : c = 'c' := by
        have hright := h.right
        rw [hv] at hright
        simpa using hright
      rw [hc] at hblank
      exact absurd hblank (by decide)
  · exact ⟨u', h.of_append, rfl, hrest.symm⟩

theorem classWord_chars : ∀ c ∈ classWord, isIdentChar c = true :=
  List.all_eq_true.mp (by decide)

theorem extendsWord_chars : ∀ c ∈ extendsWord, isIdentChar c = true :=
  List.all_eq_true.mp (by decide)

/-- A place behind the word `class` or `extends` and blanks, or directly behind a backslash. -/
def BehindKeyword (before : Text) : Prop :=
  (∃ lead word gap, (word = classWord ∨ word = extendsWord) ∧ IsGap gap ∧ before = lead ++ (word ++ gap)) ∨
    before.getLast? = some '\\'

theorem BehindKeyword.append {before : Text} (h : BehindKeyword before) (lead : Text) :
    BehindKeyword (lead ++ before) := by
  rcases h with ⟨lead', word, gap, hword, hgap, rfl⟩ | hlast
  · exact Or.inl ⟨lead ++ lead', word, gap, hword, hgap, by simp⟩
  · exact Or.inr (by rw [List.getLast?_append, hlast]; rfl)

/-- A header whose name is the word of another reads no clause, unless that one is named `extends`. -/
theorem name_eq_classWord {name clause rest gap' name' after' : Text} (hname : isIdent name = true)
    (hend : (clause ++ rest).head?.any isIdentChar = false)
    (hclause : clause = [] ∨ ∃ parent, IsClause clause parent) (hgap' : IsGap gap')
    (hname' : isIdent name' = true) (hend' : after'.head?.any isIdentChar = false) (hne : name' ≠ extendsWord)
    (heq : name ++ (clause ++ rest) = classWord ++ (gap' ++ (name' ++ after'))) :
    name = classWord ∧ clause = [] := by
  obtain ⟨hword, heq⟩ := run_unique (isIdent_chars hname) hend classWord_chars
    (hgap'.any_head? (fun _ => not_isIdentChar_of_isBlank) _) heq
  refine ⟨hword, hclause.resolve_right ?_⟩
  rintro ⟨parent, gap₁, gap₂, hgap₁, hgap₂, -, rfl⟩
  have hsolid : ∀ c ∈ name', isBlank c = false :=
    fun c hc => not_isBlank_of_isIdentChar (isIdent_chars hname' c hc)
  simp only [List.append_assoc] at heq
  obtain ⟨-, heq⟩ := run_unique hgap₁.blank (any_head?_cons (by decide) _) hgap'.blank
    (any_head?_append_of_solid hsolid (isIdent_ne_nil hname')) heq
  obtain ⟨hextends, -⟩ := run_unique extendsWord_chars
    (hgap₂.any_head? (fun _ => not_isIdentChar_of_isBlank) _) (isIdent_chars hname') hend' heq
  exact hne hextends.symm

/-- A word `class` that starts in a clause is the last part of the parent. -/
theorem IsClause.eq_classWord {clause parent rest gap' more u v : Text} (hclause : IsClause clause parent)
    (hend : rest.head?.any isQualifiedChar = false) (hcut : WordCut u v) (huv : u ++ v = clause)
    (hgap' : IsGap gap') (heq : v ++ rest = classWord ++ (gap' ++ more)) :
    v = classWord ∧ BehindKeyword u := by
  obtain ⟨gap₁, gap₂, hgap₁, hgap₂, hparent, rfl⟩ := hclause
  obtain ⟨u₁, hcut₁, rfl, huv₁⟩ := hcut.past_gap hgap₁.blank huv
  have hne : u₁ ≠ [] := by
    rintro rfl
    have hright := hcut.right
    rw [show v = extendsWord ++ (gap₂ ++ parent) from huv₁] at hright
    simp [extendsWord] at hright
  obtain ⟨u₂, -, hcut₂, rfl, huv₂⟩ := hcut₁.past_word hne extendsWord_chars huv₁
  obtain ⟨w, hcut₃, rfl, rfl⟩ := hcut₂.past_gap hgap₂.blank huv₂
  have hchars := hparent.chars
  refine ⟨(run_unique (fun c hc => hchars c (List.mem_append_right w hc)) hend
    (fun c hc => isQualifiedChar_of_isIdentChar (classWord_chars c hc))
    (hgap'.any_head? (fun _ => not_isQualifiedChar_of_isBlank) _) heq).1, ?_⟩
  cases hlast : w.getLast? with
  | none =>
    rw [List.getLast?_eq_none_iff.mp hlast]
    exact Or.inl ⟨gap₁, extendsWord, gap₂, Or.inr rfl, hgap₂, by simp⟩
  | some c =>
    -- a character of a qualified name that belongs to no word
    have hc : isWordChar c = false := by simpa [hlast, isWordSide] using hcut₃.left
    have hqualified := hchars c (List.mem_append_left v (List.mem_of_getLast? hlast))
    have hslash : c = '\\' := by
      rcases Bool.or_eq_true_iff.mp hqualified with h | h
      · rw [isWordChar_of_isIdentChar h] at hc
        cases hc
      · exact of_decide_eq_true h
    have hbehind : BehindKeyword w := Or.inr (hslash ▸ hlast)
    exact ((hbehind.append gap₂).append extendsWord).append gap₁

/-- **Where a class is declared inside an earlier header, only its word `class` lies inside.** -/
theorem HeaderAt.overlap {t earlier part rest before part' rest' : Text} {header header' : ClassHeader}
    (h : HeaderAt t earlier part rest header) (h' : HeaderAt t before part' rest' header')
    (hname : header'.name ≠ extendsWord) (hlt : earlier.length < before.length)
    (hinside : before.length < (earlier ++ part).length) :
    earlier ++ part = before ++ classWord ∧ BehindKeyword before := by
  -- the place cuts the earlier header into `u` and `v`
  obtain ⟨u, v, rfl, rfl, hv⟩ : ∃ u v, before = earlier ++ u ∧ part = u ++ v ∧ v ++ rest = part' ++ rest' := by
    rcases List.append_eq_append_iff.mp (h.text.symm.trans h'.text) with ⟨u, rfl, hu⟩ | ⟨u, rfl, -⟩
    · rcases List.append_eq_append_iff.mp hu with ⟨more, rfl, -⟩ | ⟨v, rfl, hv⟩
      · simp only [List.length_append] at hinside
        omega
      · exact ⟨u, v, rfl, rfl, hv.symm⟩
    · rw [List.length_append] at hlt
      omega
  have hu : u ≠ [] := by
    rintro rfl
    simp at hlt
  have hne : v ≠ [] := by
    rintro rfl
    simp at hinside
  obtain ⟨gap', clause', hgap', hident', rfl, hend', -⟩ := h'.written.exists_eq
  have hcut : WordCut u v := by
    refine WordCut.of_append (u := earlier) ⟨?_, ?_⟩
    · have hword : isWordSide (some 'c') = true := isWordChar_of_isIdentChar (c := 'c') (by decide)
      have hboundary := h'.boundary
      rw [(h'.written.head? []).2, isBoundary, hword] at hboundary
      simpa using hboundary
    · obtain ⟨c, v, rfl⟩ := List.exists_cons_of_ne_nil hne
      exact congrArg some (List.cons.inj hv).1
  obtain ⟨gap, clause, hgap, hident, huv, hend, hclause⟩ := h.written.exists_eq
  obtain ⟨u₁, -, hcut₁, rfl, huv₁⟩ := hcut.past_word hu classWord_chars huv
  obtain ⟨u₂, hcut₂, rfl, huv₂⟩ := hcut₁.past_gap hgap.blank huv₁
  simp only [List.append_assoc] at hv
  by_cases hu₂ : u₂ = []
  · -- the name of the earlier header is the word `class` of the declaration
    subst hu₂
    obtain rfl : v = header.name ++ clause := huv₂
    rw [List.append_assoc] at hv
    have hform : clause = [] ∨ ∃ parent, IsClause clause parent := by
      rcases hclause with hnil | ⟨parent, hclause, -⟩
      · exact Or.inl hnil
      · exact Or.inr ⟨parent, hclause⟩
    obtain ⟨hword, hnil⟩ := name_eq_classWord hident hend hform hgap' hident' hend' hname hv
    exact ⟨by simp [hword, hnil], Or.inl ⟨earlier, classWord, gap, Or.inl rfl, hgap, by simp⟩⟩
  · obtain ⟨u₃, hu₃, hcut₃, rfl, huv₃⟩ := hcut₂.past_word hu₂ (isIdent_chars hident) huv₂
    rcases hclause with rfl | ⟨parent, hclause, hparent⟩
    · exact absurd (List.append_eq_nil_iff.mp huv₃).1 hu₃
    · obtain ⟨rfl, hbehind⟩ := hclause.eq_classWord hparent hcut₃ huv₃ hgap' hv
      refine ⟨by simp, ?_⟩
      exact (((hbehind.append header.name).append gap).append classWord).append earlier

/-- What covers a declared class is a header that ends with its word `class`. -/
theorem DeclaresClass.covered {t before : Text} {header : ClassHeader} (h : DeclaresClass t before header)
    (hcovered : Covered (HeaderStretch t) before) :
    BehindKeyword before ∧ ∃ earlier part, HeaderStretch t earlier part ∧
      ¬Covered (HeaderStretch t) earlier ∧ earlier ++ part = before ++ classWord := by
  obtain ⟨part', rest', hat'⟩ := h.stands
  obtain ⟨earlier, part, hlt, ⟨rest, found, hat⟩, hinside, hfree⟩ := covered_iff.mp hcovered
  have hname : header.name ≠ extendsWord := fun heq => h.name (by simp [heq])
  obtain ⟨hword, hbehind⟩ := hat.overlap hat' hname hlt hinside
  exact ⟨hbehind, earlier, part, ⟨rest, found, hat⟩, hfree, hword⟩

theorem classHeader?_eq_some_iff {t : Text} {header : ClassHeader} :
    classHeader? t = some header ↔ ∃ before, DeclaresClass t before header ∧
      ¬Covered (HeaderStretch t) before ∧
      ∀ b header', DeclaresClass t b header' → b.length < before.length → Covered (HeaderStretch t) b := by
  simp only [classHeader?, Option.map_eq_some_iff, find?_findAll_eq_some_iff consumes_readHeader,
    stretch_readHeader]
  constructor
  · rintro ⟨candidate, ⟨before, part, hat, hpass, hfree, hfirst⟩, rfl⟩
    refine ⟨before, declaresClass_iff.mpr ⟨part, candidate, hat, hpass, rfl⟩, hfree, fun b header' h hlt => ?_⟩
    obtain ⟨part', candidate', hat', hpass', -⟩ := declaresClass_iff.mp h
    exact hfirst b part' candidate' hat' hpass' hlt
  · rintro ⟨before, h, hfree, hfirst⟩
    obtain ⟨part, candidate, hat, hpass, rfl⟩ := declaresClass_iff.mp h
    refine ⟨candidate, ⟨before, part, hat, hpass, hfree, fun b part' candidate' hat' hpass' hlt => ?_⟩, rfl⟩
    exact hfirst b candidate'.header (declaresClass_iff.mpr ⟨part', candidate', hat', hpass', rfl⟩) hlt

theorem classHeader?_eq_none_iff {t : Text} :
    classHeader? t = none ↔
      ∀ before header, DeclaresClass t before header → Covered (HeaderStretch t) before := by
  simp only [classHeader?, Option.map_eq_none_iff, find?_findAll_eq_none_iff consumes_readHeader,
    stretch_readHeader]
  constructor
  · intro hall before header h
    obtain ⟨part, candidate, hat, hpass, -⟩ := declaresClass_iff.mp h
    exact hall before part candidate hat hpass
  · intro hall before part candidate hat hpass
    exact hall before candidate.header (declaresClass_iff.mpr ⟨part, candidate, hat, hpass, rfl⟩)

/-- **The class of a text is the first one that is declared and not covered.**  There is none exactly if every
declared class is covered, and what covers one is an earlier header that ends with its word `class`. -/
theorem classHeader?_first (t : Text) :
    (∀ header, classHeader? t = some header ↔ ∃ before, DeclaresClass t before header ∧
      ¬Covered (HeaderStretch t) before ∧
      ∀ b header', DeclaresClass t b header' → b.length < before.length → Covered (HeaderStretch t) b) ∧
    (classHeader? t = none ↔
      ∀ before header, DeclaresClass t before header → Covered (HeaderStretch t) before) ∧
    ∀ before header, DeclaresClass t before header → Covered (HeaderStretch t) before →
      BehindKeyword before ∧ ∃ earlier part, HeaderStretch t earlier part ∧
        ¬Covered (HeaderStretch t) earlier ∧ earlier ++ part = before ++ classWord :=
  ⟨fun _ => classHeader?_eq_some_iff, classHeader?_eq_none_iff, fun _ _ h => h.covered⟩

/-- A comment that ends with a class constant, and a class. -/
def constantThenClass : Text :=
  "// see Foo::class\nclass Real {}".toList

/-- **The class behind a class constant is not found.**  The constant and the word `class` of the next line
have the form of a header. -/
theorem classHeader?_constantThenClass :
    DeclaresClass constantThenClass "// see Foo::class\n".toList ⟨"Real".toList, none⟩ ∧
      classHeader? constantThenClass = none := by
  refine ⟨declaresClass_iff.mpr ⟨"class Real".toList, ⟨some '\n', ⟨"Real".toList, none⟩⟩,
    ⟨" {}".toList, ?_, ?_⟩, ?_, rfl⟩, ?_⟩
  all_goals decide +kernel

end TemplateAssist.Source
