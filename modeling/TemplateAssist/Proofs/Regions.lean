import Mathlib.Algebra.Group.Nat.Even
import Mathlib.Order.Interval.Finset.Nat
import TemplateAssist.Proofs.Scanning
import TemplateAssist.Template.Region

/-!
# What decides the region of a place

The backward scan carries a flag through a text and stops at the first character that opens or closes
a construct.  Which character that is can be said without the scan, by counting quotes.

* `IsQuote`, `quotesAfter` — the quotes of a text, and how many of them follow an index.
* `Stops` — an index that decides the region if no later one does: a construct opens or closes there,
  outside the quoted values that the quotes after it delimit.
* `View`, `viewAt` — what can be seen of a region, and what an index that decides it gives.
* `scanBack_of_stops`, `scanBack_of_not_stops` — one step of the scan.
* `scanBack_view` — the whole scan.  Its flag says whether the number of quotes passed is odd.
* `TagName`, `WrittenAttribute`, `openTag` — an opening tag with attributes, as it is written up to a place
  behind them.
* `scanBack_closed`, `scanBack_endsInEquals` — the scan of a value, as a whole unless it ends in `=`.

Principal results:

* `regionAt_view` — the region of a place is decided by the last stop before it alone.
* `regionAt_openTag` — behind attributes a place is inside their tag, unless the value of one of them ends
  in `=`.
-/

namespace TemplateAssist

/-! ## Quotes and stops -/

namespace Text

def preceding? (s : Text) : Nat → Option Char
  | 0 => none
  | i + 1 => s[i]?

/-- An index with a double quote that no backslash escapes. -/
def IsQuote (s : Text) (i : Nat) : Prop :=
  s[i]? = some '"' ∧ preceding? s i ≠ some '\\'

instance (s : Text) : DecidablePred (IsQuote s) :=
  fun _ => inferInstanceAs (Decidable (_ ∧ _))

/-- The number of quotes at the indices strictly between `i` and the end. -/
def quotesAfter (s : Text) (i : Nat) : Nat :=
  ((Finset.Ioo i s.length).filter (IsQuote s)).card

/-- An index at which a construct opens or closes: the quote of an attribute value, a brace or an angle
bracket.  Behind it the quotes come in pairs. -/
def Stops (s : Text) (i : Nat) : Prop :=
  Even (quotesAfter s i) ∧
    (IsQuote s i ∧ preceding? s i = some '=' ∨ s[i]? = some '\x7d' ∨ s[i]? = some '>' ∨ s[i]? = some '<' ∨
      s[i]? = some '\x7b' ∧ preceding? s i ≠ some '\\')

instance (s : Text) : DecidablePred (Stops s) :=
  fun _ => inferInstanceAs (Decidable (_ ∧ _))

/-- The last stop of a text. -/
def lastStop? (s : Text) : Option Nat :=
  ((List.range s.length).filter fun i => Stops s i).max?

theorem Stops.lt_length {s : Text} {i : Nat} (h : Stops s i) : i < s.length := by
  have hsome : ∃ c, s[i]? = some c := by
    obtain ⟨-, ⟨⟨h, -⟩, -⟩ | h | h | h | ⟨h, -⟩⟩ := h
    all_goals exact ⟨_, h⟩
  obtain ⟨c, hc⟩ := hsome
  exact (List.getElem?_eq_some_iff.mp hc).1

theorem lastStop?_eq_some {s : Text} {i : Nat} (h : Stops s i) (hlast : ∀ j, i < j → ¬Stops s j) :
    lastStop? s = some i := by
  rw [lastStop?, List.max?_eq_some_iff]
  refine ⟨List.mem_filter.mpr ⟨List.mem_range.mpr h.lt_length, decide_eq_true h⟩, fun j hj => ?_⟩
  have hstop : Stops s j := of_decide_eq_true (List.mem_filter.mp hj).2
  exact Nat.le_of_not_lt fun hlt => hlast j hlt hstop

theorem lastStop?_eq_none {s : Text} (h : ∀ i, ¬Stops s i) : lastStop? s = none := by
  rw [lastStop?, List.max?_eq_none_iff, List.filter_eq_nil_iff]
  intro i _
  simpa using h i

theorem quotesAfter_of_le {s : Text} {i : Nat} (h : s.length ≤ i + 1) : quotesAfter s i = 0 := by
  rw [quotesAfter, Finset.card_eq_zero, Finset.filter_eq_empty_iff]
  intro j hj
  rw [Finset.mem_Ioo] at hj
  omega

/-- One index further to the left there is one quote more, or there are as many. -/
theorem quotesAfter_eq_add {s : Text} {i : Nat} (h : i + 1 < s.length) :
    quotesAfter s i = quotesAfter s (i + 1) + if IsQuote s (i + 1) then 1 else 0 := by
  have hinsert : Finset.Ioo i s.length = insert (i + 1) (Finset.Ioo (i + 1) s.length) := by
    ext j
    simp only [Finset.mem_Ioo, Finset.mem_insert]
    omega
  rw [quotesAfter, quotesAfter, hinsert, Finset.filter_insert]
  split
  · rw [Finset.card_insert_of_notMem (by simp)]
  · rfl

/-! A text around a place: `rest` stands before it, nearest character first, then `c` and `passed`. -/

section Around

variable (rest passed : Text) (c : Char)

theorem getElem?_around : (rest.reverse ++ c :: passed)[rest.length]? = some c := by
  simp

theorem preceding?_around : preceding? (rest.reverse ++ c :: passed) rest.length = rest.head? := by
  cases rest with
  | nil => rfl
  | cons d rest => simp [preceding?]

theorem isQuote_around {rest passed : Text} {c : Char} :
    IsQuote (rest.reverse ++ c :: passed) rest.length ↔ c = '"' ∧ rest.head? ≠ some '\\' := by
  rw [IsQuote, getElem?_around, preceding?_around, Option.some.injEq]

theorem stops_around {rest passed : Text} {c : Char} :
    Stops (rest.reverse ++ c :: passed) rest.length ↔
      Even (quotesAfter (rest.reverse ++ c :: passed) rest.length) ∧
        ((c = '"' ∧ rest.head? ≠ some '\\') ∧ rest.head? = some '=' ∨ c = '\x7d' ∨ c = '>' ∨ c = '<' ∨
          c = '\x7b' ∧ rest.head? ≠ some '\\') := by
  simp only [Stops, isQuote_around, getElem?_around, preceding?_around, Option.some.injEq]

theorem drop_around : (rest.reverse ++ c :: passed).drop (rest.length + 1) = passed := by
  rw [List.append_cons]
  exact List.drop_left' (by simp)

theorem getElem?_after_around : (rest.reverse ++ c :: passed)[rest.length + 1]? = passed.head? := by
  rw [← List.head?_drop, drop_around]

end Around

end Text

open Text

/-! ## What is seen of a region -/

namespace Region

/-- What can be seen of a region.  Nothing of it shows in plain markup. -/
structure View where
  insideCode : Bool := false
  insideAttribute : Bool := false
  insideTag : Bool := false
  tagName : Option Text := none
  binding : Option Binding := none
  deriving Repr, DecidableEq

/-- The place that a region binds to members at. -/
def binding? : Region → Option Binding
  | binding kind => some kind
  | _ => none

/-- What can be seen of a region. -/
def view (r : Region) : View :=
  ⟨r.insideCode, r.insideAttribute, r.insideTag, r.tagName?, r.binding?⟩

/-- What is seen behind the opening quote of an attribute value. -/
def attributeView (event : Prop) [Decidable event] : View :=
  { insideAttribute := true, binding := some (if event then .event else .attribute) }

/-- What is seen behind an opening brace. -/
def braceView (double : Prop) [Decidable double] : View :=
  { insideCode := true, binding := some (if double then .doubleBrace else .singleBrace) }

/-- What is seen in an opening tag, where the name is the longest start of `inner` without blanks, `>`
and quotes. -/
def tagView (inner : Text) : View :=
  let name := inner.takeWhile fun c => !isBlank c && c != '>' && c != '"'
  { insideTag := true, tagName := if name = [] then none else some name }

/-- What is seen at the end of a text whose last stop is `i`. -/
def viewAt (s : Text) (i : Nat) : View :=
  if s[i]? = some '"' then attributeView (preceding? s (i - 1) = some ')')
  else if s[i]? = some '\x7b' then braceView (preceding? s i = some '\x7b')
  else if s[i]? = some '<' ∧ s[i + 1]? ≠ some '/' ∧ s.getLast? = some ' ' then tagView (s.drop (i + 1))
  else {}

theorem view_attribute (event : Prop) [Decidable event] :
    (binding (if event then .event else .attribute)).view = attributeView event := by
  unfold attributeView
  split <;> rfl

theorem view_brace (double : Prop) [Decidable double] :
    (binding (if double then .doubleBrace else .singleBrace)).view = braceView double := by
  unfold braceView
  split <;> rfl

theorem view_ofTag (inner : Text) (afterSpace : Bool) :
    (ofTag inner afterSpace).view =
      if inner.head? ≠ some '/' ∧ afterSpace = true then tagView inner else {} := by
  unfold ofTag tagView
  by_cases hslash : inner.head? = some '/'
  · simp [hslash]
    rfl
  · cases afterSpace with
    | false =>
      simp
      rfl
    | true =>
      simp only [hslash, decide_false, Bool.not_true, Bool.or_self, Bool.false_eq_true, if_false,
        ne_eq, not_false_eq_true, and_self, if_true]
      split
      · rename_i hname
        rw [hname]
        rfl
      · rename_i name hname
        rw [if_neg hname]
        rfl

/-! ## One step of the scan -/

section Steps

variable {afterSpace quoted : Bool} {rest passed : Text} {c : Char}

/-- The quote behind a `=` opens a value. -/
theorem scanBack_opening :
    scanBack afterSpace false passed ('"' :: '=' :: rest) =
      binding (if rest.head? = some ')' then .event else .attribute) := by
  rw [scanBack, if_pos ⟨rfl, by simp⟩, if_pos (by simp)]
  rfl

/-- Any other quote turns the flag. -/
theorem scanBack_quote (hescape : rest.head? ≠ some '\\')
    (hopen : quoted = true ∨ rest.head? ≠ some '=') :
    scanBack afterSpace quoted passed ('"' :: rest) = scanBack afterSpace (!quoted) ('"' :: passed) rest := by
  have hpass : (!quoted && decide (rest.head? = some '=')) = false := by
    rcases hopen with rfl | hopen
    · rfl
    · simp [hopen]
  rw [scanBack, if_pos ⟨rfl, hescape⟩, hpass]
  rfl

/-- A character that is no quote is passed inside a quoted value, and outside if it opens and closes
nothing. -/
theorem scanBack_skip (hquote : ¬(c = '"' ∧ rest.head? ≠ some '\\'))
    (hskip : quoted = true ∨
      ¬(c = '\x7d' ∨ c = '>' ∨ c = '<' ∨ c = '\x7b' ∧ rest.head? ≠ some '\\')) :
    scanBack afterSpace quoted passed (c :: rest) = scanBack afterSpace quoted (c :: passed) rest := by
  rw [scanBack, if_neg hquote]
  cases quoted with
  | true => rfl
  | false =>
    obtain ⟨hbrace, hangle, htag, hcode⟩ : c ≠ '\x7d' ∧ c ≠ '>' ∧ c ≠ '<' ∧ _ := by
      simpa only [Bool.false_eq_true, false_or, not_or] using hskip
    rw [if_neg (by simp), if_neg (by simp [hbrace, hangle]), if_neg hcode, if_neg htag]

/-- **At a stop the scan ends.** -/
theorem scanBack_of_stops (h : Stops (rest.reverse ++ c :: passed) rest.length) :
    (scanBack ((rest.reverse ++ c :: passed).getLast? = some ' ') false passed (c :: rest)).view =
      viewAt (rest.reverse ++ c :: passed) rest.length := by
  obtain ⟨-, h⟩ := stops_around.mp h
  simp only [viewAt, getElem?_around, preceding?_around, drop_around, getElem?_after_around,
    Option.some.injEq]
  rcases h with ⟨⟨rfl, -⟩, hassign⟩ | rfl | rfl | rfl | ⟨rfl, hescape⟩
  · obtain ⟨rest, rfl⟩ := List.head?_eq_some_iff.mp hassign
    have hbefore := preceding?_around rest ('"' :: passed) '='
    simp only [List.reverse_cons, List.append_assoc, List.singleton_append, List.length_cons,
      Nat.add_sub_cancel, hbefore, if_true, scanBack_opening]
    exact view_attribute _
  · simp [scanBack]
    rfl
  · simp [scanBack]
    rfl
  · simp [scanBack, view_ofTag]
  · rw [scanBack, if_neg (by simp), if_neg (by simp), if_neg (by simp), if_pos ⟨rfl, hescape⟩]
    exact view_brace _

/-- **Elsewhere it goes on**, and a quote turns its flag. -/
theorem scanBack_of_not_stops
    (hquoted : quoted = false ↔ Even (quotesAfter (rest.reverse ++ c :: passed) rest.length))
    (h : ¬Stops (rest.reverse ++ c :: passed) rest.length) :
    scanBack afterSpace quoted passed (c :: rest) =
      scanBack afterSpace (quoted ^^ decide (IsQuote (rest.reverse ++ c :: passed) rest.length))
        (c :: passed) rest := by
  rw [stops_around, ← hquoted] at h
  by_cases hquote : c = '"' ∧ rest.head? ≠ some '\\'
  · rw [decide_eq_true (isQuote_around.mpr hquote), Bool.xor_true]
    obtain ⟨rfl, hescape⟩ := hquote
    refine scanBack_quote hescape ?_
    cases quoted with
    | true => exact Or.inl rfl
    | false => exact Or.inr fun hassign => h ⟨rfl, Or.inl ⟨⟨rfl, hescape⟩, hassign⟩⟩
  · rw [decide_eq_false (mt isQuote_around.mp hquote), Bool.xor_false]
    refine scanBack_skip hquote ?_
    cases quoted with
    | true => exact Or.inl rfl
    | false => exact Or.inr fun hstop => h ⟨rfl, Or.inr hstop⟩

end Steps

/-! ## The whole scan -/

/-- **The scan stops at the last stop.**  Its flag is lowered where the quotes that it has passed come in
pairs. -/
theorem scanBack_view {s lead passed : Text} {quoted : Bool} (hs : s = lead.reverse ++ passed)
    (hquoted : ∀ i, i + 1 = lead.length → (quoted = false ↔ Even (quotesAfter s i)))
    (hpassed : ∀ i, lead.length ≤ i → ¬Stops s i) :
    (scanBack (s.getLast? = some ' ') quoted passed lead).view = (lastStop? s).elim {} (viewAt s) := by
  induction lead generalizing passed quoted with
  | nil =>
    rw [lastStop?_eq_none fun i => hpassed i (Nat.zero_le i)]
    rfl
  | cons c rest ih =>
    have hs' : s = rest.reverse ++ c :: passed := by
      rw [hs, List.reverse_cons, List.append_assoc, List.singleton_append]
    have hhere := hquoted rest.length rfl
    by_cases hstop : Stops s rest.length
    · rw [lastStop?_eq_some hstop fun j hj => hpassed j hj, Option.elim_some, hhere.mpr hstop.1]
      subst hs'
      exact scanBack_of_stops hstop
    · rw [scanBack_of_not_stops (hs' ▸ hhere) (hs' ▸ hstop), ← hs']
      refine ih hs' (fun i hi => ?_) fun i hi => ?_
      · -- the quote passed last is the one that the flag was turned for
        have hlt : i + 1 < s.length := by
          rw [hs', List.length_append, List.length_reverse, ← hi, List.length_cons]
          omega
        rw [quotesAfter_eq_add hlt, hi]
        by_cases hquote : IsQuote s rest.length
        · simp [hquote, Nat.even_add_one, ← hhere]
        · simp [hquote, ← hhere]
      · rcases Nat.eq_or_lt_of_le hi with rfl | hlt
        · exact hstop
        · exact hpassed i hlt

/-- **The region of a place is decided by the last stop before it alone.** -/
theorem regionAt_view (t : Text) (offset : Nat) :
    (regionAt t offset).view =
      (lastStop? (before t offset)).elim {} (viewAt (before t offset)) := by
  have hlast : (before t offset).reverse.head? = (before t offset).getLast? := List.head?_reverse
  have hscan : (scanBack ((before t offset).getLast? = some ' ') false [] (before t offset).reverse).view =
      (lastStop? (before t offset)).elim {} (viewAt (before t offset)) := by
    refine scanBack_view (by simp) (fun i hi => ?_) fun i hi hstop => ?_
    · have hend : (before t offset).length ≤ i + 1 := by simpa using hi.ge
      simp [quotesAfter_of_le hend]
    · have := hstop.lt_length
      rw [List.length_reverse] at hi
      omega
  rw [regionAt]
  simpa only [hlast] using hscan

/-! ## Opening tags with attributes -/

/-- The characters that names in markup are free of. -/
def markupChars : Text := ['<', '>', '\x7b', '\x7d', '"', '\\']

/-- The name of a tag. -/
structure TagName where
  text : Text
  ne_nil : text ≠ []
  plain : ∀ c ∈ text, isBlank c = false ∧ c ∉ markupChars
  not_closing : text.head? ≠ some '/'

/-- An attribute of a tag.  Its value can hold any of the characters that open and close constructs. -/
structure WrittenAttribute where
  name : Text
  value : Text
  name_ne_nil : name ≠ []
  name_plain : ∀ c ∈ name, isBlank c = false ∧ c ∉ markupChars ∧ c ≠ '='
  value_plain : ∀ c ∈ value, c ≠ '"' ∧ c ≠ '\\'

namespace WrittenAttribute

def source (a : WrittenAttribute) : Text :=
  ' ' :: (a.name ++ '=' :: '"' :: (a.value ++ ['"']))

/-- Whether the closing quote of the value looks like an opening one. -/
def EndsInEquals (a : WrittenAttribute) : Prop :=
  a.value.getLast? = some '='

instance : DecidablePred EndsInEquals :=
  fun _ => inferInstanceAs (Decidable (_ = _))

end WrittenAttribute

/-- An opening tag up to the space behind its last attribute. -/
def openTag (tag : TagName) (attributes : List WrittenAttribute) : Text :=
  '<' :: (tag.text ++ (attributes.flatMap WrittenAttribute.source ++ [' ']))

section OpenTag

variable {afterSpace quoted : Bool} {rest passed : Text}

/-- The scan passes a run in which nothing opens or closes, and any run without quotes inside a quoted
value. -/
theorem scanBack_run {run : Text} (hquote : '"' ∉ run)
    (hskip : quoted = true ∨ ∀ c ∈ run, c ∉ markupChars) :
    scanBack afterSpace quoted passed (run.reverse ++ rest) =
      scanBack afterSpace quoted (run ++ passed) rest := by
  induction run generalizing rest with
  | nil => rfl
  | cons c run ih =>
    have hrest : quoted = true ∨ ∀ d ∈ run, d ∉ markupChars :=
      hskip.imp_right fun h d hd => h d (List.mem_cons_of_mem c hd)
    rw [List.reverse_cons, List.append_assoc, ih (fun h => hquote (List.mem_cons_of_mem c h)) hrest]
    refine scanBack_skip (fun h => hquote (h.1 ▸ List.mem_cons_self)) (hskip.imp_right fun h => ?_)
    have hc := h c List.mem_cons_self
    simp only [markupChars, List.mem_cons, not_or] at hc
    simp [hc]

/-- What stands before the closing quote of a value. -/
theorem head?_reverse_value (value rest : Text) :
    (value.reverse ++ '"' :: rest).head? = value.getLast?.or (some '"') := by
  rw [List.head?_append, List.head?_reverse]
  rfl

/-- **A closed value is passed as a whole** unless it ends in `=`. -/
theorem scanBack_value {value : Text} (hvalue : ∀ c ∈ value, c ≠ '"' ∧ c ≠ '\\')
    (hend : value.getLast? ≠ some '=') (hrest : rest.head? ≠ some '\\') :
    scanBack afterSpace false passed ('"' :: (value.reverse ++ '"' :: rest)) =
      scanBack afterSpace false ('"' :: (value ++ '"' :: passed)) rest := by
  have hescape : value.getLast?.or (some '"') ≠ some '\\' := by
    cases hlast : value.getLast? with
    | none => simp
    | some c => simpa using (hvalue c (List.mem_of_getLast? hlast)).2
  have hopen : value.getLast?.or (some '"') ≠ some '=' := by
    cases hlast : value.getLast? with
    | none => simp
    | some c => simpa [hlast] using hend
  rw [← head?_reverse_value value rest] at hescape hopen
  have hquote : '"' ∉ value := fun h => (hvalue _ h).1 rfl
  rw [scanBack_quote hescape (Or.inr hopen), Bool.not_false, scanBack_run hquote (Or.inl rfl),
    scanBack_quote hrest (Or.inl rfl), Bool.not_true]

theorem reverse_source (a : WrittenAttribute) (rest : Text) :
    a.source.reverse ++ rest =
      '"' :: (a.value.reverse ++ '"' :: ((' ' :: (a.name ++ ['='])).reverse ++ rest)) := by
  simp [WrittenAttribute.source]

/-- An attribute is passed as a whole. -/
theorem scanBack_attribute (a : WrittenAttribute) (h : ¬a.EndsInEquals) :
    scanBack afterSpace false passed (a.source.reverse ++ rest) =
      scanBack afterSpace false (a.source ++ passed) rest := by
  have hplain : ∀ c ∈ ' ' :: (a.name ++ ['=']), c ∉ markupChars := by
    intro c hc
    simp only [List.mem_cons, List.mem_append, List.not_mem_nil, or_false] at hc
    rcases hc with rfl | hc | rfl
    · decide
    · exact (a.name_plain c hc).2.1
    · decide
  have hquote : '"' ∉ ' ' :: (a.name ++ ['=']) := fun h => hplain _ h (by decide)
  rw [reverse_source, scanBack_value a.value_plain h (by simp), scanBack_run hquote (Or.inr hplain)]
  simp [WrittenAttribute.source]

/-- So are all of them. -/
theorem scanBack_attributes {attributes : List WrittenAttribute}
    (h : ∀ a ∈ attributes, ¬a.EndsInEquals) :
    scanBack afterSpace false passed ((attributes.flatMap WrittenAttribute.source).reverse ++ rest) =
      scanBack afterSpace false (attributes.flatMap WrittenAttribute.source ++ passed) rest := by
  induction attributes generalizing rest with
  | nil => rfl
  | cons a attributes ih =>
    rw [List.flatMap_cons, List.reverse_append, List.append_assoc,
      ih fun b hb => h b (List.mem_cons_of_mem a hb), scanBack_attribute a (h a List.mem_cons_self),
      List.append_assoc]

/-- A value that ends in `=` is taken to start at its closing quote. -/
theorem scanBack_endsInEquals {a : WrittenAttribute} (h : a.EndsInEquals) :
    scanBack afterSpace false passed (a.source.reverse ++ rest) =
      binding (if a.value.dropLast.getLast? = some ')' then .event else .attribute) := by
  obtain ⟨init, hvalue⟩ := List.getLast?_eq_some_iff.mp h
  rw [reverse_source, hvalue, List.reverse_append, List.reverse_singleton, List.singleton_append,
    List.cons_append, scanBack_opening, head?_reverse_value, List.dropLast_concat]
  cases hlast : init.getLast? with
  | none => simp
  | some c => rfl

/-- The name of a tag is read off the text behind its bracket. -/
theorem tagView_openTag (tag : TagName) (attributes : List WrittenAttribute) :
    tagView (tag.text ++ (attributes.flatMap WrittenAttribute.source ++ [' '])) =
      { insideTag := true, tagName := some tag.text } := by
  have hname : ∀ c ∈ tag.text, (!isBlank c && c != '>' && c != '"') = true := by
    intro c hc
    obtain ⟨hblank, hmarkup⟩ := tag.plain c hc
    simp only [markupChars, List.mem_cons, not_or] at hmarkup
    simp [hblank, hmarkup]
  have hspace : (attributes.flatMap WrittenAttribute.source ++ [' ']).head? = some ' ' := by
    cases attributes with
    | nil => rfl
    | cons a attributes => rfl
  have hstop : (attributes.flatMap WrittenAttribute.source ++ [' ']).head?.any
      (fun c => !isBlank c && c != '>' && c != '"') = false := by
    rw [hspace]
    decide
  simp only [tagView, takeWhile_append_stop hname hstop, if_neg tag.ne_nil]

/-- Behind attributes that are passed the scan comes to the bracket of the tag. -/
theorem scanBack_closed (tag : TagName) {attributes : List WrittenAttribute}
    (h : ∀ a ∈ attributes, ¬a.EndsInEquals) :
    (scanBack true false [' '] ((attributes.flatMap WrittenAttribute.source).reverse ++
        (tag.text.reverse ++ '<' :: rest))).view =
      { insideTag := true, tagName := some tag.text } := by
  have hplain : ∀ c ∈ tag.text, c ∉ markupChars := fun c hc => (tag.plain c hc).2
  have hquote : '"' ∉ tag.text := fun h => hplain _ h (by decide)
  have hhead : (tag.text ++ (attributes.flatMap WrittenAttribute.source ++ [' '])).head? ≠ some '/' := by
    obtain ⟨c, name, hname⟩ := List.exists_cons_of_ne_nil tag.ne_nil
    have hclosing := tag.not_closing
    rw [hname] at hclosing ⊢
    exact hclosing
  have hopen : scanBack true false (tag.text ++ (attributes.flatMap WrittenAttribute.source ++ [' ']))
      ('<' :: rest) =
      ofTag (tag.text ++ (attributes.flatMap WrittenAttribute.source ++ [' '])) true := by
    simp [scanBack]
  rw [scanBack_attributes h, scanBack_run hquote (Or.inr hplain), hopen, view_ofTag,
    if_pos ⟨hhead, rfl⟩, tagView_openTag]

/-- The scan comes to the last value that ends in `=` and not further. -/
theorem scanBack_unclosed {a : WrittenAttribute} (ha : a.EndsInEquals)
    {earlier later : List WrittenAttribute} (h : ∀ b ∈ later, ¬b.EndsInEquals) :
    (scanBack afterSpace false passed
        (((earlier ++ a :: later).flatMap WrittenAttribute.source).reverse ++ rest)).view =
      attributeView (a.value.dropLast.getLast? = some ')') := by
  rw [List.flatMap_append, List.flatMap_cons, List.reverse_append, List.reverse_append,
    List.append_assoc, List.append_assoc, scanBack_attributes h, scanBack_endsInEquals ha,
    view_attribute]

end OpenTag

/-- **Closed attribute values are skipped as a whole, unless one ends in `=`.**  Behind the attributes of a
tag the cursor is in the tag; but the closing quote of the last value that ends in `=` is taken for the
opening quote of another. -/
theorem regionAt_openTag (lead : Text) (tag : TagName) (attributes : List WrittenAttribute) :
    (regionAt (lead ++ openTag tag attributes) (width (lead ++ openTag tag attributes))).view =
      match attributes.reverse.find? fun a => a.EndsInEquals with
      | none => { insideTag := true, tagName := some tag.text }
      | some a => attributeView (a.value.dropLast.getLast? = some ')') := by
  have hbefore : before (lead ++ openTag tag attributes) (width (lead ++ openTag tag attributes)) =
      lead ++ openTag tag attributes := by
    simpa using before_append (lead ++ openTag tag attributes) []
  have hlead : (lead ++ openTag tag attributes).reverse =
      ' ' :: ((attributes.flatMap WrittenAttribute.source).reverse ++
        (tag.text.reverse ++ '<' :: lead.reverse)) := by
    simp [openTag]
  rw [regionAt, hbefore, hlead, List.head?_cons, decide_eq_true rfl,
    scanBack_skip (by simp) (Or.inr (by simp))]
  cases hfind : attributes.reverse.find? fun a => a.EndsInEquals with
  | none =>
    refine scanBack_closed tag fun a ha => ?_
    simpa using List.find?_eq_none.mp hfind a (List.mem_reverse.mpr ha)
  | some a =>
    obtain ⟨ha, later, earlier, hsplit, hlater⟩ := List.find?_eq_some_iff_append.mp hfind
    have hattributes : attributes = earlier.reverse ++ a :: later.reverse := by
      simpa using congrArg List.reverse hsplit
    rw [hattributes]
    refine scanBack_unclosed (of_decide_eq_true ha) fun b hb => ?_
    simpa using hlater b (List.mem_reverse.mp hb)

def linkTag : TagName where
  text := ['a']
  ne_nil := by simp
  plain := by
    simp only [List.mem_singleton, forall_eq]
    decide
  not_closing := by decide

/-- An address that ends in `=`. -/
def queryLink : WrittenAttribute where
  name := ['u', 'r', 'l']
  value := ['q', '=']
  name_ne_nil := by simp
  name_plain := by
    simp only [List.forall_mem_cons, List.not_mem_nil, false_imp_iff, implies_true, and_true]
    decide
  value_plain := by
    simp only [List.forall_mem_cons, List.not_mem_nil, false_imp_iff, implies_true, and_true]
    decide

/-- **A closed value that ends in `=` is not skipped.** -/
theorem regionAt_queryLink :
    openTag linkTag [queryLink] = "<a url=\"q=\" ".toList ∧
      (regionAt (openTag linkTag [queryLink]) (width (openTag linkTag [queryLink]))).view =
        { insideAttribute := true, binding := some .attribute } := by
  decide +kernel

end Region

end TemplateAssist
