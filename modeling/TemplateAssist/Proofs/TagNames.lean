import TemplateAssist.Proofs.Loading
import TemplateAssist.Proofs.Positions
import TemplateAssist.Proofs.Regions
import TemplateAssist.Server.Complete

/-!
# Tag names being typed

Two backward scans look at the text before the cursor: one for the tag name being typed, the other for what
the cursor sits in.  Where the first finds a name, the second finds plain markup.

* `partialTag?_eq_some_iff` — a name is being typed where name characters reach back to a `<`.
* `regionAt_of_partialTag` — plain markup is found there, whatever was opened earlier in the text.
* `Work.tags_eq` — the names of tags are found whatever the registry and the options, so that a completion
  never ends early on the way to them.
* `Session.label_tagItems` — which of them are offered.

Principal result: `Session.completionItems_of_partialTag`.
-/

namespace TemplateAssist

open Text

/-! ## The text before the cursor -/

theorem not_isNameChar_of_mem_markupChars {c : Char} (h : c ∈ Region.markupChars) : isNameChar c = false :=
  eq_false_of_any (by decide +kernel) c h

/-- A text ends at the cursor where its width is that of what stands before. -/
theorem before_eq_iff {t part : Text} {offset : Nat} :
    before t offset = part ↔ (∃ v, t = part ++ v) ∧ width part = floorBoundary t offset := by
  constructor
  · rintro rfl
    exact ⟨⟨after t offset, (before_append_after t offset).symm⟩, rfl⟩
  · rintro ⟨⟨v, ht⟩, hwidth⟩
    obtain ⟨x, hx, -⟩ := exists_append_of_width_le ht (before_append_after t offset).symm hwidth.le
    rw [floorBoundary, hx, width_append] at hwidth
    rw [hx, width_eq_zero_iff.mp (by omega : width x = 0), List.append_nil]

theorem exists_before_eq_iff {t part : Text} {offset : Nat} :
    (∃ u, before t offset = u ++ '<' :: part) ↔
      ∃ u v, t = u ++ '<' :: (part ++ v) ∧ width u + 1 + width part = floorBoundary t offset := by
  refine exists_congr fun u => ?_
  have hwidth : width (u ++ '<' :: part) = width u + 1 + width part := by
    rw [width_append, width_cons, Nat.add_assoc]
    rfl
  rw [before_eq_iff, hwidth, exists_and_right]
  simp only [List.append_assoc, List.cons_append]

/-- **A tag name is being typed where name characters reach back to a `<`.** -/
theorem partialTag?_eq_some_iff {t part : Text} {offset : Nat} :
    partialTag? t offset = some part ↔
      (∃ u, before t offset = u ++ '<' :: part) ∧ ∀ c ∈ part, isNameChar c = true := by
  have hbracket : isNameChar '<' = false := not_isNameChar_of_mem_markupChars (by simp [Region.markupChars])
  constructor
  · intro h
    simp only [partialTag?] at h
    split at h
    · rename_i hhead
      obtain ⟨rest, hrest⟩ := List.head?_eq_some_iff.mp hhead
      have hlead : (before t offset).reverse =
          (before t offset).reverse.takeWhile isNameChar ++ '<' :: rest := by
        rw [← hrest, List.takeWhile_append_dropWhile]
      cases h
      refine ⟨⟨rest.reverse, ?_⟩, fun c hc => mem_takeWhile c (List.mem_reverse.mp hc)⟩
      simpa using congrArg List.reverse hlead
    · cases h
  · rintro ⟨⟨u, hu⟩, hpart⟩
    have hlead : (before t offset).reverse = part.reverse ++ '<' :: u.reverse := by simp [hu]
    have hnames : ∀ c ∈ part.reverse, isNameChar c = true := fun c hc => hpart c (List.mem_reverse.mp hc)
    have hstop := any_head?_cons hbracket u.reverse
    rw [partialTag?]
    simp only [hlead, takeWhile_append_stop hnames hstop, dropWhile_append_stop hnames hstop]
    simp

/-- **Where a tag name is being typed there is plain markup.** -/
theorem regionAt_of_partialTag {t part : Text} {offset : Nat} (h : partialTag? t offset = some part) :
    regionAt t offset = .markup := by
  obtain ⟨⟨u, hu⟩, hpart⟩ := partialTag?_eq_some_iff.mp h
  have hplain : ∀ c ∈ part, c ∉ Region.markupChars := by
    intro c hc hmem
    have hname := hpart c hc
    rw [not_isNameChar_of_mem_markupChars hmem] at hname
    cases hname
  have hquote : '"' ∉ part := fun hmem => hplain '"' hmem (by simp [Region.markupChars])
  -- the cursor does not follow a space: it follows a name character or the `<`
  have hspace : (before t offset).reverse.head? ≠ some ' ' := by
    intro hlast
    rw [hu, List.head?_reverse, List.getLast?_append_of_ne_nil _ (List.cons_ne_nil _ _)] at hlast
    rcases List.mem_cons.mp (List.mem_of_getLast? hlast) with hbracket | hname
    · exact absurd hbracket (by decide)
    · exact absurd (hpart ' ' hname) (by decide +kernel)
  have hlead : (before t offset).reverse = part.reverse ++ '<' :: u.reverse := by simp [hu]
  rw [regionAt]
  simp only [hspace, decide_false]
  rw [hlead, Region.scanBack_run hquote (Or.inr hplain), List.append_nil, Region.scanBack,
    if_neg (by simp), if_neg (by simp), if_neg (by simp), if_neg (by simp), if_pos rfl]
  simp [Region.ofTag]

/-! ## The names of tags -/

namespace Work

/-- The template beside every source can be named. -/
def Nameable (w : World) : Prop :=
  w.options.templateExtension.contains '/' = false

theorem Nameable.parse {w : World} (h : Nameable w) (source : Path) (template : Option Path) (epoch : Nat) :
    Nameable (w.parseInEpoch source template epoch).1 := by
  rw [Nameable, (w.parseInEpoch_parsed source template epoch).options_eq]
  exact h

theorem Nameable.tended (epoch : Nat) : Tended Nameable False epoch where
  load := by
    intro w _ child parent hw _ _
    refine Keeps.loadParent (fun v source template hv => hv.parse source template epoch)
      (fun v source e hv he => ?_) _ w hw
    have hslash := World.pairedTemplate?_eq_error_iff.mp ⟨e, he⟩
    rw [hv] at hslash
    cases hslash
  merge := fun _ _ _ h => h
  aside := fun _ _ _ _ h => h

theorem Nameable.parsePairs (epoch : Nat) (pairs : List FilePair) :
    Keeps Nameable False (parsePairs epoch pairs) := by
  induction pairs with
  | nil => exact .pure _
  | cons pair rest ih =>
    refine .bind (.ask _) fun current => ?_
    split
    · exact .bind (.step fun w hw => hw.parse pair.source pair.template epoch) fun _ => ih
    · exact .pure _

theorem Nameable.scanInOrder (order : List Text → List Text) {w : World} (h : Nameable w) :
    ∃ w', scanInOrder order w = (.ok (), w') := by
  have hnoted : Nameable (w.collectPairs.1.noteSources w.collectPairs.2) := by
    obtain ⟨log, hlog⟩ := w.exists_collectPairs_eq
    rw [hlog]
    exact h
  obtain ⟨_, parsed, hparse, hparsed⟩ := (Nameable.parsePairs w.state.epoch _ _ hnoted).exists_ok
  obtain ⟨completed, w', hflatten, -⟩ :=
    ((Nameable.tended w.state.epoch).flattenAll (order parsed.state.components.keys) _ hparsed).exists_ok
  rw [scanInOrder_of_parsed hparse, bind_of_ok hflatten]
  cases completed with
  | false => exact ⟨w', rfl⟩
  | true => exact ⟨_, rfl⟩

/-- Where templates cannot be named nothing is collected, so that an empty registry stays empty. -/
theorem scanInOrder_of_not_nameable {order : List Text → List Text} (hperm : (order []).Perm []) {w : World}
    (h : ¬Nameable w) (hempty : w.state.components = []) :
    ∃ w', scanInOrder order w = (.ok (), w') := by
  obtain ⟨log, hlog⟩ := w.exists_collectPairs_eq
  have hpairs : w.collectPairs.2 = [] :=
    List.eq_nil_iff_forall_not_mem.mpr fun pair hpair => h (World.mem_collectPairs hpair).2
  have hparse : parsePairs w.state.epoch w.collectPairs.2 (w.collectPairs.1.noteSources w.collectPairs.2) =
      (.ok (), { w with log := log }) := by
    rw [hpairs, hlog]
    rfl
  have hload : loadAll w.state.epoch (order w.state.components.keys) { w with log := log } =
      (.ok true, { w with log := log }) := by
    rw [hempty, show order (Table.keys []) = [] from hperm.eq_nil]
    rfl
  exact ⟨_, scanInOrder_of_ok hparse hload rfl⟩

/-- **The names of tags are always found**, in a registry that is scanned first if it is empty. -/
theorem tags_eq (w : World) :
    let w' := if w.state.components.isEmpty then (scanAll w).2 else w
    tags w = (.ok ((w'.state.sortedComponents.filter (·.isTaggable)).map (·.name)), w') := by
  rw [tags, bind_of_ok (rfl : ask (·.state.components.isEmpty) w = _)]
  split
  · rename_i hempty
    have hscan : ∃ w', scan w = (.ok (), w') := by
      rw [scan_eq]
      by_cases h : Nameable w.nextOrder.1
      · exact h.scanInOrder _
      · exact scanInOrder_of_not_nameable (w.nextOrder.2.perm []) h (List.isEmpty_iff.mp hempty)
    obtain ⟨w', hw'⟩ := hscan
    rw [bind_of_ok (scanAll_of_scan hw'), scanAll_of_scan hw']
    rfl
  · rfl

end Work

/-! ## Completions -/

namespace Session

theorem bind_of_ok {α β : Type} {x : Session α} {s s' : Server} {a : α} (h : x s = (.ok a, s'))
    (k : α → Session β) : (x >>= k) s = k a s' := by
  show ExceptT.bindCont k (x s).1 (x s).2 = _
  rw [h]
  rfl

/-- In plain markup the names of tags are offered. -/
theorem completionItems_of_markup {uri : Uri} {content : Text} {p : Position} {s s' : Server}
    {names : List Text} (hregion : regionAt content (offsetOf content p) = .markup)
    (hnames : onRegistry Work.tags s = (.ok names, s')) :
    completionItems uri content p s =
      (.ok (Completion.tagItems names ((partialTag? content (offsetOf content p)).getD [])), s') := by
  rw [completionItems, hregion]
  simp only [Region.insideCode, Region.insideAttribute, Bool.or_self, Bool.false_eq_true, if_false]
  rw [bind_of_ok hnames]
  rfl

/-- The names that are offered: those that start with what is typed, without regard to case. -/
theorem label_tagItems (names : List Text) (part : Text) :
    (Completion.tagItems names part).map (·.label) =
      names.filter fun name => (lower part).isPrefixOf (lower name) := by
  refine List.ext_getElem (by simp [Completion.tagItems]) fun i _ _ => ?_
  simp [Completion.tagItems]

theorem kind_of_mem_tagItems {names : List Text} {part : Text} {item : CompletionItem}
    (h : item ∈ Completion.tagItems names part) : item.kind = .component := by
  obtain ⟨i, hi, rfl⟩ := List.mem_mapIdx.mp h
  rfl

/-- **Where a tag name is being typed, tag names that start with it are offered, and nothing else.**  A name
is being typed where name characters reach back from the cursor to a `<`.  That place is neither in code nor
in an attribute nor in a tag, so a completion there comes to the names of the tags, which it always finds:
those of the components with a template, in a registry that is scanned first if it is empty.  It offers
each of them that starts with what is typed, without regard to case. -/
theorem completionItems_of_partialTag (content : Text) (offset : Nat) (part : Text) :
    (partialTag? content offset = some part ↔
      (∃ u v, content = u ++ '<' :: (part ++ v) ∧
        width u + 1 + width part = floorBoundary content offset) ∧
      ∀ c ∈ part, isNameChar c = true) ∧
    (partialTag? content offset = some part →
      regionAt content offset = .markup ∧
      ∀ uri p s, offsetOf content p = offset →
        let w := if s.world.state.components.isEmpty then (Work.scanAll s.world).2 else s.world
        ∃ names, onRegistry Work.tags s = (.ok names, { s with world := w }) ∧
          completionItems uri content p s =
            (.ok (Completion.tagItems names part), { s with world := w }) ∧
          names.Perm ((w.state.components.values.filter (·.templateFile.isSome)).map (·.name)) ∧
          (Completion.tagItems names part).map (·.label) =
            names.filter (fun name => (lower part).isPrefixOf (lower name)) ∧
          ∀ item ∈ Completion.tagItems names part, item.kind = .component) := by
  refine ⟨?_, fun hpart => ⟨regionAt_of_partialTag hpart, ?_⟩⟩
  · rw [partialTag?_eq_some_iff, exists_before_eq_iff]
  · rintro uri p s rfl w
    have hask : onRegistry Work.tags s =
        (.ok ((w.state.sortedComponents.filter (·.isTaggable)).map (·.name)), { s with world := w }) := by
      rw [onRegistry, Work.tags_eq s.world]
    refine ⟨_, hask, ?_, ?_, label_tagItems _ part, fun item => kind_of_mem_tagItems⟩
    · rw [completionItems_of_markup (regionAt_of_partialTag hpart) hask, hpart, Option.getD_some]
    · exact ((sortBy_perm _ _).filter _).map _

/-- A tag begun inside a quoted value and a brace that are still open. -/
def unclosedText : Text :=
  "<p a=\"\x7b\x7b x <NA".toList

/-- A server whose workspace holds two components with a template and one without. -/
def navServer : Server :=
  .start (.workspace [.writeIn "Box.php" "<?php class Box \x7b\x7d" 1, .writeIn "Box.html" "<b>" 1,
    .writeIn "Nav.php" "<?php class Nav \x7b\x7d" 1, .writeIn "Nav.html" "<i>" 1,
    .writeIn "Nap.php" "<?php class Nap \x7b\x7d" 1]) none (some ⟨"/w".toList⟩) .default none

theorem completionItems_of_partialTag_unclosedText :
    let uri := Uri.ofParts [] ["w".toList, "nav.html".toList] []
    partialTag? unclosedText 14 = some "NA".toList ∧ regionAt unclosedText 14 = .markup ∧
      ∃ names s', onRegistry Work.tags navServer = (.ok names, s') ∧
        names = ["Box".toList, "Nav".toList] ∧
        completionItems uri unclosedText ⟨0, 14⟩ navServer =
          (.ok (Completion.tagItems names "NA".toList), s') ∧
        (Completion.tagItems names "NA".toList).map (·.label) = ["Nav".toList] ∧
        ∀ item ∈ Completion.tagItems names "NA".toList, item.kind = .component := by
  have hpart : partialTag? unclosedText 14 = some "NA".toList := by decide +kernel
  have hoffset : offsetOf unclosedText ⟨0, 14⟩ = 14 := by decide +kernel
  obtain ⟨hmarkup, hitems⟩ := (completionItems_of_partialTag unclosedText 14 "NA".toList).2 hpart
  obtain ⟨names, hnames, hcomplete, -, hlabels, hkind⟩ := hitems
    (Uri.ofParts [] ["w".toList, "nav.html".toList] []) ⟨0, 14⟩ navServer hoffset
  have hfound : (onRegistry Work.tags navServer).1 = .ok ["Box".toList, "Nav".toList] := by decide +kernel
  rw [hnames] at hfound
  obtain rfl := Except.ok.inj hfound
  refine ⟨hpart, hmarkup, _, _, hnames, rfl, hcomplete, hlabels.trans ?_, hkind⟩
  decide +kernel

end Session

end TemplateAssist
