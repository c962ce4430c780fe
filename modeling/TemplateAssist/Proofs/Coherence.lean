import TemplateAssist.Proofs.Index
import TemplateAssist.Proofs.Paths
import TemplateAssist.Proofs.Session
import TemplateAssist.Proofs.Signatures

/-!
# Coherence

A cache is coherent when every component has exactly the members it should have.

* `Coherent` — every cached component is its own flattening.
* `Kin` — a class is on the chain of another, or the other way round: what the merge after an update
  reaches (`mergeKin_get?`).
* `Coherent.mergeKin` — whatever one name is changed to, merging its kin makes a cache coherent again;
  `Coherent.erase_refresh` is the case of a component that is dropped.
* `Renewed` — what parses do to a cache: components are dropped, and those that come in have nothing
  merged.
* `update_coherent_iff` — when an update leaves a cache coherent; `update_coherent_of_settled` — it does if the
  file keeps its class and no parent can be loaded (`World.Grounded`).

Principal result: `update_coherent_iff`.  A dropped component is always made up for, but after a parse
only the kin of the parsed class is merged anew.  Everything else has to be right already: a class whose
parent was renamed away, or loaded on behalf of another, keeps what it inherited.
-/

namespace TemplateAssist

namespace Components

variable {cs : Components}

/-- Every component has exactly the members it should have. -/
structure Coherent (cs : Components) : Prop where
  keyed : cs.Keyed
  flat : ∀ n c, cs.get? n = some c → c = cs.flatten c

theorem coherent_iff : cs.Coherent ↔
    (Table.keys cs).Nodup ∧ ∀ e ∈ cs, e.2.name = e.1 ∧ e.2 = cs.flatten e.2 := by
  constructor
  · intro h
    refine ⟨h.keyed.nodup, fun e he => ?_⟩
    have hget : cs.get? e.1 = some e.2 := Table.get?_of_mem h.keyed.nodup he
    exact ⟨h.keyed.named _ _ hget, h.flat _ _ hget⟩
  · rintro ⟨hnd, hall⟩
    exact ⟨⟨hnd, fun n c hc => (hall _ (Table.mem_of_get? hc)).1⟩,
      fun n c hc => (hall _ (Table.mem_of_get? hc)).2⟩

instance (cs : Components) : Decidable cs.Coherent :=
  decidable_of_iff _ coherent_iff.symm

theorem Coherent.nil : Coherent [] :=
  ⟨⟨List.nodup_nil, fun _ _ h => by cases h⟩, fun _ _ h => by cases h⟩

theorem flatten_flatten (hn : cs.Named) {n : Text} {c : Component} (hc : cs.get? n = some c) :
    cs.flatten (cs.flatten c) = cs.flatten c :=
  flatten_congr (.refl cs) (bare_flatten hn hc)

/-! ## Merging everything -/

/-- Merging all components flattens each of them. -/
theorem resolveEach_keys_get? (hk : cs.Keyed) {names : List Text} (hnames : ∀ n ∈ cs.keys, n ∈ names)
    (n : Text) : (cs.resolveEach names).1.get? n = (cs.get? n).map cs.flatten := by
  cases hc : cs.get? n with
  | none => exact (resolveEach_sameBare names hk.named).get?_none hc
  | some c =>
    have hn : ∃ name ∈ names, cs.Reaches name n := ⟨n, hnames n (Table.mem_keys_of_get? hc), .refl⟩
    rw [(resolveEach_get? names hk.named n).1 hn, hc]

/-- **Merging all components makes a cache coherent.** -/
theorem Keyed.resolveEach_coherent (hk : cs.Keyed) {names : List Text}
    (hnames : ∀ n ∈ cs.keys, n ∈ names) : Coherent (cs.resolveEach names).1 := by
  refine ⟨hk.resolveEach names, fun n c hc => ?_⟩
  rw [resolveEach_keys_get? hk hnames, Option.map_eq_some_iff] at hc
  obtain ⟨d, hd, rfl⟩ := hc
  rw [← flatten_congr (resolveEach_sameBare names hk.named) rfl, flatten_flatten hk.named hd]

/-- Merging a coherent cache changes nothing. -/
theorem Coherent.resolveEach_eq (h : Coherent cs) (names : List Text) :
    (cs.resolveEach names).1 = cs := by
  have hkeys := keys_resolveEach cs names
  refine Table.eq_of_get?_eq hkeys (hkeys ▸ h.keyed.nodup) fun n => ?_
  obtain ⟨hflat, hsame⟩ := resolveEach_get? names h.keyed.named n
  by_cases hn : ∃ name ∈ names, cs.Reaches name n
  · rw [hflat hn]
    cases hc : cs.get? n with
    | none => rfl
    | some c => rw [Option.map_some, ← h.flat n c hc]
  · exact hsame hn

/-! ## Merging the kin of a class -/

/-- One of two classes is on the chain of parents of the other. -/
def Kin (cs : Components) (a b : Text) : Prop :=
  cs.Reaches a b ∨ cs.Reaches b a

theorem SameBare.kin_iff {cs cs' : Components} (h : SameBare cs cs') {a b : Text} :
    cs.Kin a b ↔ cs'.Kin a b := by
  unfold Kin
  rw [h.reaches_iff, h.reaches_iff]

/-- Two names on one chain are kin. -/
theorem Kin.of_reaches {a b x : Text} (ha : cs.Reaches x a) (hb : cs.Reaches x b) : cs.Kin a b :=
  Relation.ReflTransGen.total_of_right_unique (fun _ _ _ h h' => h.unique h') ha hb

/-- The components with the chain of a class and then its dependents merged anew. -/
def mergeKin (cs : Components) (name : Text) : Components :=
  (Components.refresh (cs.resolveEach [name]).1 name).1

theorem mergeKin_sameBare (hk : cs.Keyed) (name : Text) : SameBare cs (cs.mergeKin name) :=
  (resolveEach_sameBare [name] hk.named).trans
    (resolveEach_sameBare _ (hk.resolveEach [name]).named)

/-- **The merge after a parse** flattens the kin of the parsed class and touches nothing else. -/
theorem mergeKin_get? (hk : cs.Keyed) (name n : Text) :
    (cs.Kin name n → (cs.mergeKin name).get? n = (cs.get? n).map cs.flatten) ∧
      (¬ cs.Kin name n → (cs.mergeKin name).get? n = cs.get? n) := by
  have hsame := resolveEach_sameBare [name] hk.named
  obtain ⟨hup, hoff⟩ := resolveEach_get? [name] hk.named n
  simp only [List.mem_singleton, exists_eq_left] at hup hoff
  obtain ⟨hdown, hrest⟩ := refresh_get? (hk.resolveEach [name]) name n
  simp only [← hsame.reaches_iff, ← hsame.has_eq] at hdown hrest
  rw [hsame.map_flatten] at hdown
  constructor
  · intro hkin
    by_cases hdep : ∃ m, m ≠ name ∧ Table.has cs m = true ∧ cs.Reaches m name ∧ cs.Reaches m n
    · exact hdown hdep
    · refine (hrest hdep).trans ?_
      rcases hkin with hreach | hreach
      · exact hup hreach
      · cases hc : cs.get? n with
        | none =>
          rw [hsame.get?_none hc]
          rfl
        | some c =>
          by_cases hne : n = name
          · rw [hup (hne ▸ .refl), hc]
          · exact absurd ⟨n, hne, Table.has_eq_true_iff.mpr ⟨c, hc⟩, hreach, .refl⟩ hdep
  · intro hkin
    have hdep : ¬ ∃ m, m ≠ name ∧ Table.has cs m = true ∧ cs.Reaches m name ∧ cs.Reaches m n := by
      rintro ⟨m, -, -, hmname, hmn⟩
      exact hkin (.of_reaches hmname hmn)
    exact (hrest hdep).trans (hoff fun h => hkin (Or.inl h))

/-! ## Changing one component -/

/-- Two caches hold the same components, that of one name apart. -/
structure AlikeOff (cs cs' : Components) (name : Text) : Prop where
  keyed : cs'.Keyed
  other : ∀ m, m ≠ name → cs'.get? m = cs.get? m

theorem Keyed.alikeOff_insert (hk : cs.Keyed) (c : Component) :
    AlikeOff cs (cs.insert c.name c) c.name := by
  refine ⟨hk.insert c, fun m hm => ?_⟩
  rw [Table.get?_insert, if_neg (Ne.symm hm)]

theorem Keyed.alikeOff_erase (hk : cs.Keyed) (name : Text) : AlikeOff cs (cs.erase name) name := by
  refine ⟨hk.erase name, fun m hm => ?_⟩
  rw [Table.get?_erase, if_neg (Ne.symm hm)]

/-- A component whose chain does not meet the changed name should inherit what it should inherit
before. -/
theorem AlikeOff.flatten_eq {mid : Components} {name m : Text} {c : Component}
    (h : AlikeOff cs mid name) (hc : mid.get? m = some c) (hm : ¬ mid.Reaches m name) :
    mid.flatten c = cs.flatten c := by
  refine AgreeFrom.flatten_eq rfl fun p hp x hx => ?_
  have hxn : x ≠ name := by
    rintro rfl
    exact hm (.head ((extends_iff hc).mpr hp) hx)
  rw [h.other x hxn]

/-- **One change is made up for** by merging the kin of the changed name. -/
theorem Coherent.mergeKin {mid : Components} {name : Text} (h : cs.Coherent)
    (hmid : AlikeOff cs mid name) : (mid.mergeKin name).Coherent := by
  have hk := hmid.keyed
  have hsame := mergeKin_sameBare hk name
  refine ⟨(hk.resolveEach [name]).resolveEach _, fun m c hc => ?_⟩
  rw [← flatten_congr hsame rfl]
  by_cases hkin : mid.Kin name m
  · rw [(mergeKin_get? hk name m).1 hkin, Option.map_eq_some_iff] at hc
    obtain ⟨d, hd, rfl⟩ := hc
    rw [flatten_flatten hk.named hd]
  · rw [(mergeKin_get? hk name m).2 hkin] at hc
    have hne : m ≠ name := by
      rintro rfl
      exact hkin (Or.inl .refl)
    have hbefore : cs.get? m = some c := by rw [← hmid.other m hne, hc]
    rw [hmid.flatten_eq hc fun hr => hkin (Or.inr hr)]
    exact h.flat m c hbefore

/-- Dropping a component and merging its dependents anew keeps a cache coherent. -/
theorem Coherent.erase_refresh (h : Coherent cs) (name : Text) :
    Coherent (Components.refresh (cs.erase name) name).1 := by
  have hnone : (cs.erase name).get? name = none := by rw [Table.get?_erase, if_pos rfl]
  have hmerge : Components.mergeKin (cs.erase name) name =
      (Components.refresh (cs.erase name) name).1 := by
    have hres : (Components.resolveIn (cs.erase name) name).1 = cs.erase name := by
      rw [resolveIn, resolveFrom_of_get?_none List.not_mem_nil hnone]
    show (Components.refresh (Components.resolveIn (cs.erase name) name).1 name).1 = _
    rw [hres]
  rw [← hmerge]
  exact h.mergeKin (h.keyed.alikeOff_erase name)

/-! ## What parses do to a cache -/

/-- A cache from which components were dropped and to which some with nothing merged were added. -/
structure Renewed (before after : Components) : Prop where
  keyed : before.Keyed → after.Keyed
  entry : ∀ n c, after.get? n = some c → before.get? n = some c ∨ c.bare = c

theorem Renewed.refl (cs : Components) : Renewed cs cs :=
  ⟨id, fun _ _ h => Or.inl h⟩

theorem Renewed.trans {cs cs' cs'' : Components} (h : Renewed cs cs') (h' : Renewed cs' cs'') :
    Renewed cs cs'' := by
  refine ⟨fun hk => h'.keyed (h.keyed hk), fun n c hc => ?_⟩
  rcases h'.entry n c hc with hc' | hb
  · exact h.entry n c hc'
  · exact Or.inr hb

theorem Renewed.nil (cs : Components) : Renewed cs [] :=
  ⟨fun _ => Coherent.nil.keyed, fun _ _ h => by cases h⟩

theorem Renewed.erase (cs : Components) (n : Text) : Renewed cs (cs.erase n) := by
  refine ⟨fun hk => hk.erase n, fun m c hm => ?_⟩
  rw [Table.get?_erase] at hm
  split at hm
  · cases hm
  · exact Or.inl hm

theorem Renewed.insert (cs : Components) {c : Component} (hb : c.bare = c) :
    Renewed cs (cs.insert c.name c) := by
  refine ⟨fun hk => hk.insert c, fun m d hm => ?_⟩
  rw [Table.get?_insert] at hm
  split at hm
  · exact Or.inr (Option.some.inj hm ▸ hb)
  · exact Or.inl hm

/-- Outside the kin of a class, every component should inherit after some work what it should inherit
before, and nothing if it came in with the work. -/
def Undisturbed (before after : Components) (name : Text) : Prop :=
  ∀ n c, after.get? n = some c → ¬ after.Kin name n →
    after.flatten c = if before.get? n = some c then before.flatten c else c.bare

theorem mergeKin_coherent_iff {mid : Components} (h : cs.Coherent) (hr : Renewed cs mid) (name : Text) :
    (mid.mergeKin name).Coherent ↔ Undisturbed cs (mid.mergeKin name) name := by
  have hk := hr.keyed h.keyed
  have hsame := mergeKin_sameBare hk name
  have hget := mergeKin_get? hk name
  constructor
  · intro hcoh n c hc hkin
    rw [← hcoh.flat n c hc]
    split
    · rename_i hbefore
      exact h.flat n c hbefore
    · rename_i hbefore
      rw [(hget n).2 fun hkin' => hkin (hsame.kin_iff.mp hkin')] at hc
      exact ((hr.entry n c hc).resolve_left hbefore).symm
  · intro hun
    refine ⟨⟨?_, hsame.named hk.named⟩, fun n c hc => ?_⟩
    · exact ((hk.resolveEach [name]).resolveEach _).nodup
    · by_cases hkin : (mid.mergeKin name).Kin name n
      · rw [(hget n).1 (hsame.kin_iff.mpr hkin), Option.map_eq_some_iff] at hc
        obtain ⟨d, hd, rfl⟩ := hc
        rw [← flatten_congr hsame rfl, flatten_flatten hk.named hd]
      · rw [hun n c hc hkin]
        rw [(hget n).2 fun hkin' => hkin (hsame.kin_iff.mp hkin')] at hc
        split
        · rename_i hbefore
          exact h.flat n c hbefore
        · rename_i hbefore
          exact ((hr.entry n c hc).resolve_left hbefore).symm

end Components

/-! ## Parses and evictions -/

open Components

namespace State

/-- An eviction drops one component or none. -/
theorem evictFile_components (s : State) (source : Path) :
    ((s.evictFile source).2 = none ∧ (s.evictFile source).1.components = s.components) ∨
      ∃ name c, s.components.get? name = some c ∧ (s.evictFile source).2 = some c ∧
        (s.evictFile source).1.components = s.components.erase name := by
  unfold evictFile
  cases s.nameFor? source with
  | none => exact Or.inl ⟨rfl, rfl⟩
  | some name =>
    cases hc : s.lookup? name with
    | none => exact Or.inl (by simp only [hc, and_self])
    | some c => exact Or.inr ⟨name, c, hc, by simp only [hc, and_self]⟩

theorem evictFile_renewed (s : State) (source : Path) :
    Renewed s.components (s.evictFile source).1.components := by
  rcases s.evictFile_components source with ⟨-, hcs⟩ | ⟨name, c, -, -, hcs⟩
  · rw [hcs]
    exact .refl _
  · rw [hcs]
    exact .erase _ _

/-- An insertion changes one name, if the file stands for no other class. -/
theorem Indexed.alikeOff_insert {s : State} (hi : s.Indexed) {c : Component}
    (hfile : ∀ n, s.nameFor? c.sourceFile = some n → n = c.name) (stamp : Stamp)
    (templateStamp : Option Stamp) :
    AlikeOff s.components (s.insert c stamp templateStamp).components c.name := by
  refine ⟨(hi.insert c stamp templateStamp).keyed, fun m hm => Option.ext fun d => ?_⟩
  rw [hi.insert_get?]
  constructor
  · rintro (⟨he, -⟩ | ⟨-, hd, -⟩)
    · exact absurd he hm
    · exact hd
  · intro hd
    exact Or.inr ⟨hm, hd, fun hsource => hm (hfile m ((hi.nameFor?_eq_iff hd).mpr hsource))⟩

theorem insert_renewed (s : State) {c : Component} (hb : c.bare = c) (stamp : Stamp)
    (templateStamp : Option Stamp) :
    Renewed s.components (s.insert c stamp templateStamp).components := by
  have hfile : Renewed s.components (s.releaseFile c).components := by
    unfold releaseFile
    split
    · exact evictFile_renewed s _
    · exact .refl _
  have hclass : Renewed (s.releaseFile c).components ((s.releaseFile c).releaseClass c).components := by
    unfold releaseClass
    split
    · split
      · exact .refl _
      · exact evictFile_renewed _ _
    · exact .refl _
  obtain ⟨sources, hinsert⟩ := s.insert_eq c stamp templateStamp
  rw [hinsert]
  exact (hfile.trans hclass).trans (.insert _ hb)

end State

namespace World

theorem bare_extract {w : World} {text : Text} {signatures : Signatures}
    (hs : Source.signatures? text = some signatures) (source : Path) (template : Option Path) :
    (w.extract signatures source template).bare = w.extract signatures source template := by
  obtain ⟨hp, hm⟩ := Source.signatures?_declaringClass hs
  exact Component.bare_eq_self rfl hp hm

theorem begun_renewed (w : World) (source : Path) (template : Option Path) :
    Renewed w.state.components (w.begun source template).state.components := by
  rcases w.beginExtraction_state ⟨source, (w.seenTemplate? template).map (·.1)⟩ with hs | ⟨_, _, hs⟩
  · rw [begun, hs]
    exact .refl _
  · rw [begun, hs]
    exact .nil _

theorem begun_options (w : World) (source : Path) (template : Option Path) :
    (w.begun source template).options = w.options := by
  rw [begun, beginExtraction_eq]

theorem Parsed.renewed {w w' : World} {source : Path} {template : Option Path} {epoch : Nat}
    {r : Option Component} (h : Parsed w source template epoch w' r) :
    Renewed w.state.components w'.state.components := by
  cases h with
  | missing _ _ | fresh _ _ _ | unread _ _ _ _ => exact .refl _
  | classless _ _ _ | superseded _ _ _ _ | older _ _ _ _ _ => exact w.begun_renewed source template
  | cached _ _ hs _ _ =>
    exact (w.begun_renewed source template).trans (State.insert_renewed _ (bare_extract hs ..) ..)

/-- A parse without an answer leaves the components as they are, unless the registry was cleared. -/
theorem Parsed.components_of_none {w w' : World} {source : Path} {template : Option Path} {epoch : Nat}
    (h : Parsed w source template epoch w' none) :
    w'.state.components = w.state.components ∨ w'.state.components = [] := by
  have hbegun : (w.begun source template).state.components = w.state.components ∨
      (w.begun source template).state.components = [] := by
    rcases w.beginExtraction_state ⟨source, (w.seenTemplate? template).map (·.1)⟩ with hs | ⟨_, _, hs⟩
    · exact Or.inl (by rw [begun, hs])
    · exact Or.inr (by rw [begun, hs]; rfl)
  cases h with
  | missing _ _ | unread _ _ _ _ => exact Or.inl rfl
  | classless _ _ _ | superseded _ _ _ _ => exact hbegun

theorem Parsed.options_eq {w w' : World} {source : Path} {template : Option Path} {epoch : Nat}
    {r : Option Component} (h : Parsed w source template epoch w' r) : w'.options = w.options := by
  cases h with
  | missing _ _ | fresh _ _ _ | unread _ _ _ _ => rfl
  | classless _ _ _ | superseded _ _ _ _ | older _ _ _ _ _ | cached _ _ _ _ _ =>
    exact w.begun_options source template

/-- Nothing can be loaded for a component: its parent is cached, or there is no file to load it from. -/
def Grounded (w : World) (c : Component) : Prop :=
  ∀ p ∈ c.parentName?, w.state.components.has p = true ∨ w.disk.isFile (w.parentSource c p) = false

theorem Grounded.parsed {w w' : World} {c : Component} (h : w.Grounded c) (hdisk : w'.disk = w.disk)
    (hoptions : w'.options = w.options) (hknown : w'.state.knownSources.get? = w.state.knownSources.get?)
    (hhas : ∀ p, w.state.components.has p = true → w'.state.components.has p = true) : w'.Grounded c := by
  intro p hp
  refine (h p hp).imp (hhas p) fun hgone => ?_
  rwa [hdisk, parentSource, hknown, hoptions]

theorem remember_get? {w : World} {source : Path} (h : w.disk.present source = true) {stem : Text}
    (hstem : source.stem? = some stem) :
    (w.remember source).state.knownSources.get? stem = some source := by
  rw [remember, if_pos h, State.noteSource_get?, if_pos hstem]

/-- A parse on behalf of a remembered source changes one name, if the file stands for no other class, and
leaves nothing to load if there was nothing. -/
theorem Parsed.alikeOff {w w' : World} {source : Path} {template : Option Path} {epoch : Nat}
    {c : Component} (h : Parsed w source template epoch w' (some c)) (hi : w.state.Indexed)
    (hhooks : w.hooks = []) {text : Text} {signatures : Signatures}
    (htext : w.disk.readText source = .ok text) (hs : Source.signatures? text = some signatures)
    (hfile : ∀ n ∈ w.state.nameFor? source, n = signatures.className)
    (hknown : ∀ stem, source.stem? = some stem → w.state.knownSources.get? stem = some source)
    (hcached : ∀ n, ∀ d ∈ w.state.lookup? n, w.Grounded d)
    (hclass : w.Grounded (w.extract signatures source template)) :
    AlikeOff w.state.components w'.state.components c.name ∧
      ∀ n, ∀ d ∈ w'.state.lookup? n, w'.Grounded d := by
  have hbegun := begun_of_no_hooks hhooks source template
  cases h with
  | fresh _ _ _ => exact ⟨⟨hi.keyed, fun _ _ => rfl⟩, hcached⟩
  | older _ _ _ _ _ =>
    rw [hbegun]
    exact ⟨⟨hi.keyed, fun _ _ => rfl⟩, hcached⟩
  | @cached _ stamp _ _ hr hs' _ _ =>
    obtain rfl := Except.ok.inj (hr.readText.symm.trans htext)
    obtain rfl := Option.some.inj (hs.symm.trans hs')
    rw [hbegun]
    have halike := hi.alikeOff_insert (c := w.extract signatures source template) hfile stamp
      ((w.seenTemplate? template).map (·.2))
    refine ⟨halike, fun n d hd => ?_⟩
    have hgrounded : w.Grounded d := by
      rcases (hi.insert_get? ..).mp hd with ⟨-, rfl⟩ | ⟨-, hd, -⟩
      · exact hclass
      · exact hcached n d hd
    refine hgrounded.parsed rfl rfl (funext fun stem => ?_) fun p hp => ?_
    · refine (hi.insert_knownSources ..).trans ?_
      split
      · rename_i hstem
        exact (hknown stem hstem).symm
      · rfl
    · by_cases hne : p = signatures.className
      · exact (hi.insert_has_iff ..).mpr (Or.inl hne)
      · rw [Table.has, halike.other p hne]
        exact hp

/-- The component of a file dropped, with its dependents merged anew, leaves a cache coherent. -/
theorem evict_coherent {w : World} (h : Coherent w.state.components) (source : Path) :
    Coherent (w.evict source).state.components := by
  have hforget : (w.state.forgetSource source).components = w.state.components := by
    obtain ⟨sources, heq, -⟩ := w.state.forgetSource_eq source
    rw [heq]
  rcases (w.state.forgetSource source).evictFile_components source with
    ⟨hnone, hcs⟩ | ⟨name, c, hc, hsome, hcs⟩
  · simp only [evict, hnone]
    rw [hcs, hforget]
    exact h
  · simp only [evict, hsome]
    rw [hforget] at hc hcs
    have hname : c.name = name := h.keyed.named name c hc
    show Coherent (Components.refresh ((w.state.forgetSource source).evictFile source).1.components
      c.name).1
    rw [hcs, hname]
    exact h.erase_refresh name

/-- The class that the file behind a path is found to declare when it is parsed anew. -/
def classBehind? (w : World) (path : Path) : Option Text :=
  match w.options.sourcePathFor path with
  | .error _ => none
  | .ok source =>
    match (Work.reparse source w).1 with
    | .ok (some c) => some c.name
    | _ => none

theorem pairedTemplate?_eq_error_iff {w : World} {source : Path} :
    (∃ e, w.pairedTemplate? source = .error e) ↔ w.options.templateExtension.contains '/' = true := by
  rw [← Path.withExtension_eq_error_iff, pairedTemplate?, Options.templatePathFor]
  cases source.withExtension w.options.templateExtension <;> simp [Except.map]

theorem exists_pairedTemplate? {w : World} (h : w.options.templateExtension.contains '/' = false)
    (source : Path) : ∃ template, w.pairedTemplate? source = .ok template := by
  cases ht : w.pairedTemplate? source with
  | ok template => exact ⟨template, rfl⟩
  | error e =>
    have hslash := pairedTemplate?_eq_error_iff.mp ⟨e, ht⟩
    rw [h] at hslash
    cases hslash

end World

theorem Disk.present_of_readText {d : Disk} {p : Path} {text : Text} (h : d.readText p = .ok text) :
    d.present p = true := by
  unfold Disk.readText at h
  unfold Disk.present
  split at h
  · rename_i hlocate
    rw [hlocate]
  all_goals cases h

namespace Work

theorem reparse_of_error {w : World} {source : Path} {e : ExtensionError}
    (h : w.pairedTemplate? source = .error e) : reparse source w = (.error e, w) := by
  have hask : asked (·.pairedTemplate? source) w = (.error e, w) := by rw [asked, h]
  rw [reparse, bind_of_ok (rfl : ask (·.state.epoch) w = _), bind_of_error hask]

/-- What comes of a file parsed anew: the file is remembered, and what a parse can do is done. -/
theorem exists_reparse {w : World} {source : Path} {template : Option Path}
    (h : w.pairedTemplate? source = .ok template) :
    ∃ sources found w', w.remember source = { w with state := { w.state with knownSources := sources } } ∧
      reparse source w = (.ok found, w') ∧
      World.Parsed { w with state := { w.state with knownSources := sources } } source template
        w.state.epoch w' found := by
  have hask : asked (·.pairedTemplate? source) w = (.ok template, w) := by rw [asked, h]
  obtain ⟨sources, hremember⟩ := w.remember_eq source
  have hp := (w.remember source).parseInEpoch_parsed source template w.state.epoch
  refine ⟨sources, ((w.remember source).parseInEpoch source template w.state.epoch).2,
    ((w.remember source).parseInEpoch source template w.state.epoch).1, hremember, ?_, ?_⟩
  · rw [reparse, bind_of_ok (rfl : ask (·.state.epoch) w = _), bind_of_ok hask]
    rfl
  · rwa [hremember] at hp ⊢

theorem update_of_error {w : World} {path source : Path} {e : ExtensionError}
    (hs : w.options.sourcePathFor path = .ok source) (hr : reparse source w = (.error e, w)) :
    update path w = (.error e, w) := by
  have hask : asked (·.options.sourcePathFor path) w = (.ok source, w) := by rw [asked, hs]
  rw [update, bind_of_ok (rfl : ask (·.state.epoch) w = _), bind_of_ok hask, bind_of_error hr]

theorem update_of_none {w w' : World} {path source : Path}
    (hs : w.options.sourcePathFor path = .ok source) (hr : reparse source w = (.ok none, w')) :
    update path w = (.ok none, if w'.state.epoch = w.state.epoch then w'.evict source else w') := by
  have hask : asked (·.options.sourcePathFor path) w = (.ok source, w) := by rw [asked, hs]
  rw [update, bind_of_ok (rfl : ask (·.state.epoch) w = _), bind_of_ok hask, bind_of_ok hr]
  rfl

theorem resolveInheritance_of_ok {w w' : World} {name : Text}
    (h : loadAncestors name w.state.epoch w = (.ok (), w')) :
    ∃ resolved, resolveInheritance name w =
      (.ok resolved,
        w'.withMerged World.mergeLevel (Components.resolveEach w'.state.components [name])) := by
  rw [resolveInheritance, bind_of_ok (rfl : ask (·.state.epoch) w = _), bind_of_ok h]
  exact ⟨_, rfl⟩

/-- An update that finds a class merges the kin of that class, after its ancestors were loaded. -/
theorem update_of_some {w w' w'' : World} {path source : Path} {c : Component}
    (hs : w.options.sourcePathFor path = .ok source) (hr : reparse source w = (.ok (some c), w'))
    (hl : loadAncestors c.name w'.state.epoch w' = (.ok (), w'')) :
    (update path w).2.state.components = Components.mergeKin w''.state.components c.name := by
  have hask : asked (·.options.sourcePathFor path) w = (.ok source, w) := by rw [asked, hs]
  obtain ⟨resolved, hres⟩ := resolveInheritance_of_ok hl
  rw [update, bind_of_ok (rfl : ask (·.state.epoch) w = _), bind_of_ok hask, bind_of_ok hr]
  simp only
  rw [bind_of_ok hres]
  rfl

/-- Loading ancestors renews the cache and does not end early when templates can be named. -/
theorem loadAncestors_renewed {w : World} (h : w.options.templateExtension.contains '/' = false)
    (name : Text) (epoch : Nat) :
    ∃ w', loadAncestors name epoch w = (.ok (), w') ∧
      Renewed w.state.components w'.state.components := by
  let P : World → Prop := fun v =>
    Renewed w.state.components v.state.components ∧ v.options = w.options
  have hload : ∀ source, Keeps P False (loadParent source epoch) := by
    refine .loadParent (fun v source template hv => ?_) (fun v source e hv he => ?_)
    · have hp := v.parseInEpoch_parsed source template epoch
      exact ⟨hv.1.trans hp.renewed, hp.options_eq.trans hv.2⟩
    · have := World.pairedTemplate?_eq_error_iff.mp ⟨e, he⟩
      rw [hv.2, h] at this
      cases this
  have hkeeps : Keeps P False (loadAncestors name epoch) :=
    .loadAncestors (fun v _ _ _ hv _ _ _ => hload _ v hv) name
  obtain ⟨_, w', hw', hren, -⟩ := (hkeeps w ⟨.refl _, rfl⟩).exists_ok
  exact ⟨w', hw', hren⟩

/-- An update that finds no class leaves a coherent cache coherent. -/
theorem update_coherent_of_none {w w' : World} {path source : Path}
    (h : Coherent w.state.components) (hs : w.options.sourcePathFor path = .ok source)
    (hr : reparse source w = (.ok none, w')) : Coherent (update path w).2.state.components := by
  have hcoh : Coherent w'.state.components := by
    cases ht : w.pairedTemplate? source with
    | error e =>
      rw [reparse_of_error ht] at hr
      cases hr
    | ok template =>
      obtain ⟨sources, found, v, -, hv, hp⟩ := exists_reparse ht
      rw [hv] at hr
      obtain ⟨hnone, rfl⟩ := Prod.mk.inj hr
      rw [Except.ok.inj hnone] at hp
      rcases hp.components_of_none with hcs | hcs
      · rw [hcs]
        exact h
      · rw [hcs]
        exact .nil
  rw [update_of_none hs hr]
  show Coherent (if w'.state.epoch = w.state.epoch then w'.evict source else w').state.components
  split
  · exact World.evict_coherent hcoh source
  · exact hcoh

theorem loadAncestors_of_grounded {w : World} (h : ∀ n, ∀ c ∈ w.state.lookup? n, w.Grounded c) (name : Text)
    (epoch : Nat) : loadAncestors name epoch w = (.ok (), w) := by
  have hkeeps : Keeps (· = w) False (loadAncestors name epoch) := by
    refine .loadAncestors (fun v current child parent hv hchild hparent hmissing => ?_) name
    subst hv
    rcases h current child hchild parent hparent with hhas | hgone
    · rw [hhas] at hmissing
      cases hmissing
    · unfold Work.loadParent
      refine .bind_ask ?_
      rw [hgone, if_neg Bool.false_ne_true]
      exact Keeps.pure _ v rfl
  obtain ⟨_, w', hload, rfl⟩ := (hkeeps w rfl).exists_ok
  exact hload

/-- **An update that renews a class keeps a cache coherent**, if the file stood for no other class and, with
the file remembered, there is nothing to load for any class. -/
theorem update_coherent_of_settled {w : World} (h : Coherent w.state.components) (hi : w.state.Indexed)
    (hhooks : w.hooks = []) {path source : Path} {text : Text} {signatures : Signatures}
    (hs : w.options.sourcePathFor path = .ok source) (htext : w.disk.readText source = .ok text)
    (hsignatures : Source.signatures? text = some signatures)
    (hfile : ∀ n ∈ w.state.nameFor? source, n = signatures.className)
    (hcached : ∀ n, ∀ c ∈ w.state.lookup? n, (w.remember source).Grounded c)
    (hclass : ∀ template,
      (w.remember source).Grounded ((w.remember source).extract signatures source template)) :
    Coherent (update path w).2.state.components := by
  cases ht : w.pairedTemplate? source with
  | error e =>
    rw [update_of_error hs (reparse_of_error ht)]
    exact h
  | ok template =>
    obtain ⟨sources, found, w', hremember, hr, hp⟩ := exists_reparse ht
    have hknown : ∀ stem, source.stem? = some stem →
        (w.remember source).state.knownSources.get? stem = some source := fun _ =>
      World.remember_get? (Disk.present_of_readText htext)
    rw [hremember] at hknown hcached hclass
    cases found with
    | none => exact update_coherent_of_none h hs hr
    | some c =>
      obtain ⟨halike, hgrounded⟩ := hp.alikeOff ⟨hi.1, hi.2, hi.3⟩ hhooks htext hsignatures hfile hknown
        hcached (hclass template)
      rw [update_of_some hs hr (loadAncestors_of_grounded hgrounded c.name w'.state.epoch)]
      exact h.mergeKin halike

/-- **When an update restores coherence.**  If the file behind the path declares no class any more, or
cannot be named or read, the cache is coherent again.  If it declares a class, the cache is coherent
again exactly when the update changed nothing that a class outside the kin of that class inherits. -/
theorem update_coherent_iff (w : World) (path : Path) (h : Coherent w.state.components) :
    Coherent (update path w).2.state.components ↔
      ∀ name, w.classBehind? path = some name →
        Undisturbed w.state.components (update path w).2.state.components name := by
  cases hs : w.options.sourcePathFor path with
  | error e =>
    have hask : asked (·.options.sourcePathFor path) w = (.error e, w) := by rw [asked, hs]
    rw [update, bind_of_ok (rfl : ask (·.state.epoch) w = _), bind_of_error hask]
    simpa [World.classBehind?, hs] using h
  | ok source =>
    cases ht : w.pairedTemplate? source with
    | error e =>
      have hr := reparse_of_error ht
      rw [update_of_error hs hr]
      simpa [World.classBehind?, hs, hr] using h
    | ok template =>
      obtain ⟨sources, found, w', -, hr, hp⟩ := exists_reparse ht
      cases found with
      | none =>
        simpa [World.classBehind?, hs, hr] using update_coherent_of_none h hs hr
      | some c =>
        have hext : w'.options.templateExtension.contains '/' = false := by
          rw [hp.options_eq]
          cases hsep : w.options.templateExtension.contains '/' with
          | false => rfl
          | true =>
            obtain ⟨e, he⟩ := World.pairedTemplate?_eq_error_iff.mpr hsep
            rw [ht] at he
            cases he
        obtain ⟨w'', hl, hren⟩ := loadAncestors_renewed hext c.name w'.state.epoch
        rw [update_of_some hs hr hl]
        have hwhole : Renewed w.state.components w''.state.components := hp.renewed.trans hren
        have hclass : w.classBehind? path = some c.name := by
          simp only [World.classBehind?, hs, hr]
        rw [hclass, mergeKin_coherent_iff h hwhole]
        constructor
        · intro hun name hname
          rwa [← Option.some.inj hname]
        · intro hun
          exact hun c.name rfl

end Work

/-! ## A parent that grows and one that is renamed -/

/-- A parent and its child, scanned, after which the file of the parent was written anew. -/
def World.rewrittenParent (text : String) : World :=
  (Work.scanAll (.workspace
    [.writeIn "Base.php" "class Base { public $x; }" 1000,
      .writeIn "Kid.php" "class Kid extends Base {}" 1000])).2.change
    (.writeIn "Base.php" text 2000)

namespace Work

/-- A property added to the parent disturbs nothing but the kin of the parent. -/
theorem update_grown_parent :
    let grown := World.rewrittenParent "class Base { public $x; public $y; }"
    Coherent grown.state.components ∧ grown.classBehind? ⟨"/w/Base.php".toList⟩ = some "Base".toList ∧
      ∀ name, grown.classBehind? ⟨"/w/Base.php".toList⟩ = some name →
        Undisturbed grown.state.components
          (update ⟨"/w/Base.php".toList⟩ grown).2.state.components name :=
  ⟨by decide +kernel, by decide +kernel,
    (update_coherent_iff _ _ (by decide +kernel)).mp (by decide +kernel)⟩

/-- A parent renamed in its file leaves its child with the members of a class that is gone. -/
theorem update_renamed_parent :
    let renamed := World.rewrittenParent "class Other {}"
    Coherent renamed.state.components ∧
      ¬ Coherent (update ⟨"/w/Base.php".toList⟩ renamed).2.state.components := by
  decide +kernel

end Work

end TemplateAssist
