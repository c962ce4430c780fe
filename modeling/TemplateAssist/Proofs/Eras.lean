import TemplateAssist.Proofs.Freshness
import TemplateAssist.Proofs.Upkeep

/-!
# What a registry has learnt since it was last cleared

* `Call` — a call of the extractor, with the disk that it found when it started.
* `Era` — the calls that started and the sources that were noted since the last clear.  `Era.hear` — what a
  hook makes of an era; `Era.follow` — what calls and their hooks make of it; `Era.run` — the era at the end
  of a session.
* `State.LearntIn` — everything in the registry was learnt in an era: each component and each member of it
  from a call, each record of a file from a call that read the file, and each remembered source from a scan
  or an update that noted it or from a call that extracted it.
* `Told` — the disk is that of an era in which everything was learnt.

Principal result: `run_told`.  A clear starts a new era and empties the registry, so what could break the
property is a call that started before the clear and ends after it.  Its epoch has passed then, so its
result is not cached.
-/

namespace TemplateAssist

/-- A call of the extractor: the files it is given, and the disk that it finds when it starts. -/
structure Call where
  pair : FilePair
  disk : Disk

namespace Call

/-- What a call extracts. -/
def signatures? (call : Call) : Option Signatures :=
  (call.disk.readText call.pair.source).toOption.bind Source.signatures?

/-- The call extracts what a component declares itself. -/
def Builds (call : Call) (c : Component) : Prop :=
  ∃ signatures, call.signatures? = some signatures ∧
    c.bare = .ofSignatures signatures call.pair.source call.pair.template

theorem Builds.of_bare_eq {call : Call} {c c' : Component} (h : call.Builds c) (hb : c.bare = c'.bare) :
    call.Builds c' := by
  rwa [Builds, ← hb]

end Call

/-- The calls that started and the sources that were noted since a clear, and the disk there is now. -/
structure Era where
  calls : List Call
  noted : List Path
  disk : Disk

namespace Era

/-- The era that starts with a clear. -/
def start (disk : Disk) : Era :=
  ⟨[], [], disk⟩

/-- The era after what a hook does. -/
def hear (e : Era) : HookAction → Era
  | .clear => start e.disk
  | .change fs => { e with disk := e.disk.apply fs }

def note (e : Era) (sources : List Path) : Era :=
  { e with noted := e.noted ++ sources }

/-- The era after a call and its hooks.  The call starts before the hooks act. -/
def call (e : Era) (pair : FilePair) (hooks : List Hook) : Era :=
  hooks.foldl (fun e h => e.hear h.action) { e with calls := e.calls ++ [⟨pair, e.disk⟩] }

/-- The era after some calls, when a number of calls were made before. -/
def follow (hooks : List Hook) : Nat → List FilePair → Era → Era
  | _, [], e => e
  | made, pair :: rest, e => follow hooks (made + 1) rest (e.call pair (hooks.filter (·.call = made + 1)))

/-- The era after the work of a step: its clear, if it starts with one, the sources that it notes, and its
calls. -/
def work (e : Era) (w : World) (s : Step) : Era :=
  ((if w.clearsFirst s then e.hear .clear else e).note (w.notedBy s)).follow w.hooks w.extractions
    ((w.step s).parses.drop w.extractions)

def step (e : Era) (w : World) : Step → Era
  | .change fs => e.hear (.change fs)
  | .scanTwice =>
    if w.scansAgain then (e.work w .scan).work (w.step .scan) .scan else e.work w .scan
  | s => e.work w s

def run (e : Era) (w : World) : List Step → Era
  | [] => e
  | s :: rest => (e.step w s).run (w.step s) rest

/-- What the calls of an era extracted. -/
def extracted (e : Era) : List Signatures :=
  e.calls.filterMap Call.signatures?

theorem foldl_hear_of_no_clear {hooks : List Hook} (h : hooks.countP (·.action = .clear) = 0) (e : Era) :
    hooks.foldl (fun e h => e.hear h.action) e =
      { e with disk := (hooks.filterMap (·.action.change?)).foldl Disk.apply e.disk } := by
  induction hooks generalizing e with
  | nil => rfl
  | cons hook rest ih =>
    rw [List.countP_cons] at h
    cases ha : hook.action with
    | clear => simp [ha] at h
    | change fs =>
      have hrest : rest.countP (·.action = .clear) = 0 := by simpa [ha] using h
      rw [List.foldl_cons, ih hrest, List.filterMap_cons, ha]
      rfl

theorem disk_foldl_hear (hooks : List Hook) (e : Era) :
    (hooks.foldl (fun e h => e.hear h.action) e).disk =
      (hooks.filterMap (·.action.change?)).foldl Disk.apply e.disk := by
  induction hooks generalizing e with
  | nil => rfl
  | cons hook rest ih =>
    rw [List.foldl_cons, ih, List.filterMap_cons]
    cases hook.action <;> rfl

theorem follow_concat (hooks : List Hook) (made : Nat) (pairs : List FilePair) (pair : FilePair) (e : Era) :
    e.follow hooks made (pairs ++ [pair]) =
      (e.follow hooks made pairs).call pair (hooks.filter (·.call = made + pairs.length + 1)) := by
  induction pairs generalizing made e with
  | nil => rfl
  | cons first rest ih =>
    have hmade : made + (first :: rest).length = made + 1 + rest.length := by
      rw [List.length_cons]
      omega
    rw [hmade]
    exact ih (made + 1) _

end Era

/-! ## Members that are merged -/

namespace Components

variable {cs : Components}

theorem exists_get?_of_mem_ancestors? {c : Component} {line : List Component}
    (h : cs.ancestors? c = some line) {a : Component} (ha : a ∈ line) : ∃ m, cs.get? m = some a := by
  cases hp : c.parentName? with
  | none =>
    rw [ancestors?_of_root hp, Option.some.injEq] at h
    rw [← h] at ha
    cases ha
  | some p =>
    rw [ancestors?_of_parent hp] at h
    obtain ⟨m, hm, -⟩ := reaches_of_mem_lineageFrom h a ha
    exact ⟨m, hm⟩

/-- Every member of a flattened component is one that a cached component declares. -/
theorem mem_of_mem_heritage {α : Type} {name : α → Text} (members : Component → List α) {n : Text}
    {c : Component} (hc : cs.get? n = some c) {line : List Component} (hl : cs.ancestors? c = some line)
    {x : α} (hx : x ∈ Component.heritage name (members c) (line.flatMap members)) :
    ∃ m d, cs.get? m = some d ∧ x ∈ members d := by
  rcases List.mem_append.mp hx with hx | hx
  · exact ⟨n, c, hc, hx⟩
  · obtain ⟨a, ha, hx⟩ := List.mem_flatMap.mp (Component.additions_subset _ _ x hx)
    obtain ⟨m, hm⟩ := exists_get?_of_mem_ancestors? hl ha
    exact ⟨m, a, hm, hx⟩

theorem mem_of_mem_flatten {n : Text} {c : Component} (hc : cs.get? n = some c) :
    (∀ p ∈ (cs.flatten c).properties, ∃ m d, cs.get? m = some d ∧ p ∈ d.properties) ∧
      ∀ x ∈ (cs.flatten c).methods, ∃ m d, cs.get? m = some d ∧ x ∈ d.methods := by
  cases hl : cs.ancestors? c with
  | none =>
    rw [flatten_of_ancestors?_none hl]
    exact ⟨fun p hp => ⟨n, c, hc, List.mem_of_mem_filter hp⟩,
      fun x hx => ⟨n, c, hc, List.mem_of_mem_filter hx⟩⟩
  | some line =>
    simp only [flatten, hl]
    refine ⟨fun p hp => ?_, fun x hx => ?_⟩
    · obtain ⟨m, d, hd, hp⟩ := mem_of_mem_heritage (fun a => a.own.properties) hc hl hp
      exact ⟨m, d, hd, List.mem_of_mem_filter hp⟩
    · obtain ⟨m, d, hd, hx⟩ := mem_of_mem_heritage (fun a => a.own.methods) hc hl hx
      exact ⟨m, d, hd, List.mem_of_mem_filter hx⟩

/-- Merging makes up no members. -/
theorem mem_of_mem_resolveEach (hn : cs.Named) {names : List Text} {n : Text} {c : Component}
    (hc : (cs.resolveEach names).1.get? n = some c) :
    (∀ p ∈ c.properties, ∃ m d, cs.get? m = some d ∧ p ∈ d.properties) ∧
      ∀ x ∈ c.methods, ∃ m d, cs.get? m = some d ∧ x ∈ d.methods := by
  obtain ⟨hreached, huntouched⟩ := resolveEach_get? names hn n
  by_cases hreach : ∃ name ∈ names, cs.Reaches name n
  · rw [hreached hreach, Option.map_eq_some_iff] at hc
    obtain ⟨d, hd, rfl⟩ := hc
    exact mem_of_mem_flatten hd
  · rw [huntouched hreach] at hc
    exact ⟨fun p hp => ⟨n, c, hc, hp⟩, fun x hx => ⟨n, c, hc, hx⟩⟩

end Components

/-! ## What was learnt -/

namespace State

/-- Everything in the registry was learnt in an era. -/
structure LearntIn (s : State) (e : Era) : Prop where
  components : ∀ n c, s.components.get? n = some c → ∃ call ∈ e.calls, call.Builds c
  properties : ∀ n c, s.components.get? n = some c → ∀ p ∈ c.properties,
    ∃ signatures ∈ e.extracted, p ∈ signatures.properties
  methods : ∀ n c, s.components.get? n = some c → ∀ m ∈ c.methods,
    ∃ signatures ∈ e.extracted, m ∈ signatures.methods
  byFile : ∀ k n, s.byFile.get? k = some n → ∃ call ∈ e.calls, call.pair.source.segments = k ∧
    ∃ signatures, call.signatures? = some signatures ∧ signatures.className = n
  recorded : ∀ k stamp, s.recorded.get? k = some stamp → ∃ call ∈ e.calls, ∃ p,
    (p = call.pair.source ∨ call.pair.template = some p) ∧ p.segments = k ∧
      call.disk.modified p = .ok stamp
  knownSources : ∀ stem p, s.knownSources.get? stem = some p → p.stem? = some stem ∧
    (p ∈ e.noted ∨ ∃ call ∈ e.calls, call.pair.source = p ∧ call.signatures?.isSome = true)

namespace LearntIn

variable {s : State} {e : Era}

theorem empty (epoch : Nat) (e : Era) : (State.empty epoch).LearntIn e where
  components := fun _ _ h => by cases h
  properties := fun _ _ h => by cases h
  methods := fun _ _ h => by cases h
  byFile := fun _ _ h => by cases h
  recorded := fun _ _ h => by cases h
  knownSources := fun _ _ h => by cases h

/-- What was learnt stays so while the era goes on. -/
theorem mono (h : s.LearntIn e) {e' : Era} (hcalls : e.calls ⊆ e'.calls)
    (hnoted : e.noted ⊆ e'.noted) : s.LearntIn e' := by
  have hextracted : e.extracted ⊆ e'.extracted := List.filterMap_subset _ hcalls
  refine ⟨fun n c hc => ?_, fun n c hc p hp => ?_, fun n c hc m hm => ?_, fun k n hk => ?_,
    fun k stamp hk => ?_, fun stem p hp => ?_⟩
  · obtain ⟨call, hcall, hbuilds⟩ := h.components n c hc
    exact ⟨call, hcalls hcall, hbuilds⟩
  · obtain ⟨signatures, hs, hp⟩ := h.properties n c hc p hp
    exact ⟨signatures, hextracted hs, hp⟩
  · obtain ⟨signatures, hs, hm⟩ := h.methods n c hc m hm
    exact ⟨signatures, hextracted hs, hm⟩
  · obtain ⟨call, hcall, hfile⟩ := h.byFile k n hk
    exact ⟨call, hcalls hcall, hfile⟩
  · obtain ⟨call, hcall, htime⟩ := h.recorded k stamp hk
    exact ⟨call, hcalls hcall, htime⟩
  · obtain ⟨hstem, hknown⟩ := h.knownSources stem p hp
    refine ⟨hstem, hknown.imp (fun hp => hnoted hp) ?_⟩
    rintro ⟨call, hcall, hsource⟩
    exact ⟨call, hcalls hcall, hsource⟩

theorem thinned (h : s.LearntIn e) {s' : State} (ht : Thinned s s') : s'.LearntIn e where
  components := fun n c hc => h.components n c (ht.components hc)
  properties := fun n c hc => h.properties n c (ht.components hc)
  methods := fun n c hc => h.methods n c (ht.components hc)
  byFile := fun k n hk => h.byFile k n (ht.byFile hk)
  recorded := fun k stamp hk => h.recorded k stamp (ht.recorded hk)
  knownSources := fun stem p hp => h.knownSources stem p (ht.knownSources ▸ hp)

theorem merged (h : s.LearntIn e) (hn : Components.Named s.components) (names : List Text) :
    LearntIn { s with components := (Components.resolveEach s.components names).1 } e where
  components := by
    intro n c hc
    obtain ⟨d, hd, hb⟩ := (Components.resolveEach_sameBare names hn).symm.get?_some hc
    obtain ⟨call, hcall, hbuilds⟩ := h.components n d hd
    exact ⟨call, hcall, hbuilds.of_bare_eq hb⟩
  properties := by
    intro n c hc p hp
    obtain ⟨m, d, hd, hp⟩ := (Components.mem_of_mem_resolveEach hn hc).1 p hp
    exact h.properties m d hd p hp
  methods := by
    intro n c hc x hx
    obtain ⟨m, d, hd, hx⟩ := (Components.mem_of_mem_resolveEach hn hc).2 x hx
    exact h.methods m d hd x hx
  byFile := h.byFile
  recorded := h.recorded
  knownSources := h.knownSources

theorem withKnown (h : s.LearntIn e) {sources : Table Text Path}
    (hsources : ∀ stem p, sources.get? stem = some p → p.stem? = some stem ∧
      (p ∈ e.noted ∨ ∃ call ∈ e.calls, call.pair.source = p ∧ call.signatures?.isSome = true)) :
    LearntIn { s with knownSources := sources } e :=
  ⟨h.components, h.properties, h.methods, h.byFile, h.recorded, hsources⟩

theorem noteSource (h : s.LearntIn e) {source : Path} (hnoted : source ∈ e.noted) :
    (s.noteSource source).LearntIn e := by
  have hget := s.noteSource_get? source
  obtain ⟨sources, heq⟩ := s.noteSource_eq source
  rw [heq] at hget ⊢
  refine h.withKnown fun stem p hp => ?_
  have hp : (if source.stem? = some stem then some source else s.knownSources.get? stem) = some p :=
    (hget stem).symm.trans hp
  split at hp
  · rename_i hstem
    obtain rfl := Option.some.inj hp
    exact ⟨hstem, Or.inl hnoted⟩
  · exact h.knownSources stem p hp

theorem forgetSource (h : s.LearntIn e) (source : Path) : (s.forgetSource source).LearntIn e := by
  obtain ⟨sources, heq, hsources⟩ := s.forgetSource_eq source
  rw [heq]
  exact h.withKnown fun stem p hp => h.knownSources stem p (hsources stem p hp)

/-- **What a call of the era extracts may be cached.** -/
theorem insert (h : s.LearntIn e) (hi : s.Indexed) {call : Call} (hcall : call ∈ e.calls)
    {signatures : Signatures}
    (hs : call.signatures? = some signatures) {stamp : Stamp} {templateStamp : Option Stamp}
    (hstamp : call.disk.modified call.pair.source = .ok stamp)
    (htemplate : ∀ t stamp', call.pair.template = some t → templateStamp = some stamp' →
      call.disk.modified t = .ok stamp') :
    (s.insert (.ofSignatures signatures call.pair.source call.pair.template) stamp
      templateStamp).LearntIn e := by
  have hextracted : signatures ∈ e.extracted := List.mem_filterMap.mpr ⟨call, hcall, hs⟩
  obtain ⟨text, -, htext⟩ := Option.bind_eq_some_iff.mp hs
  refine ⟨fun n c hc => ?_, fun n c hc p hp => ?_, fun n c hc m hm => ?_, fun k n hk => ?_,
    fun k stamp' hk => ?_, fun stem p hp => ?_⟩
  · rcases (hi.insert_get? _ stamp templateStamp).mp hc with ⟨-, rfl⟩ | ⟨-, hc, -⟩
    · obtain ⟨hprops, hmethods⟩ := Source.signatures?_declaringClass htext
      exact ⟨call, hcall, signatures, hs, Component.bare_eq_self rfl hprops hmethods⟩
    · exact h.components n c hc
  · rcases (hi.insert_get? _ stamp templateStamp).mp hc with ⟨-, rfl⟩ | ⟨-, hc, -⟩
    · exact ⟨signatures, hextracted, hp⟩
    · exact h.properties n c hc p hp
  · rcases (hi.insert_get? _ stamp templateStamp).mp hc with ⟨-, rfl⟩ | ⟨-, hc, -⟩
    · exact ⟨signatures, hextracted, hm⟩
    · exact h.methods n c hc m hm
  · rcases hi.insert_byFile hk with ⟨hsource, hn⟩ | hk
    · exact ⟨call, hcall, hsource, signatures, hs, hn⟩
    · exact h.byFile k n hk
  · rcases hi.insert_recorded hk with ⟨ht, hstamp'⟩ | ⟨hsource, rfl⟩ | ⟨-, hk⟩
    · obtain ⟨t, ht, hsegments⟩ := Option.map_eq_some_iff.mp ht
      exact ⟨call, hcall, t, Or.inr ht, hsegments, htemplate t stamp' ht hstamp'⟩
    · exact ⟨call, hcall, call.pair.source, Or.inl rfl, hsource, hstamp⟩
    · exact h.recorded k stamp' hk
  · rw [hi.insert_knownSources] at hp
    split at hp
    · rename_i hstem
      obtain rfl := Option.some.inj hp
      exact ⟨hstem, Or.inr ⟨call, hcall, rfl, by rw [hs]; rfl⟩⟩
    · exact h.knownSources stem p hp

end LearntIn

end State

namespace World

/-! ## Steps and the eras they leave -/

/-- The disk is that of an era in which everything in the registry was learnt. -/
structure Told (w : World) (e : Era) : Prop where
  disk : w.disk = e.disk
  indexed : w.state.Indexed
  learnt : w.state.LearntIn e

theorem Told.change {w : World} {e : Era} (h : w.Told e) (fs : FileStep) :
    (w.change fs).Told (e.hear (.change fs)) where
  disk := congrArg (·.apply fs) h.disk
  indexed := h.indexed
  learnt := h.learnt.mono (List.Subset.refl _) (List.Subset.refl _)

theorem Told.clear {w : World} {e : Era} (h : w.Told e) (options : Options) :
    Told { w with options := options, state := w.state.cleared } (e.hear .clear) where
  disk := h.disk
  indexed := .empty _
  learnt := .empty _ _

theorem Told.note {w : World} {e : Era} (h : w.Told e) (sources : List Path) : w.Told (e.note sources) :=
  ⟨h.disk, h.indexed, h.learnt.mono (List.Subset.refl _) (List.subset_append_left _ _)⟩

/-- The era after the next call. -/
def eraAfterCall (w : World) (e : Era) (source : Path) (template : Option Path) : Era :=
  e.call ⟨source, (w.seenTemplate? template).map (·.1)⟩ (w.hooks.filter (·.call = w.extractions + 1))

/-- A call whose hooks clear nothing belongs to the era, and nothing is lost. -/
theorem Told.begun_of_no_clear {w : World} {e : Era} (h : w.Told e) (source : Path)
    (template : Option Path) (hclears : w.clearsAt (w.extractions + 1) = 0) :
    (w.begun source template).state = w.state ∧
      Call.mk ⟨source, (w.seenTemplate? template).map (·.1)⟩ w.disk ∈
        (w.eraAfterCall e source template).calls ∧
      e.calls ⊆ (w.eraAfterCall e source template).calls ∧
      e.noted ⊆ (w.eraAfterCall e source template).noted := by
  rw [eraAfterCall, Era.call, Era.foldl_hear_of_no_clear hclears, begun, beginExtraction_state_eq,
    if_pos hclears, h.disk]
  exact ⟨rfl, List.mem_append_right _ (List.mem_singleton.mpr rfl), List.subset_append_left _ _,
    List.Subset.refl _⟩

theorem Told.begun {w : World} {e : Era} (h : w.Told e) (source : Path) (template : Option Path) :
    (w.begun source template).Told (w.eraAfterCall e source template) := by
  have hdisk : (w.begun source template).disk = (w.changesAt (w.extractions + 1)).foldl Disk.apply w.disk := by
    rw [World.begun, beginExtraction_eq]
  have hcurrent : (w.begun source template).disk = (w.eraAfterCall e source template).disk := by
    rw [hdisk, eraAfterCall, Era.call, Era.disk_foldl_hear, h.disk]
    rfl
  by_cases hclears : w.clearsAt (w.extractions + 1) = 0
  · obtain ⟨hstate, -, hcalls, hnoted⟩ := h.begun_of_no_clear source template hclears
    exact ⟨hcurrent, hstate ▸ h.indexed, hstate ▸ h.learnt.mono hcalls hnoted⟩
  · have hstate : (w.begun source template).state =
        State.empty (w.state.epoch + w.clearsAt (w.extractions + 1)) := by
      rw [World.begun, beginExtraction_state_eq, if_neg hclears]
    exact ⟨hcurrent, hstate ▸ .empty _, hstate ▸ .empty _ _⟩

/-- **What a parse caches was extracted in the era.**  The call belongs to the era that its hooks leave,
since one that is overtaken by a clear ends in another epoch than the one it started in. -/
theorem Told.cached {w : World} {e : Era} (h : w.Told e) {source : Path} {template : Option Path}
    {epoch : Nat} (hepoch : epoch ≤ w.state.epoch)
    (he : (w.begun source template).state.epoch = epoch) {stamp : Stamp} {text : Text}
    {signatures : Signatures} (hr : w.Read source template stamp text)
    (hs : Source.signatures? text = some signatures) :
    ((w.begun source template).state.insert (w.extract signatures source template) stamp
      ((w.seenTemplate? template).map (·.2))).LearntIn (w.eraAfterCall e source template) := by
  -- every clear starts a later epoch, and the work that asked for the parse started in no later one
  have hclears : w.clearsAt (w.extractions + 1) = 0 := by
    by_contra hclears
    rw [World.begun, beginExtraction_state_eq, if_neg hclears] at he
    have he : w.state.epoch + w.clearsAt (w.extractions + 1) = epoch := he
    omega
  obtain ⟨-, hcall, -, -⟩ := h.begun_of_no_clear source template hclears
  have hsignatures : Call.signatures? ⟨⟨source, (w.seenTemplate? template).map (·.1)⟩, w.disk⟩ =
      some signatures := by
    rw [Call.signatures?, hr.readText]
    exact hs
  have htemplate : ∀ t stamp', (w.extract signatures source template).templateFile = some t →
      (w.seenTemplate? template).map (·.2) = some stamp' → w.disk.modified t = .ok stamp' :=
    fun _ _ => modified_of_extract
  exact (h.begun source template).learnt.insert (h.begun source template).indexed hcall hsignatures
    hr.modified htemplate

/-- Work that started in `origin` has been followed in the era from there on. -/
def Followed (e : Era) (origin w : World) : Prop :=
  w.hooks = origin.hooks ∧ ∃ pairs, w.parses = origin.parses ++ pairs ∧
    w.Told (e.follow origin.hooks origin.extractions pairs)

theorem eraAfterCall_follow (e : Era) {origin w : World} {pairs : List FilePair}
    (hhooks : w.hooks = origin.hooks) (hparses : w.parses = origin.parses ++ pairs) (source : Path)
    (template : Option Path) :
    w.eraAfterCall (e.follow origin.hooks origin.extractions pairs) source template =
      e.follow origin.hooks origin.extractions
        (pairs ++ [⟨source, (w.seenTemplate? template).map (·.1)⟩]) := by
  have hcount : w.extractions + 1 = origin.extractions + pairs.length + 1 := by
    rw [extractions, hparses, List.length_append]
    rfl
  rw [eraAfterCall, Era.follow_concat, hhooks, hcount]

theorem Followed.parse {e : Era} {origin w w' : World} (h : Followed e origin w) {source : Path}
    {template : Option Path} {epoch : Nat} (hepoch : epoch ≤ w.state.epoch) {r : Option Component}
    (hp : Parsed w source template epoch w' r) : Followed e origin w' := by
  obtain ⟨hhooks, pairs, hparses, htold⟩ := h
  have hera := eraAfterCall_follow e hhooks hparses source template
  have hbegun := htold.begun source template
  have hhooks' : (w.begun source template).hooks = origin.hooks := by
    rw [World.begun, beginExtraction_eq]
    exact hhooks
  have hparses' : (w.begun source template).parses =
      origin.parses ++ (pairs ++ [⟨source, (w.seenTemplate? template).map (·.1)⟩]) := by
    rw [begun_parses, hparses, List.append_assoc]
  cases hp with
  | missing _ _ | fresh _ _ _ | unread _ _ _ _ =>
    exact ⟨hhooks, pairs, hparses, htold.disk, htold.indexed, htold.learnt⟩
  | classless _ _ _ | superseded _ _ _ _ | older _ _ _ _ _ =>
    rw [hera] at hbegun
    exact ⟨hhooks', _, hparses', hbegun.disk, hbegun.indexed, hbegun.learnt⟩
  | cached _ hr hs he _ =>
    have hcached := htold.cached hepoch he hr hs
    rw [hera] at hbegun hcached
    exact ⟨hhooks', _, hparses', hbegun.disk, hbegun.indexed.insert _ _ _, hcached⟩

/-- **No change to a registry brings in what was learnt in another era.**  The sources that the work notes
are those of the era with which it starts. -/
theorem followed_held (e : Era) (origin : World) :
    Work.Held (Followed e origin) fun w p => w.parses = origin.parses ∧ p ∈ e.noted where
  parse := fun w source template epoch hepoch h =>
    h.parse hepoch (w.parseInEpoch_parsed source template epoch)
  merge := by
    rintro w level names ⟨hhooks, pairs, hparses, h⟩
    have hsame := Components.resolveEach_sameBare names h.indexed.keyed.named
    exact ⟨hhooks, pairs, hparses, h.disk,
      h.indexed.of_sameBare hsame (h.indexed.keyed.resolveEach names),
      h.learnt.merged h.indexed.keyed.named names⟩
  evict := by
    rintro w source ⟨hhooks, pairs, hparses, h⟩
    have ht := State.Thinned.refl.evictFile h.indexed source
    exact ⟨hhooks, pairs, hparses, h.disk, ht.indexed h.indexed, h.learnt.thinned ht⟩
  note := by
    rintro w source ⟨hsame, hnoted⟩ ⟨hhooks, pairs, hparses, h⟩
    -- no file has been read yet
    obtain rfl : pairs = [] := List.self_eq_append_right.mp (hsame.symm.trans hparses)
    have hlearnt := h.learnt.noteSource hnoted
    obtain ⟨sources, heq⟩ := w.state.noteSource_eq source
    rw [heq] at hlearnt ⊢
    exact ⟨hhooks, [], hparses, h.disk, ⟨h.indexed.1, h.indexed.2, h.indexed.3⟩, hlearnt⟩
  forget := by
    rintro w source ⟨hhooks, pairs, hparses, h⟩
    have hlearnt := h.learnt.forgetSource source
    obtain ⟨sources, heq, -⟩ := w.state.forgetSource_eq source
    rw [heq] at hlearnt ⊢
    exact ⟨hhooks, pairs, hparses, h.disk, ⟨h.indexed.1, h.indexed.2, h.indexed.3⟩, hlearnt⟩
  aside := by
    rintro w log generation orders scanned ⟨hhooks, pairs, hparses, h⟩
    exact ⟨hhooks, pairs, hparses, h.disk, ⟨h.indexed.1, h.indexed.2, h.indexed.3⟩,
      ⟨h.learnt.1, h.learnt.2, h.learnt.3, h.learnt.4, h.learnt.5, h.learnt.6⟩⟩

theorem Told.followed {w : World} {e : Era} (h : w.Told e) : Followed e w w :=
  ⟨rfl, [], (List.append_nil _).symm, h⟩

theorem Followed.told {e : Era} {origin w : World} (h : Followed e origin w) :
    w.Told (e.follow origin.hooks origin.extractions (w.parses.drop origin.extractions)) := by
  obtain ⟨-, pairs, hparses, htold⟩ := h
  rwa [hparses, extractions, List.drop_left]

theorem noting_notedBy (e : Era) (w : World) (s : Step) {origin : World} (ho : origin.parses = w.parses) :
    Work.Noting (fun v p => v.parses = origin.parses ∧ p ∈ (e.note (w.notedBy s)).noted) w
      (w.notedBy s) :=
  fun _ hv _ hp => ⟨hv.trans ho.symm, List.mem_append_right _ hp⟩

theorem Told.work {w : World} {e : Era} (h : w.Told e) {s : Step} (hs : ∀ fs, s ≠ .change fs)
    (htwice : s ≠ .scanTwice) : (w.step s).Told (e.work w s) := by
  unfold Era.work
  cases hclear : w.clearsFirst s with
  | false =>
    have hnoted := (h.note (w.notedBy s)).followed
    exact ((followed_held _ w).step hnoted hs htwice hclear (noting_notedBy e w s rfl)).told
  | true =>
    -- the step is work in the era that its own clear starts
    have hcleared := ((h.clear (w.optionsFor s)).note (w.notedBy s)).followed
    exact ((followed_held _ _).step_of_clear hclear hcleared (noting_notedBy _ w s rfl)).told

theorem Told.step {w : World} {e : Era} (h : w.Told e) (s : Step) : (w.step s).Told (e.step w s) := by
  have hscan : ∀ {v : World} {e' : Era}, v.Told e' → (v.step .scan).Told (e'.work v .scan) :=
    fun hv => hv.work (fun _ => Step.noConfusion) Step.noConfusion
  unfold Era.step
  split
  · exact h.change _
  · rw [step_scanTwice]
    split
    · exact hscan (hscan h)
    · exact hscan h
  · exact h.work (by assumption) (by assumption)

/-- **Everything in the registry was learnt since the last clear**, after every session. -/
theorem run_told (steps : List Step) {w : World} {e : Era} (h : w.Told e) :
    (w.run steps).Told (e.run w steps) := by
  induction steps generalizing w e with
  | nil => exact h
  | cons s rest ih => exact ih (h.step s)

end World

end TemplateAssist
