import TemplateAssist.Proofs.Dependents
import TemplateAssist.Proofs.Parsing
import TemplateAssist.Proofs.Work

/-!
# The index of the registry

* `Component.files` — the files that a component stands for.
* `Indexed` — the class names and the source files of the cached components are inverse to each other.
* `Accounted` — every recorded time is that of a file of a cached component, which accounts for it.
* `Complete` — a time is recorded for every file of a cached component.
* `Thinned` — what evictions make of a state; `insert_eq` — what an insertion makes of it.

Principal results: `Indexed.insert`, `Accounted.insert` and `Complete.insert`.  An insertion releases the
file from the class it declared, the class from the file that declared it, and a template that went away,
in this order.
-/

namespace TemplateAssist

def Component.files (c : Component) : List PathKey :=
  c.sourceFile.segments :: (c.templateFile.map Path.segments).toList

theorem Component.source_mem_files (c : Component) : c.sourceFile.segments ∈ c.files :=
  List.mem_cons_self

theorem Component.mem_files_iff {c : Component} {k : PathKey} :
    k ∈ c.files ↔ c.sourceFile.segments = k ∨ ∃ t, c.templateFile = some t ∧ t.segments = k := by
  rw [files, List.mem_cons, Option.mem_toList, Option.map_eq_some_iff]
  exact or_congr_left eq_comm

theorem Component.files_eq_of_bare_eq {c c' : Component} (h : c.bare = c'.bare) : c.files = c'.files := by
  obtain ⟨-, hsource, htemplate, -⟩ := Component.bare_eq_iff.mp h
  rw [files, files, hsource, htemplate]

namespace State

/-- The class names and source files of cached components are inverse to each other. -/
structure Indexed (s : State) : Prop where
  keyed : Components.Keyed s.components
  registered : ∀ n c, s.components.get? n = some c → s.byFile.get? c.sourceFile.segments = some n
  listed : ∀ p n, s.byFile.get? p = some n →
    ∃ c, s.components.get? n = some c ∧ c.sourceFile.segments = p

/-- Every recorded time is that of a file of a cached component, and the component accounts for
the time. -/
def Accounted (accounts : Component → PathKey → Stamp → Prop) (s : State) : Prop :=
  ∀ k stamp, s.recorded.get? k = some stamp →
    ∃ n c, s.components.get? n = some c ∧ k ∈ c.files ∧ accounts c k stamp

/-- A time is recorded for every file of a cached component. -/
def Complete (s : State) : Prop :=
  ∀ n c, s.components.get? n = some c → ∀ k ∈ c.files, s.recorded.has k = true

/-- No file belongs to two cached components. -/
def Apart (s : State) : Prop :=
  ∀ n c m d, s.components.get? n = some c → s.components.get? m = some d →
    ∀ k, k ∈ c.files → k ∈ d.files → n = m

theorem Indexed.empty (epoch : Nat) : (State.empty epoch).Indexed where
  keyed := ⟨List.nodup_nil, fun _ _ h => by cases h⟩
  registered := fun _ _ h => by cases h
  listed := fun _ _ h => by cases h

theorem Accounted.empty (accounts : Component → PathKey → Stamp → Prop) (epoch : Nat) :
    (State.empty epoch).Accounted accounts :=
  fun _ _ h => by cases h

theorem Complete.empty (epoch : Nat) : (State.empty epoch).Complete :=
  fun _ _ h => by cases h

/-! ## Merging -/

/-- The index depends on the components only up to what was merged. -/
theorem Indexed.of_sameBare {s : State} (h : s.Indexed) {cs : Components}
    (hsame : Components.SameBare s.components cs) (hk : cs.Keyed) :
    Indexed { s with components := cs } where
  keyed := hk
  registered := by
    intro n c hc
    obtain ⟨d, hd, hb⟩ := hsame.symm.get?_some hc
    rw [← (Component.bare_eq_iff.mp hb).2.1]
    exact h.registered n d hd
  listed := by
    intro p n hp
    obtain ⟨d, hd, hsource⟩ := h.listed p n hp
    obtain ⟨c, hc, hb⟩ := hsame.get?_some hd
    exact ⟨c, hc, (Component.bare_eq_iff.mp hb).2.1 ▸ hsource⟩

theorem Accounted.of_sameBare {accounts : Component → PathKey → Stamp → Prop} {s : State}
    (h : s.Accounted accounts)
    (hbare : ∀ c c' k stamp, c.bare = c'.bare → accounts c k stamp → accounts c' k stamp)
    {cs : Components} (hsame : Components.SameBare s.components cs) :
    Accounted accounts { s with components := cs } := by
  intro k stamp hrec
  obtain ⟨n, d, hd, hfile, haccounts⟩ := h k stamp hrec
  obtain ⟨c, hc, hb⟩ := hsame.get?_some hd
  exact ⟨n, c, hc, Component.files_eq_of_bare_eq hb ▸ hfile, hbare d c k stamp hb.symm haccounts⟩

theorem Complete.of_sameBare {s : State} (h : s.Complete) {cs : Components}
    (hsame : Components.SameBare s.components cs) : Complete { s with components := cs } := by
  intro n c hc k hk
  obtain ⟨d, hd, hb⟩ := hsame.symm.get?_some hc
  exact h n d hd k (Component.files_eq_of_bare_eq hb ▸ hk)

/-! ## Eviction -/

theorem eraseTime_get? (recorded : Table PathKey Stamp) (path : Option Path) (k : PathKey) :
    (eraseTime recorded path).get? k =
      if path.map Path.segments = some k then none else recorded.get? k := by
  cases path with
  | none => simp [eraseTime]
  | some p => simp [eraseTime, Table.get?_erase]

/-- The state without a component and the times of its files. -/
def drop (s : State) (n : Text) (c : Component) : State :=
  { s with
    components := s.components.erase n
    byFile := s.byFile.erase c.sourceFile.segments
    recorded := eraseTime (s.recorded.erase c.sourceFile.segments) c.templateFile }

/-- An eviction drops the component of the file, if the file has one. -/
theorem Indexed.evictFile_cases {s : State} (h : s.Indexed) (source : Path) :
    (s.nameFor? source = none ∧ s.evictFile source = (s, none)) ∨
      ∃ n c, s.nameFor? source = some n ∧ s.components.get? n = some c ∧
        c.sourceFile.segments = source.segments ∧ s.evictFile source = (s.drop n c, some c) := by
  cases hn : s.nameFor? source with
  | none =>
    refine Or.inl ⟨rfl, ?_⟩
    rw [evictFile, hn]
  | some n =>
    obtain ⟨c, hc, hsource⟩ := h.listed _ _ hn
    have hlookup : s.lookup? n = some c := hc
    refine Or.inr ⟨n, c, rfl, hc, hsource, ?_⟩
    simp only [evictFile, hn, hlookup, drop, hsource]

/-- No two cached classes have one source file. -/
theorem Indexed.name_eq {s : State} (h : s.Indexed) {n m : Text} {c d : Component}
    (hc : s.components.get? n = some c) (hd : s.components.get? m = some d)
    (hsource : c.sourceFile.segments = d.sourceFile.segments) : n = m := by
  have hreg := h.registered n c hc
  rw [hsource, h.registered m d hd] at hreg
  exact (Option.some.inj hreg).symm

theorem Indexed.byFile_get?_eq_some_iff {s : State} (h : s.Indexed) {k : PathKey} {n : Text} :
    s.byFile.get? k = some n ↔ ∃ c, s.components.get? n = some c ∧ c.sourceFile.segments = k := by
  refine ⟨h.listed k n, ?_⟩
  rintro ⟨c, hc, rfl⟩
  exact h.registered n c hc

/-- The component of a file is cached under the name of its class. -/
theorem Indexed.exists_of_ofFile? {s : State} (h : s.Indexed) {source : Path} {c : Component}
    (hc : s.ofFile? source = some c) : ∃ n, s.nameFor? source = some n ∧
      s.components.get? n = some c ∧ c.sourceFile.segments = source.segments := by
  obtain ⟨n, hn, hget⟩ := Option.bind_eq_some_iff.mp hc
  obtain ⟨c', hc', hsource⟩ := h.listed _ _ hn
  obtain rfl := Option.some.inj (hget.symm.trans hc')
  exact ⟨n, hn, hget, hsource⟩

theorem drop_recorded (s : State) (n : Text) (c : Component) (k : PathKey) :
    (s.drop n c).recorded.get? k = if k ∈ c.files then none else s.recorded.get? k := by
  show (eraseTime (s.recorded.erase c.sourceFile.segments) c.templateFile).get? k = _
  rw [eraseTime_get?, Table.get?_erase]
  by_cases hsource : c.sourceFile.segments = k
  · have hk : k ∈ c.files := hsource ▸ c.source_mem_files
    simp [hsource, hk]
  · have hiff : k ∈ c.files ↔ c.templateFile.map Path.segments = some k := by
      rw [Component.files, List.mem_cons, Option.mem_toList]
      exact or_iff_right fun he => hsource he.symm
    simp only [hiff, if_neg hsource]

theorem drop_components {s : State} {n m : Text} {c d : Component}
    (hd : (s.drop n c).components.get? m = some d) : m ≠ n ∧ s.components.get? m = some d := by
  have hd : (s.components.erase n).get? m = some d := hd
  rw [Table.get?_erase] at hd
  split at hd
  · cases hd
  · rename_i hne
    exact ⟨Ne.symm hne, hd⟩

theorem drop_components_of_ne {s : State} {n m : Text} {c d : Component} (hne : m ≠ n)
    (hd : s.components.get? m = some d) : (s.drop n c).components.get? m = some d := by
  show (s.components.erase n).get? m = some d
  rw [Table.get?_erase, if_neg (Ne.symm hne), hd]

/-- Without a component, exactly those of other files are left. -/
theorem Indexed.drop_get? {s : State} (h : s.Indexed) {m : Text} {c : Component}
    (hc : s.components.get? m = some c) {n : Text} {d : Component} :
    (s.drop m c).components.get? n = some d ↔
      s.components.get? n = some d ∧ d.sourceFile.segments ≠ c.sourceFile.segments := by
  constructor
  · intro hd
    obtain ⟨hne, hd⟩ := drop_components hd
    exact ⟨hd, fun hsame => hne (h.name_eq hd hc hsame)⟩
  · rintro ⟨hd, hother⟩
    refine drop_components_of_ne (fun he => ?_) hd
    rw [he, hc] at hd
    exact hother (Option.some.inj hd ▸ rfl)

/-- An eviction keeps exactly the components of other files. -/
theorem Indexed.evictFile_get? {s : State} (h : s.Indexed) (source : Path) {n : Text} {d : Component} :
    (s.evictFile source).1.components.get? n = some d ↔
      s.components.get? n = some d ∧ d.sourceFile.segments ≠ source.segments := by
  rcases h.evictFile_cases source with ⟨hnone, hev⟩ | ⟨m, c, -, hc, hsource, hev⟩
  · rw [hev]
    refine ⟨fun hd => ⟨hd, fun hsame => ?_⟩, fun hd => hd.1⟩
    have hreg := h.registered n d hd
    rw [hsame, show s.byFile.get? source.segments = none from hnone] at hreg
    cases hreg
  · rw [hev, ← hsource]
    exact h.drop_get? hc

theorem Indexed.drop {s : State} (h : s.Indexed) {n : Text} {c : Component}
    (hc : s.components.get? n = some c) : (s.drop n c).Indexed where
  keyed := h.keyed.erase n
  registered := by
    intro m d hd
    obtain ⟨hne, hd⟩ := drop_components hd
    have hreg := h.registered m d hd
    show (s.byFile.erase c.sourceFile.segments).get? d.sourceFile.segments = some m
    rw [Table.get?_erase, if_neg, hreg]
    exact fun hsame => hne (h.name_eq hd hc hsame.symm)
  listed := by
    intro p m hp
    have hp : (s.byFile.erase c.sourceFile.segments).get? p = some m := hp
    rw [Table.get?_erase] at hp
    split at hp
    · cases hp
    rename_i hne
    obtain ⟨d, hd, hsource⟩ := h.listed p m hp
    refine ⟨d, drop_components_of_ne (fun he => ?_) hd, hsource⟩
    rw [he, hc] at hd
    exact hne (Option.some.inj hd ▸ hsource)

theorem Accounted.drop {accounts : Component → PathKey → Stamp → Prop} {s : State}
    (h : s.Accounted accounts) {n : Text} {c : Component} (hc : s.components.get? n = some c) :
    (s.drop n c).Accounted accounts := by
  intro k stamp hk
  rw [drop_recorded] at hk
  split at hk
  · cases hk
  rename_i hfile
  obtain ⟨m, d, hd, hkd, haccounts⟩ := h k stamp hk
  refine ⟨m, d, drop_components_of_ne (fun he => ?_) hd, hkd, haccounts⟩
  rw [he, hc] at hd
  exact hfile (Option.some.inj hd ▸ hkd)

theorem Complete.drop {s : State} (h : s.Complete) (hapart : s.Apart) {n : Text} {c : Component}
    (hc : s.components.get? n = some c) : (s.drop n c).Complete := by
  intro m d hd k hk
  obtain ⟨hne, hd⟩ := drop_components hd
  rw [Table.has, drop_recorded, if_neg fun hkc => hne (hapart m d n c hd hc k hk hkc)]
  exact h m d hd k hk

theorem Apart.drop {s : State} (h : s.Apart) (n : Text) (c : Component) : (s.drop n c).Apart :=
  fun n' c' m d hc' hd => h n' c' m d (drop_components hc').2 (drop_components hd).2

/-! ## Insertion -/

/-- A state reached from another by dropping components. -/
inductive Thinned (s : State) : State → Prop
  | refl : Thinned s s
  | drop {s' : State} {n : Text} {c : Component} (h : Thinned s s')
      (hc : s'.components.get? n = some c) : Thinned s (s'.drop n c)

namespace Thinned

variable {s s' : State}

theorem indexed (ht : Thinned s s') (h : s.Indexed) : s'.Indexed := by
  induction ht with
  | refl => exact h
  | drop _ hc ih => exact ih.drop hc

theorem accounted (ht : Thinned s s') {accounts : Component → PathKey → Stamp → Prop}
    (h : s.Accounted accounts) : s'.Accounted accounts := by
  induction ht with
  | refl => exact h
  | drop _ hc ih => exact ih.drop hc

theorem apart (ht : Thinned s s') (h : s.Apart) : s'.Apart := by
  induction ht with
  | refl => exact h
  | drop _ _ ih => exact ih.drop _ _

theorem complete (ht : Thinned s s') (h : s.Complete) (hapart : s.Apart) : s'.Complete := by
  induction ht with
  | refl => exact h
  | drop ht hc ih => exact ih.drop (ht.apart hapart) hc

theorem components (ht : Thinned s s') {n : Text} {c : Component}
    (hc : s'.components.get? n = some c) : s.components.get? n = some c := by
  induction ht with
  | refl => exact hc
  | drop _ _ ih => exact ih (drop_components hc).2

theorem evictFile (ht : Thinned s s') (h : s.Indexed) (source : Path) :
    Thinned s (s'.evictFile source).1 := by
  rcases (ht.indexed h).evictFile_cases source with ⟨-, hev⟩ | ⟨n, c, -, hc, -, hev⟩
  · rw [hev]
    exact ht
  · rw [hev]
    exact ht.drop hc

end Thinned

/-- The state in which neither the file nor the class of a new component belongs to another. -/
def released (s : State) (c : Component) : State :=
  (s.releaseFile c).releaseClass c

/-- A file that declared another class is released from it. -/
theorem Indexed.releaseFile_cases {s : State} (h : s.Indexed) (c : Component) :
    ((∀ n, s.nameFor? c.sourceFile = some n → n = c.name) ∧ s.releaseFile c = s) ∨
      ∃ n d, n ≠ c.name ∧ s.components.get? n = some d ∧
        d.sourceFile.segments = c.sourceFile.segments ∧ s.releaseFile c = s.drop n d := by
  unfold releaseFile
  split
  · rename_i hother
    rcases h.evictFile_cases c.sourceFile with ⟨hnone, -⟩ | ⟨n, d, hn, hd, hsource, hev⟩
    · rw [hnone] at hother
      cases hother
    · rw [hn, Option.any_some, decide_eq_true_eq] at hother
      exact Or.inr ⟨n, d, hother, hd, hsource, congrArg Prod.fst hev⟩
  · rename_i hsame
    refine Or.inl ⟨fun n hn => ?_, rfl⟩
    rw [hn] at hsame
    simpa using hsame

/-- A class that another file declared is released from it. -/
theorem Indexed.releaseClass_cases {s : State} (h : s.Indexed) (c : Component) :
    ((∀ d, s.components.get? c.name = some d → d.sourceFile.segments = c.sourceFile.segments) ∧
        s.releaseClass c = s) ∨
      ∃ d, s.components.get? c.name = some d ∧ d.sourceFile.segments ≠ c.sourceFile.segments ∧
        s.releaseClass c = s.drop c.name d := by
  unfold releaseClass
  split
  · rename_i other hother
    have hother : s.components.get? c.name = some other := hother
    split
    · rename_i hsame
      refine Or.inl ⟨fun d hd => ?_, rfl⟩
      rw [hother, Option.some.injEq] at hd
      simpa [Path.same, hd] using hsame
    · rename_i hsame
      rcases h.evictFile_cases other.sourceFile with ⟨hnone, -⟩ | ⟨m, d, -, hd, hsource, hev⟩
      · have hreg := h.registered _ _ hother
        rw [show s.byFile.get? other.sourceFile.segments = none from hnone] at hreg
        cases hreg
      · -- the class of the evicted file is the one that was looked up
        obtain rfl := h.name_eq hd hother hsource
        obtain rfl := Option.some.inj (hd.symm.trans hother)
        exact Or.inr ⟨d, hd, by simpa [Path.same] using hsame, congrArg Prod.fst hev⟩
  · rename_i hnone
    have hnone : s.components.get? c.name = none := hnone
    refine Or.inl ⟨fun d hd => ?_, rfl⟩
    rw [hnone] at hd
    cases hd

theorem Indexed.releaseFile_thinned {s : State} (h : s.Indexed) (c : Component) :
    Thinned s (s.releaseFile c) := by
  rcases h.releaseFile_cases c with ⟨-, heq⟩ | ⟨n, d, -, hd, -, heq⟩
  · rw [heq]
    exact .refl
  · rw [heq]
    exact Thinned.refl.drop hd

theorem Thinned.releaseClass {s s' : State} (ht : Thinned s s') (h : s.Indexed) (c : Component) :
    Thinned s (s'.releaseClass c) := by
  rcases (ht.indexed h).releaseClass_cases c with ⟨-, heq⟩ | ⟨d, hd, -, heq⟩
  · rw [heq]
    exact ht
  · rw [heq]
    exact ht.drop hd

theorem Indexed.released_thinned {s : State} (h : s.Indexed) (c : Component) :
    Thinned s (s.released c) :=
  (h.releaseFile_thinned c).releaseClass h c

theorem Thinned.byFile {s s' : State} (ht : Thinned s s') {p : PathKey} {n : Text}
    (hp : s'.byFile.get? p = some n) : s.byFile.get? p = some n := by
  induction ht with
  | refl => exact hp
  | @drop s' _ c _ _ ih =>
    refine ih ?_
    have hp : (s'.byFile.erase c.sourceFile.segments).get? p = some n := hp
    rw [Table.get?_erase] at hp
    split at hp
    · cases hp
    · exact hp

theorem Thinned.recorded {s s' : State} (ht : Thinned s s') {k : PathKey} {stamp : Stamp}
    (hk : s'.recorded.get? k = some stamp) : s.recorded.get? k = some stamp := by
  induction ht with
  | refl => exact hk
  | drop _ _ ih =>
    refine ih ?_
    rw [drop_recorded] at hk
    split at hk
    · cases hk
    · exact hk

/-- After the release, the file belongs to no other class. -/
theorem Indexed.released_file {s : State} (h : s.Indexed) {c : Component} {n : Text}
    (hn : (s.released c).byFile.get? c.sourceFile.segments = some n) : n = c.name := by
  have hi := (h.releaseFile_thinned c).indexed h
  have hfile : (s.releaseFile c).byFile.get? c.sourceFile.segments = some n :=
    (Thinned.refl.releaseClass hi c).byFile hn
  rcases h.releaseFile_cases c with ⟨hname, heq⟩ | ⟨m, d, -, -, hsource, heq⟩
  · rw [heq] at hfile
    exact hname n hfile
  · rw [heq] at hfile
    have hfile : (s.byFile.erase d.sourceFile.segments).get? c.sourceFile.segments = some n := hfile
    rw [Table.get?_erase, if_pos hsource] at hfile
    cases hfile

/-- After the release, the class belongs to no other file. -/
theorem Indexed.released_class {s : State} (h : s.Indexed) {c d : Component}
    (hd : (s.released c).components.get? c.name = some d) :
    d.sourceFile.segments = c.sourceFile.segments := by
  have hi := (h.releaseFile_thinned c).indexed h
  unfold released at hd
  rcases hi.releaseClass_cases c with ⟨hsource, heq⟩ | ⟨other, -, -, heq⟩
  · rw [heq] at hd
    exact hsource d hd
  · rw [heq] at hd
    exact absurd rfl (drop_components hd).1

/-- The release keeps exactly the other classes of other files. -/
theorem Indexed.released_get? {s : State} (h : s.Indexed) {c : Component} {n : Text} (hne : n ≠ c.name)
    {d : Component} : (s.released c).components.get? n = some d ↔
      s.components.get? n = some d ∧ d.sourceFile.segments ≠ c.sourceFile.segments := by
  have hi := (h.releaseFile_thinned c).indexed h
  have hfile : (s.releaseFile c).components.get? n = some d ↔
      s.components.get? n = some d ∧ d.sourceFile.segments ≠ c.sourceFile.segments := by
    rcases h.releaseFile_cases c with ⟨hname, heq⟩ | ⟨m, e, -, he, hsource, heq⟩
    · rw [heq]
      refine ⟨fun hd => ⟨hd, fun hsame => hne (hname n ?_)⟩, fun hd => hd.1⟩
      rw [nameFor?, ← hsame]
      exact h.registered n d hd
    · rw [heq, ← hsource]
      exact h.drop_get? he
  unfold released
  rw [← hfile]
  rcases hi.releaseClass_cases c with ⟨-, heq⟩ | ⟨other, -, -, heq⟩
  · rw [heq]
  · rw [heq]
    exact ⟨fun hd => (drop_components hd).2, drop_components_of_ne hne⟩

theorem releaseTemplate_eq (s : State) (c : Component) :
    s.releaseTemplate c = { s with recorded := (s.releaseTemplate c).recorded } := by
  unfold releaseTemplate
  split
  · split <;> rfl
  · rfl

/-- What an insertion makes of a state, once the component's file, class and old template are
released. -/
theorem insert_eq (s : State) (c : Component) (stamp : Stamp) (templateStamp : Option Stamp) :
    ∃ sources, s.insert c stamp templateStamp =
      { s.released c with
        components := (s.released c).components.insert c.name c
        byFile := (s.released c).byFile.insert c.sourceFile.segments c.name
        recorded := recordTimes ((s.released c).releaseTemplate c).recorded c stamp templateStamp
        knownSources := sources } := by
  obtain ⟨sources, hnote⟩ := noteSource_eq
    { s.released c with
      recorded := recordTimes ((s.released c).releaseTemplate c).recorded c stamp templateStamp }
    c.sourceFile
  refine ⟨sources, ?_⟩
  unfold insert
  rw [show (s.releaseFile c).releaseClass c = s.released c from rfl, releaseTemplate_eq]
  simp only [hnote]

/-- **What is cached after an insertion**: the new component, and the other classes of other files. -/
theorem Indexed.insert_get? {s : State} (h : s.Indexed) (c : Component) (stamp : Stamp)
    (templateStamp : Option Stamp) {n : Text} {d : Component} :
    (s.insert c stamp templateStamp).components.get? n = some d ↔
      n = c.name ∧ d = c ∨ n ≠ c.name ∧ s.components.get? n = some d ∧
        d.sourceFile.segments ≠ c.sourceFile.segments := by
  obtain ⟨sources, heq⟩ := s.insert_eq c stamp templateStamp
  rw [heq]
  show Table.get? ((s.released c).components.insert c.name c) n = some d ↔ _
  rw [Table.get?_insert]
  by_cases hname : c.name = n
  · rw [if_pos hname, Option.some.injEq]
    constructor
    · exact fun hd => Or.inl ⟨hname.symm, hd.symm⟩
    · rintro (⟨-, hd⟩ | ⟨hne, -⟩)
      · exact hd.symm
      · exact absurd hname.symm hne
  · have hne : n ≠ c.name := Ne.symm hname
    rw [if_neg hname, h.released_get? hne]
    constructor
    · exact fun hd => Or.inr ⟨hne, hd⟩
    · rintro (⟨he, -⟩ | ⟨-, hd⟩)
      · exact absurd he hne
      · exact hd

theorem sameOption_eq_true_iff {p q : Option Path} :
    sameOption p q = true ↔ p.map Path.segments = q.map Path.segments := by
  cases p <;> cases q <;> simp [sameOption, Path.same]

/-- The time of a template that went away is released. -/
theorem releaseTemplate_of_stale {s : State} {c old : Component} {k : PathKey}
    (hold : s.components.get? c.name = some old) (hk : old.templateFile.map Path.segments = some k)
    (hne : c.templateFile.map Path.segments ≠ some k) :
    (s.releaseTemplate c).recorded.get? k = none := by
  have hlookup : s.lookup? c.name = some old := hold
  have hcond : (old.templateFile.isSome && !sameOption c.templateFile old.templateFile) = true := by
    rw [Bool.and_eq_true, Bool.not_eq_true', ← Bool.not_eq_true, sameOption_eq_true_iff, hk]
    refine ⟨?_, hne⟩
    obtain ⟨t, ht, -⟩ := Option.map_eq_some_iff.mp hk
    rw [ht]
    rfl
  simp only [releaseTemplate, hlookup, if_pos hcond]
  rw [eraseTime_get?, if_pos hk]

/-- No other time is released. -/
theorem releaseTemplate_of_current {s : State} {c : Component} {k : PathKey}
    (h : ∀ old, s.components.get? c.name = some old → old.templateFile.map Path.segments = some k →
      c.templateFile.map Path.segments = some k) :
    (s.releaseTemplate c).recorded.get? k = s.recorded.get? k := by
  unfold releaseTemplate
  split
  · rename_i old hold
    split
    · rename_i hcond
      show (eraseTime s.recorded old.templateFile).get? k = _
      rw [eraseTime_get?, if_neg]
      intro hk
      rw [Bool.and_eq_true, Bool.not_eq_true', ← Bool.not_eq_true, sameOption_eq_true_iff, hk] at hcond
      exact hcond.2 (h old hold hk)
    · rfl
  · rfl

theorem releaseTemplate_recorded {s : State} {c : Component} {k : PathKey} {stamp : Stamp}
    (hk : (s.releaseTemplate c).recorded.get? k = some stamp) : s.recorded.get? k = some stamp := by
  revert hk
  unfold releaseTemplate
  split
  · split
    · intro hk
      have hk : (eraseTime s.recorded _).get? k = some stamp := hk
      rw [eraseTime_get?] at hk
      split at hk
      · cases hk
      · exact hk
    · exact id
  · exact id

theorem recordTimes_get? (recorded : Table PathKey Stamp) (c : Component) (stamp : Stamp)
    (templateStamp : Option Stamp) (k : PathKey) :
    (recordTimes recorded c stamp templateStamp).get? k =
      if c.templateFile.map Path.segments = some k ∧ templateStamp.isSome = true then templateStamp
      else if c.sourceFile.segments = k then some stamp else recorded.get? k := by
  cases ht : c.templateFile with
  | none => simp [recordTimes, ht, Table.get?_insert]
  | some t =>
    cases templateStamp with
    | none => simp [recordTimes, ht, Table.get?_insert]
    | some stamp' => simp [recordTimes, ht, Table.get?_insert]

theorem recordTimes_get?_of_notMem {c : Component} {k : PathKey} (hk : k ∉ c.files)
    (recorded : Table PathKey Stamp) (stamp : Stamp) (templateStamp : Option Stamp) :
    (recordTimes recorded c stamp templateStamp).get? k = recorded.get? k := by
  rw [Component.files, List.mem_cons, Option.mem_toList, not_or] at hk
  rw [recordTimes_get?, if_neg fun h => hk.2 h.1, if_neg fun h => hk.1 h.symm]

theorem recordTimes_has {c : Component} {templateStamp : Option Stamp} {k : PathKey} (hk : k ∈ c.files)
    (hstamp : c.templateFile.isSome = templateStamp.isSome) (recorded : Table PathKey Stamp)
    (stamp : Stamp) : (recordTimes recorded c stamp templateStamp).has k = true := by
  rw [Table.has, recordTimes_get?]
  split
  · rename_i h
    exact h.2
  rename_i htemplate
  rw [Component.files, List.mem_cons, Option.mem_toList] at hk
  rcases hk with hk | hk
  · rw [if_pos hk.symm]
    rfl
  · obtain ⟨t, ht, -⟩ := Option.map_eq_some_iff.mp hk
    exact absurd ⟨hk, by rw [← hstamp, ht]; rfl⟩ htemplate

/-- Where the times recorded after an insertion come from. -/
theorem Indexed.insert_recorded {s : State} (h : s.Indexed) {c : Component} {stamp : Stamp}
    {templateStamp : Option Stamp} {k : PathKey} {stamp' : Stamp}
    (hk : (s.insert c stamp templateStamp).recorded.get? k = some stamp') :
    c.templateFile.map Path.segments = some k ∧ templateStamp = some stamp' ∨
      c.sourceFile.segments = k ∧ stamp' = stamp ∨
      c.sourceFile.segments ≠ k ∧ s.recorded.get? k = some stamp' := by
  obtain ⟨sources, heq⟩ := s.insert_eq c stamp templateStamp
  rw [heq] at hk
  have hk : (recordTimes ((s.released c).releaseTemplate c).recorded c stamp templateStamp).get? k =
      some stamp' := hk
  rw [recordTimes_get?] at hk
  split at hk
  · rename_i htemplate
    exact Or.inl ⟨htemplate.1, hk⟩
  split at hk
  · rename_i hsource
    exact Or.inr (Or.inl ⟨hsource, (Option.some.inj hk).symm⟩)
  rename_i hsource
  exact Or.inr (Or.inr ⟨hsource, (h.released_thinned c).recorded (releaseTemplate_recorded hk)⟩)

/-- Where the class of a file comes from after an insertion. -/
theorem Indexed.insert_byFile {s : State} (h : s.Indexed) {c : Component} {stamp : Stamp}
    {templateStamp : Option Stamp} {k : PathKey} {n : Text}
    (hk : (s.insert c stamp templateStamp).byFile.get? k = some n) :
    c.sourceFile.segments = k ∧ c.name = n ∨ s.byFile.get? k = some n := by
  obtain ⟨sources, heq⟩ := s.insert_eq c stamp templateStamp
  rw [heq] at hk
  have hk : ((s.released c).byFile.insert c.sourceFile.segments c.name).get? k = some n := hk
  rw [Table.get?_insert] at hk
  split at hk
  · rename_i hsource
    exact Or.inl ⟨hsource, Option.some.inj hk⟩
  · exact Or.inr ((h.released_thinned c).byFile hk)

theorem Thinned.knownSources {s s' : State} (ht : Thinned s s') : s'.knownSources = s.knownSources := by
  induction ht with
  | refl => rfl
  | drop _ _ ih => exact ih

theorem Thinned.scanned {s s' : State} (ht : Thinned s s') : s'.scanned = s.scanned := by
  induction ht with
  | refl => rfl
  | drop _ _ ih => exact ih

/-- An insertion remembers the source of the component and no other. -/
theorem Indexed.insert_knownSources {s : State} (h : s.Indexed) (c : Component) (stamp : Stamp)
    (templateStamp : Option Stamp) (stem : Text) :
    (s.insert c stamp templateStamp).knownSources.get? stem =
      if c.sourceFile.stem? = some stem then some c.sourceFile else s.knownSources.get? stem := by
  have hreleased : ((s.released c).releaseTemplate c).knownSources = s.knownSources := by
    rw [releaseTemplate_eq]
    exact (h.released_thinned c).knownSources
  show (noteSource { (s.released c).releaseTemplate c with
      recorded := recordTimes ((s.released c).releaseTemplate c).recorded c stamp templateStamp }
      c.sourceFile).knownSources.get? stem = _
  rw [noteSource_get?, hreleased]

theorem Indexed.insert_known {s : State} (h : s.Indexed) {c : Component} {stamp : Stamp}
    {templateStamp : Option Stamp} {stem : Text} {p : Path}
    (hp : (s.insert c stamp templateStamp).knownSources.get? stem = some p) :
    p = c.sourceFile ∨ s.knownSources.get? stem = some p := by
  rw [h.insert_knownSources] at hp
  split at hp
  · exact Or.inl (Option.some.inj hp).symm
  · exact Or.inr hp

/-- A component of a new class in a new file is added, and nothing is released for it. -/
theorem insert_of_new {s : State} {c : Component} (hfile : s.nameFor? c.sourceFile = none)
    (hclass : s.lookup? c.name = none) (stamp : Stamp) (templateStamp : Option Stamp) :
    s.insert c stamp templateStamp =
      { s.noteSource c.sourceFile with
        components := s.components.insert c.name c
        byFile := s.byFile.insert c.sourceFile.segments c.name
        recorded := recordTimes s.recorded c stamp templateStamp } := by
  have hreleaseFile : s.releaseFile c = s := by simp [releaseFile, hfile]
  have hreleaseClass : s.releaseClass c = s := by simp [releaseClass, hclass]
  have hreleaseTemplate : s.releaseTemplate c = s := by simp [releaseTemplate, hclass]
  unfold insert
  simp only [hreleaseFile, hreleaseClass, hreleaseTemplate]
  unfold noteSource
  split <;> rfl

/-- A class that a file stands for is cached under the component of the file. -/
theorem Indexed.nameFor?_eq_iff {s : State} (h : s.Indexed) {n : Text} {c : Component}
    (hc : s.components.get? n = some c) {source : Path} :
    s.nameFor? source = some n ↔ c.sourceFile.segments = source.segments := by
  constructor
  · intro hn
    obtain ⟨d, hd, hsource⟩ := h.listed _ _ hn
    rw [hc] at hd
    rw [Option.some.inj hd, hsource]
  · intro hsource
    rw [nameFor?, ← hsource]
    exact h.registered n c hc

/-- What is cached once a component is inserted: its class, and every other one but that which the file
stood for. -/
theorem Indexed.insert_has_iff {s : State} (h : s.Indexed) (c : Component) (stamp : Stamp)
    (templateStamp : Option Stamp) {n : Text} :
    (s.insert c stamp templateStamp).components.has n = true ↔
      n = c.name ∨ s.components.has n = true ∧ s.nameFor? c.sourceFile ≠ some n := by
  rw [Table.has_eq_true_iff, Table.has_eq_true_iff]
  constructor
  · rintro ⟨d, hd⟩
    rcases (h.insert_get? c stamp templateStamp).mp hd with ⟨hname, -⟩ | ⟨-, hd, hother⟩
    · exact Or.inl hname
    · exact Or.inr ⟨⟨d, hd⟩, fun hn => hother ((h.nameFor?_eq_iff hd).mp hn)⟩
  · intro hn
    by_cases hname : n = c.name
    · exact ⟨c, (h.insert_get? c stamp templateStamp).mpr (Or.inl ⟨hname, rfl⟩)⟩
    · obtain ⟨⟨d, hd⟩, hother⟩ := hn.resolve_left hname
      refine ⟨d, (h.insert_get? c stamp templateStamp).mpr (Or.inr ⟨hname, hd, fun hsame => ?_⟩)⟩
      exact hother ((h.nameFor?_eq_iff hd).mpr hsame)

/-- What is cached once the component of a file is dropped: every class but that which the file stood for. -/
theorem Indexed.evictFile_has_iff {s : State} (h : s.Indexed) (source : Path) {n : Text} :
    (s.evictFile source).1.components.has n = true ↔
      s.components.has n = true ∧ s.nameFor? source ≠ some n := by
  rw [Table.has_eq_true_iff, Table.has_eq_true_iff]
  constructor
  · rintro ⟨d, hd⟩
    obtain ⟨hd, hother⟩ := (h.evictFile_get? source).mp hd
    exact ⟨⟨d, hd⟩, fun hn => hother ((h.nameFor?_eq_iff hd).mp hn)⟩
  · rintro ⟨⟨d, hd⟩, hother⟩
    exact ⟨d, (h.evictFile_get? source).mpr ⟨hd, fun hsame => hother ((h.nameFor?_eq_iff hd).mpr hsame)⟩⟩

theorem insert_other {cs : Components} {c d : Component} {n : Text} (hne : n ≠ c.name)
    (hd : cs.get? n = some d) : (cs.insert c.name c).get? n = some d := by
  rw [Table.get?_insert, if_neg (Ne.symm hne), hd]

theorem insert_self (cs : Components) (c : Component) : (cs.insert c.name c).get? c.name = some c := by
  rw [Table.get?_insert, if_pos rfl]

/-- **An insertion keeps the index.** -/
theorem Indexed.insert {s : State} (h : s.Indexed) (c : Component) (stamp : Stamp)
    (templateStamp : Option Stamp) : (s.insert c stamp templateStamp).Indexed := by
  obtain ⟨sources, heq⟩ := s.insert_eq c stamp templateStamp
  have hi := (h.released_thinned c).indexed h
  rw [heq]
  refine ⟨hi.keyed.insert c, fun n d hd => ?_, fun p n hp => ?_⟩
  · have hd : ((s.released c).components.insert c.name c).get? n = some d := hd
    show ((s.released c).byFile.insert c.sourceFile.segments c.name).get? _ = some n
    rw [Table.get?_insert] at hd ⊢
    split at hd
    · rename_i hname
      rw [← Option.some.inj hd, if_pos rfl, hname]
    · rename_i hname
      have hreg := hi.registered n d hd
      rw [if_neg, hreg]
      intro hsame
      rw [← hsame] at hreg
      exact hname (h.released_file hreg).symm
  · have hp : ((s.released c).byFile.insert c.sourceFile.segments c.name).get? p = some n := hp
    rw [Table.get?_insert] at hp
    split at hp
    · rename_i hsource
      rw [← Option.some.inj hp]
      exact ⟨c, insert_self _ c, hsource⟩
    · rename_i hsource
      obtain ⟨d, hd, hdp⟩ := hi.listed p n hp
      refine ⟨d, insert_other ?_ hd, hdp⟩
      rintro rfl
      exact hsource ((h.released_class hd).symm.trans hdp)

/-- **An insertion keeps the times accounted for**, if the new component accounts for its own. -/
theorem Accounted.insert {accounts : Component → PathKey → Stamp → Prop} {s : State}
    (h : s.Accounted accounts) (hi : s.Indexed) {c : Component} {stamp : Stamp}
    {templateStamp : Option Stamp}
    (hnew : ∀ recorded k stamp', k ∈ c.files →
      (recordTimes recorded c stamp templateStamp).get? k = some stamp' → accounts c k stamp') :
    (s.insert c stamp templateStamp).Accounted accounts := by
  obtain ⟨sources, heq⟩ := s.insert_eq c stamp templateStamp
  have ht := hi.released_thinned c
  rw [heq]
  intro k stamp' hk
  have hk : (recordTimes ((s.released c).releaseTemplate c).recorded c stamp templateStamp).get? k =
      some stamp' := hk
  by_cases hfile : k ∈ c.files
  · exact ⟨c.name, c, insert_self _ c, hfile, hnew _ k stamp' hfile hk⟩
  rw [recordTimes_get?_of_notMem hfile] at hk
  rw [Component.files, List.mem_cons, Option.mem_toList, not_or] at hfile
  have hcurrent : ∀ old, (s.released c).components.get? c.name = some old →
      old.templateFile.map Path.segments ≠ some k := by
    intro old hold htemplate
    rw [releaseTemplate_of_stale hold htemplate hfile.2] at hk
    cases hk
  rw [releaseTemplate_of_current fun old hold ht => absurd ht (hcurrent old hold)] at hk
  obtain ⟨n, d, hd, hkd, haccounts⟩ := ht.accounted h k stamp' hk
  refine ⟨n, d, insert_other ?_ hd, hkd, haccounts⟩
  rintro rfl
  rw [Component.files, List.mem_cons, Option.mem_toList] at hkd
  rcases hkd with hkd | hkd
  · exact hfile.1 (hkd.trans (hi.released_class hd))
  · exact hcurrent d hd hkd

/-- **An insertion keeps the times complete**, if no file belongs to two cached components. -/
theorem Complete.insert {s : State} (h : s.Complete) (hi : s.Indexed) (hapart : s.Apart) {c : Component}
    {templateStamp : Option Stamp} (hstamp : c.templateFile.isSome = templateStamp.isSome)
    (stamp : Stamp) : (s.insert c stamp templateStamp).Complete := by
  obtain ⟨sources, heq⟩ := s.insert_eq c stamp templateStamp
  have ht := hi.released_thinned c
  rw [heq]
  intro n d hd k hk
  have hd : ((s.released c).components.insert c.name c).get? n = some d := hd
  show (recordTimes ((s.released c).releaseTemplate c).recorded c stamp templateStamp).has k = true
  by_cases hfile : k ∈ c.files
  · exact recordTimes_has hfile hstamp _ _
  rw [Table.get?_insert] at hd
  split at hd
  · exact absurd (Option.some.inj hd ▸ hk) hfile
  rename_i hname
  rw [Table.has, recordTimes_get?_of_notMem hfile, releaseTemplate_of_current]
  · exact ht.complete h hapart n d hd k hk
  · -- the template of the old component cannot be a file of `d`
    intro old hold htemplate
    have hkold : k ∈ old.files := by
      rw [Component.files, List.mem_cons, Option.mem_toList]
      exact Or.inr htemplate
    exact absurd (ht.apart hapart _ old n d hold hd k hkold hk) hname

end State

end TemplateAssist
