import TemplateAssist.Proofs.Layers
import TemplateAssist.Server.Complete
import TemplateAssist.Server.Define
import TemplateAssist.Server.Notify

/-!
# The settings of a server

* `Event` — what can happen to a server; `Server.step`, `Server.run` — a server after one event and after
  several.
* `Session.Steady` — work that leaves the settings as they are.  Only a handshake and a change of settings are not.
* `Server.layersAfter`, `Server.layersOf` — the layers that a server has read since its last handshake.

Principal result: `Server.run_config`.  At any time the settings of a server are those of its layers, so what
holds of the settings after any layers holds of every server; `Server.run_extensions` says it of the extensions.
-/

namespace TemplateAssist

open Settings (Layer Value)

/-- What can happen to a server. -/
inductive Event where
  | handshake (root : Option Uri) (folders : List Uri) (options : Option Value)
  | ready
  | configure (settings : Value)
  | opened (uri : Uri) (text : Text)
  | changed (uri : Uri) (texts : List Text)
  | closed (uri : Uri)
  | saved (uri : Uri)
  | watched (changes : List (Uri × FileChange))
  | complete (uri : Uri) (position : Position)
  | define (uri : Uri) (position : Position)
  /-- A change to the disk. -/
  | change (step : FileStep)

/-! ## Work that leaves the settings alone -/

namespace Session

/-- Work that leaves the settings as they are. -/
def Steady {α : Type} (x : Session α) : Prop :=
  ∀ s, (x s).2.config = s.config

namespace Steady

variable {α β : Type}

theorem pure (a : α) : Steady (Pure.pure a) :=
  fun _ => rfl

theorem bind {x : Session α} {k : α → Session β} (hx : Steady x) (hk : ∀ a, Steady (k a)) :
    Steady (x >>= k) := by
  intro s
  show (ExceptT.bindCont k (x s).1 (x s).2).2.config = s.config
  rw [← hx s]
  cases (x s).1 with
  | ok a => exact hk a _
  | error e => rfl

theorem ask (f : Server → α) : Steady (Session.ask f) :=
  fun _ => rfl

theorem onRegistry (work : Work α) : Steady (Session.onRegistry work) :=
  fun _ => rfl

theorem note (level : Level) (notice : Notice) : Steady (alter (·.note level notice)) :=
  fun _ => rfl

theorem send (message : Server → Message) : Steady (alter fun s => s.send (message s)) := by
  intro s
  show (s.send (message s)).config = s.config
  rw [Server.send]
  split <;> rfl

end Steady

theorem steady_documentText (uri : Uri) : Steady (documentText uri) := by
  refine .bind (.ask _) fun text? => ?_
  split
  · exact .pure _
  · split
    · exact .pure _
    · refine .bind (.ask _) fun read => ?_
      split
      · exact .pure _
      · exact .bind (.note _ _) fun _ => .pure _

theorem steady_applyConfig : Steady applyConfig := by
  refine .bind (.ask _) fun options => .bind (.onRegistry _) fun rescanned => ?_
  split
  · exact .bind (.send _) fun _ => .pure _
  · exact .pure _

theorem steady_watchFiles : Steady watchFiles := by
  refine .bind (.ask _) fun editor? => ?_
  split
  · exact .pure _
  · split
    · exact .note _ _
    · refine .bind (.send _) fun _ => ?_
      split
      · exact .note _ _
      · exact .pure _

theorem steady_ready : Steady ready := by
  refine .bind steady_watchFiles fun _ => .bind steady_applyConfig fun rescanned => ?_
  split
  · exact .bind (.onRegistry _) fun _ => .send _
  · exact .send _

theorem steady_changed (uri : Uri) (texts : List Text) : Steady (changed uri texts) := by
  rw [changed]
  split
  · exact fun _ => rfl
  · exact .pure _

theorem steady_fileChanged (uri : Uri) (change : FileChange) : Steady (fileChanged uri change) := by
  rw [fileChanged]
  split
  · exact .pure _
  · refine .bind (.ask _) fun belongs => ?_
    split
    · split
      · exact .bind (.onRegistry _) fun _ => .pure _
      · exact .onRegistry _
      · exact .pure _
    · exact .pure _

theorem steady_watched (changes : List (Uri × FileChange)) : Steady (watched changes) := by
  induction changes with
  | nil => exact .pure _
  | cons change rest ih => exact .bind (steady_fileChanged change.1 change.2) fun _ => ih

theorem steady_tagComponent? (tags : List Text) (region : Region) : Steady (tagComponent? tags region) := by
  rw [tagComponent?]
  split
  · exact .pure _
  · split
    · exact .pure _
    · refine .bind (.ask _) fun found? => ?_
      split
      · exact .pure _
      · split
        · exact .pure _
        · exact .bind (.onRegistry _) fun _ => .bind (.ask _) fun _ => .pure _

theorem steady_completionItems (uri : Uri) (content : Text) (p : Position) :
    Steady (completionItems uri content p) := by
  rw [completionItems]
  split
  · split
    · exact .pure _
    · exact .bind (.onRegistry _) fun _ => .pure _
  · refine .bind (.onRegistry _) fun tags => .bind (steady_tagComponent? tags _) fun component? => ?_
    split
    · exact .pure _
    · exact .pure _

theorem steady_complete (uri : Uri) (p : Position) : Steady (complete uri p) := by
  refine .bind (.ask _) fun enabled => ?_
  split
  · exact .pure _
  · refine .bind (steady_documentText uri) fun text? => ?_
    split
    · exact .pure _
    · exact .bind (steady_completionItems uri _ p) fun _ => .pure _

theorem steady_locate (file : Path) (name : Text) (kind : Source.DeclarationKind) :
    Steady (locate file name kind) := by
  refine .bind (.ask _) fun read => ?_
  split
  · exact .bind (.note _ _) fun _ => .pure _
  · exact .bind (.ask _) fun _ => .pure _

theorem steady_locateMember (c : Component) (name : Text) (preferMethod : Bool) :
    Steady (locateMember c name preferMethod) := by
  rw [locateMember]
  split
  · exact .pure _
  · exact .bind (.ask _) fun _ => steady_locate _ _ _

theorem steady_locateClass (name : Text) : Steady (locateClass name) := by
  refine .bind (.ask _) fun found? => ?_
  split
  · exact steady_locate _ _ _
  · exact .pure _

theorem steady_locateAttribute (region : Region) (word : Text) : Steady (locateAttribute region word) := by
  rw [locateAttribute]
  split
  · exact .pure _
  · refine .bind (.ask _) fun found? => ?_
    split
    · exact steady_locateMember _ _ _
    · exact .pure _

theorem steady_locateOwn (uri : Uri) (word : Text) (preferMethod : Bool) :
    Steady (locateOwn uri word preferMethod) := by
  rw [locateOwn]
  split
  · exact .pure _
  · refine .bind (.onRegistry _) fun component? => ?_
    split
    · exact steady_locateMember _ _ _
    · exact .pure _

theorem steady_resolveName (uri : Uri) (content : Text) (range : ByteRange) :
    Steady (resolveName uri content range) := by
  refine .bind (.ask _) fun known => ?_
  split
  · exact steady_locateClass _
  · refine .bind (steady_locateAttribute _ _) fun attribute? => ?_
    split
    · exact .pure _
    · refine .bind (steady_locateOwn _ _ _) fun own? => ?_
      split
      · exact .pure _
      · exact steady_locateClass _

theorem steady_define (uri : Uri) (p : Position) : Steady (define uri p) := by
  refine .bind (steady_documentText uri) fun text? => ?_
  split
  · exact .pure _
  · refine .bind (.ask _) fun unscanned => ?_
    split
    · split
      · exact .bind (.onRegistry _) fun _ => .pure _
      · exact .pure _
    · split
      · exact .bind (.onRegistry _) fun _ => steady_resolveName _ _ _
      · exact steady_resolveName _ _ _

/-! ## Work that changes the settings -/

/-- A change of settings is one more layer. -/
theorem configure_config (settings : Value) (s : Server) :
    (configure settings s).2.config = s.config.add (.editor settings) := by
  rw [configure, Config.add, Layer.overlay?]
  cases Settings.Overlay.ofEditor settings with
  | error e => rfl
  | ok overlay =>
    have hrest : Steady (do let _ ← applyConfig) := .bind steady_applyConfig fun _ => .pure ()
    exact hrest { s with config := s.config.apply overlay }

end Session

/-- The settings files of the user and of a workspace, as layers. -/
def fileLayers (d : Disk) (userDirectory root : Option Path) : List Layer :=
  ((userDirectory.map (·.join Config.userFile)).toList ++
    (root.map (·.join Config.workspaceFile)).toList).map (.file d)

/-- Loading lays the settings files over the defaults. -/
theorem Config.load_fst (d : Disk) (userDirectory root : Option Path) :
    (load d userDirectory root).1 = layered (fileLayers d userDirectory root) := by
  rw [layered, fileLayers, List.foldl_map]
  refine (List.foldl_hom Prod.fst ?_).symm
  intro c path
  exact (applyFile_fst d c.1 path).symm

/-- A handshake starts again from the defaults, with the settings files and then what the editor sends. -/
theorem Session.handshake_config (rootUri : Option Uri) (folders : List Uri) (options : Option Value)
    (s : Server) :
    (handshake rootUri folders options s).2.config =
      .layered (fileLayers s.world.disk s.userDirectory (workspaceRoot? rootUri folders) ++
        options.toList.map .editor) := by
  rw [Config.layered, List.foldl_append, ← Config.layered, ← Config.load_fst]
  cases options with
  | none => rfl
  | some settings =>
    rw [handshake, Option.map_some, Option.toList_some, List.map_singleton, List.foldl_cons, List.foldl_nil,
      Config.add, Layer.overlay?]
    cases Settings.Overlay.ofEditor settings with
    | error e => rfl
    | ok overlay => rfl

/-! ## Events -/

namespace Server

def step (s : Server) : Event → Server
  | .handshake root folders options => (Session.handshake root folders options s).2
  | .ready => (Session.ready s).2
  | .configure settings => (Session.configure settings s).2
  | .opened uri text => (Session.opened uri text s).2
  | .changed uri texts => (Session.changed uri texts s).2
  | .closed uri => (Session.closed uri s).2
  | .saved uri => (Session.saved uri s).2
  | .watched changes => (Session.watched changes s).2
  | .complete uri position => (Session.complete uri position s).2
  | .define uri position => (Session.define uri position s).2
  | .change step => { s with world := s.world.change step }

def run (s : Server) (events : List Event) : Server :=
  events.foldl step s

/-- The layers in force after an event, from those before it. -/
def layersAfter (s : Server) (layers : List Layer) : Event → List Layer
  | .handshake root folders options =>
    fileLayers s.world.disk s.userDirectory (Session.workspaceRoot? root folders) ++
      options.toList.map .editor
  | .configure settings => layers ++ [.editor settings]
  | _ => layers

/-- The layers in force after several events. -/
def layersOf (s : Server) (layers : List Layer) : List Event → List Layer
  | [] => layers
  | event :: rest => (s.step event).layersOf (s.layersAfter layers event) rest

/-- An event leaves a server with the settings of its layers. -/
theorem step_config {s : Server} {layers : List Layer} (h : s.config = .layered layers) (event : Event) :
    (s.step event).config = .layered (s.layersAfter layers event) := by
  cases event with
  | handshake root folders options => exact Session.handshake_config root folders options s
  | configure settings =>
    rw [layersAfter, Config.layered_concat, ← h]
    exact Session.configure_config settings s
  | ready => exact (Session.steady_ready s).trans h
  | opened uri text => exact h
  | changed uri texts => exact (Session.steady_changed uri texts s).trans h
  | closed uri => exact h
  | saved uri => exact (Session.steady_fileChanged uri .written s).trans h
  | watched changes => exact (Session.steady_watched changes s).trans h
  | complete uri position => exact (Session.steady_complete uri position s).trans h
  | define uri position => exact (Session.steady_define uri position s).trans h
  | change step => exact h

/-- **The settings of a server are those of its layers**, whatever happens to it. -/
theorem run_config {s : Server} {layers : List Layer} (h : s.config = .layered layers) (events : List Event) :
    (s.run events).config = .layered (s.layersOf layers events) := by
  induction events generalizing s layers with
  | nil => exact h
  | cons event rest ih => exact ih (step_config h event)

/-- **What the extensions of a server look like**, whatever happens to it.  None starts with a dot or ends with a
blank, and each is normal exactly if the value that it was last set to is not recessed. -/
theorem run_extensions {s : Server} {layers : List Layer} (h : s.config = .layered layers)
    (events : List Event) :
    let c := (s.run events).config
    let source? := Settings.latest (·.sourceExtension) (s.layersOf layers events)
    let template? := Settings.latest (·.templateExtension) (s.layersOf layers events)
    ((c.sourceExtension.head? ≠ some '.' ∧ c.sourceExtension.getLast?.any Text.isBlank = false) ∧
      (IsNormal c.sourceExtension ↔ ¬ ∃ value ∈ source?, Recessed value)) ∧
    (c.templateExtension.head? ≠ some '.' ∧ c.templateExtension.getLast?.any Text.isBlank = false) ∧
      (IsNormal c.templateExtension ↔ ¬ ∃ value ∈ template?, Recessed value) := by
  intro c source? template?
  have hc : c = .layered (s.layersOf layers events) := run_config h events
  rw [hc, Config.sourceExtension_layered, Config.templateExtension_layered]
  exact ⟨Config.normal_getD Config.isNormal_default.1 source?,
    Config.normal_getD Config.isNormal_default.2 template?⟩

end Server

end TemplateAssist
