import Mathlib.Data.List.Basic
import Mathlib.Data.List.Induction
import Mathlib.Data.List.TakeWhile
import TemplateAssist.Proofs.Scanning
import TemplateAssist.Settings.Config

/-!
# Layers of settings

* `IsNormal` — an extension with neither a dot nor a blank at the front and no blank at the end.
  `normaliseExtension_eq_self_iff`: these are the extensions that normalising leaves alone.
* `Recessed` — a value with a blank behind its leading dots.  `isNormal_normaliseExtension_iff`: blanks are
  taken off before dots, so exactly these values are not brought into normal form.
* `Layer` — a settings file or a value that an editor sends; `latest` — the value of a key in the last layer
  that sets it; `Config.layered` — the defaults with a sequence of layers laid over them.
* `value_layered` — a setting holds what the last layer that sets its key says.

Principal result: `Config.layered_normal`, on the extensions after any sequence of layers.
-/

namespace TemplateAssist

namespace Text

/-! ## Blanks at the ends of a text -/

theorem any_getLast?_trimEnd (t : Text) : (trimEnd t).getLast?.any isBlank = false := by
  rw [trimEnd, List.getLast?_reverse]
  exact any_head?_dropWhile isBlank t.reverse

theorem isPrefix_trimEnd (t : Text) : trimEnd t <+: t := by
  refine ⟨(t.reverse.takeWhile isBlank).reverse, ?_⟩
  rw [trimEnd, ← List.reverse_append, List.takeWhile_append_dropWhile, List.reverse_reverse]

theorem trimEnd_of_not_blank {t : Text} (h : t.getLast?.any isBlank = false) : trimEnd t = t := by
  have hback : t.reverse.head?.any isBlank = false := by rwa [List.head?_reverse]
  rw [trimEnd, show t.reverse.dropWhile isBlank = t.reverse from trimStart_of_not_blank hback,
    List.reverse_reverse]

/-- What stands before a text that is not all blank is out of reach of its trailing blanks. -/
theorem trimEnd_append {t : Text} (ht : ∃ c ∈ t, isBlank c = false) (u : Text) :
    trimEnd (u ++ t) = u ++ trimEnd t := by
  have hne : (t.reverse.dropWhile isBlank).isEmpty = false := by
    obtain ⟨c, hc, hsolid⟩ := ht
    rw [List.isEmpty_eq_false_iff, Ne, List.dropWhile_eq_nil_iff]
    intro hblank
    rw [hblank c (List.mem_reverse.mpr hc)] at hsolid
    cases hsolid
  rw [trimEnd, trimEnd, List.reverse_append, List.dropWhile_append, hne]
  simp

/-- What is not in front of a text is not in front of its beginning either. -/
theorem any_head?_of_append {p : Char → Bool} {t more : Text} (h : (t ++ more).head?.any p = false) :
    t.head?.any p = false := by
  cases t with
  | nil => rfl
  | cons c t => exact h

theorem any_head?_trim (t : Text) : (trim t).head?.any isBlank = false := by
  obtain ⟨more, heq⟩ := isPrefix_trimEnd (trimStart t)
  have hstart : (trim t ++ more).head?.any isBlank = false := by
    rw [trim, heq]
    exact any_head?_dropWhile isBlank t
  exact any_head?_of_append hstart

/-- A text that starts but does not end with a blank is not all blank behind the first. -/
theorem exists_solid_of_getLast {c : Char} {t : Text} (hc : isBlank c = true)
    (hlast : (c :: t).getLast?.any isBlank = false) : ∃ d ∈ t, isBlank d = false := by
  rcases List.eq_nil_or_concat' t with rfl | ⟨t, d, rfl⟩
  · exact absurd hc (by simpa using hlast)
  · rw [← List.cons_append, List.getLast?_concat] at hlast
    exact ⟨d, by simp, hlast⟩

theorem trim_of_not_blank {t : Text} (hstart : t.head?.any isBlank = false)
    (hend : t.getLast?.any isBlank = false) : trim t = t := by
  rw [trim, trimStart_of_not_blank hstart, trimEnd_of_not_blank hend]

end Text

/-! ## Extensions -/

open Text

/-- An extension with neither a dot nor a blank at the front and no blank at the end. -/
structure IsNormal (extension : Text) : Prop where
  undotted : extension.head? ≠ some '.'
  flush : extension.head?.any isBlank = false
  trimmed : extension.getLast?.any isBlank = false

/-- A value whose leading dots, maybe with blanks before them, are followed by a blank and, later on, by
something that is not blank. -/
def Recessed (value : Text) : Prop :=
  ∃ lead dots blank rest, value = lead ++ (dots ++ blank :: rest) ∧
    (∀ c ∈ lead, isBlank c = true) ∧ dots ≠ [] ∧ (∀ c ∈ dots, c = '.') ∧
    isBlank blank = true ∧ ∃ c ∈ rest, isBlank c = false

theorem exists_trim_eq_append (value : Text) :
    ∃ dots, trim value = dots ++ normaliseExtension value ∧ ∀ c ∈ dots, c = '.' := by
  refine ⟨(trim value).takeWhile (· = '.'), ?_, ?_⟩
  · rw [normaliseExtension, List.takeWhile_append_dropWhile]
  · intro c hc
    exact of_decide_eq_true (mem_takeWhile c hc)

theorem head?_normaliseExtension (value : Text) : (normaliseExtension value).head? ≠ some '.' := by
  intro hdot
  have hstop := any_head?_dropWhile (· = '.') (trim value)
  rw [normaliseExtension] at hdot
  rw [hdot] at hstop
  cases hstop

theorem any_getLast?_normaliseExtension (value : Text) :
    (normaliseExtension value).getLast?.any isBlank = false := by
  obtain ⟨dots, heq, -⟩ := exists_trim_eq_append value
  by_cases hne : normaliseExtension value = []
  · rw [hne]
    rfl
  · rw [← List.getLast?_append_of_ne_nil dots hne, ← heq]
    exact any_getLast?_trimEnd _

theorem isInfix_normaliseExtension (value : Text) : normaliseExtension value <:+: value := by
  have hdots : normaliseExtension value <:+: trim value := (List.dropWhile_suffix _).isInfix
  have hend : trim value <:+: trimStart value := (isPrefix_trimEnd _).isInfix
  exact hdots.trans (hend.trans (List.dropWhile_suffix _).isInfix)

/-- A blank is in front after normalising exactly if one stood behind the leading dots. -/
theorem any_head?_normaliseExtension_iff (value : Text) :
    (normaliseExtension value).head?.any isBlank = true ↔ Recessed value := by
  constructor
  · intro hblank
    obtain ⟨dots, hdots, hdot⟩ := exists_trim_eq_append value
    obtain ⟨more, hmore⟩ := isPrefix_trimEnd (trimStart value)
    have hlast := any_getLast?_normaliseExtension value
    have hne : dots ≠ [] := by
      -- without dots the blank would be in front of the trimmed value
      rintro rfl
      rw [List.nil_append] at hdots
      rw [← hdots, any_head?_trim] at hblank
      cases hblank
    cases hnormal : normaliseExtension value with
    | nil =>
      rw [hnormal] at hblank
      cases hblank
    | cons blank rest =>
      rw [hnormal] at hblank hlast hdots
      obtain ⟨c, hc, hsolid⟩ := exists_solid_of_getLast hblank hlast
      have hvalue : value = value.takeWhile isBlank ++ (dots ++ blank :: (rest ++ more)) := by
        rw [← List.cons_append, ← List.append_assoc dots, ← hdots, trim, hmore, trimStart,
          List.takeWhile_append_dropWhile]
      exact ⟨_, dots, blank, _, hvalue, mem_takeWhile, hne, hdot, hblank, c, List.mem_append_left more hc, hsolid⟩
  · rintro ⟨lead, dots, blank, rest, rfl, hlead, hne, hdot, hblank, hsolid⟩
    have hfront : (dots ++ blank :: rest).head?.any isBlank = false := by
      refine any_head?_append_of_solid (fun c hc => ?_) hne
      rw [hdot c hc]
      decide
    have htrim : trim (lead ++ (dots ++ blank :: rest)) = dots ++ blank :: trimEnd rest := by
      rw [trim, trimStart_append hlead hfront, List.append_cons, trimEnd_append hsolid, ← List.append_cons]
    have hstop : decide (blank = '.') = false := by
      refine decide_eq_false ?_
      rintro rfl
      cases hblank
    rw [normaliseExtension, htrim,
      dropWhile_append_stop (fun c hc => decide_eq_true (hdot c hc)) (any_head?_cons hstop _)]
    exact hblank

/-- Normalising leaves alone what is in normal form, and nothing else. -/
theorem normaliseExtension_eq_self_iff (extension : Text) :
    normaliseExtension extension = extension ↔ IsNormal extension := by
  constructor
  · intro heq
    have hdot := head?_normaliseExtension extension
    have hlast := any_getLast?_normaliseExtension extension
    rw [heq] at hdot hlast
    refine ⟨hdot, ?_, hlast⟩
    cases extension with
    | nil => rfl
    | cons c rest =>
      -- a blank in front is dropped, so that what remains would be too short
      by_contra hblank
      have hc : isBlank c = true := by simpa using hblank
      have hrest : normaliseExtension (c :: rest) = normaliseExtension rest := by
        rw [normaliseExtension, trim, trimStart, List.dropWhile_cons_of_pos hc]
        rfl
      have hlength := (isInfix_normaliseExtension rest).length_le
      rw [← hrest, heq, List.length_cons] at hlength
      omega
  · rintro ⟨hdot, hflush, htrimmed⟩
    rw [normaliseExtension, trim_of_not_blank hflush htrimmed]
    cases extension with
    | nil => rfl
    | cons c rest =>
      refine List.dropWhile_cons_of_neg ?_
      simpa using hdot

theorem isNormal_normaliseExtension_iff (value : Text) :
    IsNormal (normaliseExtension value) ↔ ¬ Recessed value := by
  rw [← any_head?_normaliseExtension_iff, Bool.not_eq_true]
  constructor
  · exact IsNormal.flush
  · intro hflush
    exact ⟨head?_normaliseExtension value, hflush, any_getLast?_normaliseExtension value⟩

/-! ## Layers -/

namespace Settings

inductive Layer where
  /-- A settings file on a disk. -/
  | file (disk : Disk) (path : Path)
  /-- A value that an editor sends, with its handshake or later. -/
  | editor (settings : Value)

/-- What a layer sets.  A file that is missing and a layer that cannot be read set nothing. -/
def Layer.overlay? : Layer → Option Overlay
  | file disk path => (Overlay.ofFile disk path).toOption.join
  | editor settings => (Overlay.ofEditor settings).toOption

/-- The value of a key in the last layer that sets it. -/
def latest {α : Type} (key : Overlay → Option α) (layers : List Layer) : Option α :=
  layers.reverse.findSome? fun layer => layer.overlay?.bind key

theorem latest_concat {α : Type} (key : Overlay → Option α) (layers : List Layer) (layer : Layer) :
    latest key (layers ++ [layer]) = (layer.overlay?.bind key <|> latest key layers) := by
  rw [latest, List.reverse_concat, List.findSome?_cons]
  cases layer.overlay?.bind key <;> rfl

end Settings

namespace Config

open Settings

def add (c : Config) (layer : Layer) : Config :=
  layer.overlay?.elim c c.apply

/-- The defaults with a sequence of layers laid over them. -/
def layered (layers : List Layer) : Config :=
  layers.foldl add default

/-- The overlay that sets every key to its value in a configuration. -/
def overlay (c : Config) : Overlay :=
  ⟨some c.enableAutocompletion, some c.componentSearchPaths, some c.sourceExtension, some c.templateExtension⟩

theorem layered_concat (layers : List Layer) (layer : Layer) :
    layered (layers ++ [layer]) = (layered layers).add layer :=
  List.foldl_concat ..

/-- A setting that an overlay replaces where it sets the key holds, after any layers, what the last layer
that sets the key says. -/
theorem value_layered {α β : Type} (value : Config → α) (key : Overlay → Option β) (read : β → α)
    (happly : ∀ c o, value (c.apply o) = ((key o).map read).getD (value c)) (layers : List Layer) :
    value (layered layers) = ((latest key layers).map read).getD (value default) := by
  induction layers using List.reverseRecOn with
  | nil => rfl
  | append_singleton layers layer ih =>
    rw [layered_concat, latest_concat, add]
    cases layer.overlay? with
    | none => exact ih
    | some o =>
      show value ((layered layers).apply o) = _
      rw [happly, ih]
      cases hset : key o <;> simp [hset]

/-- The same for a setting that is taken as it is. -/
theorem value_layered_asIs {α : Type} (value : Config → α) (key : Overlay → Option α)
    (happly : ∀ c o, value (c.apply o) = (key o).getD (value c)) (layers : List Layer) :
    value (layered layers) = (latest key layers).getD (value default) := by
  have hid : ∀ c o, value (c.apply o) = ((key o).map id).getD (value c) := by simpa using happly
  simpa using value_layered value key id hid layers

theorem sourceExtension_layered (layers : List Layer) :
    (layered layers).sourceExtension =
      ((latest (·.sourceExtension) layers).map normaliseExtension).getD default.sourceExtension :=
  value_layered (·.sourceExtension) (·.sourceExtension) normaliseExtension (fun _ _ => rfl) layers

theorem templateExtension_layered (layers : List Layer) :
    (layered layers).templateExtension =
      ((latest (·.templateExtension) layers).map normaliseExtension).getD default.templateExtension :=
  value_layered (·.templateExtension) (·.templateExtension) normaliseExtension (fun _ _ => rfl) layers

/-- The settings after a settings file are those after it as a layer. -/
theorem applyFile_fst (d : Disk) (c : Config) (path : Path) : (applyFile d c path).1 = c.add (.file d path) := by
  rw [applyFile, add, Layer.overlay?]
  rcases Overlay.ofFile d path with e | ⟨_ | o⟩ <;> rfl

theorem apply_overlay_eq_self_iff (c : Config) :
    c.apply c.overlay = c ↔ IsNormal c.sourceExtension ∧ IsNormal c.templateExtension := by
  rw [← normaliseExtension_eq_self_iff, ← normaliseExtension_eq_self_iff]
  cases c
  simp [apply, overlay]

theorem isNormal_default : IsNormal default.sourceExtension ∧ IsNormal default.templateExtension :=
  ⟨⟨by decide, by decide, by decide⟩, ⟨by decide, by decide, by decide⟩⟩

/-- Of an extension that layers set or leave at a normal value, only a blank in front can go wrong, and it
does if the value that was set is recessed. -/
theorem normal_getD {fallback : Text} (hfallback : IsNormal fallback) (set? : Option Text) :
    let extension := (set?.map normaliseExtension).getD fallback
    (extension.head? ≠ some '.' ∧ extension.getLast?.any isBlank = false) ∧
      (IsNormal extension ↔ ¬ ∃ value ∈ set?, Recessed value) := by
  cases set? with
  | none => exact ⟨⟨hfallback.undotted, hfallback.trimmed⟩, by simpa using hfallback⟩
  | some value =>
    refine ⟨⟨head?_normaliseExtension value, any_getLast?_normaliseExtension value⟩, ?_⟩
    simpa using isNormal_normaliseExtension_iff value

/-- **What configured extensions look like.**  After any sequence of layers, whether they can be read or not,
each key holds the normalised value of the last layer that sets it, or else its default.  No extension starts
with a dot or ends with a blank.  One starts with a blank exactly if the value that was set last has a blank
behind its leading dots, and laying the configuration over itself leaves it as it is exactly if neither does. -/
theorem layered_normal (layers : List Layer) :
    let c := layered layers
    let source? := latest (·.sourceExtension) layers
    let template? := latest (·.templateExtension) layers
    (c.enableAutocompletion = (latest (·.enableAutocompletion) layers).getD true ∧
      c.componentSearchPaths = (latest (·.componentSearchPaths) layers).getD [] ∧
      c.sourceExtension = (source?.map normaliseExtension).getD "php".toList ∧
      c.templateExtension = (template?.map normaliseExtension).getD "html".toList) ∧
    ((c.sourceExtension.head? ≠ some '.' ∧ c.sourceExtension.getLast?.any isBlank = false) ∧
      (IsNormal c.sourceExtension ↔ ¬ ∃ value ∈ source?, Recessed value)) ∧
    ((c.templateExtension.head? ≠ some '.' ∧ c.templateExtension.getLast?.any isBlank = false) ∧
      (IsNormal c.templateExtension ↔ ¬ ∃ value ∈ template?, Recessed value)) ∧
    (c.apply c.overlay = c ↔ IsNormal c.sourceExtension ∧ IsNormal c.templateExtension) := by
  intro c source? template?
  have henable : c.enableAutocompletion = (latest (·.enableAutocompletion) layers).getD true :=
    value_layered_asIs (·.enableAutocompletion) (·.enableAutocompletion) (fun _ _ => rfl) layers
  have hpaths : c.componentSearchPaths = (latest (·.componentSearchPaths) layers).getD [] :=
    value_layered_asIs (·.componentSearchPaths) (·.componentSearchPaths) (fun _ _ => rfl) layers
  have hsource : c.sourceExtension = (source?.map normaliseExtension).getD "php".toList :=
    sourceExtension_layered layers
  have htemplate : c.templateExtension = (template?.map normaliseExtension).getD "html".toList :=
    templateExtension_layered layers
  refine ⟨⟨henable, hpaths, hsource, htemplate⟩, ?_, ?_, apply_overlay_eq_self_iff c⟩
  · rw [hsource]
    exact normal_getD isNormal_default.1 source?
  · rw [htemplate]
    exact normal_getD isNormal_default.2 template?

/-- A dot and a blank before the extension proper: the blank is left in front, so the extension is not normal
and laying the configuration over itself changes it. -/
theorem layered_dottedBlank :
    let c := layered [.editor (.map [(sourceKey, .string ". .php".toList)])]
    c.sourceExtension = " .php".toList ∧ c.sourceExtension.head?.any isBlank = true ∧
      ¬ IsNormal c.sourceExtension ∧ (c.apply c.overlay).sourceExtension = "php".toList ∧
      c.apply c.overlay ≠ c := by
  intro c
  have hsource : c.sourceExtension = " .php".toList := by decide
  have hblank : c.sourceExtension.head?.any isBlank = true := by decide
  have hagain : (c.apply c.overlay).sourceExtension = "php".toList := by decide
  refine ⟨hsource, hblank, fun hnormal => ?_, hagain, fun hsame => ?_⟩
  · rw [hnormal.flush] at hblank
    cases hblank
  · rw [hsame, hsource] at hagain
    exact absurd hagain (by decide)

end Config

end TemplateAssist
