import FunctionMap.Files.Tree
import FunctionMap.Proofs.Files.Laws
import FunctionMap.Proofs.Settings.Tree

/-!
# Layers of settings, in any order

A loader is given files and overrides in any order, and the settings are built from all of them. What
counts for a setting is the last override for it; without one, the last file that sets it; and without
such a file, what is built in. How the files and the overrides are interleaved does not count.

* `LoaderStep` -- what a loader can be asked for; `settingsAfter` builds the settings that come of it;
* `LoaderStep.Fits` -- a required file is there, a file that is there is well-formed and sets settings to
  values of their kinds, and so does an override;
* `LoaderStep.override?`, `LoaderStep.inFile?` -- the value that a step sets a setting to;
* `LayeredBy` -- what is said of the settings that are built.

Main statement: `settings_are_layered`.
-/

namespace FunctionMap
namespace Settings

/-! ## 1. Reading the settings of a tree -/

theorem get_ext {a b : Settings} (h : ∀ K, a.get K = b.get K) : a = b := by
  obtain ⟨⟨f, e, c⟩, ⟨l⟩⟩ := a
  obtain ⟨⟨f', e', c'⟩, ⟨l'⟩⟩ := b
  have hf := Toml.Scalar.string.inj (h .format)
  have he := Toml.Scalar.string.inj (h .outputExtension)
  have hc := Toml.Scalar.boolean.inj (h .continueOnError)
  have hl := Toml.Scalar.string.inj (h .level)
  simp only at hf he hc hl
  rw [hf, he, hc, hl]

/-- A setting with a value is in the table of its section. -/
theorem exists_of_setting? {root : Node} {K : Key} {s : Toml.Scalar} (h : root.setting? K = some s) :
    ∃ file? es source?, root.child? K.home.key = some (.table file? es) ∧
      (Node.table file? es).child? K.name = some (.scalar source? s) := by
  obtain ⟨node, hnode, hs⟩ := Option.bind_eq_some_iff.mp h
  obtain ⟨home, hhome, hname⟩ := Option.bind_eq_some_iff.mp
    (show (root.child? K.home.key).bind (Node.get? [.key K.name]) = some node from hnode)
  obtain ⟨node', hchild, hnode'⟩ := Option.bind_eq_some_iff.mp
    (show (home.child? K.name).bind (Node.get? []) = some node from hname)
  obtain rfl : node' = node := Option.some.inj hnode'
  cases node' with
  | scalar source? s' =>
    obtain rfl : s' = s := Option.some.inj hs
    cases home with
    | table file? es => exact ⟨file?, es, source?, hhome, hchild⟩
    | _ => cases hchild
  | _ => cases hs

theorem Key.exists_string {K : Key} (hK : K ≠ .continueOnError) {s : Toml.Scalar}
    (h : K.accepts s = true) : ∃ t, s = .string t := by
  cases s with
  | string t => exact ⟨t, rfl⟩
  | boolean b => exact absurd (of_decide_eq_true h) hK
  | _ => cases h

theorem Key.exists_boolean {s : Toml.Scalar} (h : Key.continueOnError.accepts s = true) :
    ∃ b, s = .boolean b := by
  cases s with
  | boolean b => exact ⟨b, rfl⟩
  | _ => cases h

/-- All settings of a section are in one table. -/
theorem exists_home {root : Node} {v : Key → Toml.Scalar} (h : ∀ K, root.setting? K = some (v K))
    (K : Key) : ∃ file? es, root.child? K.home.key = some (.table file? es) ∧ ∀ K', K'.home = K.home →
      ∃ source?, (Node.table file? es).child? K'.name = some (.scalar source? (v K')) := by
  obtain ⟨file?, es, -, htable, -⟩ := exists_of_setting? (h K)
  refine ⟨file?, es, htable, fun K' hK' => ?_⟩
  obtain ⟨file'?, es', source?, htable', hentry⟩ := exists_of_setting? (h K')
  rw [hK', htable] at htable'
  rw [Option.some.inj htable']
  exact ⟨source?, hentry⟩

theorem Section.field?_of_child? {α : Type} {s : Section} {read : String → Node → Except Error α}
    {node child : Node} {name : String} {a : α} (h : node.child? name = some child)
    (hread : read (s.key ++ "." ++ name) child = .ok a) : s.field? read node name = .ok (some a) := by
  rw [field?, h]
  show some <$> read (s.key ++ "." ++ name) child = _
  rw [hread]
  rfl

theorem convertOf_table {file? e₁ e₂ e₃ : Option String} {es : List (String × Node)}
    {format extension : String} {goesOn : Bool}
    (h₁ : (Node.table file? es).child? "format" = some (.scalar e₁ (.string format)))
    (h₂ : (Node.table file? es).child? "output_extension" = some (.scalar e₂ (.string extension)))
    (h₃ : (Node.table file? es).child? "continue_on_error" = some (.scalar e₃ (.boolean goesOn))) :
    convertOf (.table file? es) = .ok ⟨format, extension, goesOn⟩ := by
  rw [convertOf, Section.field?_of_child? h₁ rfl, Section.field?_of_child? h₂ rfl,
    Section.field?_of_child? h₃ rfl]
  rfl

theorem loggingOf_table {file? e₁ : Option String} {es : List (String × Node)} {level : String}
    (h₁ : (Node.table file? es).child? "level" = some (.scalar e₁ (.string level))) :
    loggingOf (.table file? es) = .ok ⟨level⟩ := by
  rw [loggingOf, Section.field?_of_child? h₁ rfl]
  rfl

/-- **A tree that has a value of its kind for each setting gives these values.** -/
theorem exists_ofNode {root : Node} {v : Key → Toml.Scalar} (h : ∀ K, root.setting? K = some (v K))
    (hkind : ∀ K, Key.accepts K (v K) = true) :
    ∃ settings, ofNode root = .ok settings ∧ ∀ K, settings.get K = v K := by
  obtain ⟨format, hformat⟩ := Key.exists_string (by decide) (hkind .format)
  obtain ⟨extension, hextension⟩ := Key.exists_string (by decide) (hkind .outputExtension)
  obtain ⟨goesOn, hgoesOn⟩ := Key.exists_boolean (hkind .continueOnError)
  obtain ⟨level, hlevel⟩ := Key.exists_string (by decide) (hkind .level)
  obtain ⟨file?, es, hconvert, hchild⟩ := exists_home h .format
  obtain ⟨e₁, h₁⟩ := hchild .format rfl
  obtain ⟨e₂, h₂⟩ := hchild .outputExtension rfl
  obtain ⟨e₃, h₃⟩ := hchild .continueOnError rfl
  obtain ⟨fileL?, esL, hlogging, hchildL⟩ := exists_home h .level
  obtain ⟨e₄, h₄⟩ := hchildL .level rfl
  rw [hformat] at h₁
  rw [hextension] at h₂
  rw [hgoesOn] at h₃
  rw [hlevel] at h₄
  refine ⟨⟨⟨format, extension, goesOn⟩, ⟨level⟩⟩, ?_, fun K => ?_⟩
  · rw [ofNode, show root.child? "convert" = _ from hconvert,
      show root.child? "logging" = _ from hlogging]
    show (do
      let c ← convertOf (.table file? es)
      let l ← loggingOf (.table fileL? esL)
      return (⟨c, l⟩ : Settings)) = _
    rw [convertOf_table h₁ h₂ h₃, loggingOf_table h₄]
    rfl
  · cases K with
    | format => exact hformat.symm
    | outputExtension => exact hextension.symm
    | continueOnError => exact hgoesOn.symm
    | level => exact hlevel.symm

/-! ## 2. Steps of a loader -/

/-- What a loader can be asked for. -/
inductive LoaderStep where
  | file (path : String)
  | optionalFile (path : String)
  | userFile (path? : Option String)
  | override (path : String) (value : Toml.Scalar)
  | format (name? : Option String)
  deriving Repr

namespace LoaderStep

/-- The loader that is asked for. -/
def apply (l : Loader) : LoaderStep → Except Error Loader
  | .file path => .ok (l.withFile path)
  | .optionalFile path => .ok (l.withOptionalFile path)
  | .userFile path? => .ok (l.withUserFile path?)
  | .override path value => l.withOverride path value
  | .format name? => .ok (l.withFormat name?)

/-- The file of a step. -/
def layer? : LoaderStep → Option FileLayer
  | .file path | .userFile (some path) => some ⟨path, true⟩
  | .optionalFile path => some ⟨path, false⟩
  | .userFile none => some ⟨localFile, false⟩
  | _ => none

/-- The override of a step, or the error of its path. -/
def request? : LoaderStep → Option (Except Error Override)
  | .override path value =>
    match KeyPath.ofText? path with
    | some steps => some (.ok ⟨steps, value⟩)
    | none => some (.error (.malformedPath path))
  | .format (some name) => some (.ok ⟨Key.format.path, .string name⟩)
  | _ => none

/-- A step adds its file, or its override, behind those that are there. -/
theorem apply_eq (l : Loader) (step : LoaderStep) : step.apply l =
    match step.request? with
    | some request => request.map fun o => { l with overrides := l.overrides ++ [o] }
    | none => .ok { l with files := l.files ++ step.layer?.toList } := by
  cases step with
  | file path => rfl
  | optionalFile path => rfl
  | userFile path? => cases path? <;> rfl
  | override path value =>
    rw [apply, Loader.withOverride, request?]
    cases KeyPath.ofText? path <;> rfl
  | format name? =>
    cases name? with
    | some name => rfl
    | none =>
      show Except.ok l = .ok { l with files := l.files ++ [] }
      rw [List.append_nil]

theorem layer?_eq_none {step : LoaderStep} {request : Except Error Override}
    (h : step.request? = some request) : step.layer? = none := by
  cases step with
  | override path value => rfl
  | format name? => rfl
  | _ => cases h

end LoaderStep

/-- A loader after some steps; it ends at the first path that is malformed. -/
def Loader.applyAll (l : Loader) (steps : List LoaderStep) : Except Error Loader :=
  steps.foldlM LoaderStep.apply l

/-- The settings that some steps lead to. -/
def settingsAfter {m : Type → Type} [Monad m] (files : FileAccess m) (steps : List LoaderStep) :
    m (Except Error Settings) :=
  match Loader.start.applyAll steps with
  | .ok l => l.build files
  | .error e => return .error e

/-- **A loader holds the files of its steps and their overrides**, each in order. -/
theorem applyAll_eq (l : Loader) (steps : List LoaderStep) : l.applyAll steps =
    ((steps.filterMap LoaderStep.request?).mapM id).map fun os =>
      ⟨l.files ++ steps.filterMap LoaderStep.layer?, l.overrides ++ os⟩ := by
  induction steps generalizing l with
  | nil =>
    show Except.ok l = .ok ⟨l.files ++ [], l.overrides ++ []⟩
    rw [List.append_nil, List.append_nil]
  | cons step steps ih =>
    show step.apply l >>= (·.applyAll steps) = _
    rw [LoaderStep.apply_eq, List.filterMap_cons, List.filterMap_cons]
    cases hrequest : step.request? with
    | none =>
      show Loader.applyAll _ steps = _
      rw [ih]
      cases step.layer? with
      | none => simp
      | some layer => simp
    | some request =>
      have hlayer : step.layer? = none := LoaderStep.layer?_eq_none hrequest
      rw [hlayer, List.mapM_cons]
      cases request with
      | error e => rfl
      | ok o =>
        show Loader.applyAll _ steps = _
        rw [ih]
        show Except.map _ _ = Except.map _ (Except.ok o >>= _)
        cases (steps.filterMap LoaderStep.request?).mapM id with
        | error e => rfl
        | ok os =>
          show Except.ok (Loader.mk _ ((l.overrides ++ [o]) ++ os)) = .ok ⟨_, l.overrides ++ (o :: os)⟩
          rw [List.append_assoc]
          rfl

/-! ## 3. Files and overrides, laid over a tree -/

section Files

variable {σ : Type} (files : FileAccess (StateM σ)) (s : σ)

/-- What a file of settings turns out to be, or why it cannot be read. -/
def textAt (path : String) : Except String Loader.Found := ((Loader.textOfFile files path).run s).1

/-- The entries of a file of settings; a file that is missing has none. -/
def FileLayer.entries (layer : FileLayer) : List (String × Toml.Value) :=
  match textAt files s layer.path with
  | .ok (.text _ text) => (Toml.parse text).getD []
  | _ => []

/-- The value that a file sets a setting to. -/
def FileLayer.setting? (K : Key) (layer : FileLayer) : Option Toml.Scalar :=
  settingOf K (layer.entries files s)

/-- A file that is well-formed and sets settings to values of their kinds, or that is missing and need
    not be there. -/
inductive FileLayer.Fits (layer : FileLayer) : Prop where
  | missing (cause : String) (hmissing : textAt files s layer.path = .error cause)
      (hoptional : layer.required = false)
  | found (file : String) (text : List Char) (entries : List (String × Toml.Value))
      (htext : textAt files s layer.path = .ok (.text file text))
      (hparse : Toml.parse text = some entries) (hfits : Settings.Fits entries)

end Files

/-- The value that an override sets a setting to. -/
def Override.setting? (K : Key) (o : Override) : Option Toml.Scalar :=
  settingAt K (o.path.folded, .scalar o.value)

/-- An override that sets a setting to a value of its kind. -/
def Override.Fits (o : Override) : Prop := ∃ K : Key, o.path.folded = K.path ∧ K.accepts o.value = true

section Reading

variable {σ : Type} {files : FileAccess (StateM σ)} {s : σ}

theorem FileLayer.entries_of_missing {layer : FileLayer} {cause : String}
    (h : textAt files s layer.path = .error cause) : layer.entries files s = [] := by
  rw [FileLayer.entries, h]

theorem FileLayer.entries_of_found {layer : FileLayer} {file : String} {text : List Char}
    {entries : List (String × Toml.Value)} (h : textAt files s layer.path = .ok (.text file text))
    (hparse : Toml.parse text = some entries) : layer.entries files s = entries := by
  rw [FileLayer.entries, h]
  dsimp only
  rw [hparse, Option.getD_some]

/-- A file of settings is read and nothing else. -/
theorem run_textOfFile (hfiles : files.StayAs s) (path : String) :
    ((Loader.textOfFile files path).run s).2 = s := by
  have hresolve : ((Loader.resolve files path).run s).2 = s := by
    rw [Loader.resolve, run_bind_of_stays (hfiles.isFile path)]
    split
    · rfl
    · rw [run_bind_of_stays (hfiles.isFile _)]
      split <;> rfl
  rw [Loader.textOfFile, run_bind_of_stays hresolve]
  split
  · rfl
  · rw [run_bind_of_stays (hfiles.read _)]
    split
    · rfl
    · split <;> rfl

theorem run_overlayFiles_missing (hfiles : files.StayAs s) {layer : FileLayer} {cause : String}
    (hmissing : textAt files s layer.path = .error cause) (hoptional : layer.required = false)
    (root : Node) (rest : List FileLayer) : (Loader.overlayFiles files root (layer :: rest)).run s =
      (Loader.overlayFiles files root rest).run s := by
  rw [Loader.overlayFiles, run_bind_of_stays (run_textOfFile hfiles layer.path),
    show ((Loader.textOfFile files layer.path).run s).1 = _ from hmissing, hoptional]
  rfl

theorem run_overlayFiles_found (hfiles : files.StayAs s) {layer : FileLayer} {file : String}
    {text : List Char} {entries : List (String × Toml.Value)}
    (htext : textAt files s layer.path = .ok (.text file text)) (hparse : Toml.parse text = some entries)
    (root : Node) (rest : List FileLayer) : (Loader.overlayFiles files root (layer :: rest)).run s =
      (Loader.overlayFiles files (Loader.overlay root file entries) rest).run s := by
  rw [Loader.overlayFiles, run_bind_of_stays (run_textOfFile hfiles layer.path),
    show ((Loader.textOfFile files layer.path).run s).1 = _ from htext]
  dsimp only [Except.bind, Loader.overlayFound]
  rw [hparse]

/-- **Files over a tree set what they have a value for**, the last one of each setting. -/
theorem exists_run_overlayFiles (hfiles : files.StayAs s) {layers : List FileLayer}
    (h : ∀ layer ∈ layers, layer.Fits files s) (root : Node) :
    ∃ root', (Loader.overlayFiles files root layers).run s = (.ok root', s) ∧
      ∀ K, root'.setting? K = (lastOf (FileLayer.setting? files s K) layers).or (root.setting? K) := by
  induction layers generalizing root with
  | nil => exact ⟨root, rfl, fun K => rfl⟩
  | cons layer layers ih =>
    rw [List.forall_mem_cons] at h
    obtain ⟨hlayer, hlayers⟩ := h
    cases hlayer with
    | missing cause hmissing hoptional =>
      obtain ⟨root', hrun, hsettings⟩ := ih hlayers root
      refine ⟨root', (run_overlayFiles_missing hfiles hmissing hoptional root layers).trans hrun, ?_⟩
      intro K
      rw [hsettings, lastOf_cons, FileLayer.setting?, FileLayer.entries_of_missing hmissing,
        Option.or_assoc]
      rfl
    | found file text entries htext hparse hfits =>
      obtain ⟨root', hrun, hsettings⟩ := ih hlayers (Loader.overlay root file entries)
      refine ⟨root', (run_overlayFiles_found hfiles htext hparse root layers).trans hrun, ?_⟩
      intro K
      rw [hsettings, lastOf_cons, FileLayer.setting?, FileLayer.entries_of_found htext hparse,
        Option.or_assoc, setting?_overlay hfits]

/-- **Overrides over a tree set what they are for**, the last one of each setting. -/
theorem setting?_overlayOverrides {os : List Override} (h : ∀ o ∈ os, o.Fits) (K : Key) (root : Node) :
    (Loader.overlayOverrides root os).setting? K =
      (lastOf (Override.setting? K) os).or (root.setting? K) := by
  induction os generalizing root with
  | nil => rfl
  | cons o os ih =>
    rw [List.forall_mem_cons] at h
    obtain ⟨⟨K', hpath, -⟩, hrest⟩ := h
    rw [Loader.overlayOverrides, ih hrest, setting?_mergeAt_setting hpath, lastOf_cons, Option.or_assoc]
    rfl

end Reading

/-! ## 4. Steps of any kind -/

namespace LoaderStep

/-- The value that a step sets a setting to over all files. -/
def override? (K : Key) (step : LoaderStep) : Option Toml.Scalar :=
  step.request?.bind fun request => request.toOption.bind (Override.setting? K)

section Files

variable {σ : Type} (files : FileAccess (StateM σ)) (s : σ)

/-- The value that the file of a step sets a setting to. -/
def inFile? (K : Key) (step : LoaderStep) : Option Toml.Scalar :=
  step.layer?.bind (FileLayer.setting? files s K)

/-- A step whose file, or override, sets settings to values of their kinds. -/
structure Fits (step : LoaderStep) : Prop where
  layer : ∀ layer, step.layer? = some layer → layer.Fits files s
  override : ∀ request, step.request? = some request → ∃ o, request = .ok o ∧ Override.Fits o

/-- A step that asks for no format, or for a file that is missing and need not be there. -/
inductive Idle : LoaderStep → Prop where
  | noFormat : Idle (.format none)
  | missing {step : LoaderStep} {path : String} (cause : String) (hlayer : step.layer? = some ⟨path, false⟩)
      (hmissing : textAt files s path = .error cause) : Idle step

end Files

end LoaderStep

/-- The value of a setting after some steps: that of the last override for it, else that of the last file
    that sets it, else the one that is built in. -/
def valueAfter {σ : Type} (files : FileAccess (StateM σ)) (s : σ) (steps : List LoaderStep) (K : Key) :
    Toml.Scalar :=
  ((lastOf (LoaderStep.override? K) steps).or (lastOf (LoaderStep.inFile? files s K) steps)).getD
    (builtin.get K)

/-- What is said of the settings that come of some steps. -/
structure LayeredBy {σ : Type} (files : FileAccess (StateM σ)) (s : σ) (steps : List LoaderStep)
    (settings : Settings) : Prop where
  built : (settingsAfter files steps).run s = (.ok settings, s)
  values : ∀ K, settings.get K = valueAfter files s steps K
  /-- The same files and the same overrides, each in the same order, give the same settings; so an
      override may be moved over any files. -/
  interleaved : ∀ steps' : List LoaderStep,
    steps'.filterMap LoaderStep.layer? = steps.filterMap LoaderStep.layer? →
    steps'.filterMap LoaderStep.request? = steps.filterMap LoaderStep.request? →
    (settingsAfter files steps').run s = (.ok settings, s)
  /-- A step that is idle may be left out. -/
  idle : ∀ before step after, steps = before ++ step :: after → step.Idle files s →
    (settingsAfter files (before ++ after)).run s = (.ok settings, s)
  /-- A step that does not set a setting leaves it as it is without the step. -/
  independent : ∀ before step after K, steps = before ++ step :: after → step.override? K = none →
    step.inFile? files s K = none → ∃ settings' : Settings,
      (settingsAfter files (before ++ after)).run s = (.ok settings', s) ∧
        settings'.get K = settings.get K

section Steps

variable {σ : Type} {files : FileAccess (StateM σ)} {s : σ}

/-- The overrides of steps that fit, and the value that they set a setting to. -/
theorem exists_overrides {steps : List LoaderStep} (h : ∀ step ∈ steps, step.Fits files s) :
    ∃ os, (steps.filterMap LoaderStep.request?).mapM id = .ok os ∧ (∀ o ∈ os, o.Fits) ∧
      ∀ K, lastOf (Override.setting? K) os = lastOf (LoaderStep.override? K) steps := by
  induction steps with
  | nil => exact ⟨[], rfl, fun o ho => absurd ho List.not_mem_nil, fun K => rfl⟩
  | cons step steps ih =>
    rw [List.forall_mem_cons] at h
    obtain ⟨os, hos, hfits, hlast⟩ := ih h.2
    rw [List.filterMap_cons]
    cases hrequest : step.request? with
    | none =>
      refine ⟨os, hos, hfits, fun K => ?_⟩
      rw [hlast, lastOf_cons, LoaderStep.override?, hrequest]
      exact (Option.or_none).symm
    | some request =>
      obtain ⟨o, rfl, ho⟩ := h.1.override request hrequest
      refine ⟨o :: os, ?_, List.forall_mem_cons.mpr ⟨ho, hfits⟩, fun K => ?_⟩
      · show List.mapM id (Except.ok o :: steps.filterMap LoaderStep.request?) = _
        rw [List.mapM_cons, hos]
        rfl
      · rw [lastOf_cons, hlast, lastOf_cons, LoaderStep.override?, hrequest]
        rfl

theorem setting?_builtin (K : Key) : (Settings.toNode builtin).setting? K = some (builtin.get K) := by
  cases K <;> rfl

theorem accepts_of_override? {step : LoaderStep} (h : step.Fits files s) {K : Key} {v : Toml.Scalar}
    (hv : step.override? K = some v) : K.accepts v = true := by
  obtain ⟨request, hrequest, hv⟩ := Option.bind_eq_some_iff.mp hv
  obtain ⟨o, rfl, K', hpath, hkind⟩ := h.override request hrequest
  obtain ⟨hpath', hvalue⟩ := Prod.mk.inj (settingAt_eq_some_iff.mp
    (show settingAt K (o.path.folded, .scalar o.value) = some v from hv))
  obtain rfl : K' = K := Key.path_injective (hpath.symm.trans hpath')
  rw [← Toml.Value.scalar.inj hvalue]
  exact hkind

theorem accepts_of_inFile? {step : LoaderStep} (h : step.Fits files s) {K : Key} {v : Toml.Scalar}
    (hv : step.inFile? files s K = some v) : K.accepts v = true := by
  obtain ⟨layer, hlayer, hv⟩ := Option.bind_eq_some_iff.mp hv
  cases h.layer layer hlayer with
  | missing cause hmissing hoptional =>
    rw [FileLayer.setting?, FileLayer.entries_of_missing hmissing] at hv
    cases hv
  | found file text entries htext hparse hfits =>
    rw [FileLayer.setting?, FileLayer.entries_of_found htext hparse] at hv
    exact accepts_of_settingOf hfits hv

/-- **A setting has a value of its kind after steps that fit.** -/
theorem accepts_valueAfter {steps : List LoaderStep} (h : ∀ step ∈ steps, step.Fits files s) (K : Key) :
    K.accepts (valueAfter files s steps K) = true := by
  rw [valueAfter]
  cases hoverride : lastOf (LoaderStep.override? K) steps with
  | some v =>
    obtain ⟨step, hstep, hv⟩ := exists_of_lastOf hoverride
    exact accepts_of_override? (h step hstep) hv
  | none =>
    cases hfile : lastOf (LoaderStep.inFile? files s K) steps with
    | some v =>
      obtain ⟨step, hstep, hv⟩ := exists_of_lastOf hfile
      exact accepts_of_inFile? (h step hstep) hv
    | none => cases K <;> rfl

/-- **Steps that fit build settings**, each with its last value. -/
theorem exists_settingsAfter (hfiles : files.StayAs s) {steps : List LoaderStep}
    (h : ∀ step ∈ steps, step.Fits files s) : ∃ settings : Settings,
      (settingsAfter files steps).run s = (.ok settings, s) ∧
        ∀ K, settings.get K = valueAfter files s steps K := by
  obtain ⟨os, hos, hfits, hoverrides⟩ := exists_overrides h
  have hlayers : ∀ layer ∈ steps.filterMap LoaderStep.layer?, layer.Fits files s := by
    intro layer hlayer
    obtain ⟨step, hstep, hlayer⟩ := List.mem_filterMap.mp hlayer
    exact (h step hstep).layer layer hlayer
  obtain ⟨root, hrun, hfiles'⟩ := exists_run_overlayFiles hfiles hlayers (Settings.toNode builtin)
  have hsettings : ∀ K, (Loader.overlayOverrides root os).setting? K =
      some (valueAfter files s steps K) := by
    intro K
    rw [setting?_overlayOverrides hfits, hoverrides, hfiles', setting?_builtin, lastOf_filterMap,
      ← Option.or_assoc, Option.or_some]
    rfl
  obtain ⟨settings, hok, hget⟩ := exists_ofNode hsettings (accepts_valueAfter h)
  refine ⟨settings, ?_, hget⟩
  rw [settingsAfter, applyAll_eq, hos]
  show (Loader.build ⟨steps.filterMap LoaderStep.layer?, os⟩ files).run s = _
  rw [Loader.build, StateT.run_bind, hrun]
  show (ofNode (Loader.overlayOverrides root os), s) = _
  rw [hok]

/-- A step that does not set a setting does not count for it. -/
theorem valueAfter_skip {before after : List LoaderStep} {step : LoaderStep} {K : Key}
    (hoverride : step.override? K = none) (hfile : step.inFile? files s K = none) :
    valueAfter files s (before ++ step :: after) K = valueAfter files s (before ++ after) K := by
  rw [valueAfter, lastOf_skip hoverride, lastOf_skip hfile, valueAfter]

theorem LoaderStep.Idle.sets_nothing {step : LoaderStep} (h : step.Idle files s) (K : Key) :
    step.override? K = none ∧ step.inFile? files s K = none := by
  cases h with
  | noFormat => exact ⟨rfl, rfl⟩
  | missing cause hlayer hmissing =>
    constructor
    · cases hrequest : step.request? with
      | none => rw [override?, hrequest, Option.bind_none]
      | some request =>
        rw [layer?_eq_none hrequest] at hlayer
        cases hlayer
    · rw [inFile?, hlayer]
      show FileLayer.setting? files s K _ = none
      rw [FileLayer.setting?, FileLayer.entries_of_missing hmissing]
      rfl

/-- **Settings are layered by setting**, however files and overrides are interleaved. -/
theorem settings_are_layered (hfiles : files.StayAs s) {steps : List LoaderStep}
    (h : ∀ step ∈ steps, step.Fits files s) : ∃ settings, LayeredBy files s steps settings := by
  obtain ⟨settings, hbuilt, hvalues⟩ := exists_settingsAfter hfiles h
  have hskip : ∀ before step after, steps = before ++ step :: after → ∃ settings' : Settings,
      (settingsAfter files (before ++ after)).run s = (.ok settings', s) ∧
        ∀ K, step.override? K = none → step.inFile? files s K = none →
          settings'.get K = settings.get K := by
    rintro before step after rfl
    rw [List.forall_mem_append, List.forall_mem_cons] at h
    obtain ⟨settings', hbuilt', hvalues'⟩ :=
      exists_settingsAfter hfiles (List.forall_mem_append.mpr ⟨h.1, h.2.2⟩)
    refine ⟨settings', hbuilt', fun K hoverride hfile => ?_⟩
    rw [hvalues', hvalues, valueAfter_skip hoverride hfile]
  refine ⟨settings, hbuilt, hvalues, ?_, ?_, ?_⟩
  · intro steps' hlayers hrequests
    rw [← hbuilt, settingsAfter, settingsAfter, applyAll_eq, applyAll_eq, hlayers, hrequests]
  · intro before step after hsteps hidle
    obtain ⟨settings', hbuilt', hget⟩ := hskip before step after hsteps
    have hsame : settings' = settings := get_ext fun K =>
      hget K (hidle.sets_nothing K).1 (hidle.sets_nothing K).2
    rw [hbuilt', hsame]
  · intro before step after K hsteps hoverride hfile
    obtain ⟨settings', hbuilt', hget⟩ := hskip before step after hsteps
    exact ⟨settings', hbuilt', hget K hoverride hfile⟩

/-- A file of settings and a missing one, between an override and a format that is not asked for. -/
theorem settings_are_layered_over_user_file : ∃ settings : Settings,
    LayeredBy FileTree.access ⟨[(["user.toml"], Utf8.encode "convert.format='json'".toList)], [], []⟩
      [.override "logging.level" (.string "debug"), .userFile (some "user.toml"),
        .optionalFile "more.toml", .format none] settings ∧
      settings = ⟨⟨"json", "yaml", true⟩, ⟨"debug"⟩⟩ := by
  generalize htree :
    FileTree.mk [(["user.toml"], Utf8.encode "convert.format='json'".toList)] [] [] = tree
  have htext : textAt FileTree.access tree "user.toml" =
      .ok (.text "user.toml" "convert.format='json'".toList) := by
    rw [← htree]
    rfl
  have hmissing : textAt FileTree.access tree "more.toml" =
      .error "configuration file \"more.toml\" not found" := by
    rw [← htree]
    rfl
  have hparse : ((Toml.parse "convert.format='json'".toList).any fun entries => Fits entries ∧
      Key.all.all fun K =>
        settingOf K entries = if K = .format then some (.string "json") else none) = true := by
    decide +kernel
  obtain ⟨entries, hparse, hentries⟩ := (Option.any_eq_true _ _).mp hparse
  obtain ⟨hfits, hjson⟩ := of_decide_eq_true hentries
  have hfiles : FileTree.access.StayAs tree := ⟨fun _ => rfl, fun _ => rfl⟩
  have hsteps : ∀ step ∈ [LoaderStep.override "logging.level" (.string "debug"),
      .userFile (some "user.toml"), .optionalFile "more.toml", .format none],
      step.Fits FileTree.access tree := by
    simp only [List.forall_mem_cons, List.not_mem_nil, false_imp_iff, implies_true, and_true]
    refine ⟨⟨nofun, ?_⟩, ⟨?_, nofun⟩, ⟨?_, nofun⟩, ⟨nofun, nofun⟩⟩
    · rintro request ⟨⟩
      exact ⟨⟨Key.level.path, .string "debug"⟩, rfl, .level, rfl, rfl⟩
    · rintro layer ⟨⟩
      exact .found _ _ _ htext hparse hfits
    · rintro layer ⟨⟩
      exact .missing _ hmissing rfl
  obtain ⟨settings, h⟩ := settings_are_layered hfiles hsteps
  refine ⟨settings, h, get_ext fun K => ?_⟩
  have huser : FileLayer.entries FileTree.access tree ⟨"user.toml", true⟩ = entries :=
    FileLayer.entries_of_found htext hparse
  have hmore : FileLayer.entries FileTree.access tree ⟨"more.toml", false⟩ = [] :=
    FileLayer.entries_of_missing hmissing
  have hsetting := of_decide_eq_true (List.all_eq_true.mp hjson K K.mem_all)
  rw [h.values, valueAfter]
  simp only [lastOf_cons, LoaderStep.inFile?, LoaderStep.layer?, Option.bind_some,
    FileLayer.setting?, huser, hmore, hsetting]
  cases K <;> rfl

end Steps

end Settings
end FunctionMap
