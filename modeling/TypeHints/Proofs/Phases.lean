import TypeHints.Analysis

/-!
# The phases of the analysis

The walk through the definitions comes first, then all late annotations, then all specialisations
(`findings_eq_bind`).
-/

namespace TypeHints

/-- Resolve the late annotations of several functions. -/
def resolveAll (receivers : Receivers) (frame : Frame) (functions : List Function) :
    Analysing (List Function) :=
  functions.mapM fun f => f.resolveLate receivers frame

/-- Work out several specialisations. -/
def specializeAll (frame : Frame) (functions : List Function) (requests : List SpecializeDef) :
    Analysing (List SpecializationReport) :=
  requests.mapM (·.specialize frame functions)

namespace Walk

/-- Carry out several definitions, each at the next point. -/
def through (m : Module) (w : Walk) (ds : List Definition) : Analysing Walk :=
  ds.foldlM (fun w d => w.advance.define m d) w

theorem through_cons (m : Module) (w : Walk) (d : Definition) (ds : List Definition) :
    w.through m (d :: ds) = w.advance.define m d >>= fun v => v.through m ds :=
  List.foldlM_cons

theorem through_append (m : Module) (w : Walk) (ds es : List Definition) :
    w.through m (ds ++ es) = w.through m ds >>= fun v => v.through m es :=
  List.foldlM_append

/-- The walk with one more function. -/
def push (w : Walk) (f : Function) : Walk := { w with functions := w.functions ++ [f] }

theorem define_function (m : Module) (w : Walk) (d : FunctionDef) :
    w.define m (.function d) = w.push <$> d.define w.frame m.file := by
  rw [map_eq_pure_bind]
  rfl

/-- Modules of the same file with the same type comments carry out definitions alike, if the same
code stands on every line. -/
theorem define_congr {m m' : Module} (hfile : m.file = m'.file)
    (hcomments : m.typeComments = m'.typeComments)
    (hcode : ∀ line, m.definitions.findSome? (Module.codeAt? line) =
      m'.definitions.findSome? (Module.codeAt? line)) : define m = define m' := by
  have hlines : m.codeAt = m'.codeAt := funext fun line => congrArg (·.getD "") (hcode line)
  funext w d
  unfold define Module.lineComments
  rw [hfile, hcomments, hlines]

/-- The walk with its functions and its requests changed. -/
def revise (w : Walk) (F : List Function → List Function)
    (R : List SpecializeDef → List SpecializeDef) : Walk :=
  { w with functions := F w.functions, requests := R w.requests }

/-- No definition looks at the functions and the requests before it. They may be changed before
it or after it, if what the definition adds to them is added either way. -/
theorem define_revise (m : Module) (w : Walk) {F : List Function → List Function}
    {R : List SpecializeDef → List SpecializeDef} {d : Definition}
    (hF : ∀ e, d = .function e → ∀ fs f, F (fs ++ [f]) = F fs ++ [f])
    (hR : ∀ e, d = .specialize e → ∀ rs r, R (rs ++ [r]) = R rs ++ [r]) :
    (w.revise F R).define m d = (·.revise F R) <$> w.define m d := by
  have hframe : (w.revise F R).frame = w.frame := rfl
  cases d with
  | typeVar d =>
    simp only [define, hframe, map_bind, map_pure]
    rfl
  | cls d => rfl
  | function d =>
    rw [define_function, define_function, hframe, Functor.map_map]
    refine congrArg (· <$> _) (funext fun f => ?_)
    exact congrArg (fun fs => { w.revise F R with functions := fs }) (hF d rfl w.functions f).symm
  | assign d =>
    simp only [define, hframe, map_bind, map_pure]
    rfl
  | specialize d =>
    refine congrArg (pure : Walk → Analysing Walk) ?_
    exact congrArg (fun rs => { w.revise F R with requests := rs }) (hR d rfl w.requests d).symm

theorem through_congr {m m' : Module} (h : define m = define m') (w : Walk)
    (ds : List Definition) : w.through m ds = w.through m' ds := by
  unfold through
  rw [h]

theorem run_eq_through (m : Module) : run m = advance <$> ({} : Walk).through m m.definitions := rfl

/-- The report on a module, without the diagnostics. -/
def report (w : Walk) (file : String) (functions : List Function)
    (specializations : List SpecializationReport) : Report where
  status := "ok"
  schemaVersion
  file
  functions := functions.map (·.report)
  vars := w.vars
  specializations
  diagnostics := []

/-- What is found once the walk is at its end. -/
def conclude (receivers : Receivers) (file : String) (w : Walk) : Analysing Report := do
  let functions ← resolveAll receivers w.frame w.functions
  let specializations ← specializeAll w.frame functions w.requests
  return w.report file functions specializations

end Walk

theorem findings_eq_bind (receivers : Receivers) (m : Module) :
    findings receivers m = Walk.run m >>= Walk.conclude receivers m.file := rfl

/-- What is found decides the outcome of the analysis. -/
theorem analyze_congr {receivers : Receivers} {m m' : Module}
    (h : findings receivers m = findings receivers m') :
    analyze receivers m = analyze receivers m' := by
  unfold analyze
  rw [h]

end TypeHints
