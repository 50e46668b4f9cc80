import TypeHints.Proofs.FunctionDef
import TypeHints.Proofs.Returns
import TypeHints.Proofs.Traversal

/-!
# Functions are isolated from one another

No definition looks at the functions before it, and the late annotations of a function are
resolved without the others (`findings_eq_around`). One function in a module may therefore be
replaced by another of its name (`analyze_replace_function`): what changes is the report on the
function itself, the specialisations of its name, and the diagnostics that come from defining it
and from its late annotations.
-/

namespace TypeHints

/-! ## Two runs at once -/

section Alike

variable {α α' β β' ε : Type}

/-- Two computations report the same and fail alike, and their results are related by `R`. -/
inductive Alike (R : α → β → Prop) (x : ExceptT ε Reporting α) (y : ExceptT ε Reporting β) : Prop
  | ok {a : α} {b : β} {ds : List Diagnostic} (hx : Gives x.run (.ok a) ds)
      (hy : Gives y.run (.ok b) ds) (h : R a b) : Alike R x y
  | error {e : ε} {ds : List Diagnostic} (hx : Gives x.run (.error e) ds)
      (hy : Gives y.run (.error e) ds) : Alike R x y

namespace Alike

variable {R : α → β → Prop} {S : α' → β' → Prop} {x : ExceptT ε Reporting α}
  {y : ExceptT ε Reporting β}

protected theorem pure {a : α} {b : β} (h : R a b) :
    Alike R (pure a : ExceptT ε Reporting α) (pure b) :=
  .ok (.ok a) (.ok b) h

protected theorem bind {k : α → ExceptT ε Reporting α'} {l : β → ExceptT ε Reporting β'}
    (h : Alike R x y) (hk : ∀ a b, R a b → Alike S (k a) (l b)) :
    Alike S (x >>= k) (y >>= l) := by
  cases h with
  | error hx hy => exact .error hx.bind_error hy.bind_error
  | @ok a b ds hx hy hR =>
    cases hk a b hR with
    | error hka hlb => exact .error (hx.bind_ok hka) (hy.bind_ok hlb)
    | ok hka hlb hS => exact .ok (hx.bind_ok hka) (hy.bind_ok hlb) hS

/-- A computation that only adds to the log is like itself. -/
theorem of_appendOnly (h : AppendOnly x.run) : Alike Eq x x := by
  obtain ⟨r, ds, h⟩ := h
  cases r with
  | error e => exact .error h h
  | ok a => exact .ok h h rfl

theorem mapM {γ : Type} {f : γ → ExceptT ε Reporting α} {g : γ → ExceptT ε Reporting β}
    (h : ∀ c, Alike R (f c) (g c)) (cs : List γ) :
    Alike (List.Forall₂ R) (cs.mapM f) (cs.mapM g) := by
  induction cs with
  | nil => exact .pure .nil
  | cons c cs ih =>
    rw [List.mapM_cons, List.mapM_cons]
    exact (h c).bind fun a b hab => ih.bind fun as bs has => .pure (.cons hab has)

end Alike

end Alike

/-! ## The function under a name -/

/-- The specialisations of two reports are of the same functions, and those of functions with
names other than `name` are the same. -/
def SpecializedApartFrom (name : String) (s s' : SpecializationReport) : Prop :=
  s.function = s'.function ∧ (s.function ≠ name → s = s')

section Specialize

variable {g g' : Function} (hname : g'.name = g.name) (earlier later : List Function)

include hname

/-- When a function is replaced by another of its name, the last function of any other name stays
the same. -/
theorem find?_replace (name : String) :
    (earlier ++ g :: later).reverse.find? (·.name == name) =
        (earlier ++ g' :: later).reverse.find? (·.name == name) ∨
      name = g.name ∧ (earlier ++ g :: later).reverse.find? (·.name == name) = some g ∧
        (earlier ++ g' :: later).reverse.find? (·.name == name) = some g' := by
  simp only [List.reverse_append, List.reverse_cons, List.append_assoc, List.find?_append]
  cases later.reverse.find? (·.name == name) with
  | some h => exact .inl rfl
  | none =>
    by_cases h : g.name = name
    · refine .inr ⟨h.symm, ?_, ?_⟩ <;> simp [h, hname]
    · refine .inl ?_
      have hg : (g.name == name) = false := by simpa using h
      have hg' : (g'.name == name) = false := by rw [hname, hg]
      simp [hg, hg']

theorem SpecializeDef.specialize_replace (d : SpecializeDef) (frame : Frame) :
    Alike (SpecializedApartFrom g.name) (d.specialize frame (earlier ++ g :: later))
      (d.specialize frame (earlier ++ g' :: later)) := by
  have hmaps : ∀ site, AppendOnly (d.substitution frame site).run := d.substitution_appendOnly frame
  unfold SpecializeDef.specialize
  obtain h | ⟨hd, h, h'⟩ := find?_replace hname earlier later d.function
  · rw [h]
    cases (earlier ++ g' :: later).reverse.find? (·.name == d.function) with
    | none => exact .error (.error _) (.error _)
    | some f =>
      refine (Alike.of_appendOnly (AppendOnly.mapMExcept hmaps d.maps)).bind ?_
      rintro maps _ rfl
      exact .pure ⟨rfl, fun _ => rfl⟩
  · rw [h, h']
    refine (Alike.of_appendOnly (AppendOnly.mapMExcept hmaps d.maps)).bind ?_
    rintro maps _ rfl
    exact .pure ⟨rfl, fun hne => absurd hd hne⟩

end Specialize

/-! ## The walk around a function -/

/-- Whether the definition is one of a function. -/
def Definition.isFunction : Definition → Bool
  | .function _ => true
  | _ => false

/-- The definitions of `m` replaced. -/
def Module.withDefinitions (m : Module) (ds : List Definition) : Module :=
  { m with definitions := ds }

namespace Walk

/-- The walk with other functions before its own. -/
def precede (w : Walk) (fs : List Function) : Walk := { w with functions := fs ++ w.functions }

/-- The walk without its functions. -/
def withoutFunctions (w : Walk) : Walk := { w with functions := [] }

theorem through_precede (m : Module) (w : Walk) (fs : List Function) (ds : List Definition) :
    (w.precede fs).through m ds = (·.precede fs) <$> w.through m ds := by
  refine foldlM_comm (m := Analysing) (k := fun w : Walk => w.precede fs) ds (fun w d _ => ?_) w
  exact w.advance.define_revise m (F := (fs ++ ·)) (R := id)
    (fun _ _ gs g => (List.append_assoc fs gs [g]).symm) (fun _ _ _ _ => rfl)

/-- The walk gains one function for every definition of one. -/
theorem through_length (m : Module) (w : Walk) (ds : List Definition) :
    Returns (fun v => v.functions.length = w.functions.length + ds.countP Definition.isFunction)
      (w.through m ds) := by
  induction ds generalizing w with
  | nil => exact .pure rfl
  | cons d ds ih =>
    have hdefine : Returns (fun v => v.functions.length =
        w.functions.length + if d.isFunction then 1 else 0) (w.advance.define m d) := by
      cases d with
      | typeVar d => exact (Returns.trivial _).bind fun _ _ => .pure rfl
      | cls d => exact .pure rfl
      | function d => exact (Returns.trivial _).bind fun _ _ => .pure List.length_append
      | assign d => exact (Returns.trivial _).bind fun _ _ => .pure rfl
      | specialize d => exact .pure rfl
    rw [through_cons]
    refine hdefine.bind fun v hv => (ih v).mono fun u hu => ?_
    rw [hu, hv, List.countP_cons, Nat.add_assoc, Nat.add_comm (List.countP _ _)]

/-- The walk over the definitions of a module with a function among them. -/
theorem run_around (m : Module) {pre post : List Definition} {f : FunctionDef}
    (hm : m.definitions = pre ++ .function f :: post) :
    run m = (do
      let w ← ({} : Walk).through m pre
      let g ← f.define w.advance.frame m.file
      (fun v : Walk => v.advance.precede (w.functions ++ [g])) <$>
        w.advance.withoutFunctions.through m post) := by
  have hrest : ∀ (w : Walk) (g : Function), (w.advance.push g).through m post =
      (·.precede (w.functions ++ [g])) <$> w.advance.withoutFunctions.through m post := by
    intro w g
    rw [← through_precede]
    congr 1
    simp [push, precede, withoutFunctions, advance]
  rw [run_eq_through, hm, through_append, map_bind]
  refine bind_congr fun w => ?_
  rw [through_cons, define_function, bind_map_left, map_bind]
  refine bind_congr fun g => ?_
  rw [hrest, Functor.map_map]
  rfl

end Walk

/-- The phases of the analysis with those parts set apart that have to do with one function. -/
def findingsAround (receivers : Receivers) (m : Module) (pre : List Definition) (f : FunctionDef)
    (post : List Definition) : Analysing Report := do
  let w ← ({} : Walk).through m pre
  let g ← f.define w.advance.frame m.file
  let v ← w.advance.withoutFunctions.through m post
  let earlier ← resolveAll receivers v.advance.frame w.functions
  let resolved ← liftM (g.resolveLate receivers v.advance.frame)
  let later ← resolveAll receivers v.advance.frame v.functions
  let specializations ← specializeAll v.advance.frame (earlier ++ resolved :: later) v.requests
  return v.report m.file (earlier ++ resolved :: later) specializations

theorem findings_eq_around (receivers : Receivers) (m : Module) {pre post : List Definition}
    {f : FunctionDef} (hm : m.definitions = pre ++ .function f :: post) :
    findings receivers m = findingsAround receivers m pre f post := by
  have hresolve : ∀ (frame : Frame) (fs : List Function) (g : Function) (gs : List Function),
      resolveAll receivers frame (fs ++ [g] ++ gs) = (do
        let earlier ← resolveAll receivers frame fs
        let resolved ← liftM (g.resolveLate receivers frame)
        let later ← resolveAll receivers frame gs
        return earlier ++ resolved :: later) := by
    intro frame fs g gs
    unfold resolveAll
    rw [List.append_assoc, List.mapM_append]
    refine bind_congr fun earlier => ?_
    show (List.mapM _ (g :: gs) >>= _) = _
    rw [List.mapM_cons, bind_assoc]
    refine bind_congr fun resolved => ?_
    rw [bind_assoc]
    refine bind_congr fun later => ?_
    rw [pure_bind]
  rw [findings_eq_bind, Walk.run_around m hm, bind_assoc]
  refine bind_congr fun w => ?_
  rw [bind_assoc]
  refine bind_congr fun g => ?_
  rw [bind_map_left]
  refine bind_congr fun v => ?_
  show Walk.conclude receivers m.file (v.advance.precede (w.functions ++ [g])) = _
  unfold Walk.conclude
  show (resolveAll receivers v.advance.frame (w.functions ++ [g] ++ v.functions) >>= _) = _
  rw [hresolve]
  simp only [bind_assoc, pure_bind]
  rfl

/-- A successful analysis of `m`, whose definitions are `pre`, the function `f` and `post`: what
each part of it comes to and what it reports. -/
structure AnalysisAround (receivers : Receivers) (m : Module) (pre : List Definition)
    (f : FunctionDef) (post : List Definition) where
  /-- The walk up to `f`. -/
  before : Walk
  /-- The function that `f` defines. -/
  defined : Function
  /-- The walk over the definitions after `f`, with their functions only. -/
  after : Walk
  /-- The functions before `f`, `f` itself and the functions after it, in the end. -/
  earlier : List Function
  resolved : Function
  later : List Function
  specializations : List SpecializationReport
  /-- What the parts report. -/
  walkBefore : List Diagnostic
  defining : List Diagnostic
  walkAfter : List Diagnostic
  lateEarlier : List Diagnostic
  resolving : List Diagnostic
  lateLater : List Diagnostic
  specializing : List Diagnostic
  gives_before : Gives (({} : Walk).through m pre).run (.ok before) walkBefore
  gives_defined : Gives (f.define before.advance.frame m.file).run (.ok defined) defining
  gives_after : Gives (before.advance.withoutFunctions.through m post).run (.ok after) walkAfter
  gives_earlier : Gives (resolveAll receivers after.advance.frame before.functions).run
    (.ok earlier) lateEarlier
  gives_resolved : Gives (defined.resolveLate receivers after.advance.frame) resolved resolving
  gives_later : Gives (resolveAll receivers after.advance.frame after.functions).run
    (.ok later) lateLater
  gives_specializations : Gives (specializeAll after.advance.frame (earlier ++ resolved :: later)
    after.requests).run (.ok specializations) specializing

namespace AnalysisAround

variable {receivers : Receivers} {m : Module} {pre post : List Definition} {f : FunctionDef}

/-- All that is reported, in order. -/
def reports (t : AnalysisAround receivers m pre f post) : List Diagnostic :=
  t.walkBefore ++ t.defining ++ t.walkAfter ++ t.lateEarlier ++ t.resolving ++ t.lateLater ++
    t.specializing

/-- What is reported, but not while `f` is defined nor while its late annotations are resolved. -/
def reportsOfOthers (t : AnalysisAround receivers m pre f post) : List Diagnostic :=
  t.walkBefore ++ t.walkAfter ++ t.lateEarlier ++ t.lateLater ++ t.specializing

theorem analyze_eq (t : AnalysisAround receivers m pre f post)
    (hm : m.definitions = pre ++ .function f :: post) :
    analyze receivers m = .ok { t.after.report m.file (t.earlier ++ t.resolved :: t.later)
      t.specializations with diagnostics := t.reports } := by
  have h : Gives (findingsAround receivers m pre f post).run
      (.ok (t.after.report m.file (t.earlier ++ t.resolved :: t.later) t.specializations))
      t.reports := by
    have hreports : t.reports = t.walkBefore ++ (t.defining ++ (t.walkAfter ++ (t.lateEarlier ++
        (t.resolving ++ (t.lateLater ++ (t.specializing ++ [])))))) := by
      simp only [reports, List.append_assoc, List.append_nil]
    rw [hreports]
    exact t.gives_before.bind_ok <| t.gives_defined.bind_ok <| t.gives_after.bind_ok <|
      t.gives_earlier.bind_ok <| t.gives_resolved.lift.bind_ok <| t.gives_later.bind_ok <|
      t.gives_specializations.bind_ok (.ok _)
  rw [← findings_eq_around receivers m hm] at h
  exact analyze_of_gives h

end AnalysisAround

/-! ## Replacing a function -/

section Replace

variable (receivers : Receivers) {m m' : Module} {pre post : List Definition}
  {f f' : FunctionDef} (hm : m.definitions = pre ++ .function f :: post)
  (hm' : m'.definitions = pre ++ .function f' :: post)
  (hsame : Walk.define m' = Walk.define m) (hname : f'.name = f.name) (hf : f.Compiles)
  (hf' : f'.Compiles)

include hm hm' hsame hname hf hf'

/-- Two analyses that differ in one function fail alike, or they can be taken apart so that all
parts but those of the function are the same. -/
theorem analyses_around :
    (∃ e, analyze receivers m = .error e ∧ analyze receivers m' = .error e) ∨
      ∃ (t : AnalysisAround receivers m pre f post) (t' : AnalysisAround receivers m' pre f' post),
        t'.before = t.before ∧ t'.after = t.after ∧ t'.earlier = t.earlier ∧ t'.later = t.later ∧
        List.Forall₂ (SpecializedApartFrom f.name) t.specializations t'.specializations ∧
        t'.reportsOfOthers = t.reportsOfOthers := by
  have hfail : ∀ {e : ModuleError} {ds ds' : List Diagnostic},
      Gives (findingsAround receivers m pre f post).run (.error e) ds →
      Gives (findingsAround receivers m' pre f' post).run (.error e) ds' →
      analyze receivers m = .error e ∧ analyze receivers m' = .error e := by
    intro e ds ds' h h'
    rw [← findings_eq_around receivers m hm] at h
    rw [← findings_eq_around receivers m' hm'] at h'
    exact ⟨analyze_of_gives h, analyze_of_gives h'⟩
  obtain ⟨r, ds, hbefore⟩ := Walk.through_appendOnly m {} pre
  have hbefore' : Gives (({} : Walk).through m' pre).run r ds := by
    rwa [Walk.through_congr hsame]
  cases r with
  | error e => exact .inl ⟨e, hfail hbefore.bind_error hbefore'.bind_error⟩
  | ok w =>
    obtain ⟨g, es, hdefine, hg⟩ := FunctionDef.define_of_compiles hf w.advance.frame m.file
    obtain ⟨g', es', hdefine', hg'⟩ := FunctionDef.define_of_compiles hf' w.advance.frame m'.file
    obtain ⟨r, fs, hafter⟩ := Walk.through_appendOnly m w.advance.withoutFunctions post
    have hafter' : Gives (w.advance.withoutFunctions.through m' post).run r fs := by
      rwa [Walk.through_congr hsame]
    cases r with
    | error e =>
      exact .inl ⟨e, hfail (hbefore.bind_ok (hdefine.bind_ok hafter.bind_error))
        (hbefore'.bind_ok (hdefine'.bind_ok hafter'.bind_error))⟩
    | ok v =>
      obtain ⟨earlier, as, hearlier⟩ := exists_resolveAll receivers v.advance.frame w.functions
      obtain ⟨later, bs, hlater⟩ := exists_resolveAll receivers v.advance.frame v.functions
      obtain ⟨h, cs, hresolve, hh⟩ := g.exists_resolveLate receivers v.advance.frame
      obtain ⟨h', cs', hresolve', hh'⟩ := g'.exists_resolveLate receivers v.advance.frame
      have hnames : h'.name = h.name := by rw [hh', hg', hname, ← hg, ← hh]
      have halike : Alike (List.Forall₂ (SpecializedApartFrom h.name))
          (specializeAll v.advance.frame (earlier ++ h :: later) v.requests)
          (specializeAll v.advance.frame (earlier ++ h' :: later) v.requests) :=
        Alike.mapM (fun d => d.specialize_replace hnames earlier later v.advance.frame) v.requests
      cases halike with
      | @error e _ hs hs' =>
        exact .inl ⟨e, hfail
          (hbefore.bind_ok <| hdefine.bind_ok <| hafter.bind_ok <| hearlier.bind_ok <|
            hresolve.lift.bind_ok <| hlater.bind_ok hs.bind_error)
          (hbefore'.bind_ok <| hdefine'.bind_ok <| hafter'.bind_ok <| hearlier.bind_ok <|
            hresolve'.lift.bind_ok <| hlater.bind_ok hs'.bind_error)⟩
      | ok hs hs' hspecialized =>
        rw [hh, hg] at hspecialized
        let t : AnalysisAround receivers m pre f post := ⟨w, g, v, earlier, h, later, _, ds, es, fs,
          as, cs, bs, _, hbefore, hdefine, hafter, hearlier, hresolve, hlater, hs⟩
        let t' : AnalysisAround receivers m' pre f' post := ⟨w, g', v, earlier, h', later, _, ds,
          es', fs, as, cs', bs, _, hbefore', hdefine', hafter', hearlier, hresolve', hlater, hs'⟩
        exact .inr ⟨t, t', rfl, rfl, rfl, rfl, hspecialized, rfl⟩

end Replace

theorem AnalysisAround.length_earlier {receivers : Receivers} {m : Module}
    {pre post : List Definition} {f : FunctionDef} (t : AnalysisAround receivers m pre f post) :
    t.earlier.length = pre.countP Definition.isFunction := by
  have hbefore := (Walk.through_length m {} pre).of_gives t.gives_before
  have hlate : Returns (fun fs : List Function => fs.length = t.before.functions.length ∧
      ∀ f ∈ fs, True) (resolveAll receivers t.after.advance.frame t.before.functions) :=
    Returns.mapM t.before.functions fun f _ => .trivial _
  rw [(hlate.of_gives t.gives_earlier).1, hbefore]
  exact Nat.zero_add _

/-- **Functions are isolated from one another.** If a function is replaced by another of its name
and the annotations of both compile, the analysis fails with the same error or succeeds as before.
Then the variables are the same, the reports on all other functions, the specialisations under
other names, and the diagnostics in order, but for those that come from defining the function and
from resolving its late annotations. -/
theorem analyze_replace_function (receivers : Receivers) (m : Module) (pre post : List Definition)
    {f f' : FunctionDef} (hname : f'.name = f.name) (hf : f.Compiles) (hf' : f'.Compiles) :
    (∀ e, analyze receivers (m.withDefinitions (pre ++ .function f :: post)) = .error e ↔
      analyze receivers (m.withDefinitions (pre ++ .function f' :: post)) = .error e) ∧
    ∀ report report',
      analyze receivers (m.withDefinitions (pre ++ .function f :: post)) = .ok report →
      analyze receivers (m.withDefinitions (pre ++ .function f' :: post)) = .ok report' →
      report'.vars = report.vars ∧
      (∃ earlier g g' later, report.functions = earlier ++ g :: later ∧
        report'.functions = earlier ++ g' :: later ∧
        earlier.length = pre.countP Definition.isFunction) ∧
      List.Forall₂ (SpecializedApartFrom f.name) report.specializations report'.specializations ∧
      ∃ (t : AnalysisAround receivers (m.withDefinitions (pre ++ .function f :: post)) pre f post)
        (t' : AnalysisAround receivers (m.withDefinitions (pre ++ .function f' :: post)) pre f'
          post),
        report.diagnostics = t.reports ∧ report'.diagnostics = t'.reports ∧
        t'.reportsOfOthers = t.reportsOfOthers := by
  have hm : (m.withDefinitions (pre ++ .function f :: post)).definitions =
      pre ++ .function f :: post := rfl
  have hm' : (m.withDefinitions (pre ++ .function f' :: post)).definitions =
      pre ++ .function f' :: post := rfl
  have hsame : Walk.define (m.withDefinitions (pre ++ .function f' :: post)) =
      Walk.define (m.withDefinitions (pre ++ .function f :: post)) :=
    Walk.define_congr rfl rfl fun line => by
      simp [Module.withDefinitions, Module.codeAt?, List.findSome?_append, List.findSome?_cons]
  obtain ⟨e, he, he'⟩ | ⟨t, t', -, hafter, hearlier, hlater, hspecialized, hothers⟩ :=
    analyses_around receivers hm hm' hsame hname hf hf'
  · rw [he, he']
    exact ⟨fun _ => Iff.rfl, fun _ _ h => by cases h⟩
  · rw [t.analyze_eq hm, t'.analyze_eq hm']
    refine ⟨fun e => iff_of_false (fun h => by cases h) (fun h => by cases h), ?_⟩
    rintro _ _ ⟨⟩ ⟨⟩
    refine ⟨congrArg Walk.vars hafter, ?_, hspecialized, t, t', rfl, rfl, hothers⟩
    refine ⟨t.earlier.map (·.report), t.resolved.report, t'.resolved.report,
      t.later.map (·.report), ?_, ?_, ?_⟩
    · show List.map _ (t.earlier ++ t.resolved :: t.later) = _
      rw [List.map_append, List.map_cons]
    · show List.map _ (t'.earlier ++ t'.resolved :: t'.later) = _
      rw [List.map_append, List.map_cons, hearlier, hlater]
    · rw [List.length_map, t.length_earlier]

/-- A function that looks up a missing name in the end. -/
def missingLate : FunctionDef :=
  ⟨"f", 3, ["x"], [], none, none, ⟨[("x", "'Missing'")], by simp⟩, none⟩

/-- A function that looks up a missing name when it is defined. -/
def missingAtOnce : FunctionDef :=
  ⟨"f", 9, ["x", "y"], [], none, none, ⟨[("x", "int"), ("y", "Missing")], by decide⟩, none⟩

/-- A function that looks up a name of its own in the end. -/
def goneLate : FunctionDef :=
  ⟨"g", 1, ["a"], [], none, none, ⟨[("a", "'Gone'")], by simp⟩, none⟩

/-- The module in which `d` stands between that function and a request to specialise it. -/
def goneAround (d : FunctionDef) : Module :=
  Module.withDefinitions ⟨"m.py", ∅, []⟩
    ([.function goneLate] ++ .function d :: [.specialize ⟨"g", []⟩])

def goneReport : Diagnostic :=
  .invalidHint ⟨some "m.py", 1⟩ "'Gone'" (some "Name 'Gone' is not defined") none

def missingReport : Diagnostic :=
  .invalidHint ⟨some "m.py", 3⟩ "'Missing'" (some "Name 'Missing' is not defined") none

/-- What is found when the name is looked up in the end. -/
def missingLateFindings : Report where
  status := "ok"
  schemaVersion := "1"
  file := "m.py"
  functions := [⟨"g", 1, ∅⟩, ⟨"f", 3, ∅⟩]
  vars := []
  specializations := [⟨"g", ∅⟩]
  diagnostics := [goneReport, missingReport]

/-- What is found when the name is looked up at once. -/
def missingAtOnceFindings : Report where
  status := "ok"
  schemaVersion := "1"
  file := "m.py"
  functions := [⟨"g", 1, ∅⟩, ⟨"f", 9, ⟨[("x", "int"), ("y", "Any")], by decide⟩⟩]
  vars := []
  specializations := [⟨"g", ∅⟩]
  diagnostics := [.nameError .synthetic "Missing", goneReport]

theorem missingLate_compiles : missingLate.Compiles := by
  intro entry hentry
  obtain rfl := List.mem_singleton.1 hentry
  exact ⟨.str "Missing", rfl⟩

theorem missingAtOnce_compiles : missingAtOnce.Compiles := by
  intro entry hentry
  rcases List.mem_pair.1 hentry with rfl | rfl
  · exact ⟨.name "int", rfl⟩
  · exact ⟨.name "Missing", rfl⟩

theorem analyze_missingLate :
    analyze .standard (goneAround missingLate) = .ok missingLateFindings := by
  decide +kernel

theorem analyze_missingAtOnce :
    analyze .standard (goneAround missingAtOnce) = .ok missingAtOnceFindings := by
  decide +kernel

/-- The one takes the place of the other between a function that looks up a name of its own in the
end, and a request to specialise that function. -/
theorem analyze_replace_function_of_missing :
    (missingAtOnce.name = missingLate.name ∧ missingLate.Compiles ∧ missingAtOnce.Compiles) ∧
    analyze .standard (goneAround missingLate) = .ok missingLateFindings ∧
    analyze .standard (goneAround missingAtOnce) = .ok missingAtOnceFindings ∧
    ∃ (t : AnalysisAround .standard (goneAround missingLate) [.function goneLate] missingLate
        [.specialize ⟨"g", []⟩])
      (t' : AnalysisAround .standard (goneAround missingAtOnce) [.function goneLate] missingAtOnce
        [.specialize ⟨"g", []⟩]),
      t.reports = [goneReport, missingReport] ∧
      t'.reports = [.nameError .synthetic "Missing", goneReport] ∧
      t'.reportsOfOthers = t.reportsOfOthers := by
  have hname : missingAtOnce.name = missingLate.name := rfl
  have hreplace := (analyze_replace_function .standard ⟨"m.py", ∅, []⟩ [.function goneLate]
    [.specialize ⟨"g", []⟩] hname missingLate_compiles missingAtOnce_compiles).2 _ _
      analyze_missingLate analyze_missingAtOnce
  obtain ⟨t, t', ht, ht', hothers⟩ := hreplace.2.2.2
  exact ⟨⟨hname, missingLate_compiles, missingAtOnce_compiles⟩, analyze_missingLate,
    analyze_missingAtOnce, t, t', ht.symm, ht'.symm, hothers⟩

end TypeHints
