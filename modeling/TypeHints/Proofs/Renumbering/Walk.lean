import TypeHints.Proofs.Phases
import TypeHints.Proofs.Renumbering.Function
import TypeHints.Proofs.SortedMap

/-!
# The walk with its points renumbered

Each definition does the same when the points of the walk are moved by an injective map, up to
moving the points of the result (`Walk.define_renumber`); a function wants the order with its own
point kept besides. Nothing that is printed depends on points, so what comes after the walk does
not tell the difference (`Walk.conclude_renumber`).
-/

namespace TypeHints

/-! ## Definitions -/

section Definitions

variable {r : Point → Point} (hr : r.Injective) (frame : Frame)

include hr

theorem evalBound_renumber (text : String) :
    evalBound (frame.renumber r) text = evalBound frame text := by
  unfold evalBound
  rw [runText_renumber hr, adapt_map, bind_map_left]
  refine bind_congr fun bindings => ?_
  rw [Bindings.single_renumber, mapError_map, liftM_exceptMap, bind_map_left]
  refine bind_congr fun v => ?_
  rw [Value.toTy?_renumber, Value.text_renumber]

theorem TypeVarDef.define_renumber (d : TypeVarDef) :
    d.define (frame.renumber r) = d.define frame := by
  unfold TypeVarDef.define
  cases d.bound with
  | none => rfl
  | some text => simp only [evalBound_renumber hr]

omit hr in
theorem ClassDef.define_renumber (r : Point → Point) (d : ClassDef) (globals : Scope) :
    d.define (Scope.renumber r globals) = d.define globals := by
  have hvar : ∀ name, templateVar (Scope.renumber r globals) name = templateVar globals name := by
    intro name
    unfold templateVar
    rw [Scope.get?_renumber]
    cases globals.get? name with
    | none => rfl
    | some b =>
      simp only [Option.map_some]
      rw [Bindings.single_renumber]
      cases b.single with
      | error e => rfl
      | ok v => cases v <;> rfl
  unfold ClassDef.define
  rw [funext hvar]

theorem evalTypeComment_renumber (comment : String) :
    evalTypeComment (frame.renumber r) comment =
      (·.renumber r) <$> evalTypeComment frame comment := by
  unfold evalTypeComment
  rw [evalText_renumber hr, adapt_map, bind_map_left, map_bind]
  refine bind_congr fun bindings => ?_
  rw [Bindings.single_renumber, mapError_map, liftM_exceptMap, bind_map_left, map_bind]
  refine bind_congr fun v => ?_
  have hobjects : (v.renumber r).instantiate (frame.renumber r).point =
      (v.instantiate frame.point).map (·.renumber r) := v.instantiate_renumber hr frame.point
  rw [hobjects, Value.text_renumber]
  cases v.instantiate frame.point <;> rfl

theorem applyTypeComment_renumber (comments : LineComments) (file : String) (line : UInt32)
    (b : Bindings) : applyTypeComment (frame.renumber r) comments file line (b.renumber r) =
      (·.renumber r) <$> applyTypeComment frame comments file line b := by
  unfold applyTypeComment
  split
  · rfl
  · rw [evalTypeComment_renumber hr, ExceptT.run_map, bind_map_left, map_bind]
    refine bind_congr fun result => ?_
    cases result <;> rfl

theorem AssignDef.define_renumber (d : AssignDef) (comments : LineComments) (file : String) :
    d.define (frame.renumber r) comments file =
      (·.renumber r) <$> d.define frame comments file := by
  unfold AssignDef.define
  rw [runText_renumber hr, adapt_map, bind_map_left, map_bind]
  refine bind_congr fun bindings => ?_
  rw [applyTypeComment_renumber hr]
  exact liftM_map _ _

end Definitions

/-! ## The walk -/

/-- The walk with its points moved by `r`. -/
def Walk.renumber (r : Point → Point) (w : Walk) : Walk :=
  { w with
    point := r w.point
    globals := Scope.renumber r w.globals
    functions := w.functions.map (·.renumber r) }

theorem Walk.renumber_bind (r : Point → Point) (w : Walk) (name : String) (b : Bindings) :
    (w.bind name b).renumber r = (w.renumber r).bind name (b.renumber r) := by
  unfold Walk.bind Walk.renumber Scope.renumber
  rw [SortedMap.map_insert]

theorem Walk.define_renumber {r : Point → Point} (hr : r.Injective) (m : Module) (w : Walk)
    (d : Definition) (hp : ∀ f, d = .function f → KeepsOrder r w.point) :
    (w.renumber r).define m d = (·.renumber r) <$> w.define m d := by
  have hframe : (w.renumber r).frame = w.frame.renumber r := rfl
  cases d with
  | typeVar d =>
    simp only [Walk.define]
    rw [hframe, TypeVarDef.define_renumber hr, map_bind]
    refine bind_congr fun v => ?_
    rw [map_pure, Walk.renumber_bind]
    rfl
  | cls d =>
    have hcls : d.define (w.renumber r).globals = d.define w.globals :=
      d.define_renumber r w.globals
    simp only [Walk.define]
    rw [hcls, map_pure, Walk.renumber_bind]
    rfl
  | function d =>
    simp only [Walk.define]
    rw [hframe, FunctionDef.define_renumber hr w.frame d (hp d rfl), bind_map_left, map_bind]
    refine bind_congr fun f => ?_
    rw [map_pure]
    unfold Walk.renumber
    rw [List.map_append]
    rfl
  | assign d =>
    simp only [Walk.define]
    rw [hframe, AssignDef.define_renumber hr, bind_map_left, map_bind]
    refine bind_congr fun b => ?_
    rw [Bindings.ofClasses_renumber, map_pure, Walk.renumber_bind]
    rfl
  | specialize d => rfl

/-! ## Specialisation -/

section Specialize

variable {r : Point → Point}

theorem Substitution.binds_renumber (r : Point → Point) (name : String) (map : Substitution) :
    binds name (map.map (·.renumber r)) = binds name map := by
  unfold binds
  rw [SortedMap.get?_map]
  cases map.get? name with
  | none => rfl
  | some b => simp [List.any_map, Function.comp_def]

theorem Substitution.applyVar_renumber (hr : r.Injective) (p : Point) (maps : List Substitution)
    (v : TypeVar) : applyVar (r p) (maps.map (·.map (·.renumber r))) v = applyVar p maps v := by
  have hall : (maps.map (·.map (·.renumber r))).all (binds v.name) = maps.all (binds v.name) := by
    rw [List.all_map]
    exact congrArg (maps.all ·) (funext fun map => binds_renumber r v.name map)
  have hclasses : Ty.ofClasses (valuesOf v.name (maps.map (·.map (·.renumber r)))) =
      Ty.ofClasses (valuesOf v.name maps) := by
    unfold Ty.ofClasses valuesOf
    rw [List.flatMap_map, List.map_flatMap, List.map_flatMap]
    refine congrArg Ty.merge (congrArg (List.flatMap · maps) (funext fun map => ?_))
    rw [SortedMap.get?_map]
    cases map.get? v.name with
    | none => rfl
    | some b => simp [Function.comp_def]
  unfold applyVar
  rw [hall, hclasses, ← TypeVar.renumber_instantiate hr, Bindings.ofClasses_renumber]

mutual

theorem Substitution.apply_congr {p q : Point} {maps maps' : List Substitution}
    (h : ∀ v, applyVar p maps v = applyVar q maps' v) :
    ∀ t : Ty, apply p maps t = apply q maps' t
  | .typeVar v => h v
  | .generic _ _ params => by simp only [apply, Substitution.applyParams_congr h params]
  | .union options => by simp only [apply, Substitution.applyAll_congr h options]
  | .cls _ | .unknown _ => rfl

theorem Substitution.applyAll_congr {p q : Point} {maps maps' : List Substitution}
    (h : ∀ v, applyVar p maps v = applyVar q maps' v) :
    ∀ ts : List Ty, applyAll p maps ts = applyAll q maps' ts
  | [] => rfl
  | t :: ts => by
    simp only [applyAll, Substitution.apply_congr h t, Substitution.applyAll_congr h ts]

theorem Substitution.applyParams_congr {p q : Point} {maps maps' : List Substitution}
    (h : ∀ v, applyVar p maps v = applyVar q maps' v) :
    ∀ ps : List (String × Ty), applyParams p maps ps = applyParams q maps' ps
  | [] => rfl
  | (_, t) :: ps => by
    simp only [applyParams, Substitution.apply_congr h t, Substitution.applyParams_congr h ps]

end

theorem substituteAll_renumber (hr : r.Injective) (annotations : SortedMap String Ty) (p : Point)
    (maps : List Substitution) :
    substituteAll annotations (r p) (maps.map (·.map (·.renumber r))) =
      substituteAll annotations p maps := by
  have husable : Substitution.usable (maps.map (·.map (·.renumber r))) =
      Substitution.usable maps := by
    simp [Substitution.usable, List.all_map, Function.comp_def]
  unfold substituteAll
  refine congrArg (fun f => annotations.map f) (funext fun t => ?_)
  unfold Ty.substitute
  rw [husable, Substitution.apply_congr fun v => Substitution.applyVar_renumber hr p maps v]

variable (hr : r.Injective) (frame : Frame) (d : SpecializeDef)

include hr

theorem addCallValue_renumber (p : Point) (b : Bindings) (v : Value) :
    addCallValue (r p) (b.renumber r) (v.renumber r) = (addCallValue p b v).renumber r := by
  unfold addCallValue
  rw [Value.instantiate_renumber hr]
  cases v.instantiate p with
  | none => exact (Bindings.renumber_add hr b p v).symm
  | some objects => exact (Bindings.renumber_extend hr b objects).symm

theorem SpecializeDef.valuesOf_renumber (texts : List String) :
    d.valuesOf (frame.renumber r) texts = (·.renumber r) <$> d.valuesOf frame texts := by
  have hfold : ∀ (vs : List Value) (b : Bindings),
      (vs.map (·.renumber r)).foldl (addCallValue (r frame.point)) (b.renumber r) =
        (vs.foldl (addCallValue frame.point) b).renumber r := by
    intro vs b
    rw [List.foldl_map]
    exact List.foldl_hom (Bindings.renumber r) (addCallValue_renumber hr frame.point)
  unfold SpecializeDef.valuesOf
  refine foldlM_comm (m := Analysing) (k := Bindings.renumber r) texts (fun b text _ => ?_) ∅
  rw [runText_renumber hr, adapt_map, bind_map_left, map_bind]
  refine bind_congr fun values => ?_
  rw [Bindings.values_renumber, map_pure]
  exact congrArg pure (hfold values.values b)

theorem SpecializeDef.substitution_renumber (site : SortedMap String (List String)) :
    d.substitution (frame.renumber r) site =
      (fun map => map.map (·.renumber r)) <$> d.substitution frame site := by
  unfold SpecializeDef.substitution
  refine foldlM_comm (m := Analysing) (k := fun map : Substitution => map.map (·.renumber r))
    site.toList (fun map entry _ => ?_) ∅
  obtain ⟨name, texts⟩ := entry
  simp only []
  rw [SpecializeDef.valuesOf_renumber hr, bind_map_left, map_bind]
  refine bind_congr fun b => ?_
  rw [map_pure, SortedMap.map_insert]

theorem SpecializeDef.specialize_renumber (functions : List Function) :
    d.specialize (frame.renumber r) (functions.map (·.renumber r)) =
      d.specialize frame functions := by
  have hfind : (functions.map (·.renumber r)).reverse.find? (·.name == d.function) =
      (functions.reverse.find? (·.name == d.function)).map (·.renumber r) := by
    rw [← List.map_reverse, List.find?_map]
    rfl
  unfold SpecializeDef.specialize
  rw [hfind]
  cases functions.reverse.find? (·.name == d.function) with
  | none => rfl
  | some f =>
    simp only [Option.map_some]
    rw [mapM_comm (SpecializeDef.substitution_renumber hr frame d) d.maps, bind_map_left]
    refine bind_congr fun maps => ?_
    have hsubstitute := substituteAll_renumber hr f.signature.annotations frame.point maps
    exact congrArg (fun annotations => pure (SpecializationReport.mk d.function
      (printed annotations))) hsubstitute

end Specialize

/-! ## After the walk -/

theorem Walk.conclude_renumber {r : Point → Point} (hr : r.Injective) (receivers : Receivers)
    (file : String) (w : Walk) :
    (w.renumber r).conclude receivers file = w.conclude receivers file := by
  have hframe : (w.renumber r).frame = w.frame.renumber r := rfl
  have hfunctions : (w.renumber r).functions = w.functions.map (·.renumber r) := rfl
  have hlate : resolveAll receivers (w.renumber r).frame (w.renumber r).functions =
      List.map (·.renumber r) <$> resolveAll receivers w.frame w.functions := by
    unfold resolveAll
    rw [hframe, hfunctions]
    refine mapM_map_comm (fun f => ?_) w.functions
    rw [Function.resolveLate_renumber hr, liftM_map]
  unfold Walk.conclude
  rw [hlate, bind_map_left]
  refine bind_congr fun functions => ?_
  unfold specializeAll Walk.report
  rw [hframe, funext fun d => SpecializeDef.specialize_renumber hr w.frame d functions,
    List.map_map]
  rfl

end TypeHints
