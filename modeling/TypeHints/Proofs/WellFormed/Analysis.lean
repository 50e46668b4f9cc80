import TypeHints.Proofs.Reached
import TypeHints.Proofs.WellFormed.Walk

/-!
# All that arises in an analysis is well formed

`Arises receivers m x` says that the value or type `x` comes up when `m` is analysed: among the
globals between two definitions, as a value of an expression, as an annotation that waits or is
resolved, as an object of a type, or in a specialisation. Whatever arises is well formed
(`Arises.datum_wellFormed`), also when the analysis fails later on.
-/

namespace TypeHints

/-- A value or a type. -/
inductive Datum where
  | value (v : Value)
  | type (t : Ty)

/-- The value or the type is well formed. -/
def Datum.WellFormed : Datum → Prop
  | value v => v.WellFormed
  | type t => t.WellFormed

/-- What comes up in the analysis of `m`. -/
inductive Arises (receivers : Receivers) (m : Module) : Datum → Prop
  /-- A value is held in the globals. -/
  | held {w : Walk} {name : String} {b : Bindings} {v : Value} (hw : w.Reached m)
      (hb : w.globals.get? name = some b) (hv : v ∈ b.values) : Arises receivers m (.value v)
  /-- An expression has the value. -/
  | evaluated {w : Walk} {e : Expr} {b : Bindings} {rs : List Diagnostic} {v : Value}
      (hw : w.Reached m) (h : Gives (e.eval w.advance.frame ∅) b rs) (hv : v ∈ b.values) :
      Arises receivers m (.value v)
  /-- The values of an expression are made one, an argument of a subscript. -/
  | merged {w : Walk} {e : Expr} {b : Bindings} {rs : List Diagnostic} (hw : w.Reached m)
      (h : Gives (e.eval w.advance.frame ∅) b rs) : Arises receivers m (.value b.merged)
  /-- The value is one of an annotation, or spells the names of the annotations. -/
  | payload {w : Walk} {d : FunctionDef} {bs : List Bindings} {rs : List Diagnostic} {b : Bindings}
      {v : Value} (hw : w.Reached m) (h : Gives (d.payload w.advance.frame).run (.ok bs) rs)
      (hb : b ∈ bs) (hv : v ∈ b.values) : Arises receivers m (.value v)
  /-- The value is an item of a tuple. -/
  | item {v u : Value} {items : List Bindings} {b : Bindings} (hv : Arises receivers m (.value v))
      (h : v.tuple? = some items) (hb : b ∈ items) (hu : u ∈ b.values) :
      Arises receivers m (.value u)
  /-- The value waits to be resolved. -/
  | late {w : Walk} {f : Function} {l : LateHint} (hw : w.Reached m) (hf : f ∈ w.functions)
      (hl : l ∈ f.signature.late) : Arises receivers m (.value l.value)
  /-- A value is resolved, either without looking at names or where the walk is. -/
  | resolved {w : Walk} {v : Value} {site : Site} {frame? : Option Frame} {t : Ty}
      {rs : List Diagnostic} (hw : w.Reached m) (hv : Arises receivers m (.value v))
      (hframe : frame? = none ∨ frame? = some w.advance.frame)
      (h : Gives (v.resolve site frame?) (.resolved t) rs) : Arises receivers m (.type t)
  /-- The type stands in the signature of a function that is defined. -/
  | collected {w : Walk} {f : Function} {name : String} {t : Ty} (hw : w.Reached m)
      (hf : f ∈ w.functions) (ht : f.signature.get? name = some t) : Arises receivers m (.type t)
  /-- The type stands in a signature once late annotations are resolved. -/
  | committed {w : Walk} {f g : Function} {rs : List Diagnostic} {name : String} {t : Ty}
      (hw : w.Reached m) (hf : f ∈ w.functions)
      (h : Gives (f.resolveLate receivers w.advance.frame) g rs)
      (ht : g.signature.get? name = some t) : Arises receivers m (.type t)
  /-- A value denotes the type, as a bound or in a type comment. -/
  | denoted {v : Value} {t : Ty} (hv : Arises receivers m (.value v)) (h : v.toTy? = some t) :
      Arises receivers m (.type t)
  /-- The type is the class of a value. -/
  | classOf {v : Value} (hv : Arises receivers m (.value v)) : Arises receivers m (.type v.classOf)
  /-- The type is that of several values, of a variable for instance. -/
  | classes {vs : List Value} (hvs : ∀ v ∈ vs, Arises receivers m (.value v)) :
      Arises receivers m (.type (.ofClasses vs))
  /-- The value is an object of a type. -/
  | instantiated {t : Ty} {p : Point} {v : Value} (ht : Arises receivers m (.type t))
      (hv : v ∈ (t.instantiate p).values) : Arises receivers m (.value v)
  /-- A call site gives a type variable the value. -/
  | passed {w : Walk} {d : SpecializeDef} {site : SortedMap String (List String)}
      {map : Substitution} {rs : List Diagnostic} {name : String} {b : Bindings} {v : Value}
      (hw : w.Reached m) (h : Gives (d.substitution w.advance.frame site).run (.ok map) rs)
      (hb : map.get? name = some b) (hv : v ∈ b.values) : Arises receivers m (.value v)
  /-- A type is specialised. -/
  | specialized {w : Walk} {d : SpecializeDef} {t : Ty} {maps : List Substitution}
      {rs : List Diagnostic} {p : Point} (hw : w.Reached m) (ht : Arises receivers m (.type t))
      (h : Gives (d.maps.mapM (d.substitution w.advance.frame)).run (.ok maps) rs) :
      Arises receivers m (.type (t.substitute p maps))

theorem Walk.Reached.wellFormed {m : Module} {w : Walk} (hw : w.Reached m) : w.WellFormed := by
  refine hw.induct (P := Walk.WellFormed) .empty ?_
  intro w v d rs _ _ _ hdefine hbefore
  exact (hbefore.advance.define m d).of_gives hdefine

/-- Whatever arises in an analysis is well formed. -/
theorem Arises.datum_wellFormed {receivers : Receivers} {m : Module} {x : Datum}
    (h : Arises receivers m x) : x.WellFormed := by
  have hglobals : ∀ {w : Walk}, w.Reached m → Scope.WellFormed w.advance.frame.globals :=
    fun hw => hw.wellFormed.globals
  induction h with
  | held hw hb hv => exact Bindings.wellFormed_iff.1 (hw.wellFormed.globals _ _ hb) _ hv
  | evaluated hw h hv =>
    have hb := (Expr.eval_wellFormed (hglobals hw) _).of_gives h
    exact Bindings.wellFormed_iff.1 hb _ hv
  | merged hw h =>
    have hb := (Expr.eval_wellFormed (hglobals hw) _).of_gives h
    exact Invariant.wellFormed.merged (Bindings.wellFormed_iff.1 hb)
  | payload hw h hb hv =>
    have hbs := (FunctionDef.payload_wellFormed (hglobals hw) _).of_gives h
    exact Bindings.wellFormed_iff.1 (hbs _ hb) _ hv
  | item _ h hb hu hv => exact Bindings.wellFormed_iff.1 (hv.tuple? h _ hb) _ hu
  | late hw hf hl => exact (hw.wellFormed.functions _ hf).late _ hl
  | resolved hw _ hframe h hv =>
    refine (Value.resolve_wellFormed hv _ fun frame hsome => ?_).of_gives h
    rcases hframe with rfl | rfl
    · cases hsome
    · exact Option.some.inj hsome ▸ hglobals hw
  | collected hw hf ht => exact (hw.wellFormed.functions _ hf).types _ _ ht
  | committed hw hf h ht =>
    have hg := (Function.resolveLate_wellFormed (hglobals hw) receivers
      (hw.wellFormed.functions _ hf)).of_gives h
    exact hg.types _ _ ht
  | denoted _ h hv => exact hv.toTy? h
  | classOf _ hv => exact hv.classOf
  | classes _ hvs => exact .ofClasses hvs
  | instantiated _ hv ht => exact Bindings.wellFormed_iff.1 (ht.instantiate _) _ hv
  | passed hw h hb hv =>
    have hmap := (SpecializeDef.substitution_wellFormed (hglobals hw) _ _).of_gives h
    exact Bindings.wellFormed_iff.1 (hmap _ _ hb) _ hv
  | specialized hw _ h ht =>
    have hmaps := (Returns.mapM _ fun site _ =>
      SpecializeDef.substitution_wellFormed (hglobals hw) _ site).of_gives h
    exact ht.substitute hmaps.2 _

/-! ## The report -/

/-- The text is the printed form of a type that arises. -/
def PrintsArising (receivers : Receivers) (m : Module) (text : String) : Prop :=
  ∃ t, Arises receivers m (.type t) ∧ t.text = text

section Report

variable {receivers : Receivers} {m : Module} {w : Walk}

/-- A definition adds no variable, or the one it binds with the type of its values. -/
theorem Walk.define_vars (m : Module) (w : Walk) (d : Definition) :
    Returns (fun v : Walk => v.vars = w.vars ∨ ∃ x b, v.vars = w.vars ++ [x] ∧
      v.globals.get? x.name = some b ∧ x.type = (Ty.ofClasses b.values).text) (w.define m d) := by
  cases d with
  | typeVar d => exact (Returns.trivial _).bind fun _ _ => .pure (.inl rfl)
  | cls d => exact .pure (.inl rfl)
  | function d => exact (Returns.trivial _).bind fun _ _ => .pure (.inl rfl)
  | assign d =>
    refine (Returns.trivial _).bind fun b _ => .pure (.inr ⟨_, b, rfl, ?_, rfl⟩)
    exact SortedMap.get?_insert_self _ _ _
  | specialize d => exact .pure (.inl rfl)

theorem Walk.Reached.printsArising_vars (receivers : Receivers) (hw : w.Reached m) :
    ∀ x ∈ w.vars, PrintsArising receivers m x.type := by
  refine hw.induct (P := fun w => ∀ x ∈ w.vars, PrintsArising receivers m x.type)
    (fun _ hx => absurd hx List.not_mem_nil) ?_
  intro w v d rs _ hv _ hdefine hbefore
  rcases (Walk.define_vars m w.advance d).of_gives hdefine with hvars | ⟨x, b, hvars, hb, hx⟩
  · rw [hvars]
    exact hbefore
  · rw [hvars]
    refine List.forall_mem_append.2 ⟨hbefore, List.forall_mem_singleton.2 ?_⟩
    exact ⟨_, .classes fun u hu => .held hv hb hu, hx.symm⟩

/-- The types of the functions arise once their late annotations are resolved. -/
theorem arises_of_resolveAll (hw : w.Reached m) :
    Returns (fun gs : List Function => ∀ g ∈ gs,
      g.signature.annotations.All fun t => Arises receivers m (.type t))
        (resolveAll receivers w.advance.frame w.functions) := by
  refine (Returns.mapM w.functions fun f hf => .lift ?_).mono fun _ h => h.2
  obtain ⟨g, rs, hg, -⟩ := f.exists_resolveLate receivers w.advance.frame
  refine (Yields.of_appendOnly hg.appendOnly).mono ?_
  rintro g ⟨rs, hg⟩ name t ht
  exact .committed hw hf hg ht

theorem printsArising_of_all {annotations : SortedMap String Ty}
    (h : annotations.All fun t => Arises receivers m (.type t)) :
    (printed annotations).All (PrintsArising receivers m) :=
  h.map fun t ht => ⟨t, ht, rfl⟩

theorem SpecializeDef.specialize_printsArising (hw : w.Reached m) (d : SpecializeDef)
    {functions : List Function} (hfunctions : ∀ g ∈ functions,
      g.signature.annotations.All fun t => Arises receivers m (.type t)) :
    Returns (fun s : SpecializationReport => s.annotations.All (PrintsArising receivers m))
      (d.specialize w.advance.frame functions) := by
  unfold SpecializeDef.specialize
  split
  · exact .throw _
  · rename_i g hg
    have hmem : g ∈ functions := List.mem_reverse.1 (List.mem_of_find?_eq_some hg)
    have hmaps := AppendOnly.mapMExcept (d.substitution_appendOnly w.advance.frame) d.maps
    refine (Returns.of_appendOnly hmaps).bind ?_
    rintro maps ⟨rs, hmaps⟩
    refine .pure (printsArising_of_all ?_)
    exact (hfunctions g hmem).map fun t ht => .specialized hw ht hmaps

/-- What the report prints are types that arise. -/
theorem findings_printsArising (receivers : Receivers) (m : Module) :
    Returns (fun report : Report =>
      (∀ f ∈ report.functions, f.annotations.All (PrintsArising receivers m)) ∧
      (∀ x ∈ report.vars, PrintsArising receivers m x.type) ∧
      ∀ s ∈ report.specializations, s.annotations.All (PrintsArising receivers m))
        (findings receivers m) := by
  have hrun : Returns (fun v : Walk => ∃ w : Walk, w.Reached m ∧ v = w.advance) (Walk.run m) := by
    refine (Returns.of_appendOnly (Walk.through_appendOnly m {} m.definitions)).map ?_
    rintro w ⟨rs, h⟩
    exact ⟨w, ⟨_, rs, List.prefix_refl _, h⟩, rfl⟩
  refine hrun.bind ?_
  rintro _ ⟨w, hw, rfl⟩
  refine (arises_of_resolveAll hw).bind fun functions hfunctions => ?_
  refine (Returns.mapM w.requests fun d _ =>
    d.specialize_printsArising hw hfunctions).bind fun specializations hs => .pure ?_
  refine ⟨List.forall_mem_map.2 fun g hg => ?_, hw.printsArising_vars receivers, hs.2⟩
  exact printsArising_of_all (hfunctions g hg)

end Report

/-- **Whatever arises in an analysis is well formed.** At every depth the arguments of a tuple are
keyed by position and those of any other class by its type variables, in order, and objects are of
classes, with or without arguments. What a report prints are such types. -/
theorem analysis_wellFormed (receivers : Receivers) (m : Module) :
    (∀ x, Arises receivers m x → x.WellFormed) ∧
    ∀ report, analyze receivers m = .ok report →
      (∀ f ∈ report.functions, f.annotations.All (PrintsArising receivers m)) ∧
      (∀ x ∈ report.vars, PrintsArising receivers m x.type) ∧
      ∀ s ∈ report.specializations, s.annotations.All (PrintsArising receivers m) := by
  refine ⟨fun _ h => h.datum_wellFormed, fun report h => ?_⟩
  obtain ⟨found, ds, hfound, rfl⟩ := exists_of_analyze_eq_ok h
  have hprints := (findings_printsArising receivers m).of_gives hfound
  exact hprints

/-- A class with a type variable, and a variable that holds a tuple type. -/
def boxModule : Module :=
  ⟨"m.py", ∅, [.cls ⟨"Box", ["T"]⟩, .assign ⟨"x", 2, "Tuple[Box[int], str]"⟩]⟩

/-- The tuple type, with the class applied inside. -/
def boxTuple : Value :=
  .generic Builtin.tuple.cls .positional
    [("0", .generic ⟨"Box", [⟨"T", none⟩], .declared "Box"⟩ .named [("T", .cls Builtin.int.cls)]),
      ("1", .cls Builtin.str.cls)]

/-- The walk between the class and the variable. -/
def boxWalk : Walk where
  point := ⟨1⟩
  globals := ⟨[("Box", .ofValue ⟨1⟩ (.cls ⟨"Box", [⟨"T", none⟩], .declared "Box"⟩))], by simp⟩

theorem boxWalk_reached : boxWalk.Reached boxModule := by
  refine ⟨[.cls ⟨"Box", ["T"]⟩], [], ⟨_, rfl⟩, fun log => ?_⟩
  rw [Log.append_nil]
  rfl

theorem boxTuple_evaluated :
    Gives ((Expr.subscript (.name "Tuple") (.tuple [.subscript (.name "Box") (.name "int"),
      .name "str"])).eval boxWalk.advance.frame ∅) (.ofValue ⟨2⟩ boxTuple) [] := by
  refine .of_unchanged fun _ => ?_
  with_unfolding_all rfl

/-- The tuple type arises and is well formed, and so is what the report prints. -/
theorem analysis_wellFormed_of_tuple :
    Arises .standard boxModule (.value boxTuple) ∧ Datum.WellFormed (.value boxTuple) ∧
      analyze .standard boxModule = .ok ⟨"ok", "1", "m.py", [], [⟨"x", 2, "type"⟩], [], []⟩ ∧
      PrintsArising .standard boxModule "type" := by
  have harises : Arises .standard boxModule (.value boxTuple) :=
    .evaluated boxWalk_reached boxTuple_evaluated List.mem_cons_self
  have h : analyze .standard boxModule =
      .ok ⟨"ok", "1", "m.py", [], [⟨"x", 2, "type"⟩], [], []⟩ := by
    decide +kernel
  have hwf := analysis_wellFormed .standard boxModule
  exact ⟨harises, hwf.1 _ harises, h, (hwf.2 _ h).2.1 _ List.mem_cons_self⟩

end TypeHints
