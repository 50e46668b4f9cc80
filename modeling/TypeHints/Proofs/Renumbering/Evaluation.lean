import TypeHints.Proofs.Evaluation
import TypeHints.Proofs.Renumbering.Value
import TypeHints.Proofs.Traversal

/-!
# Evaluation with its points renumbered

Evaluating in a frame whose points are moved by an injective map gives the renumbered values and
the same reports (`Expr.eval_renumber`), also in the sandbox (`evalText_renumber`). Both are
equations between computations, so they hold of every log and can be rewritten with.
-/

namespace TypeHints

/-- The scope with the points of its bindings moved by `r`. -/
def Scope.renumber (r : Point → Point) (s : Scope) : Scope := s.map (·.renumber r)

/-- The frame moved by `r`, its point as well as those among its globals. -/
def Frame.renumber (r : Point → Point) (frame : Frame) : Frame :=
  ⟨r frame.point, Scope.renumber r frame.globals⟩

/-! ## Names -/

section Names

variable (r : Point → Point)

@[simp] theorem Scope.renumber_empty : Scope.renumber r ∅ = ∅ := rfl

@[simp] theorem Scope.get?_renumber (s : Scope) (name : String) :
    (Scope.renumber r s).get? name = (s.get? name).map (·.renumber r) :=
  SortedMap.get?_map _ s name

/-- No point stands in a builtin value. -/
theorem Builtin.renumber_of_resolve {name : String} {v : Value}
    (h : Builtin.resolve name = some v) : v.renumber r = v := by
  obtain ⟨b, rfl⟩ | ⟨b, rfl⟩ | ⟨n, hmem⟩ := Builtin.resolve_cases h
  · rfl
  · rfl
  · simp only [Builtin.otherNames, List.mem_cons, Prod.mk.injEq, List.not_mem_nil, or_false] at hmem
    obtain ⟨-, rfl⟩ | ⟨-, rfl⟩ | ⟨-, rfl⟩ | ⟨-, rfl⟩ | ⟨-, rfl⟩ | ⟨-, rfl⟩ := hmem <;> rfl

theorem Frame.load_renumber (frame : Frame) (locals : Scope) (name : String) :
    (frame.renumber r).load (Scope.renumber r locals) name =
      (·.renumber r) <$> frame.load locals name := by
  have hget : ((Scope.renumber r locals).get? name <|>
      (frame.renumber r).globals.get? name) =
        (locals.get? name <|> frame.globals.get? name).map (·.renumber r) := by
    show ((Scope.renumber r locals).get? name <|> (Scope.renumber r frame.globals).get? name) = _
    rw [Scope.get?_renumber, Scope.get?_renumber]
    cases locals.get? name <;> rfl
  unfold Frame.load
  rw [hget]
  cases locals.get? name <|> frame.globals.get? name with
  | some bindings =>
    rw [map_pure]
    rfl
  | none =>
    cases h : Builtin.resolve name with
    | some v =>
      rw [map_pure, Bindings.renumber_ofValue, Builtin.renumber_of_resolve r h]
      rfl
    | none =>
      rw [map_bind, map_pure]
      rfl

end Names

/-! ## Subscripts -/

mutual

theorem Value.renumber_flattenInto {r : Point → Point} (hr : r.Injective) :
    ∀ (v : Value) (options : List Value), (v.flattenInto options).map (·.renumber r) =
      (v.renumber r).flattenInto (options.map (·.renumber r))
  | .union members, options => Value.renumber_flattenAll hr members options
  | .cls _, options | .container _, options => map_addNew (Value.beq_renumber hr) options _
  | .form _, options | .generic .., options => map_addNew (Value.beq_renumber hr) options _
  | .typeVar _, options | .object .., options => map_addNew (Value.beq_renumber hr) options _
  | .unknown _, options => map_addNew (Value.beq_renumber hr) options _
termination_by structural v => v

theorem Value.renumber_flattenAll {r : Point → Point} (hr : r.Injective) :
    ∀ vs options : List Value, (Value.flattenAll vs options).map (·.renumber r) =
      Value.flattenAll (Value.renumberAll r vs) (options.map (·.renumber r))
  | [], _ => rfl
  | v :: vs, options => by
    simp only [Value.flattenAll, Value.renumberAll]
    rw [Value.renumber_flattenAll hr vs, Value.renumber_flattenInto hr v]
termination_by structural vs => vs

end

theorem Value.renumber_union (r : Point → Point) (vs : List Value) :
    (Value.union vs).renumber r = .union (vs.map (·.renumber r)) :=
  congrArg Value.union (Value.renumberAll_eq_map r vs)

theorem Value.renumber_unionOf {r : Point → Point} (hr : r.Injective) (vs : List Value) :
    (Value.unionOf vs).renumber r = Value.unionOf (vs.map (·.renumber r)) := by
  unfold Value.unionOf
  rw [Value.renumber_union, Value.renumber_flattenAll hr, Value.renumberAll_eq_map]
  rfl

theorem Bindings.merged_renumber (r : Point → Point) (b : Bindings) :
    (b.renumber r).merged = b.merged.renumber r := by
  unfold Bindings.merged
  rw [Bindings.values_renumber]
  match b.values with
  | [] => rfl
  | [v] => rfl
  | v :: w :: vs => exact (Value.renumber_union r (v :: w :: vs)).symm

theorem rejectSubscript_renumber (r : Point → Point) (base details : String) :
    rejectSubscript base details = (·.renumber r) <$> rejectSubscript base details := by
  unfold rejectSubscript
  rw [map_bind, map_pure]
  rfl

theorem Class.parameterize_renumber (r : Point → Point) (c : Class) (args : List Value) :
    c.parameterize (args.map (·.renumber r)) = (·.renumber r) <$> c.parameterize args := by
  unfold Class.parameterize
  rw [List.length_map]
  split
  · rw [map_pure]
    refine congrArg (fun ps => pure (Value.generic c .positional ps)) ?_
    rw [Value.renumberParams_eq_map]
    exact List.ext_getElem? fun i => by simp [Function.comp_def]
  · split
    · rw [map_pure, List.zip_map_right]
      exact congrArg (fun ps => pure (Value.generic c .named ps))
        (Value.renumberParams_eq_map r _).symm
    · exact rejectSubscript_renumber r _ _

theorem Value.notSubscriptable_renumber (r : Point → Point) (base : Value) :
    Value.subscript.notSubscriptable (base.renumber r) =
      (·.renumber r) <$> Value.subscript.notSubscriptable base := by
  unfold Value.subscript.notSubscriptable
  rw [map_bind, map_pure, Value.text_renumber]
  rfl

theorem Value.subscript_renumber {r : Point → Point} (hr : r.Injective) (base : Value)
    (args : List Value) : (base.renumber r).subscript (args.map (·.renumber r)) =
      (·.renumber r) <$> base.subscript args := by
  match base, args with
  | .container c, args => exact c.parameterize_renumber r args
  | .form .union, args => exact congrArg pure (Value.renumber_unionOf hr args).symm
  | .form .optional, [arg] =>
    exact congrArg pure (Value.renumber_unionOf hr [arg, .cls Builtin.noneType.cls]).symm
  | .form .optional, [] => exact rejectSubscript_renumber r _ _
  | .form .optional, _ :: _ :: _ => exact rejectSubscript_renumber r _ _
  | .unknown u, _ => rfl
  | .cls c, args =>
    show (if c.template.isEmpty then _ else _) = _ <$> (if c.template.isEmpty then _ else _)
    split
    · exact Value.notSubscriptable_renumber r (.cls c)
    · exact c.parameterize_renumber r args
  | .generic base keys params, _ =>
    exact Value.notSubscriptable_renumber r (.generic base keys params)
  | .union options, _ => exact Value.notSubscriptable_renumber r (.union options)
  | .typeVar v, _ => exact Value.notSubscriptable_renumber r (.typeVar v)
  | .object t c, _ => exact Value.notSubscriptable_renumber r (.object t c)

/-! ## Expressions -/

mutual

theorem Expr.eval_renumber {r : Point → Point} (hr : r.Injective) (frame : Frame)
    (locals : Scope) : ∀ e : Expr,
      e.eval (frame.renumber r) (Scope.renumber r locals) = (·.renumber r) <$> e.eval frame locals
  | .name n => frame.load_renumber r locals n
  | .str _ | .int _ => rfl
  | .tuple items => by
    have htuple : ∀ bs : List Bindings,
        Bindings.ofValue (r frame.point) (.tuple (bs.map (·.renumber r))) =
          (Bindings.ofValue frame.point (.tuple bs)).renumber r := by
      intro bs
      rw [← Bindings.renumberAll_eq_map]
      rfl
    simp only [Expr.eval]
    rw [Expr.evalAll_renumber hr frame locals items, bind_map_left, map_bind]
    refine bind_congr fun bs => ?_
    rw [map_pure, ← htuple]
    rfl
  | .subscript value index => by
    have hargs : index.evalArgs (frame.renumber r) (Scope.renumber r locals) =
        List.map (·.renumber r) <$> index.evalArgs frame locals := by
      unfold Expr.evalArgs
      split
      · exact Expr.evalAll_renumber hr frame locals _
      · rw [Expr.eval_renumber hr frame locals index]
        simp only [map_bind, bind_map_left, map_pure, List.map_cons, List.map_nil]
    rw [Expr.eval_subscript, Expr.eval_subscript, Expr.eval_renumber hr frame locals value, hargs]
    simp only [map_bind, bind_map_left, map_pure]
    refine bind_congr fun base => bind_congr fun args => ?_
    have hmerged : (args.map (·.renumber r)).map (·.merged) =
        (args.map (·.merged)).map (·.renumber r) := by
      rw [List.map_map, List.map_map]
      exact List.map_congr_left fun b _ => b.merged_renumber r
    rw [hmerged, Bindings.values_renumber,
      mapM_map_comm fun v => v.subscript_renumber hr (args.map (·.merged)), bind_map_left]
    refine bind_congr fun results => ?_
    rw [Bindings.renumber_ofValues hr]
    rfl

theorem Expr.evalAll_renumber {r : Point → Point} (hr : r.Injective) (frame : Frame)
    (locals : Scope) : ∀ es : List Expr,
      Expr.evalAll (frame.renumber r) (Scope.renumber r locals) es =
        List.map (·.renumber r) <$> Expr.evalAll frame locals es
  | [] => rfl
  | e :: es => by
    simp only [Expr.evalAll]
    rw [Expr.eval_renumber hr frame locals e, Expr.evalAll_renumber hr frame locals es]
    simp only [map_bind, bind_map_left, map_pure, List.map_cons]

end

/-! ## Texts -/

section Failing

variable {ε ε' α β : Type}

theorem adapt_map (f : α → β) (g : ε → ε') (x : ExceptT ε Reporting α) :
    (f <$> x).adapt g = f <$> x.adapt g := by
  refine ExceptT.ext ?_
  rw [ExceptT.run_adapt, ExceptT.run_map, ExceptT.run_map, ExceptT.run_adapt, Functor.map_map,
    Functor.map_map]
  refine map_congr fun result => ?_
  cases result <;> rfl

theorem mapError_map (f : α → β) (g : ε → ε') (s : Except ε α) :
    (f <$> s).mapError g = f <$> s.mapError g := by
  cases s <;> rfl

theorem liftM_exceptMap (f : α → β) (s : Except ε α) :
    (liftM (f <$> s) : ExceptT ε Reporting β) = f <$> (liftM s : ExceptT ε Reporting α) := by
  cases s <;> rfl

end Failing

section Texts

variable {r : Point → Point} (hr : r.Injective) (frame : Frame) (text : String)

include hr

theorem runText_renumber :
    runText (frame.renumber r) text = (·.renumber r) <$> runText frame text := by
  unfold runText
  split
  · rfl
  · rw [← Scope.renumber_empty r, Expr.eval_renumber hr]
    exact liftM_map _ _

/-- The sandbox takes out the same reports. -/
theorem evalText_renumber :
    evalText (frame.renumber r) text = (·.renumber r) <$> evalText frame text := by
  unfold evalText
  rw [runText_renumber hr, adapt_map]
  simp only [map_bind, bind_map_left]
  refine bind_congr fun log => bind_congr fun bindings => bind_congr fun log' => ?_
  split
  · rfl
  · rfl

end Texts

end TypeHints
