import TypeHints.Proofs.Alternatives
import TypeHints.Proofs.Invariant.Evaluation

/-!
# Unions without repetitions

A type is unrepeated if no union in it has two options that are the same, and so is a value. What a
name stands for must be distinct as well, since several values become the options of one union.
Evaluation keeps this: wherever it puts a union together it leaves out what is there already
(`Expr.eval_unrepeated`). The objects of an unrepeated type are unrepeated
(`Ty.Unrepeated.instantiate`).
-/

namespace TypeHints

/-! ## Types and values -/

mutual

/-- No union in the bounds of the type variables of the class repeats an option. -/
inductive Class.Unrepeated : Class → Prop
  | mk {name : String} {template : List TypeVar} {id : ClassId}
      (template_unrepeated : ∀ v ∈ template, v.Unrepeated) : Class.Unrepeated ⟨name, template, id⟩

/-- No union in the bound of the type variable repeats an option. -/
inductive TypeVar.Unrepeated : TypeVar → Prop
  | mk {name : String} {bound : Option Ty}
      (bound_unrepeated : ∀ t, bound = some t → t.Unrepeated) : TypeVar.Unrepeated ⟨name, bound⟩

/-- No union repeats an option, at every depth. -/
inductive Ty.Unrepeated : Ty → Prop
  | cls {c : Class} (hc : c.Unrepeated) : Ty.Unrepeated (.cls c)
  | typeVar {v : TypeVar} (hv : v.Unrepeated) : Ty.Unrepeated (.typeVar v)
  | generic {base : Class} {keys : ParamKeys} {params : List (String × Ty)}
      (base_unrepeated : base.Unrepeated) (params_unrepeated : ∀ p ∈ params, p.2.Unrepeated) :
      Ty.Unrepeated (.generic base keys params)
  | union {options : List Ty} (distinct : Distinct (· == ·) options)
      (options_unrepeated : ∀ t ∈ options, t.Unrepeated) : Ty.Unrepeated (.union options)
  | unknown (u : Unknown) : Ty.Unrepeated (.unknown u)

end

mutual

/-- No union repeats an option, neither in the value nor in the type of an object, at every
depth. -/
inductive Value.Unrepeated : Value → Prop
  | cls {c : Class} (hc : c.Unrepeated) : Value.Unrepeated (.cls c)
  | container {c : Class} (hc : c.Unrepeated) : Value.Unrepeated (.container c)
  | form (f : SpecialForm) : Value.Unrepeated (.form f)
  | generic {base : Class} {keys : ParamKeys} {params : List (String × Value)}
      (base_unrepeated : base.Unrepeated) (params_unrepeated : ∀ p ∈ params, p.2.Unrepeated) :
      Value.Unrepeated (.generic base keys params)
  | union {options : List Value} (distinct : Distinct (· == ·) options)
      (options_unrepeated : ∀ v ∈ options, v.Unrepeated) : Value.Unrepeated (.union options)
  | typeVar {v : TypeVar} (hv : v.Unrepeated) : Value.Unrepeated (.typeVar v)
  | object {type : Ty} {constant : Option Constant} (type_unrepeated : type.Unrepeated)
      (constant_unrepeated : ∀ c, constant = some c → c.Unrepeated) :
      Value.Unrepeated (.object type constant)
  | unknown (u : Unknown) : Value.Unrepeated (.unknown u)

/-- Each item of a tuple has distinct values, and these are unrepeated. -/
inductive Constant.Unrepeated : Constant → Prop
  | none : Constant.Unrepeated .none
  | bool (b : Bool) : Constant.Unrepeated (.bool b)
  | int (i : Int64) : Constant.Unrepeated (.int i)
  | str (s : String) : Constant.Unrepeated (.str s)
  | tuple {items : List Bindings} (distinct : ∀ b ∈ items, Distinct (· == ·) b.values)
      (values_unrepeated : ∀ b ∈ items, ∀ v ∈ b.values, v.Unrepeated) :
      Constant.Unrepeated (.tuple items)

end

/-- The values are distinct and unrepeated. -/
structure Bindings.Unrepeated (b : Bindings) : Prop where
  distinct : Distinct (· == ·) b.values
  all : b.All Value.Unrepeated

/-! ## Builtin classes and constants -/

theorem Builtin.cls_unrepeated (b : Builtin) : b.cls.Unrepeated := by
  refine .mk fun v hv => ?_
  obtain ⟨name, -, rfl⟩ := List.mem_map.1 hv
  exact .mk fun t ht => by cases ht

theorem Value.object_unrepeated {b : Builtin} {c : Constant} (hc : c.Unrepeated) :
    (Value.object (.cls b.cls) (some c)).Unrepeated :=
  .object (.cls b.cls_unrepeated) fun _ h => Option.some.inj h ▸ hc

theorem Builtin.resolve_unrepeated {name : String} {v : Value} (h : Builtin.resolve name = some v) :
    v.Unrepeated :=
  Builtin.of_resolve (fun b => .cls b.cls_unrepeated) (fun b => .container b.cls_unrepeated) .form
    (.unknown _) (Value.object_unrepeated .none) (fun _ => Value.object_unrepeated (.bool _)) h

theorem Value.tuple_unrepeated {items : List Bindings} (h : ∀ b ∈ items, b.Unrepeated) :
    (Value.tuple items).Unrepeated :=
  Value.object_unrepeated (.tuple (fun b hb => (h b hb).distinct) fun b hb => (h b hb).all)

theorem Value.Unrepeated.tuple? {v : Value} {items : List Bindings} (hv : v.Unrepeated)
    (h : v.tuple? = some items) : ∀ b ∈ items, b.Unrepeated := by
  obtain ⟨t, rfl⟩ := Value.eq_object_of_tuple? h
  cases hv with
  | object _ hconstant =>
    cases hconstant _ rfl with
    | tuple hdistinct hvalues => exact fun b hb => ⟨hdistinct b hb, hvalues b hb⟩

/-! ## Bindings -/

namespace Bindings

theorem values_add (b : Bindings) (p : Point) (v : Value) :
    (b.add p v).values = addNew (· == ·) b.values v :=
  map_addNew (fun _ _ => rfl) b.toList ⟨v, p⟩

theorem values_extend (b c : Bindings) :
    (b.extend c).values = addAllNew (· == ·) b.values c.values :=
  map_addAllNew (fun _ _ => rfl) b.toList c.toList

namespace Unrepeated

variable {b c : Bindings} {p : Point} {v : Value}

theorem empty : (∅ : Bindings).Unrepeated := ⟨.nil, .empty⟩

theorem ofValue (hv : v.Unrepeated) : (Bindings.ofValue p v).Unrepeated :=
  ⟨List.pairwise_singleton _ _, .ofValue hv⟩

theorem add (hb : b.Unrepeated) (hv : v.Unrepeated) : (b.add p v).Unrepeated where
  distinct := by
    rw [values_add]
    exact hb.distinct.addNew _ v
  all := hb.all.add hv

theorem extend (hb : b.Unrepeated) (hc : c.Unrepeated) : (b.extend c).Unrepeated where
  distinct := by
    rw [values_extend]
    exact hb.distinct.addAllNew _ _
  all := hb.all.extend hc.all

theorem ofValues {vs : List Value} (h : ∀ v ∈ vs, v.Unrepeated) :
    (Bindings.ofValues p vs).Unrepeated :=
  List.foldlRecOn (motive := Bindings.Unrepeated) vs _ empty fun _ hb v hv => hb.add (h v hv)

/-- Several values become one union, which repeats none of them. -/
theorem merged (hb : b.Unrepeated) : b.merged.Unrepeated :=
  hb.all.merged (.unknown _) fun _ => .union hb.distinct hb.all

end Unrepeated

end Bindings

theorem Ty.Unrepeated.keptByObjects (p : Point) :
    KeptByObjects p Bindings.Unrepeated Ty.Unrepeated where
  empty := .empty
  extend hb hc := hb.extend hc
  cls ht hb := hb.add (.object ht fun _ h => by cases h)
  generic ht hb := hb.add (.object ht fun _ h => by cases h)
  unknown u hb := hb.add (.unknown u)
  options ht := by
    cases ht with
    | union _ hoptions => exact hoptions
  bound ht := by
    cases ht with
    | typeVar hv =>
      cases hv with
      | mk hbound => exact hbound _ rfl

theorem Ty.Unrepeated.instantiate {t : Ty} (ht : t.Unrepeated) (p : Point) :
    (t.instantiate p).Unrepeated :=
  (Ty.Unrepeated.keptByObjects p).instantiate ht

/-! ## Unions put together -/

theorem Value.unionOf_unrepeated {vs : List Value} (hvs : ∀ v ∈ vs, v.Unrepeated) :
    (Value.unionOf vs).Unrepeated := by
  have hdistinct : Distinct (· == ·) (Value.flattenAll vs []) := by
    rw [Value.flattenAll_eq]
    exact Distinct.addAllNew _ .nil _
  refine .union hdistinct ?_
  refine Value.forall_flattenAll (fun h => ?_) hvs fun _ hw => absurd hw List.not_mem_nil
  cases h with
  | union _ hoptions => exact hoptions

/-! ## Subscripts -/

theorem Class.parameterize_unrepeated {c : Class} (hc : c.Unrepeated) {args : List Value}
    (hargs : ∀ arg ∈ args, arg.Unrepeated) : Yields Value.Unrepeated (c.parameterize args) := by
  unfold Class.parameterize
  split
  · refine .pure (.generic hc fun p hp => ?_)
    obtain ⟨i, hi, rfl⟩ := List.mem_mapIdx.1 hp
    exact hargs _ (List.getElem_mem hi)
  · split
    · exact .pure (.generic hc fun p hp => hargs p.2 (List.of_mem_zip hp).2)
    · exact (Yields.trivial _).bind fun _ _ => .pure (.unknown _)

theorem Value.subscript_unrepeated {base : Value} {args : List Value} (hbase : base.Unrepeated)
    (hargs : ∀ arg ∈ args, arg.Unrepeated) : Yields Value.Unrepeated (base.subscript args) := by
  have hnot : Yields Value.Unrepeated (Value.subscript.notSubscriptable base) :=
    (Yields.trivial _).bind fun _ _ => .pure (.unknown _)
  unfold Value.subscript
  split
  · cases hbase with
    | container hc => exact Class.parameterize_unrepeated hc hargs
  · exact .pure (Value.unionOf_unrepeated hargs)
  · refine .pure (Value.unionOf_unrepeated (List.forall_mem_cons.2 ⟨?_, ?_⟩))
    · exact hargs _ List.mem_cons_self
    · exact List.forall_mem_singleton.2 (.cls (Builtin.cls_unrepeated _))
  · exact (Yields.trivial _).bind fun _ _ => .pure (.unknown _)
  · exact .pure (.unknown _)
  · split
    · exact hnot
    · cases hbase with
      | cls hc => exact Class.parameterize_unrepeated hc hargs
  -- no other value takes a subscript
  all_goals exact hnot

/-! ## Evaluation -/

/-- The names of the scope stand for distinct values that are unrepeated. -/
abbrev Scope.Unrepeated (scope : Scope) : Prop := SortedMap.All Bindings.Unrepeated scope

section Frame

variable {frame : Frame}

theorem Frame.load_unrepeated (hglobals : frame.globals.Unrepeated) (name : String) :
    Yields Bindings.Unrepeated (frame.load ∅ name) := by
  unfold Frame.load
  split
  · rename_i b hb
    exact .pure (hglobals name b hb)
  · split
    · exact .pure (.ofValue (Builtin.resolve_unrepeated ‹_›))
    · exact (Yields.trivial _).bind fun _ _ => .pure (.ofValue (.unknown _))

mutual

/-- The values of an expression are distinct, and no union in them repeats an option. -/
theorem Expr.eval_unrepeated (hglobals : frame.globals.Unrepeated) :
    ∀ e : Expr, Yields Bindings.Unrepeated (e.eval frame ∅)
  | .name n => Frame.load_unrepeated hglobals n
  | .str _ => .pure (.ofValue (Value.object_unrepeated (.str _)))
  | .int _ => .pure (.ofValue (Value.object_unrepeated (.int _)))
  | .tuple items => (Expr.evalAll_unrepeated hglobals items).bind fun _ hbs =>
    .pure (.ofValue (Value.tuple_unrepeated hbs))
  | .subscript value index => by
    have hargs : Yields (fun bs : List Bindings => ∀ b ∈ bs, b.Unrepeated)
        (index.evalArgs frame ∅) := by
      unfold Expr.evalArgs
      split
      · exact Expr.evalAll_unrepeated hglobals _
      · exact (Expr.eval_unrepeated hglobals index).bind fun _ hb =>
          .pure (List.forall_mem_singleton.2 hb)
    rw [Expr.eval_subscript]
    refine (Expr.eval_unrepeated hglobals value).bind fun base hbase => ?_
    refine hargs.bind fun args hargs => ?_
    have hmerged : ∀ arg ∈ args.map (·.merged), arg.Unrepeated :=
      List.forall_mem_map.2 fun b hb => (hargs b hb).merged
    have hresults := Yields.mapM base.values fun v hv =>
      Value.subscript_unrepeated (hbase.all v hv) hmerged
    exact hresults.bind fun _ h => .pure (.ofValues h)

theorem Expr.evalAll_unrepeated (hglobals : frame.globals.Unrepeated) : ∀ es : List Expr,
    Yields (fun bs : List Bindings => ∀ b ∈ bs, b.Unrepeated) (Expr.evalAll frame ∅ es)
  | [] => .pure fun _ hb => absurd hb List.not_mem_nil
  | e :: es => (Expr.eval_unrepeated hglobals e).bind fun _ hb =>
    (Expr.evalAll_unrepeated hglobals es).bind fun _ hbs => .pure (List.forall_mem_cons.2 ⟨hb, hbs⟩)

end

theorem runText_unrepeated (hglobals : frame.globals.Unrepeated) (text : String) :
    Returns Bindings.Unrepeated (runText frame text) := by
  unfold runText
  split
  · exact .throw _
  · exact .lift (Expr.eval_unrepeated hglobals _)

end Frame

end TypeHints
