import TypeHints.Proofs.Invariant.Walk
import TypeHints.Proofs.Reached

/-!
# Unions have options

The union of nothing comes up in one way only: `Union` is given the empty tuple as its index. It
is then a type like any other and goes into signatures (`signature_of_empty_index`), although
`Union` without an index is reported for its lack of options. As long as no text of a module says
`value[()]` where `value` comes to `Union`, every union in a signature has an option, at every depth
(`Walk.Reached.unions_filled`).
-/

namespace TypeHints

/-! ## Filled types and values -/

mutual

/-- All unions in the bounds of the type variables of the class have options. -/
inductive Class.Filled : Class → Prop
  | mk {name : String} {template : List TypeVar} {id : ClassId}
      (template_filled : ∀ v ∈ template, v.Filled) : Class.Filled ⟨name, template, id⟩

/-- All unions in the bound of the type variable have options. -/
inductive TypeVar.Filled : TypeVar → Prop
  | mk {name : String} {bound : Option Ty} (bound_filled : ∀ t, bound = some t → t.Filled) :
      TypeVar.Filled ⟨name, bound⟩

/-- All unions have options, at every depth. -/
inductive Ty.Filled : Ty → Prop
  | cls {c : Class} (hc : c.Filled) : Ty.Filled (.cls c)
  | typeVar {v : TypeVar} (hv : v.Filled) : Ty.Filled (.typeVar v)
  | generic {base : Class} {keys : ParamKeys} {params : List (String × Ty)}
      (base_filled : base.Filled) (params_filled : ∀ p ∈ params, p.2.Filled) :
      Ty.Filled (.generic base keys params)
  | union {options : List Ty} (options_ne : options ≠ [])
      (options_filled : ∀ t ∈ options, t.Filled) : Ty.Filled (.union options)
  | unknown (u : Unknown) : Ty.Filled (.unknown u)

end

mutual

/-- All unions that an annotation denotes have options, and its strings satisfy `T`. The type of
an object is none that the object denotes. -/
inductive Value.Filled (T : String → Prop) : Value → Prop
  | cls {c : Class} (hc : c.Filled) : Value.Filled T (.cls c)
  | container {c : Class} (hc : c.Filled) : Value.Filled T (.container c)
  | form (f : SpecialForm) : Value.Filled T (.form f)
  | generic {base : Class} {keys : ParamKeys} {params : List (String × Value)}
      (base_filled : base.Filled) (params_filled : ∀ p ∈ params, Value.Filled T p.2) :
      Value.Filled T (.generic base keys params)
  | union {options : List Value} (options_ne : options ≠ [])
      (options_filled : ∀ v ∈ options, Value.Filled T v) : Value.Filled T (.union options)
  | typeVar {v : TypeVar} (hv : v.Filled) : Value.Filled T (.typeVar v)
  | object {type : Ty} {constant : Option Constant}
      (constant_filled : ∀ c, constant = some c → Constant.Filled T c) :
      Value.Filled T (.object type constant)
  | unknown (u : Unknown) : Value.Filled T (.unknown u)

/-- The strings of the constant satisfy `T`, and the items of a tuple are filled. -/
inductive Constant.Filled (T : String → Prop) : Constant → Prop
  | none : Constant.Filled T .none
  | bool (b : Bool) : Constant.Filled T (.bool b)
  | int (i : Int64) : Constant.Filled T (.int i)
  | str {s : String} (hs : T s) : Constant.Filled T (.str s)
  | tuple {items : List Bindings} (items_filled : ∀ b ∈ items, ∀ v ∈ b.values, Value.Filled T v) :
      Constant.Filled T (.tuple items)

end

/-! ## Building filled values -/

theorem Builtin.cls_filled (b : Builtin) : b.cls.Filled := by
  refine .mk fun v hv => ?_
  obtain ⟨name, -, rfl⟩ := List.mem_map.1 hv
  exact .mk fun t ht => by cases ht

section Build

variable {T : String → Prop}

theorem Value.object_filled {t : Ty} {c : Constant} (hc : Constant.Filled T c) :
    Value.Filled T (.object t (some c)) := by
  refine .object fun c' h => ?_
  obtain rfl := Option.some.inj h
  exact hc

theorem Class.filled_of_value {c : Class}
    (h : (Value.cls c).Filled T ∨ (Value.container c).Filled T) : c.Filled := by
  rcases h with h | h
  · cases h with
    | cls hc => exact hc
  · cases h with
    | container hc => exact hc

theorem Value.Filled.str? {v : Value} {s : String} (hv : v.Filled T) (h : v.str? = some s) :
    T s := by
  obtain ⟨t, rfl⟩ := Value.eq_object_of_str? h
  cases hv with
  | object hconstant =>
    cases hconstant _ rfl with
    | str hs => exact hs

theorem Value.Filled.tuple? {v : Value} {items : List Bindings} (hv : v.Filled T)
    (h : v.tuple? = some items) : ∀ b ∈ items, b.All (Value.Filled T) := by
  obtain ⟨t, rfl⟩ := Value.eq_object_of_tuple? h
  cases hv with
  | object hconstant =>
    cases hconstant _ rfl with
    | tuple hitems => exact hitems

theorem Class.parameterize_filled {c : Class} (hc : c.Filled) {args : List Value}
    (hargs : ∀ arg ∈ args, arg.Filled T) : Yields (Value.Filled T) (c.parameterize args) :=
  Class.parameterize_yields (fun _ _ hps => .generic hc fun p hp => hargs p.2 (hps p hp))
    (.unknown _)

/-! ## Unions taken apart -/

theorem addNew_ne_nil {α : Type} (same : α → α → Bool) (xs : List α) (x : α) :
    addNew same xs x ≠ [] := by
  unfold addNew
  split
  · rintro rfl
    simp_all
  · simp

mutual

theorem Value.flattenInto_ne_nil : ∀ {v : Value} {options : List Value},
    v.Filled T ∨ options ≠ [] → v.flattenInto options ≠ []
  | .union members, options, h => by
    refine Value.flattenAll_ne_nil (h.imp_left fun hv => ?_)
    cases hv with
    | union hne hmembers => exact ⟨hne, hmembers⟩
  | .cls _, _, _ | .container _, _, _ | .form _, _, _ | .generic .., _, _ | .typeVar _, _, _
  | .object .., _, _ | .unknown _, _, _ => addNew_ne_nil _ _ _
termination_by structural v => v

/-- Something is left of unions that have options. -/
theorem Value.flattenAll_ne_nil : ∀ {vs options : List Value},
    (vs ≠ [] ∧ ∀ v ∈ vs, v.Filled T) ∨ options ≠ [] → Value.flattenAll vs options ≠ []
  | [], options, h => h.resolve_left fun h => h.1 rfl
  | v :: vs, options, h => by
    show Value.flattenAll vs (v.flattenInto options) ≠ []
    refine Value.flattenAll_ne_nil (.inr (Value.flattenInto_ne_nil ?_))
    exact h.imp_left fun h => h.2 v List.mem_cons_self
termination_by structural vs => vs

end

theorem Value.unionOf_filled {vs : List Value} (hvs : ∀ v ∈ vs, v.Filled T) (hne : vs ≠ []) :
    (Value.unionOf vs).Filled T := by
  refine .union (Value.flattenAll_ne_nil (.inl ⟨hne, hvs⟩)) ?_
  refine Value.forall_flattenAll (fun h => ?_) hvs fun _ hw => absurd hw List.not_mem_nil
  cases h with
  | union _ hoptions => exact hoptions

/-- The objects of a type hold no constants, so they are filled whatever the type is. -/
theorem Ty.instantiate_filled (t : Ty) (p : Point) : (t.instantiate p).All (Value.Filled T) := by
  have hobject : ∀ t, Value.Filled T (.object t none) := fun _ => .object fun _ h => by cases h
  refine KeptByObjects.instantiate (Q := fun _ => True) ?_ True.intro
  exact {
    empty := .empty
    extend := fun hb hc => hb.extend hc
    cls := fun _ hb => hb.add (hobject _)
    generic := fun _ hb => hb.add (hobject _)
    unknown := fun u hb => hb.add (.unknown u)
    options := fun _ _ _ => True.intro
    bound := fun _ => True.intro }

end Build

/-- Filled values denote filled types. -/
def Invariant.filled (T : String → Prop) : Invariant where
  value := Value.Filled T
  type := Ty.Filled
  text := T
  builtin := Builtin.of_resolve (fun b => .cls b.cls_filled) (fun b => .container b.cls_filled)
    .form (.unknown _) (Value.object_filled .none) fun _ => Value.object_filled (.bool _)
  int i := Value.object_filled (.int i)
  str hs := Value.object_filled (.str hs)
  text_of_str? := Value.Filled.str?
  tuple hitems := Value.object_filled (.tuple hitems)
  items_of_tuple? := Value.Filled.tuple?
  unknown := .unknown
  merged hb := hb.merged (.unknown _) fun hne => .union hne hb
  parameterize hc hargs := Class.parameterize_filled (Class.filled_of_value hc) hargs
  unionOf := Value.unionOf_filled
  type_cls h := .cls (Class.filled_of_value h)
  type_none := .cls (Builtin.cls_filled _)
  type_typeVar h := by
    cases h with
    | typeVar hv => exact .typeVar hv
  type_unknown := .unknown
  params h := by
    cases h with
    | generic _ hparams => exact hparams
  type_generic h _ hqs := by
    cases h with
    | generic hbase _ => exact .generic hbase hqs
  options h := by
    cases h with
    | union _ hoptions => exact hoptions
  type_union h hlength hts := by
    cases h with
    | union hne _ =>
      refine .union (fun hnil => hne ?_) hts
      rw [hnil] at hlength
      exact List.length_eq_zero_iff.1 hlength.symm
  declaredVar _ hbound := .typeVar (.mk hbound)
  declaredClass _ htemplate := by
    refine .cls (.mk fun v hv => ?_)
    cases htemplate v hv with
    | typeVar hv => exact hv

/-! ## What a module writes -/

/-- The expressions in the texts of `m`: those of its bounds, annotations, function type comments
and assigned values, their parts, and what their strings spell. -/
inductive Module.Writes (m : Module) : Expr → Prop
  | text {d : Definition} {text : String} {e : Expr} (hd : d ∈ m.definitions)
      (ht : d.Spells text) (he : Expr.parse text = .ok e) : m.Writes e
  | quoted {text : String} {e : Expr} (hs : m.Writes (.str text))
      (he : Expr.parse text = .ok e) : m.Writes e
  | item {items : List Expr} {e : Expr} (h : m.Writes (.tuple items)) (he : e ∈ items) : m.Writes e
  | value {value index : Expr} (h : m.Writes (.subscript value index)) : m.Writes value
  | index {value index : Expr} (h : m.Writes (.subscript value index)) : m.Writes index

/-- Where `m` says `value[()]`, `value` does not come to `Union`, wherever the walk is. -/
def Module.GivesOptions (m : Module) : Prop :=
  ∀ (w : Walk) (value : Expr) (b : Bindings) (ds : List Diagnostic), w.Reached m →
    m.Writes (.subscript value (.tuple [])) → Gives (value.eval w.advance.frame ∅) b ds →
      .form .union ∉ b.values

/-- The text spells nothing but what `m` writes. -/
def Module.Quotes (m : Module) (text : String) : Prop :=
  ∀ e, Expr.parse text = .ok e → m.Writes e

/-! ## Signatures -/

section Walk

variable {m : Module} (hm : m.GivesOptions)

include hm

theorem Module.GivesOptions.evaluates {w : Walk} (hw : w.Reached m)
    (hglobals : (Invariant.filled m.Quotes).Scope w.globals) :
    (Invariant.filled m.Quotes).Evaluates w.advance.frame := by
  have hE : (Invariant.filled m.Quotes).Evaluable w.advance.frame m.Writes :=
    { str := fun hs e he => .quoted hs he
      items := fun h e he => .item h he
      value := .value
      index := .index
      emptyIndex := fun h hb hunion => absurd hunion (hm w _ _ _ hw h hb) }
  exact Invariant.evaluates_of_evaluable hglobals hE fun text htext => htext

theorem Walk.Reached.filled {w : Walk} (hw : w.Reached m) :
    (Invariant.filled m.Quotes).Walk w := by
  refine hw.induct (P := (Invariant.filled m.Quotes).Walk) .empty ?_
  intro w v d rs hw _ hd hdefine hfilled
  have hadvance : (Invariant.filled m.Quotes).Walk w.advance := ⟨hfilled.globals, hfilled.functions⟩
  refine (hadvance.define m (hm.evaluates hw hfilled.globals) (fun text ht e he =>
    .text hd ht he) fun comment => ?_).of_gives hdefine
  unfold evalTypeComment
  refine (Returns.trivial _).bind fun _ _ => (Returns.trivial _).bind fun v _ => ?_
  split
  · rename_i objects hobjects
    obtain ⟨t, -, rfl⟩ := Option.map_eq_some_iff.1 hobjects
    exact .pure (t.instantiate_filled _)
  · exact .throw _

end Walk

/-- **Unions have options.** If a module nowhere says `value[()]` where `value` comes to `Union`,
then all unions in the signatures of its functions have options, at every depth: when a function is
defined, and when its late annotations are resolved. -/
theorem Walk.Reached.unions_filled {m : Module} (hm : m.GivesOptions) {w : Walk}
    (hw : w.Reached m) {f : Function} (hf : f ∈ w.functions) :
    (∀ name t, f.signature.get? name = some t → t.Filled) ∧
    ∀ receivers g ds, Gives (f.resolveLate receivers w.advance.frame) g ds →
      ∀ name t, g.signature.get? name = some t → t.Filled := by
  have hfilled := hw.filled hm
  have hsignature := hfilled.functions f hf
  refine ⟨hsignature.types, fun receivers g ds hg => ?_⟩
  have hframe := hm.evaluates hw hfilled.globals
  exact ((hframe.resolveLate receivers hsignature).of_gives hg).types

/-- The type of an empty tuple. -/
def emptyTuple : Value := .generic Builtin.tuple.cls .positional []

/-- A number or a string. -/
def intOrStr : Value := .union [.cls Builtin.int.cls, .cls Builtin.str.cls]

/-- A function with an empty index, of `Tuple`, and a union. -/
def optionDef : FunctionDef where
  name := "f"
  line := 1
  params := ["x", "y"]
  annotations := ((∅ : SortedMap String String).insert "x" "Tuple[()]").insert "y" "Union[int, str]"

/-- The module of that function. -/
def optionModule : Module := ⟨"m.py", ∅, [.function optionDef]⟩

/-- What the annotations of the function come to. -/
def optionTypes : Collected :=
  (Collected.set {} "x" (.generic Builtin.tuple.cls .positional [])).set "y"
    (.union [.cls Builtin.int.cls, .cls Builtin.str.cls])

/-- The function once its annotations are collected. -/
def optionFunction : Function := (optionDef.bare "m.py").mapSignature optionTypes.addTo

theorem parse_tupleIndex :
    Expr.parse "Tuple[()]" = .ok (.subscript (.name "Tuple") (.tuple [])) := by
  decide +kernel

theorem parse_unionIndex : Expr.parse "Union[int, str]" =
    .ok (.subscript (.name "Union") (.tuple [.name "int", .name "str"])) := by
  decide +kernel

theorem optionDef_annotations :
    optionDef.annotations.toList = [("x", "Tuple[()]"), ("y", "Union[int, str]")] := by
  decide

theorem optionDef_defined :
    Gives (optionDef.define ⟨⟨1⟩, ∅⟩ "m.py").run (.ok optionFunction) [] := by
  have htuple : Gives (runText ⟨⟨1⟩, ∅⟩ "Tuple[()]").run (.ok (.ofValue ⟨1⟩ emptyTuple)) [] := by
    refine runText_of_parse parse_tupleIndex (.of_unchanged fun _ => ?_)
    with_unfolding_all rfl
  have hunion :
      Gives (runText ⟨⟨1⟩, ∅⟩ "Union[int, str]").run (.ok (.ofValue ⟨1⟩ intOrStr)) [] := by
    refine runText_of_parse parse_unionIndex (.of_unchanged fun _ => ?_)
    with_unfolding_all rfl
  have hvalues : Gives (optionDef.evalHints ⟨⟨1⟩, ∅⟩).run
      (.ok [.ofValue ⟨1⟩ emptyTuple, .ofValue ⟨1⟩ intOrStr]) [] := by
    unfold FunctionDef.evalHints
    rw [optionDef_annotations, List.mapM_cons, List.mapM_cons, List.mapM_nil]
    refine (htuple.adapt _).bind_ok_silent ?_
    exact Gives.bind_ok_silent ((hunion.adapt _).bind_ok_silent (.ok _)) (.ok _)
  have hx : ∀ (c : Collected) (l : Location), Gives (c.add ⟨1⟩ l "x" (.ofValue ⟨1⟩ emptyTuple))
      (c.set "x" (.generic Builtin.tuple.cls .positional [])) [] :=
    fun _ _ => Gives.pure _
  have hy : ∀ (c : Collected) (l : Location), Gives (c.add ⟨1⟩ l "y" (.ofValue ⟨1⟩ intOrStr))
      (c.set "y" (.union [.cls Builtin.int.cls, .cls Builtin.str.cls])) [] :=
    fun _ _ => Gives.pure _
  have hcollect : Gives (optionDef.collectHints ⟨⟨1⟩, ∅⟩ "m.py"
      [.ofValue ⟨1⟩ emptyTuple, .ofValue ⟨1⟩ intOrStr]) optionTypes [] := by
    unfold FunctionDef.collectHints
    rw [optionDef_annotations]
    exact (hx _ _).bind_then_silent ((hy _ _).bind_then_silent (.pure _))
  rw [FunctionDef.define_eq]
  exact hvalues.bind_ok_silent (Gives.bind_ok_silent hcollect.lift (Gives.pure _).lift)

/-- The walk behind the function. -/
def optionWalk : Walk := (Walk.advance {}).push optionFunction

theorem optionWalk_reached : optionWalk.Reached optionModule :=
  .first_function (List.prefix_refl _) optionDef_defined

theorem mem_of_optionModule_writes {e : Expr} (h : optionModule.Writes e) :
    e ∈ [.subscript (.name "Tuple") (.tuple []), .name "Tuple", .tuple [],
      .subscript (.name "Union") (.tuple [.name "int", .name "str"]), .name "Union",
      .tuple [.name "int", .name "str"], .name "int", .name "str"] := by
  induction h with
  | text hd ht he =>
    obtain rfl := List.mem_singleton.1 hd
    cases ht with
    | hint h =>
      rw [optionDef_annotations] at h
      simp only [List.mem_cons, List.not_mem_nil, or_false, Prod.mk.injEq] at h
      rcases h with ⟨-, rfl⟩ | ⟨-, rfl⟩
      · obtain rfl := Except.ok.inj (parse_tupleIndex.symm.trans he)
        simp
      · obtain rfl := Except.ok.inj (parse_unionIndex.symm.trans he)
        simp
    | arguments h _ => cases h
    | result h _ => cases h
  | quoted _ _ ih => simp at ih
  | item _ he ih =>
    simp only [List.mem_cons, List.not_mem_nil, or_false, Expr.tuple.injEq, reduceCtorEq,
      false_or] at ih
    rcases ih with rfl | rfl
    · exact absurd he List.not_mem_nil
    · simp only [List.mem_cons, List.not_mem_nil, or_false] at he
      rcases he with rfl | rfl <;> simp
  | value _ ih =>
    simp only [List.mem_cons, List.not_mem_nil, or_false, Expr.subscript.injEq, reduceCtorEq,
      false_or] at ih
    rcases ih with ⟨rfl, -⟩ | ⟨rfl, -⟩ <;> simp
  | index _ ih =>
    simp only [List.mem_cons, List.not_mem_nil, or_false, Expr.subscript.injEq, reduceCtorEq,
      false_or] at ih
    rcases ih with ⟨-, rfl⟩ | ⟨-, rfl⟩ <;> simp

theorem optionModule_globals {w : Walk} (hw : w.Reached optionModule) : w.globals = ∅ := by
  refine hw.induct (P := fun w => w.globals = ∅) rfl ?_
  intro w v d rs _ _ hd hdefine hglobals
  obtain rfl := List.mem_singleton.1 hd
  rw [Walk.define_function, map_eq_pure_bind] at hdefine
  have hpush : Returns (fun v : Walk => v.globals = ∅)
      (optionDef.define w.advance.frame optionModule.file >>= fun f => pure (w.advance.push f)) :=
    (Returns.trivial _).bind fun _ _ => .pure hglobals
  exact hpush.of_gives hdefine

theorem optionModule_givesOptions : optionModule.GivesOptions := by
  intro w value b ds hw hwrites hb hmem
  obtain rfl : value = .name "Tuple" := by simpa using mem_of_optionModule_writes hwrites
  have hload : Gives (Expr.eval w.advance.frame ∅ (.name "Tuple"))
      (.ofValue w.advance.frame.point (.container Builtin.tuple.cls)) [] := by
    show Gives (w.advance.frame.load ∅ "Tuple") _ []
    unfold Frame.load
    rw [show w.advance.frame.globals = w.globals from rfl, optionModule_globals hw]
    exact Gives.pure _
  obtain rfl := (hb.unique hload).1
  cases List.mem_singleton.1 hmem

/-- Every union that the annotations of the function come to has an option. -/
theorem unions_filled_of_tuple :
    optionModule.GivesOptions ∧ optionWalk.Reached optionModule ∧
    optionFunction ∈ optionWalk.functions ∧
    optionFunction.signature.get? "x" = some (.generic Builtin.tuple.cls .positional []) ∧
    optionFunction.signature.get? "y" = some (.union [.cls Builtin.int.cls, .cls Builtin.str.cls]) ∧
    ∀ name t, optionFunction.signature.get? name = some t → t.Filled := by
  have hmem : optionFunction ∈ optionWalk.functions := List.mem_singleton_self _
  refine ⟨optionModule_givesOptions, optionWalk_reached, hmem, rfl, rfl, ?_⟩
  exact (Walk.Reached.unions_filled optionModule_givesOptions optionWalk_reached hmem).1

/-! ## An empty index -/

/-- A function whose parameter is annotated by the union of nothing. -/
def emptyUnionDef : FunctionDef where
  name := "f"
  line := 1
  params := ["x"]
  annotations := (∅ : SortedMap String String).insert "x" "Union[()]"

/-- The module of that function. -/
def emptyUnionModule : Module := ⟨"m.py", ∅, [.function emptyUnionDef]⟩

/-- The function once its annotation is collected. -/
def emptyUnionFunction : Function :=
  (emptyUnionDef.bare "m.py").mapSignature fun _ =>
    ⟨(∅ : SortedMap String Ty).insert "x" (.union []), []⟩

theorem emptyUnionDef_defined :
    Gives (emptyUnionDef.define ⟨⟨1⟩, ∅⟩ "m.py").run (.ok emptyUnionFunction) [] := by
  have hvalue : Gives (runText ⟨⟨1⟩, ∅⟩ "Union[()]").run (.ok (.ofValue ⟨1⟩ (.union []))) [] := by
    refine runText_of_parse (e := .subscript (.name "Union") (.tuple [])) (by decide +kernel) ?_
    refine .of_unchanged fun _ => ?_
    with_unfolding_all rfl
  have hvalues : Gives (emptyUnionDef.evalHints ⟨⟨1⟩, ∅⟩).run (.ok [.ofValue ⟨1⟩ (.union [])]) [] :=
    (hvalue.adapt _).bind_ok_silent (.ok _)
  rw [FunctionDef.define_eq]
  exact hvalues.bind_ok_silent (Gives.bind_ok_silent (Gives.pure _).lift (Gives.pure _).lift)

/-- The walk behind the function. -/
def emptyUnionWalk : Walk := (Walk.advance {}).push emptyUnionFunction

theorem emptyUnionWalk_reached : emptyUnionWalk.Reached emptyUnionModule :=
  .first_function (List.prefix_refl _) emptyUnionDef_defined

/-- The union of nothing goes into the signature and into the report, and nothing is reported. -/
theorem signature_of_empty_index :
    (∃ w : Walk, w.Reached emptyUnionModule ∧ ∃ f ∈ w.functions,
      f.signature.get? "x" = some (.union []) ∧ ¬ (Ty.union []).Filled) ∧
    analyze .standard emptyUnionModule = .ok ⟨"ok", "1", "m.py",
      [⟨"f", 1, (∅ : SortedMap String String).insert "x" "Union[]"⟩], [], [], []⟩ := by
  refine ⟨⟨emptyUnionWalk, emptyUnionWalk_reached, emptyUnionFunction, ?_, rfl, ?_⟩,
    by decide +kernel⟩
  · exact List.mem_singleton_self _
  · intro h
    cases h with
    | union hne _ => exact hne rfl

end TypeHints
