import TypeHints.Proofs.Bindings
import TypeHints.Proofs.Evaluation
import TypeHints.Proofs.Returns
import TypeHints.Proofs.SortedMap
import TypeHints.Value.Denotation

/-!
# Invariants of values and types

An `Invariant` is a property of values with one of types, such that values built from values with
the first property have it as well, and the types they denote have the second. Which texts are
evaluated may be restricted, so that not all expressions need to keep the invariant. If the names
of a frame stand for values that satisfy it, so do the values of those that may be evaluated there
(`Invariant.eval`).
-/

namespace TypeHints

/-! ## Builtin names -/

/-- What holds of the builtin classes and constants holds of what builtin names stand for. -/
theorem Builtin.of_resolve {P : Value → Prop} (hcls : ∀ b : Builtin, P (.cls b.cls))
    (hcontainer : ∀ b : Builtin, P (.container b.cls)) (hform : ∀ f, P (.form f))
    (hany : P (.unknown .any)) (hnull : P .null) (hbool : ∀ b, P (.bool b)) {name : String}
    {v : Value} (h : Builtin.resolve name = some v) : P v := by
  obtain ⟨b, rfl⟩ | ⟨b, rfl⟩ | ⟨n, hmem⟩ := Builtin.resolve_cases h
  · exact hcls b
  · exact hcontainer b
  · simp only [Builtin.otherNames, List.mem_cons, List.not_mem_nil, or_false, Prod.mk.injEq] at hmem
    rcases hmem with ⟨-, rfl⟩ | ⟨-, rfl⟩ | ⟨-, rfl⟩ | ⟨-, rfl⟩ | ⟨-, rfl⟩ | ⟨-, rfl⟩
    · exact hform _
    · exact hform _
    · exact hany
    · exact hnull
    · exact hbool _
    · exact hbool _

/-! ## Unions -/

section Flatten

variable {P : Value → Prop}

mutual

theorem Value.forall_flattenInto (hP : ∀ {vs}, P (.union vs) → ∀ v ∈ vs, P v) :
    ∀ {v : Value} {options : List Value}, P v → (∀ w ∈ options, P w) →
      ∀ w ∈ v.flattenInto options, P w
  | .union _, _, hv, hoptions => Value.forall_flattenAll hP (hP hv) hoptions
  | .cls _, _, hv, hoptions | .container _, _, hv, hoptions | .form _, _, hv, hoptions
  | .generic .., _, hv, hoptions | .typeVar _, _, hv, hoptions | .object .., _, hv, hoptions
  | .unknown _, _, hv, hoptions => fun w hw => by
    rcases mem_or_eq_of_mem_addNew _ hw with hw | rfl
    · exact hoptions w hw
    · exact hv
termination_by structural v => v

/-- Taking unions apart gives no value that does not stand in one of them. -/
theorem Value.forall_flattenAll (hP : ∀ {vs}, P (.union vs) → ∀ v ∈ vs, P v) :
    ∀ {vs options : List Value}, (∀ v ∈ vs, P v) → (∀ w ∈ options, P w) →
      ∀ w ∈ Value.flattenAll vs options, P w
  | [], _, _, hoptions => hoptions
  | v :: vs, options, hvs, hoptions => by
    obtain ⟨hv, hvs⟩ := List.forall_mem_cons.1 hvs
    show ∀ w ∈ Value.flattenAll vs (v.flattenInto options), P w
    exact Value.forall_flattenAll hP hvs (Value.forall_flattenInto hP hv hoptions)
termination_by structural vs => vs

end

end Flatten

theorem Bindings.All.merged {P : Value → Prop} {b : Bindings} (hb : b.All P)
    (hnothing : P (.unknown .nothing)) (hunion : b.values ≠ [] → P (.union b.values)) :
    P b.merged := by
  unfold Bindings.merged
  split
  · exact hnothing
  · rename_i v hv
    exact hb v (hv ▸ List.mem_cons_self)
  · rename_i hne _
    exact hunion fun h => hne h

/-- A subscripted class has its arguments under some keys, or could be anything. -/
theorem Class.parameterize_yields {P : Value → Prop} {c : Class} {args : List Value}
    (hgeneric : ∀ keys ps, (∀ p ∈ ps, p.2 ∈ args) → P (.generic c keys ps))
    (hany : P (.unknown .any)) : Yields P (c.parameterize args) := by
  unfold Class.parameterize
  split
  · refine .pure (hgeneric _ _ fun p hp => ?_)
    obtain ⟨i, hi, rfl⟩ := List.mem_mapIdx.1 hp
    exact List.getElem_mem hi
  · split
    · exact .pure (hgeneric _ _ fun p hp => (List.of_mem_zip hp).2)
    · exact (Yields.trivial _).bind fun _ _ => .pure hany

/-! ## Invariants -/

/-- A property of values, one of the types that values denote, and one of the texts that may be
evaluated. -/
structure Invariant where
  value : Value → Prop
  type : Ty → Prop
  text : String → Prop
  builtin {name : String} {v : Value} (h : Builtin.resolve name = some v) : value v
  int (i : Int64) : value (.int i)
  str {s : String} (h : text s) : value (.str s)
  text_of_str? {v : Value} {s : String} (hv : value v) (h : v.str? = some s) : text s
  tuple {items : List Bindings} (h : ∀ b ∈ items, b.All value) : value (.tuple items)
  items_of_tuple? {v : Value} {items : List Bindings} (hv : value v)
    (h : v.tuple? = some items) : ∀ b ∈ items, b.All value
  unknown (u : Unknown) : value (.unknown u)
  merged {b : Bindings} (h : b.All value) : value b.merged
  parameterize {c : Class} {args : List Value} (hc : value (.cls c) ∨ value (.container c))
    (hargs : ∀ arg ∈ args, value arg) : Yields value (c.parameterize args)
  unionOf {vs : List Value} (hvs : ∀ v ∈ vs, value v) (hne : vs ≠ []) : value (.unionOf vs)
  type_cls {c : Class} (h : value (.cls c) ∨ value (.container c)) : type (.cls c)
  type_none : type (.cls Builtin.noneType.cls)
  type_typeVar {v : TypeVar} (h : value (.typeVar v)) : type (.typeVar v)
  type_unknown (u : Unknown) : type (.unknown u)
  params {base : Class} {keys : ParamKeys} {ps : List (String × Value)}
    (h : value (.generic base keys ps)) : ∀ p ∈ ps, value p.2
  type_generic {base : Class} {keys : ParamKeys} {ps : List (String × Value)}
    {qs : List (String × Ty)} (h : value (.generic base keys ps))
    (hkeys : qs.map (·.1) = ps.map (·.1)) (hqs : ∀ q ∈ qs, type q.2) :
    type (.generic base keys qs)
  options {vs : List Value} (h : value (.union vs)) : ∀ v ∈ vs, value v
  type_union {vs : List Value} {ts : List Ty} (h : value (.union vs))
    (hlength : ts.length = vs.length) (hts : ∀ t ∈ ts, type t) : type (.union ts)
  declaredVar {bound : Option Ty} (name : String) (h : ∀ t, bound = some t → type t) :
    value (.typeVar ⟨name, bound⟩)
  declaredClass {template : List TypeVar} (name : String)
    (h : ∀ v ∈ template, value (.typeVar v)) : value (.cls ⟨name, template, .declared name⟩)

namespace Invariant

variable (I : Invariant)

/-! ## Expressions -/

/-- The names of the scope stand for values that satisfy the invariant. -/
abbrev Scope (scope : TypeHints.Scope) : Prop := scope.All (Bindings.All I.value)

/-- What may be evaluated in `frame`: with an expression its parts, and only strings whose texts
may be. Where the invariant excludes the union of nothing, `Union` is not given an empty index. -/
structure Evaluable (frame : Frame) (E : Expr → Prop) : Prop where
  str {s : String} (h : E (.str s)) : I.text s
  items {items : List Expr} (h : E (.tuple items)) : ∀ e ∈ items, E e
  value {value index : Expr} (h : E (.subscript value index)) : E value
  index {value index : Expr} (h : E (.subscript value index)) : E index
  emptyIndex {value : Expr} {b : Bindings} {ds : List Diagnostic}
    (h : E (.subscript value (.tuple []))) (hb : Gives (value.eval frame ∅) b ds)
    (hunion : .form .union ∈ b.values) : I.value (.unionOf [])

section Eval

variable {I} {frame : Frame}

theorem load (hglobals : I.Scope frame.globals) (name : String) :
    Yields (Bindings.All I.value) (frame.load ∅ name) := by
  unfold Frame.load
  split
  · rename_i b hb
    exact .pure (hglobals name b hb)
  · split
    · rename_i v hv
      exact .pure (.ofValue (I.builtin hv))
    · exact (Yields.trivial _).bind fun _ _ => .pure (.ofValue (I.unknown _))

theorem subscript {base : Value} {args : List Value} (hbase : I.value base)
    (hargs : ∀ arg ∈ args, I.value arg)
    (hempty : base = .form .union → args = [] → I.value (.unionOf [])) :
    Yields I.value (base.subscript args) := by
  have hnot : Yields I.value (Value.subscript.notSubscriptable base) :=
    (Yields.trivial _).bind fun _ _ => .pure (I.unknown _)
  have hnone : Builtin.resolve "NoneType" = some (.cls Builtin.noneType.cls) := by rfl
  unfold Value.subscript
  split
  · exact I.parameterize (.inr hbase) hargs
  · by_cases hnil : args = []
    · subst hnil
      exact .pure (hempty rfl rfl)
    · exact .pure (I.unionOf hargs hnil)
  · rename_i arg
    refine .pure (I.unionOf (fun v hv => ?_) (List.cons_ne_nil _ _))
    rcases List.mem_pair.1 hv with rfl | rfl
    · exact hargs v List.mem_cons_self
    · exact I.builtin hnone
  · exact (Yields.trivial _).bind fun _ _ => .pure (I.unknown _)
  · exact .pure (I.unknown _)
  · split
    · exact hnot
    · exact I.parameterize (.inl hbase) hargs
  -- no other value takes a subscript
  all_goals exact hnot

mutual

theorem eval (hglobals : I.Scope frame.globals) {E : Expr → Prop} (hE : I.Evaluable frame E) :
    ∀ e : Expr, E e → Yields (Bindings.All I.value) (e.eval frame ∅)
  | .name n, _ => load hglobals n
  | .str s, he => .pure (.ofValue (I.str (hE.str he)))
  | .int i, _ => .pure (.ofValue (I.int i))
  | .tuple items, he => (evalAll hglobals hE items (hE.items he)).bind fun _ hbs =>
    .pure (.ofValue (I.tuple hbs.2))
  | .subscript value index, he => by
    have hargs : Yields (fun bs : List Bindings => (bs = [] → index = .tuple []) ∧
        ∀ b ∈ bs, b.All I.value) (index.evalArgs frame ∅) := by
      unfold Expr.evalArgs
      split
      · rename_i items
        refine (evalAll hglobals hE items (hE.items (hE.index he))).mono fun bs hbs => ?_
        refine ⟨fun hnil => ?_, hbs.2⟩
        rw [List.length_eq_zero_iff.1 (hbs.1.trans (congrArg List.length hnil))]
      · refine (eval hglobals hE index (hE.index he)).bind fun b hb => .pure ⟨fun h => ?_, ?_⟩
        · cases h
        · exact List.forall_mem_singleton.2 hb
    rw [Expr.eval_subscript]
    refine ((eval hglobals hE value (hE.value he)).and
      (Yields.of_appendOnly (Expr.eval_appendOnly frame ∅ value))).bind fun base hbase => ?_
    obtain ⟨hbase, ds, hgives⟩ := hbase
    refine hargs.bind fun args hargs => ?_
    refine (Yields.mapM base.values fun v hv => ?_).bind fun _ hresults =>
      .pure (.ofValues hresults)
    refine subscript (hbase v hv) (List.forall_mem_map.2 fun b hb => I.merged (hargs.2 b hb)) ?_
    rintro rfl hnil
    obtain rfl := hargs.1 (List.map_eq_nil_iff.1 hnil)
    exact hE.emptyIndex he hgives hv

theorem evalAll (hglobals : I.Scope frame.globals) {E : Expr → Prop}
    (hE : I.Evaluable frame E) :
    ∀ es : List Expr, (∀ e ∈ es, E e) → Yields (fun bs : List Bindings =>
      es.length = bs.length ∧ ∀ b ∈ bs, b.All I.value) (Expr.evalAll frame ∅ es)
  | [], _ => .pure ⟨rfl, fun _ hb => absurd hb List.not_mem_nil⟩
  | e :: es, hes => (eval hglobals hE e (hes e List.mem_cons_self)).bind fun _ hb =>
    (evalAll hglobals hE es fun e he => hes e (List.mem_cons_of_mem _ he)).bind fun _ hbs =>
      .pure ⟨congrArg (· + 1) hbs.1, List.forall_mem_cons.2 ⟨hb, hbs.2⟩⟩

end

end Eval

/-! ## Texts -/

/-- The texts that are evaluated have values that satisfy the invariant in `frame`. -/
def Evaluates (frame : Frame) : Prop :=
  ∀ text, I.text text → Returns (Bindings.All I.value) (TypeHints.runText frame text)

variable {I} {frame : Frame}

theorem evaluates_of_evaluable (hglobals : I.Scope frame.globals) {E : Expr → Prop}
    (hE : I.Evaluable frame E)
    (htext : ∀ text, I.text text → ∀ e, Expr.parse text = .ok e → E e) : I.Evaluates frame := by
  intro text h
  unfold TypeHints.runText
  split
  · exact .throw _
  · rename_i e he
    exact .lift (eval hglobals hE e (htext text h e he))

theorem Evaluates.evalText (hframe : I.Evaluates frame) {text : String} (h : I.text text) :
    Returns (Bindings.All I.value) (TypeHints.evalText frame text) := by
  unfold TypeHints.evalText
  refine (Returns.trivial _).bind fun checkpoint _ => ?_
  refine ((hframe text h).adapt _).bind fun b hb => ?_
  refine (Returns.trivial _).bind fun log _ => ?_
  split
  · exact .pure hb
  · exact (Returns.trivial _).bind fun _ _ => .throw _

end Invariant

end TypeHints
