import TypeHints.Proofs.Distinct
import TypeHints.Proofs.Evaluation

/-!
# The alternatives of a union

The leaves of a value are what is left once unions are taken apart at every depth. Subscripting
`Union` gives the leaves of all arguments, each value once (`Value.unionOf_eq`), so its options
are no unions and no two of them are the same. However the arguments are bracketed into unions
therefore makes no difference, and `Optional` is `Union` with `NoneType` at the end
(`Value.union_subscript_flat`).
-/

namespace TypeHints

/-! ## Leaves -/

mutual

/-- The leaves of a value, from left to right: those of each option of a union, and any other value
itself. -/
def Value.leaves : Value → List Value
  | .union members => Value.leavesAll members
  | v => [v]
termination_by structural v => v

/-- The leaves of several values. -/
def Value.leavesAll : List Value → List Value
  | [] => []
  | v :: vs => v.leaves ++ Value.leavesAll vs
termination_by structural vs => vs

end

namespace Value

@[simp] theorem leaves_union (members : List Value) :
    (union members).leaves = leavesAll members := rfl

theorem leavesAll_eq_flatMap (vs : List Value) : leavesAll vs = vs.flatMap leaves := by
  induction vs with
  | nil => rfl
  | cons v vs ih => rw [leavesAll, ih, List.flatMap_cons]

/-- A union among several values has the same leaves as its options in its place. -/
theorem flatMap_leaves_splice (vs members ws : List Value) :
    (vs ++ union members :: ws).flatMap leaves = (vs ++ members ++ ws).flatMap leaves := by
  simp only [List.flatMap_append, List.flatMap_cons, leaves_union, leavesAll_eq_flatMap,
    List.append_assoc]

theorem leaves_of_not_union {v : Value} (h : ∀ members, v ≠ union members) : v.leaves = [v] := by
  cases v with
  | union members => exact absurd rfl (h members)
  | cls | container | form | generic | typeVar | object | unknown => rfl

theorem flatMap_leaves_of_not_union {vs : List Value}
    (h : ∀ v ∈ vs, ∀ members, v ≠ union members) : vs.flatMap leaves = vs := by
  induction vs with
  | nil => rfl
  | cons v vs ih =>
    obtain ⟨hv, hvs⟩ := List.forall_mem_cons.1 h
    rw [List.flatMap_cons, leaves_of_not_union hv, ih hvs, List.singleton_append]

mutual

theorem leaves_not_union : ∀ {v w : Value}, w ∈ v.leaves → ∀ members, w ≠ union members
  | .union _, _, hw, _ => leavesAll_not_union hw _
  | .cls _, _, hw, _ | .container _, _, hw, _ | .form _, _, hw, _ | .generic .., _, hw, _
  | .typeVar _, _, hw, _ | .object .., _, hw, _ | .unknown _, _, hw, _ => by
    obtain rfl := List.mem_singleton.1 hw
    exact nofun
termination_by structural v => v

/-- No leaf is a union. -/
theorem leavesAll_not_union : ∀ {vs : List Value} {w : Value}, w ∈ leavesAll vs →
    ∀ members, w ≠ union members
  | [], _, hw, _ => absurd hw List.not_mem_nil
  | _ :: _, _, hw, _ => by
    rcases List.mem_append.1 hw with hw | hw
    · exact leaves_not_union hw _
    · exact leavesAll_not_union hw _
termination_by structural vs => vs

end

/-! ## Taking unions apart -/

mutual

theorem flattenInto_eq : ∀ (v : Value) (options : List Value),
    v.flattenInto options = addAllNew (· == ·) options v.leaves
  | .union members, options => flattenAll_eq members options
  | .cls _, _ | .container _, _ | .form _, _ | .generic .., _ | .typeVar _, _ | .object .., _
  | .unknown _, _ => rfl
termination_by structural v => v

/-- The leaves are added one after the other, whatever has been added before. -/
theorem flattenAll_eq : ∀ vs options : List Value,
    flattenAll vs options = addAllNew (· == ·) options (leavesAll vs)
  | [], _ => rfl
  | v :: vs, options => by
    show flattenAll vs (v.flattenInto options) = _
    rw [flattenInto_eq v, flattenAll_eq vs, leavesAll, addAllNew_append]
termination_by structural vs => vs

end

/-- A union of several values has their leaves as options, each of them where it comes first. -/
theorem unionOf_eq (vs : List Value) : unionOf vs = union (vs.flatMap leaves).eraseDups := by
  rw [unionOf, flattenAll_eq, addAllNew_nil_eq_eraseDups, leavesAll_eq_flatMap]

/-- Different values that are no unions are the options as they are. -/
theorem unionOf_of_distinct {vs : List Value} (h : ∀ v ∈ vs, ∀ members, v ≠ union members)
    (hdistinct : Distinct (· == ·) vs) : unionOf vs = union vs := by
  rw [unionOf, flattenAll_eq, leavesAll_eq_flatMap, flatMap_leaves_of_not_union h,
    addAllNew_nil_of_distinct hdistinct]

/-- The options are no unions, since the leaves are none. -/
theorem option_not_union {vs : List Value} {o : Value} (ho : o ∈ (vs.flatMap leaves).eraseDups) :
    ∀ members, o ≠ union members := by
  rw [← leavesAll_eq_flatMap, ← addAllNew_nil_eq_eraseDups] at ho
  exact leavesAll_not_union ((mem_or_mem_of_mem_addAllNew _ ho).resolve_left List.not_mem_nil)

theorem distinct_options (vs : List Value) : Distinct (· == ·) (vs.flatMap leaves).eraseDups :=
  distinct_eraseDups _

/-- A union to which one of its options is added is the same union. -/
theorem unionOf_unionOf_concat (vs : List Value) {w : Value} (hw : ∀ members, w ≠ union members) :
    unionOf [unionOf (vs ++ [w]), w] = unionOf (vs ++ [w]) := by
  have hoptions : addAllNew (· == ·) [] ((vs ++ [w]).flatMap leaves) =
      addNew (· == ·) (addAllNew (· == ·) [] (vs.flatMap leaves)) w := by
    rw [List.flatMap_append, addAllNew_append, List.flatMap_singleton, leaves_of_not_union hw,
      addAllNew_cons, addAllNew_nil]
  have hleaves : [union ((vs ++ [w]).flatMap leaves).eraseDups, w].flatMap leaves =
      ((vs ++ [w]).flatMap leaves).eraseDups ++ [w] := by
    rw [List.flatMap_cons, List.flatMap_singleton, leaves_of_not_union hw, leaves_union,
      leavesAll_eq_flatMap, flatMap_leaves_of_not_union fun o ho => option_not_union ho]
  rw [unionOf_eq (vs ++ [w]), unionOf_eq, hleaves, ← addAllNew_nil_eq_eraseDups, addAllNew_append,
    addAllNew_nil_of_distinct (distinct_options _), addAllNew_cons, addAllNew_nil,
    ← addAllNew_nil_eq_eraseDups, hoptions, addNew_addNew]

end Value

/-! ## Subscripts -/

section Subscript

variable {frame : Frame} {locals : Scope} {value index : Expr} {base : Bindings}
  {args : List Bindings} {v w : Value} {ds es fs : List Diagnostic}

/-- The subscript of an expression with one value is the subscript of that value. -/
theorem Expr.eval_subscript_gives (hbase : Gives (value.eval frame locals) base ds)
    (hv : base.values = [v]) (hargs : Gives (index.evalArgs frame locals) args es)
    (hw : Gives (v.subscript (args.map (·.merged))) w fs) :
    Gives ((Expr.subscript value index).eval frame locals) (.ofValue frame.point w)
      (ds ++ es ++ fs) := by
  have hall : Gives (base.values.mapM (·.subscript (args.map (·.merged)))) [w] fs := by
    rw [hv, List.mapM_cons]
    exact hw.bind_then_silent (.pure [w])
  rw [Expr.eval_subscript, List.append_assoc]
  exact hbase.bind (hargs.bind (hall.bind_then_silent (.pure _)))

/-- **Unions are flat.** `Union` of any arguments has as options their leaves, each where it comes
first: no option is a union, no two are the same, and it makes no difference whether an argument
is a union or its options stand in its place. An expression that subscripts `Union` has this union
of the values of its index. `Optional` of a value is `Union` of it and `NoneType`, and `Optional`
of the result is that result again. -/
theorem Value.union_subscript_flat :
    (∀ args : List Value,
      Gives ((form .union).subscript args) (.union (args.flatMap leaves).eraseDups) [] ∧
      (∀ o ∈ (args.flatMap leaves).eraseDups, ∀ members, o ≠ union members) ∧
      (args.flatMap leaves).eraseDups.Pairwise fun o o' => (o == o') = false) ∧
    (∀ before members after : List Value,
      (form .union).subscript (before ++ union members :: after) =
        (form .union).subscript (before ++ members ++ after)) ∧
    (∀ (frame : Frame) (locals : Scope) (value index : Expr) (base : Bindings)
        (args : List Bindings) (ds es : List Diagnostic),
      Gives (value.eval frame locals) base ds → base.values = [form .union] →
      Gives (index.evalArgs frame locals) args es →
      Gives ((Expr.subscript value index).eval frame locals)
        (.ofValue frame.point (union ((args.map (·.merged)).flatMap leaves).eraseDups))
        (ds ++ es)) ∧
    ∀ x : Value,
      (form .optional).subscript [x] = (form .union).subscript [x, cls Builtin.noneType.cls] ∧
      ∃ v, Gives ((form .optional).subscript [x]) v [] ∧
        Gives ((form .optional).subscript [v]) v [] := by
  have hunion : ∀ args : List Value,
      Gives ((form .union).subscript args) (.union (args.flatMap leaves).eraseDups) [] := by
    intro args
    rw [← unionOf_eq]
    exact .pure _
  refine ⟨fun args => ⟨hunion args, fun o ho => option_not_union ho, distinct_options args⟩,
    fun before members after => ?splice, fun frame locals value index base args ds es hbase hv
      hargs => ?expression, fun x => ⟨rfl, unionOf [x, cls Builtin.noneType.cls], .pure _, ?again⟩⟩
  case splice =>
    show pure (unionOf _) = pure (unionOf _)
    rw [unionOf_eq, unionOf_eq, flatMap_leaves_splice]
  case expression =>
    have h := Expr.eval_subscript_gives hbase hv hargs (hunion _)
    rwa [List.append_nil] at h
  case again =>
    have hagain : unionOf [unionOf [x, cls Builtin.noneType.cls], cls Builtin.noneType.cls] =
        unionOf [x, cls Builtin.noneType.cls] :=
      unionOf_unionOf_concat [x] nofun
    have h : Gives ((form .optional).subscript [unionOf [x, cls Builtin.noneType.cls]])
        (unionOf [unionOf [x, cls Builtin.noneType.cls], cls Builtin.noneType.cls]) [] := .pure _
    rwa [hagain] at h

/-- `Union[int, Optional[str], int]` among no globals. -/
theorem union_subscript_flat_of_optional :
    Gives ((Expr.subscript (.name "Union")
        (.tuple [.name "int", .subscript (.name "Optional") (.name "str"), .name "int"])).eval
        ⟨.root, ∅⟩ ∅)
      (.ofValue .root (.union [.cls Builtin.int.cls, .cls Builtin.str.cls,
        .cls Builtin.noneType.cls])) [] :=
  Value.union_subscript_flat.2.2.1 _ _ _ _ (.ofValue .root (.form .union))
    [.ofValue .root (.cls Builtin.int.cls),
      .ofValue .root (.union [.cls Builtin.str.cls, .cls Builtin.noneType.cls]),
      .ofValue .root (.cls Builtin.int.cls)] [] []
    (.of_unchanged fun _ => rfl) rfl (.of_unchanged fun _ => rfl)

end Subscript

end TypeHints
