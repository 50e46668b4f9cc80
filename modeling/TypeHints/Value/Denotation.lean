import TypeHints.Value.Bindings

/-!
# From values to types and back

`Value.toTy?` is the type that a value denotes by its structure alone, without looking into
strings. `Ty.instantiate` goes the other way, from a type to the objects that have it, and
`Value.classOf` from an object to its class.
-/

namespace TypeHints

/-! ## The type a value denotes -/

mutual

/-- The type a value denotes. `None` denotes its class; other objects and the special forms
denote no type. -/
def Value.toTy? : Value → Option Ty
  | .cls c | .container c => some (.cls c)
  | .form _ => none
  | .generic base keys params => (Value.paramTys? params).map (.generic base keys)
  | .union options => (Value.tys? options).map .union
  | .typeVar v => some (.typeVar v)
  | .object t _ => if t.is .noneType then some (.cls Builtin.noneType.cls) else none
  | .unknown u => some (.unknown u)

/-- The types that all of several values denote. -/
def Value.tys? : List Value → Option (List Ty)
  | [] => some []
  | v :: vs => return (← v.toTy?) :: (← Value.tys? vs)

/-- The types that all of several arguments denote, under their keys. -/
def Value.paramTys? : List (String × Value) → Option (List (String × Ty))
  | [] => some []
  | (key, v) :: ps => return (key, ← v.toTy?) :: (← Value.paramTys? ps)

end

theorem Value.tys?_cons_eq_some_iff {v : Value} {vs : List Value} {us : List Ty} :
    Value.tys? (v :: vs) = some us ↔
      ∃ t ts, v.toTy? = some t ∧ Value.tys? vs = some ts ∧ us = t :: ts := by
  simp [Value.tys?, Option.bind_eq_some_iff, eq_comm (a := us)]

theorem Value.paramTys?_cons_eq_some_iff {key : String} {v : Value}
    {ps : List (String × Value)} {rs : List (String × Ty)} :
    Value.paramTys? ((key, v) :: ps) = some rs ↔
      ∃ t qs, v.toTy? = some t ∧ Value.paramTys? ps = some qs ∧ rs = (key, t) :: qs := by
  simp [Value.paramTys?, Option.bind_eq_some_iff, eq_comm (a := rs)]

/-! ## The objects of a type -/

mutual

/-- The objects of a type, bound at `p` and added to `b`: those of each option of a union, and
those of its bound for a type variable. -/
def Ty.instantiateInto (p : Point) : Ty → Bindings → Bindings
  | .cls c, b => b.add p (.object (.cls c) none)
  | .generic base keys params, b => b.add p (.object (.generic base keys params) none)
  | .union options, b => Ty.instantiateAll p options b
  | .typeVar v, b => b.extend (v.instantiate p)
  | .unknown u, b => b.add p (.unknown u)
termination_by structural t => t

/-- The objects of several types, bound at `p` and added to `b`. -/
def Ty.instantiateAll (p : Point) : List Ty → Bindings → Bindings
  | [], b => b
  | t :: ts, b => Ty.instantiateAll p ts (t.instantiateInto p b)
termination_by structural ts => ts

/-- The objects a type variable may stand for: those of its bound, or any value. -/
def TypeVar.instantiate (p : Point) : TypeVar → Bindings
  | ⟨_, bound⟩ => TypeVar.instantiateBound p bound
termination_by structural v => v

/-- The objects of a bound; any value when there is none. -/
def TypeVar.instantiateBound (p : Point) : Option Ty → Bindings
  | none => .ofValue p (.unknown .any)
  | some bound => bound.instantiateInto p ∅
termination_by structural b => b

end

/-- The objects of a type, bound at `p`. -/
def Ty.instantiate (t : Ty) (p : Point) : Bindings := t.instantiateInto p ∅

/-- The objects of the type a value denotes, bound at `p`. -/
def Value.instantiate (v : Value) (p : Point) : Option Bindings := v.toTy?.map (·.instantiate p)

/-! ## The class of a value -/

/-- The class of a value: that of an object, `type` for what denotes a type itself. -/
def Value.classOf : Value → Ty
  | .object t _ => t
  | .typeVar _ => .unknown .any
  | .unknown u => .unknown u
  | .cls _ | .container _ | .form _ | .generic .. | .union _ => .cls Builtin.type.cls

/-- The classes of several values as one type. -/
def Ty.ofClasses (vs : List Value) : Ty := .merge (vs.map (·.classOf))

end TypeHints
