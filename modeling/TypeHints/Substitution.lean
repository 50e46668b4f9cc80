import TypeHints.SortedMap
import TypeHints.Value.Denotation

/-!
# Substitution

Specialising a generic function replaces the type variables in its annotations. Every call site
gives a map from type variables to values; a variable that each map gives known values becomes
the classes of all of them, any other becomes its bound.
-/

namespace TypeHints

/-- The values that one call site gives type variables. -/
abbrev Substitution := SortedMap String Bindings

namespace Substitution

/-- The maps can be used: there are some and none is empty. -/
def usable (maps : List Substitution) : Bool := !maps.isEmpty && maps.all (!·.isEmpty)

/-- Whether a map gives the variable `name` values, all of them known. -/
def binds (name : String) (map : Substitution) : Bool :=
  match map.get? name with
  | some b => !b.isEmpty && !b.values.any (·.isUnknown)
  | none => false

/-- The values that all maps give the variable `name`. -/
def valuesOf (name : String) (maps : List Substitution) : List Value :=
  maps.flatMap fun map => ((map.get? name).map (·.values)).getD []

theorem mem_valuesOf {name : String} {maps : List Substitution} {v : Value} :
    v ∈ valuesOf name maps ↔ ∃ m ∈ maps, ∃ b, m.get? name = some b ∧ v ∈ b.values := by
  unfold valuesOf
  rw [List.mem_flatMap]
  refine exists_congr fun m => and_congr_right fun _ => ?_
  cases m.get? name <;> simp

/-- What a type variable becomes. -/
def applyVar (p : Point) (maps : List Substitution) (v : TypeVar) : Ty :=
  if maps.all (binds v.name) then .ofClasses (valuesOf v.name maps)
  else .ofClasses (v.instantiate p).values

mutual

/-- A type with its variables replaced. -/
def apply (p : Point) (maps : List Substitution) : Ty → Ty
  | .typeVar v => applyVar p maps v
  | .generic base keys params => .generic base keys (applyParams p maps params)
  | .union options => .union (applyAll p maps options)
  | .cls c => .cls c
  | .unknown u => .unknown u

def applyAll (p : Point) (maps : List Substitution) : List Ty → List Ty
  | [] => []
  | t :: ts => apply p maps t :: applyAll p maps ts

def applyParams (p : Point) (maps : List Substitution) : List (String × Ty) → List (String × Ty)
  | [] => []
  | (key, t) :: ps => (key, apply p maps t) :: applyParams p maps ps

end

end Substitution

/-- A type with its variables replaced, if the maps can be used. -/
def Ty.substitute (t : Ty) (p : Point) (maps : List Substitution) : Ty :=
  if Substitution.usable maps then Substitution.apply p maps t else t

/-- `Ty.substitute` for all types of a signature. -/
def substituteAll (annotations : SortedMap String Ty) (p : Point) (maps : List Substitution) :
    SortedMap String Ty :=
  annotations.map (·.substitute p maps)

end TypeHints
