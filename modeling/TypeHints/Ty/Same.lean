import TypeHints.Distinct
import TypeHints.Ty

/-!
# Types that look the same

`Ty.same` compares types by names, arguments and options and leaves class identities out. The
shape of a type is the type with every identity forgotten; two types are the same when their
shapes are equal (`Ty.same_iff`), so sameness is an equivalence. Where types are merged, those
that are the same are kept once.
-/

namespace TypeHints

/-! ## Comparison -/

mutual

/-- Whether two classes have the same name and type variables. -/
def Class.same : Class → Class → Bool
  | ⟨n, t, _⟩, ⟨n', t', _⟩ => n == n' && TypeVar.sameAll t t'
termination_by structural c => c

/-- Whether two type variables have the same name and bound. -/
def TypeVar.same : TypeVar → TypeVar → Bool
  | ⟨n, b⟩, ⟨n', b'⟩ => n == n' && TypeVar.sameBound b b'
termination_by structural v => v

def TypeVar.sameBound : Option Ty → Option Ty → Bool
  | none, none => true
  | some b, some b' => b.same b'
  | _, _ => false
termination_by structural b => b

/-- Whether two lists of type variables are the same member by member. -/
def TypeVar.sameAll : List TypeVar → List TypeVar → Bool
  | [], [] => true
  | v :: vs, v' :: vs' => v.same v' && TypeVar.sameAll vs vs'
  | _, _ => false
termination_by structural vs => vs

/-- Whether two types look the same. -/
def Ty.same : Ty → Ty → Bool
  | .cls c, .cls c' => c.same c'
  | .typeVar v, .typeVar v' => v.same v'
  | .generic b k ps, .generic b' k' ps' => b.same b' && k == k' && Ty.sameParams ps ps'
  | .union os, .union os' => Ty.sameAll os os'
  | .unknown u, .unknown u' => u == u'
  | _, _ => false
termination_by structural t => t

/-- Whether two lists of types are the same member by member. -/
def Ty.sameAll : List Ty → List Ty → Bool
  | [], [] => true
  | t :: ts, t' :: ts' => t.same t' && Ty.sameAll ts ts'
  | _, _ => false
termination_by structural ts => ts

/-- Whether two lists of arguments are the same key by key. -/
def Ty.sameParams : List (String × Ty) → List (String × Ty) → Bool
  | [], [] => true
  | (n, t) :: ps, (n', t') :: ps' => n == n' && t.same t' && Ty.sameParams ps ps'
  | _, _ => false
termination_by structural ps => ps

end

instance : BEq Class := ⟨Class.same⟩
instance : BEq TypeVar := ⟨TypeVar.same⟩
instance : BEq Ty := ⟨Ty.same⟩

/-! ## Shapes -/

mutual

/-- A class without its identity. -/
def Class.shape : Class → Class
  | ⟨n, t, _⟩ => ⟨n, TypeVar.shapes t, .declared ""⟩

/-- A type variable without the identities in its bound. -/
def TypeVar.shape : TypeVar → TypeVar
  | ⟨n, b⟩ => ⟨n, TypeVar.boundShape b⟩

def TypeVar.boundShape : Option Ty → Option Ty
  | none => none
  | some b => some b.shape

def TypeVar.shapes : List TypeVar → List TypeVar
  | [] => []
  | v :: vs => v.shape :: TypeVar.shapes vs

/-- A type without class identities. -/
def Ty.shape : Ty → Ty
  | .cls c => .cls c.shape
  | .typeVar v => .typeVar v.shape
  | .generic b k ps => .generic b.shape k (Ty.paramShapes ps)
  | .union os => .union (Ty.shapes os)
  | .unknown u => .unknown u

def Ty.shapes : List Ty → List Ty
  | [] => []
  | t :: ts => t.shape :: Ty.shapes ts

def Ty.paramShapes : List (String × Ty) → List (String × Ty)
  | [] => []
  | (n, t) :: ps => (n, t.shape) :: Ty.paramShapes ps

end

mutual

theorem Class.same_iff : ∀ c d : Class, c.same d = true ↔ c.shape = d.shape
  | ⟨n, t, _⟩, ⟨n', t', _⟩ => by simp [Class.same, Class.shape, TypeVar.sameAll_iff t t']
termination_by structural c => c

theorem TypeVar.same_iff : ∀ v w : TypeVar, v.same w = true ↔ v.shape = w.shape
  | ⟨n, b⟩, ⟨n', b'⟩ => by simp [TypeVar.same, TypeVar.shape, TypeVar.sameBound_iff b b']
termination_by structural v => v

theorem TypeVar.sameBound_iff :
    ∀ b c, TypeVar.sameBound b c = true ↔ TypeVar.boundShape b = TypeVar.boundShape c
  | none, c => by cases c <;> simp [TypeVar.sameBound, TypeVar.boundShape]
  | some b, c => by cases c <;> simp [TypeVar.sameBound, TypeVar.boundShape, Ty.same_iff b]
termination_by structural b => b

theorem TypeVar.sameAll_iff :
    ∀ vs ws, TypeVar.sameAll vs ws = true ↔ TypeVar.shapes vs = TypeVar.shapes ws
  | [], ws => by cases ws <;> simp [TypeVar.sameAll, TypeVar.shapes]
  | v :: vs, ws => by
    cases ws <;> simp [TypeVar.sameAll, TypeVar.shapes, TypeVar.same_iff v, TypeVar.sameAll_iff vs]
termination_by structural vs => vs

theorem Ty.same_iff : ∀ t u : Ty, t.same u = true ↔ t.shape = u.shape
  | .cls c, u => by cases u <;> simp [Ty.same, Ty.shape, Class.same_iff c]
  | .typeVar v, u => by cases u <;> simp [Ty.same, Ty.shape, TypeVar.same_iff v]
  | .generic b k ps, u => by
    cases u <;> simp [Ty.same, Ty.shape, Class.same_iff b, Ty.sameParams_iff ps, and_assoc]
  | .union os, u => by cases u <;> simp [Ty.same, Ty.shape, Ty.sameAll_iff os]
  | .unknown a, u => by cases u <;> simp [Ty.same, Ty.shape]
termination_by structural t => t

theorem Ty.sameAll_iff : ∀ ts us, Ty.sameAll ts us = true ↔ Ty.shapes ts = Ty.shapes us
  | [], us => by cases us <;> simp [Ty.sameAll, Ty.shapes]
  | t :: ts, us => by
    cases us <;> simp [Ty.sameAll, Ty.shapes, Ty.same_iff t, Ty.sameAll_iff ts]
termination_by structural ts => ts

theorem Ty.sameParams_iff :
    ∀ ps qs, Ty.sameParams ps qs = true ↔ Ty.paramShapes ps = Ty.paramShapes qs
  | [], qs => by cases qs <;> simp [Ty.sameParams, Ty.paramShapes]
  | (n, t) :: ps, qs => by
    cases qs <;>
      simp [Ty.sameParams, Ty.paramShapes, Ty.same_iff t, Ty.sameParams_iff ps, and_assoc]
termination_by structural ps => ps

end

theorem Ty.shapes_eq_map (ts : List Ty) : Ty.shapes ts = ts.map Ty.shape := by
  induction ts with
  | nil => rfl
  | cons t ts ih => simp [Ty.shapes, ih]

/-! ## Sameness is an equivalence -/

theorem Class.beq_iff {c d : Class} : (c == d) = true ↔ c.shape = d.shape := Class.same_iff c d

theorem TypeVar.beq_iff {v w : TypeVar} : (v == w) = true ↔ v.shape = w.shape :=
  TypeVar.same_iff v w

theorem Ty.beq_iff {t u : Ty} : (t == u) = true ↔ t.shape = u.shape := Ty.same_iff t u

instance : EquivBEq Ty where
  rfl := Ty.beq_iff.2 rfl
  symm h := Ty.beq_iff.2 (Ty.beq_iff.1 h).symm
  trans h h' := Ty.beq_iff.2 ((Ty.beq_iff.1 h).trans (Ty.beq_iff.1 h'))

/-! ## Merging

Several types become one: `Any` absorbs the others, `nothing` disappears, the options of a union
stand in its place, and what is the same is kept once, where it came first.
-/

namespace Ty

def isAny : Ty → Bool
  | unknown .any => true
  | _ => false

/-- The alternatives a type contributes to a merge. -/
def alternatives : Ty → List Ty
  | unknown _ => []
  | union options => options
  | t => [t]

/-- The type of a list of alternatives. -/
def ofAlternatives : List Ty → Ty
  | [] => unknown .nothing
  | [t] => t
  | ts => union ts

/-- Several types as one. -/
def merge (ts : List Ty) : Ty :=
  if ts.any isAny then unknown .any
  else ofAlternatives (addAllNew (· == ·) [] (ts.flatMap alternatives))

theorem merge_of_any {ts : List Ty} (h : unknown .any ∈ ts) : merge ts = unknown .any := by
  have : ts.any isAny = true := List.any_eq_true.2 ⟨_, h, rfl⟩
  simp [merge, this]

example : merge [cls Builtin.int.cls, unknown .nothing, union [cls Builtin.str.cls,
    cls Builtin.int.cls]] = union [cls Builtin.int.cls, cls Builtin.str.cls] := by rfl

end Ty

end TypeHints
