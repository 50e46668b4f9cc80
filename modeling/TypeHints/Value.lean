import TypeHints.Distinct
import TypeHints.Ty

/-!
# Values

What an annotation expression evaluates to. The values an expression may have are grouped as
`Bindings`, each with the point of the program it was bound at; tuples hold bindings again.

Bindings grow by `Bindings.add`, which keeps one of several equal values, with the point it was
first bound at. Equality of values is `Value.same`.
-/

namespace TypeHints

/-- A point in the order in which the program runs. Points are counted without a bound; the walk
through a module goes on by one for each definition, and no module has the 2 ^ 32 - 1 definitions
after which 32 bits would not hold the next point. -/
structure Point where
  id : Nat
deriving DecidableEq, Repr, Inhabited

namespace Point

/-- The point a module starts at. -/
def root : Point := ⟨0⟩

def succ (p : Point) : Point := ⟨p.id + 1⟩

instance : LE Point := ⟨fun p q => p.id ≤ q.id⟩
instance (p q : Point) : Decidable (p ≤ q) := inferInstanceAs (Decidable (p.id ≤ q.id))

theorem le_refl (p : Point) : p ≤ p := Nat.le_refl _

theorem le_trans {p q r : Point} (h : p ≤ q) (h' : q ≤ r) : p ≤ r := Nat.le_trans h h'

theorem le_succ (p : Point) : p ≤ p.succ := Nat.le_succ _

end Point

/-- The typing forms that mean something only with a subscript. -/
inductive SpecialForm where
  | union
  | optional
deriving DecidableEq, Repr, Inhabited

mutual

/-- A value of the analysed program. -/
inductive Value where
  /-- A class object. -/
  | cls (c : Class)
  /-- A generic class under the name it is subscripted by, such as `List`. -/
  | container (c : Class)
  | form (f : SpecialForm)
  /-- The class `base` with arguments, each under its key. -/
  | generic (base : Class) (keys : ParamKeys) (params : List (String × Value))
  | union (options : List Value)
  | typeVar (v : TypeVar)
  /-- An object of the class `type`, with its constant if that is known. -/
  | object (type : Ty) (constant : Option Constant)
  | unknown (u : Unknown)

/-- A constant of the analysed program. -/
inductive Constant where
  | none
  | bool (b : Bool)
  | int (i : Int64)
  | str (s : String)
  | tuple (items : List Bindings)

/-- A value and the point it was bound at. -/
structure Binding where
  value : Value
  origin : Point

/-- The values an expression may have. -/
structure Bindings where
  toList : List Binding

end

namespace SpecialForm

def text : SpecialForm → String
  | union => "Union"
  | optional => "Optional"

end SpecialForm

namespace Value

instance : Inhabited Value := ⟨unknown .any⟩

/-- The constant `None`. -/
def null : Value := object (.cls Builtin.noneType.cls) (some .none)

def bool (b : Bool) : Value := object (.cls Builtin.bool.cls) (some (.bool b))

def int (i : Int64) : Value := object (.cls Builtin.int.cls) (some (.int i))

def str (s : String) : Value := object (.cls Builtin.str.cls) (some (.str s))

def tuple (items : List Bindings) : Value := object (.cls Builtin.tuple.cls) (some (.tuple items))

/-- Whether nothing more is known of the value. -/
def isUnknown : Value → Bool
  | unknown _ => true
  | _ => false

/-- The text of a string constant, whatever the class of the object. -/
def str? : Value → Option String
  | object _ (some (.str s)) => some s
  | _ => none

/-- The items of a tuple constant, whatever the class of the object. -/
def tuple? : Value → Option (List Bindings)
  | object _ (some (.tuple items)) => some items
  | _ => none

theorem eq_object_of_str? {v : Value} {s : String} (h : v.str? = some s) :
    ∃ t, v = object t (some (.str s)) := by
  unfold str? at h
  split at h
  · cases h
    exact ⟨_, rfl⟩
  · cases h

theorem eq_object_of_tuple? {v : Value} {items : List Bindings} (h : v.tuple? = some items) :
    ∃ t, v = object t (some (.tuple items)) := by
  unfold tuple? at h
  split at h
  · cases h
    exact ⟨_, rfl⟩
  · cases h

end Value

end TypeHints
