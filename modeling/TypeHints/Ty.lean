/-!
# Types

What an annotation comes to: a class, a type variable, a class with arguments for its type
variables, a union, or a type that is not known further. Classes, type variables and types
refer to one another, since a class lists its type variables and a type variable has a bound.

A class object has an identity besides its name and type variables. Whether a class *is* one of
the builtin classes is a question about its identity (`Class.is`); two classes are compared by
what they look like (`Ty.same`).
-/

namespace TypeHints

inductive Builtin where
  | object | type | noneType | bool | int | float | str | bytes | tuple | list | dict | set
deriving DecidableEq, Repr, Inhabited

/-- Which class object a class is: a builtin one, or the one declared under a label. -/
inductive ClassId where
  | builtin (b : Builtin)
  | declared (label : String)
deriving DecidableEq, Repr, Inhabited

/-- A type that is not known further: it could be anything, or nothing has it. -/
inductive Unknown where
  | any
  | nothing
deriving DecidableEq, Repr, Inhabited

/-- How the arguments of a class are keyed: by its type variables, or by position. -/
inductive ParamKeys where
  | named
  | positional
deriving DecidableEq, Repr, Inhabited

mutual

/-- A class, with its type variables in the order of their declaration. -/
structure Class where
  name : String
  template : List TypeVar
  id : ClassId

structure TypeVar where
  name : String
  bound : Option Ty

/-- A resolved annotation. -/
inductive Ty where
  | cls (c : Class)
  | typeVar (v : TypeVar)
  /-- The class `base` with arguments, each under its key. -/
  | generic (base : Class) (keys : ParamKeys) (params : List (String × Ty))
  | union (options : List Ty)
  | unknown (u : Unknown)

end

namespace Unknown

def text : Unknown → String
  | any => "Any"
  | nothing => "nothing"

end Unknown

namespace Builtin

def all : List Builtin :=
  [object, type, noneType, bool, int, float, str, bytes, tuple, list, dict, set]

def name : Builtin → String
  | object => "object"
  | type => "type"
  | noneType => "NoneType"
  | bool => "bool"
  | int => "int"
  | float => "float"
  | str => "str"
  | bytes => "bytes"
  | tuple => "tuple"
  | list => "list"
  | dict => "dict"
  | set => "set"

def ofName? (s : String) : Option Builtin := all.find? (·.name == s)

/-- The names of the type variables of a builtin class. -/
def templateNames : Builtin → List String
  | tuple | list | set => ["T"]
  | dict => ["K", "V"]
  | _ => []

/-- The builtin class object. -/
def cls (b : Builtin) : Class where
  name := b.name
  template := b.templateNames.map (⟨·, none⟩)
  id := .builtin b

end Builtin

namespace Class

/-- Whether the class object is the builtin class `b`. -/
def is (c : Class) (b : Builtin) : Bool := c.id = .builtin b

def templateNames (c : Class) : List String := c.template.map (·.name)

end Class

namespace Ty

instance : Inhabited Ty := ⟨.unknown .any⟩

/-- Whether the type is exactly the builtin class `b`. -/
def is : Ty → Builtin → Bool
  | cls c, b => c.is b
  | _, _ => false

/-- Whether nothing more is known of the type. -/
def isUnknown : Ty → Bool
  | unknown _ => true
  | _ => false

/-- The argument under a key. -/
def param? : Ty → String → Option Ty
  | generic _ _ params, key => (params.find? (·.1 == key)).map (·.2)
  | _, _ => none

end Ty

end TypeHints
