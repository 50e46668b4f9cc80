import TypeHints.LineComment

/-!
# Modules

A module as the list of the definitions that running it carries out, and its type comments.
-/

namespace TypeHints

/-- A type variable, with the expression of its bound. -/
structure TypeVarDef where
  name : String
  bound : Option String := none
deriving DecidableEq, Repr

/-- A class, with the names of its type variables. -/
structure ClassDef where
  name : String
  typeParams : List String := []
deriving DecidableEq, Repr

/-- A function: its parameters, its annotations as expressions, and its type comment. -/
structure FunctionDef where
  name : String
  line : UInt32
  params : List String := []
  keywordOnly : List String := []
  varArgs : Option String := none
  keywordArgs : Option String := none
  annotations : SortedMap String String := ∅
  typeComment : Option String := none
deriving DecidableEq

/-- `target = value`. -/
structure AssignDef where
  target : String
  line : UInt32
  value : String
deriving DecidableEq, Repr

/-- A function to specialise: for every call site, expressions for type variables. -/
structure SpecializeDef where
  function : String
  maps : List (SortedMap String (List String)) := []
deriving DecidableEq

/-- A definition at the top of a module. -/
inductive Definition where
  | typeVar (d : TypeVarDef)
  | cls (d : ClassDef)
  | function (d : FunctionDef)
  | assign (d : AssignDef)
  | specialize (d : SpecializeDef)
deriving DecidableEq

structure Module where
  file : String
  /-- The text of the type comments, by line. -/
  typeComments : SortedMap UInt32 String := ∅
  /-- The definitions, in the order in which they run. -/
  definitions : List Definition := []
deriving DecidableEq

namespace Module

/-- The code of an assignment on a line. -/
def codeAt? (line : UInt32) : Definition → Option String
  | .assign d => if d.line = line then some (d.target ++ " = " ++ d.value) else none
  | _ => none

/-- The code on a line: the first assignment there, or nothing. -/
def codeAt (m : Module) (line : UInt32) : String := (m.definitions.findSome? (codeAt? line)).getD ""

/-- The type comments of a module, with the code they apply to. -/
def lineComments (m : Module) : LineComments where
  file := m.file
  lines := m.typeComments.mapWithKey fun line comment => ⟨m.codeAt line, comment⟩

end Module

end TypeHints
