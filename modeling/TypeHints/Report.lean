import TypeHints.Diagnostic
import TypeHints.SortedMap

/-!
# Reports

What the analysis of a module found: the resolved annotations of its functions, the types of its
variables, the specialisations that were asked for, and the diagnostics. A report for people has one
line for every function, variable and specialisation, the annotations indented under it, then the
number of diagnostics and the diagnostics.
-/

namespace TypeHints

/-- The resolved annotations of a function, printed. -/
structure FunctionReport where
  name : String
  line : UInt32
  annotations : SortedMap String String
deriving DecidableEq

/-- The type of an assigned variable, printed. -/
structure VariableReport where
  name : String
  line : UInt32
  type : String
deriving DecidableEq, Repr

/-- The specialised annotations of a function, printed. -/
structure SpecializationReport where
  function : String
  annotations : SortedMap String String
deriving DecidableEq

/-- What the analysis of a module found, each part in the order of the definitions. -/
structure Report where
  status : String
  schemaVersion : String
  file : String
  functions : List FunctionReport
  vars : List VariableReport
  specializations : List SpecializationReport
  diagnostics : List Diagnostic
deriving DecidableEq

namespace Report

/-! ## Reports for people -/

/-- One line of text for each annotation, indented. -/
def annotationLines (annotations : SortedMap String String) : List String :=
  annotations.toList.map fun (name, t) => "    " ++ name ++ ": " ++ t

/-- The line that counts `n` diagnostics. -/
def countLine : (n : Nat) → String
  | 0 => "no diagnostics"
  | 1 => "1 diagnostic"
  | n => toString n ++ " diagnostics"

def lines (r : Report) : List String :=
  r.file ::
    (r.functions.flatMap fun f =>
      ("  def " ++ f.name ++ " (line " ++ toString f.line.toNat ++ ")") ::
        annotationLines f.annotations) ++
    (r.vars.map fun v =>
      "  " ++ v.name ++ " = " ++ v.type ++ " (line " ++ toString v.line.toNat ++ ")") ++
    (r.specializations.flatMap fun s =>
      ("  specialize " ++ s.function) :: annotationLines s.annotations) ++
    countLine r.diagnostics.length ::
    r.diagnostics.map (·.text)

/-- A report for people, every line ended. -/
def text (r : Report) : String := String.join (r.lines.map (· ++ "\n"))

end Report

end TypeHints
