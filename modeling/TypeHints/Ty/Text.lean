import TypeHints.Ty

/-!
# Printed types

A class and a type variable print as their name, arguments and options in brackets after the
class or `Union`.
-/

namespace TypeHints

/-- `head[a, b, …]`. -/
def bracketed (head : String) (items : List String) : String :=
  head ++ "[" ++ ", ".intercalate items ++ "]"

namespace Ty

mutual

/-- The printed form of a type. -/
def text : Ty → String
  | cls c => c.name
  | typeVar v => v.name
  | generic base _ params => bracketed base.name (paramTexts params)
  | union options => bracketed "Union" (texts options)
  | unknown u => u.text

def texts : List Ty → List String
  | [] => []
  | t :: ts => t.text :: texts ts

/-- The printed forms of arguments, without their keys. -/
def paramTexts : List (String × Ty) → List String
  | [] => []
  | (_, t) :: ps => t.text :: paramTexts ps

end

theorem texts_eq_map (ts : List Ty) : texts ts = ts.map text := by
  induction ts with
  | nil => rfl
  | cons t ts ih => simp [texts, ih]

theorem paramTexts_eq_map (ps : List (String × Ty)) : paramTexts ps = ps.map (·.2.text) := by
  induction ps with
  | nil => rfl
  | cons p ps ih => simp [paramTexts, ih]

example :
    text (union [cls Builtin.int.cls, generic Builtin.list.cls .named [("T", unknown .any)]]) =
      "Union[int, list[Any]]" := by decide

end Ty

end TypeHints
