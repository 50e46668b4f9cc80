import TypeHints.Ty.Text
import TypeHints.Value

/-!
# Printed values

Values that denote types print like types, constants as they are written in the analysed
language, and other objects by their class. Several possible values are joined by `or`.
-/

namespace TypeHints

mutual

/-- The printed form of a value. -/
def Value.text : Value → String
  | .cls c | .container c => c.name
  | .form f => f.text
  | .generic base _ params => bracketed base.name (Value.paramTexts params)
  | .union options => bracketed "Union" (Value.texts options)
  | .typeVar v => v.name
  | .object t constant => Constant.textOr ("<instance of " ++ t.text ++ ">") constant
  | .unknown u => u.text

/-- The printed form of a constant, or `other` where there is none. -/
def Constant.textOr (other : String) : Option Constant → String
  | none => other
  | some c => c.text

def Constant.text : Constant → String
  | .none => "None"
  | .bool true => "True"
  | .bool false => "False"
  | .int i => toString i.toInt
  | .str s => "'" ++ s ++ "'"
  | .tuple [item] => "(" ++ item.text ++ ",)"
  | .tuple items => "(" ++ ", ".intercalate (Bindings.texts items) ++ ")"

def Value.texts : List Value → List String
  | [] => []
  | v :: vs => v.text :: Value.texts vs

/-- The printed forms of arguments, without their keys. -/
def Value.paramTexts : List (String × Value) → List String
  | [] => []
  | (_, v) :: ps => v.text :: Value.paramTexts ps

/-- The printed form of a binding is that of its value. -/
def Binding.text : Binding → String
  | ⟨value, _⟩ => value.text

def Binding.texts : List Binding → List String
  | [] => []
  | b :: bs => b.text :: Binding.texts bs

/-- The printed form of the values an expression may have. -/
def Bindings.text : Bindings → String
  | ⟨[]⟩ => Unknown.nothing.text
  | ⟨b :: bs⟩ => " or ".intercalate (b.text :: Binding.texts bs)

def Bindings.texts : List Bindings → List String
  | [] => []
  | b :: bs => b.text :: Bindings.texts bs

end

example : (Value.tuple [⟨[⟨.str "a", .root⟩, ⟨.null, .root⟩]⟩]).text = "('a' or None,)" := by decide

end TypeHints
