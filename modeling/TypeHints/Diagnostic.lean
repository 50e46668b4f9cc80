import TypeHints.Text

/-!
# Diagnostics

What is reported about the analysed program: where, of which kind, and in which words. Each kind
has one function that builds its diagnostic, which is the only place its wording is written.
-/

namespace TypeHints

/-- A line of a file, or of no file when the text that was run stands in none. -/
structure Location where
  file : Option String
  line : UInt32
deriving DecidableEq, Repr, Inhabited

namespace Location

/-- The place of text that stands in no file. -/
def synthetic : Location := ⟨none, 1⟩

/-- Whether the location names no file. -/
def isSynthetic (l : Location) : Bool := l.file.isNone

def text (l : Location) : String := l.file.getD "<synthetic>" ++ ":" ++ toString l.line.toNat

example : (Location.mk (some "a.py") 7).text = "a.py:7" ∧ synthetic.text = "<synthetic>:1" := by
  decide

end Location

/-- What a diagnostic is about. -/
inductive Diagnostic.Kind where
  | invalidHint
  | invalidTypeComment
  | invalidFunctionTypeComment
  | nameError
  | notSubscriptable
deriving DecidableEq, Repr, Inhabited

/-- A report about the analysed program. -/
structure Diagnostic where
  kind : Diagnostic.Kind
  location : Location
  message : String
  details : Option String := none
deriving DecidableEq, Repr, Inhabited

namespace Diagnostic

namespace Kind

def all : List Kind :=
  [invalidHint, invalidTypeComment, invalidFunctionTypeComment, nameError, notSubscriptable]

/-- The hyphenated name of a kind. -/
def name : Kind → String
  | invalidHint => "invalid-annotation"
  | invalidTypeComment => "invalid-type-comment"
  | invalidFunctionTypeComment => "invalid-function-type-comment"
  | nameError => "name-error"
  | notSubscriptable => "not-subscriptable"

def ofName? (s : String) : Option Kind := all.find? (·.name == s)

theorem ofName?_name (k : Kind) : ofName? k.name = some k := by cases k <;> decide

end Kind

/-- A diagnostic as it is printed: one line, and under it the details, indented. -/
def text (d : Diagnostic) : String :=
  let details := (d.details.map Text.lines).getD []
  d.location.text ++ ": " ++ d.message ++ " [" ++ d.kind.name ++ "]" ++
    String.join (details.map ("\n  " ++ ·))

/-! ## Wording -/

/-- The annotation `what`, written for `name` if that is known, denotes no type. -/
def invalidHint (location : Location) (what : String) (details : Option String)
    (name : Option String) : Diagnostic where
  kind := .invalidHint
  location
  message := "Invalid type annotation '" ++ what ++ "'" ++ (name.map (" for " ++ ·)).getD ""
  details

/-- The type comment on a line denotes no type. -/
def invalidTypeComment (location : Location) (comment : String) (details : String) :
    Diagnostic where
  kind := .invalidTypeComment
  location
  message := "Invalid type comment: " ++ comment
  details := details

/-- The type comment of a function does not fit it. -/
def invalidFunctionTypeComment (location : Location) (comment : String)
    (details : Option String) : Diagnostic where
  kind := .invalidFunctionTypeComment
  location
  message := "Invalid function type comment: " ++ comment
  details

/-- A name is bound nowhere. -/
def nameError (location : Location) (name : String) : Diagnostic where
  kind := .nameError
  location
  message := "Name '" ++ name ++ "' is not defined"

/-- A value takes no subscript. -/
def notSubscriptable (location : Location) (what : String) : Diagnostic where
  kind := .notSubscriptable
  location
  message := "'" ++ what ++ "' is not subscriptable"

end Diagnostic

end TypeHints
