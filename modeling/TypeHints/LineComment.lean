import TypeHints.Function.Late
import TypeHints.SortedMap
import TypeHints.Text

/-!
# Type comments on lines

A type comment on a line of code, `x = []  # type: List[int]`, gives what the line computes
another type. A comment that denotes no type is reported and changes nothing.
-/

namespace TypeHints

/-- A line with a type comment: its code, and the text of the comment. -/
structure LineComment where
  code : String
  comment : String
deriving DecidableEq, Repr

/-- The type comments of a file, by line. -/
structure LineComments where
  file : String
  lines : SortedMap UInt32 LineComment

namespace LineComments

def empty (file : String) : LineComments := ⟨file, ∅⟩

def insert (c : LineComments) (line : UInt32) (comment : LineComment) : LineComments :=
  { c with lines := c.lines.insert line comment }

/-- The comment at a place, if there is one and code that it applies to. -/
def commentAt? (c : LineComments) (file : String) (line : UInt32) : Option String :=
  if file = c.file then
    match c.lines.get? line with
    | some l => if l.code.toList.all Text.isBlank then none else some l.comment
    | none => none
  else none

end LineComments

/-- The objects of the type that a comment denotes. -/
def evalTypeComment (frame : Frame) (comment : String) :
    ExceptT TextError Reporting Bindings := do
  let bindings ← (evalText frame comment).adapt .evaluation
  let v ← bindings.single.mapError TextError.conversion
  match v.instantiate frame.point with
  | some objects => return objects
  | none => throw (.notAType v.text)

/-- What a line computes, `bindings` unless a type comment on it says otherwise. -/
def applyTypeComment (frame : Frame) (comments : LineComments) (file : String) (line : UInt32)
    (bindings : Bindings) : Reporting Bindings :=
  match comments.commentAt? file line with
  | none => return bindings
  | some comment => do
    match ← (evalTypeComment frame comment).run with
    | .ok objects => return objects
    | .error e =>
      report (.invalidTypeComment ⟨some file, line⟩ comment e.message)
      return bindings

end TypeHints
