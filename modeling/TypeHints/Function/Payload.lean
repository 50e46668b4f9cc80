import TypeHints.Resolution
import TypeHints.Signature

/-!
# The annotations written in a definition

When a function is defined, its annotations come as a list of values with the tuple of their
names at its end, `[int, str, ("i", "return")]`. They are resolved without a frame, since the
names of the module may still change: strings become late annotations.
-/

namespace TypeHints

/-- The annotations of a definition, as far as they could be resolved. -/
structure Collected where
  annotations : SortedMap String Ty := ∅
  late : List LateHint := []

namespace Collected

def isEmpty (c : Collected) : Bool := c.annotations.isEmpty && c.late.isEmpty

/-- One more resolved annotation. -/
def set (c : Collected) (name : String) (t : Ty) : Collected :=
  { c with annotations := c.annotations.insert name t }

/-- One more late annotation. -/
def defer (c : Collected) (l : LateHint) : Collected := { c with late := c.late ++ [l] }

/-- A signature with the collected annotations added to it. -/
def addTo (c : Collected) (s : Signature) : Signature :=
  c.late.foldl .addLate (c.annotations.toList.foldl (fun s (name, t) => s.set name t) s)

end Collected

/-- The one string in an item of a names tuple. -/
def annotationName (item : Bindings) : Except ConversionError String := do
  let v ← item.single
  match v.str? with
  | some name => return name
  | none => throw (.notConstant .str v.text)

/-- The names in the tuple at the end of a payload. -/
def annotationNames (names : Bindings) : Except ConversionError (List String) := do
  let v ← names.single
  match v.tuple? with
  | some items => items.mapM annotationName
  | none => throw (.notConstant .tuple v.text)

/-- The value of an annotation that does not have exactly one, as it is reported. -/
def mergedVisible : List Value → Value
  | [] => .unknown .nothing
  | vs => .union vs

/-- Resolve one annotation of a payload and add it to what has been collected. -/
def Collected.add (p : Point) (location : Location) (c : Collected) (name : String)
    (hint : Bindings) : Reporting Collected :=
  match hint.visible p with
  | [v] => do
    match ← v.resolve ⟨name, location⟩ none with
    | .resolved t => return c.set name t
    | .late => return c.defer ⟨v, name, location⟩
    | .failed => return c
  | vs => do
    report (.invalidHint location (mergedVisible vs).text (some "Must be constant")
      (some name))
    return c

/-- The annotations in a payload. -/
def collectAnnotations (p : Point) (payload : List Bindings) (location : Location) :
    ExceptT ConversionError Reporting Collected :=
  match payload.getLast? with
  | none => return {}
  | some last => do
    let names ← annotationNames last
    (names.zip payload.dropLast).foldlM (fun c (name, b) => c.add p location name b) {}

end TypeHints
