import TypeHints.Function
import TypeHints.Resolution

/-!
# Resolving late annotations

Once the names of a module are final, every late annotation of a function is resolved or
reported. An argument list binds several parameters at once, and if it does not fit them, none.
-/

namespace TypeHints

/-- Why the text of a type comment gives no types. -/
inductive TextError where
  | evaluation (e : EvaluationError)
  | conversion (e : ConversionError)
  | notAType (found : String)
  | arity (e : ArityMismatch)
deriving DecidableEq, Repr

def TextError.message : TextError → String
  | evaluation e => e.message
  | conversion e => e.message
  | notAType found => "'" ++ found ++ "' is not a type"
  | arity e => e.message

/-- The values that a text lists: those of its tuple, or its only value. The empty text lists
none. -/
def evalTextAsTuple (frame : Frame) (text : String) :
    ExceptT TextError Reporting (List Value) := do
  if text.isEmpty then return []
  let bindings ← (evalText frame text).adapt .evaluation
  let v ← bindings.single.mapError TextError.conversion
  match v.tuple? with
  | some items => (items.mapM Bindings.single).mapError TextError.conversion
  | none => return [v]

namespace Function

/-- Resolve `v` for the name `name` and set its type, if it has one. -/
def resolveName (f : Function) (frame : Frame) (location : Location) (name : String) (v : Value) :
    Reporting Function := do
  match ← v.resolve ⟨name, location⟩ (some frame) with
  | .resolved t => return f.mapSignature (·.set name t)
  | .late | .failed => return f

/-- Resolve the argument list `l` for the parameters it binds. -/
def resolveArguments (receivers : Receivers) (f : Function) (frame : Frame) (l : LateHint) :
    ExceptT TextError Reporting Function :=
  match l.value.str? with
  | none => throw (.conversion (.notConstant .str l.value.text))
  | some text => do
    let args ← evalTextAsTuple frame text
    let names ← (receivers.reconcile f.varnames f.argCount args.length).mapError TextError.arity
    (names.zip args).foldlM (fun f (name, arg) => f.resolveName frame l.location name arg) f

/-- Resolve or report one late annotation. -/
def resolveNext (receivers : Receivers) (frame : Frame) (f : Function)
    (l : LateHint) : Reporting Function :=
  if l.isArguments then do
    match ← (f.resolveArguments receivers frame l).run with
    | .ok f => return f
    | .error e =>
      report (.invalidFunctionTypeComment l.location (l.value.str?.getD l.value.text)
        (some e.message))
      return f
  else f.resolveName frame l.location l.name l.value

/-- Resolve or report all late annotations. -/
def resolveLate (receivers : Receivers) (frame : Frame) (f : Function) : Reporting Function :=
  f.signature.late.foldlM (resolveNext receivers frame) (f.mapSignature .clearLate)

end Function

end TypeHints
