import TypeHints.Evaluation
import TypeHints.Value.Denotation

/-!
# Resolving one annotation

An annotation is resolved by its structure: classes denote themselves, arguments and options are
resolved in turn and the first that does not resolve decides. A string stands for what its text
evaluates to. Without a frame to evaluate it in, it is late and can be tried again; with one, the
text must come to a single value, which is resolved in turn. Strings inside strings are followed
`maxTextNesting` levels deep.
-/

namespace TypeHints

/-- How many strings may be evaluated inside one another. -/
def maxTextNesting : Nat := 16

/-- What became of an annotation. -/
inductive Outcome where
  | resolved (t : Ty)
  /-- It holds a string and there was no frame to evaluate it in. -/
  | late
  /-- It denotes no type, which has been reported. -/
  | failed

/-- Why an annotation, or a part of it, has no type. -/
inductive Unresolved where
  | late
  | failed
deriving DecidableEq, Repr

/-- Computations that resolve an annotation. -/
abbrev Resolving := ExceptT Unresolved Reporting

/-- The place an annotation is written at, and the parameter it is written for. -/
structure Site where
  name : String
  location : Location
deriving DecidableEq, Repr

namespace Site

/-- Report that `v` denotes no type. -/
def reject {α : Type} (site : Site) (v : Value) (details : String) : Resolving α := do
  report (.invalidHint site.location v.text (some details) (some site.name))
  throw .failed

end Site

/-! ## Structure -/

mutual

/-- The type that an annotation denotes, where `onText` resolves the objects of class `str`. -/
def Value.resolveBy (onText : Value → Resolving Ty) (site : Site) : Value → Resolving Ty
  | .cls c | .container c => return .cls c
  | .form .union => site.reject (.form .union) "Needs options"
  | .form .optional => site.reject (.form .optional) "Not a type"
  | .generic base keys params =>
    return .generic base keys (← Value.resolveParamsBy onText site params)
  | .union options => return .union (← Value.resolveAllBy onText site options)
  | .typeVar v => return .typeVar v
  | .unknown u => return .unknown u
  | .object t constant =>
    if t.is .str then onText (.object t constant)
    else if t.is .noneType then return .cls Builtin.noneType.cls
    else site.reject (.object t constant) "Not a type"

/-- The types that several options denote. -/
def Value.resolveAllBy (onText : Value → Resolving Ty) (site : Site) :
    List Value → Resolving (List Ty)
  | [] => return []
  | v :: vs => return (← v.resolveBy onText site) :: (← Value.resolveAllBy onText site vs)

/-- The types that several arguments denote, under their keys. -/
def Value.resolveParamsBy (onText : Value → Resolving Ty) (site : Site) :
    List (String × Value) → Resolving (List (String × Ty))
  | [] => return []
  | (key, v) :: ps =>
    return (key, ← v.resolveBy onText site) :: (← Value.resolveParamsBy onText site ps)

end

/-! ## Strings -/

/-- Strings where there is no frame: late if their text is known. -/
def Site.deferText (site : Site) (v : Value) : Resolving Ty :=
  match v.str? with
  | some _ => throw .late
  | none => site.reject v "Must be constant"

/-- The one value that a string stands for. -/
def Site.readText (site : Site) (frame : Frame) (v : Value) : Resolving Value :=
  match v.str? with
  | none => site.reject v "Must be constant"
  | some text => do
    match ← (evalText frame text).run with
    | .error e =>
      report (.invalidHint site.location v.text (some e.message) none)
      throw .failed
    | .ok bindings =>
      match bindings.single with
      | .ok value => return value
      | .error _ => site.reject v "Must be constant"

/-- The type that an annotation denotes when texts are evaluated in `frame`, at most `levels` of
them inside one another. -/
def Value.resolveIn (frame : Frame) (site : Site) : (levels : Nat) → Value → Resolving Ty
  | 0 => Value.resolveBy (fun v =>
      match v.str? with
      | some _ => site.reject v "Too many nested string annotations"
      | none => site.reject v "Must be constant") site
  | levels + 1 => Value.resolveBy (fun v => do
      (← site.readText frame v).resolveIn frame site levels) site

/-- Resolve an annotation, in a frame if its strings are to be evaluated. -/
def Value.resolve (v : Value) (site : Site) (frame? : Option Frame) : Reporting Outcome := do
  let result ← match frame? with
    | none => (v.resolveBy site.deferText site).run
    | some frame => (v.resolveIn frame site maxTextNesting).run
  match result with
  | .ok t => return .resolved t
  | .error .late => return .late
  | .error .failed => return .failed

end TypeHints
