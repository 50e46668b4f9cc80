import TypeHints.Function.Comment
import TypeHints.Function.Payload
import TypeHints.Module
import TypeHints.Report
import TypeHints.Substitution
import TypeHints.Ty.Text

/-!
# Analysing a module

The definitions of a module are carried out in order, one point of the program for each: type
variables, classes and assigned values are bound among the globals, and the annotations of
functions are collected. After the last definition the globals are final. Then the late
annotations of all functions are resolved, and the specialisations are worked out.

What is wrong with the analysed program is a diagnostic in the report. An error means that the
description of the module cannot be used.
-/

namespace TypeHints

/-! ## Errors -/

/-- Where in a module an expression stands. -/
inductive ExprContext where
  | hint (name function : String)
  | assignment (target : String)
  | specialization (function : String)
deriving DecidableEq, Repr

def ExprContext.text : ExprContext → String
  | hint name function => "annotation for '" ++ name ++ "' of '" ++ function ++ "'"
  | assignment target => "assignment to '" ++ target ++ "'"
  | specialization function => "specialization of '" ++ function ++ "'"

/-- Why a module cannot be analysed. -/
inductive ModuleError where
  | unknownFunction (name : String)
  | invalidExpression (context : ExprContext) (e : CompileError)
  | invalidBound (name : String) (e : TextError)
  | malformedAnnotations (function : String) (e : ConversionError)
deriving DecidableEq, Repr

def ModuleError.message : ModuleError → String
  | unknownFunction name => "unknown function '" ++ name ++ "'"
  | invalidExpression context e => "invalid expression in " ++ context.text ++ ": " ++ e.message
  | invalidBound name e => "invalid bound for type variable '" ++ name ++ "': " ++ e.message
  | malformedAnnotations function e =>
    "malformed annotations for '" ++ function ++ "': " ++ e.message

/-- Computations that analyse a module. -/
abbrev Analysing := ExceptT ModuleError Reporting

/-! ## Definitions -/

/-- The type that the bound of a type variable denotes. -/
def evalBound (frame : Frame) (text : String) : ExceptT TextError Reporting Ty := do
  let bindings ← (runText frame text).adapt fun e => .evaluation (.compile e)
  let v ← bindings.single.mapError TextError.conversion
  match v.toTy? with
  | some bound => return bound
  | none => throw (.notAType v.text)

def TypeVarDef.define (d : TypeVarDef) (frame : Frame) : Analysing TypeVar :=
  match d.bound with
  | none => return ⟨d.name, none⟩
  | some text => return ⟨d.name, some (← (evalBound frame text).adapt (.invalidBound d.name))⟩

/-- The type variable that a class lists under `name`: the one bound among the globals, or else
a new one. -/
def templateVar (globals : Scope) (name : String) : TypeVar :=
  match (globals.get? name).map Bindings.single with
  | some (.ok (.typeVar v)) => v
  | _ => ⟨name, none⟩

def ClassDef.define (d : ClassDef) (globals : Scope) : Class where
  name := d.name
  template := d.typeParams.map (templateVar globals)
  id := .declared d.name

/-- The function of a definition, without annotations. -/
def FunctionDef.bare (d : FunctionDef) (file : String) : Function where
  name := d.name
  file
  line := d.line
  positional := d.params.length
  keywordOnly := d.keywordOnly.length
  hasVarArgs := d.varArgs.isSome
  hasKeywordArgs := d.keywordArgs.isSome
  varnames := d.params ++ d.keywordOnly ++ d.varArgs.toList ++ d.keywordArgs.toList

/-- The values of the annotations of a function, with the tuple of their names at the end. -/
def FunctionDef.payload (d : FunctionDef) (frame : Frame) : Analysing (List Bindings) := do
  let values ← d.annotations.toList.mapM fun (name, text) =>
    (runText frame text).adapt (.invalidExpression (.hint name d.name))
  let names := d.annotations.toList.map fun (name, _) => Bindings.ofValue frame.point (.str name)
  return if values.isEmpty then [] else values ++ [.ofValue frame.point (.tuple names)]

/-- The function of a definition, with its annotations collected and its comment attached. -/
def FunctionDef.define (d : FunctionDef) (frame : Frame) (file : String) : Analysing Function := do
  let f := d.bare file
  let payload ← d.payload frame
  let collected ← (collectAnnotations frame.point payload f.location).adapt
    (.malformedAnnotations d.name)
  let f := f.mapSignature collected.addTo
  match d.typeComment with
  | some comment => f.attachComment comment f.location
  | none => return f

/-- The values of an assignment, its type comment applied. -/
def AssignDef.define (d : AssignDef) (frame : Frame) (comments : LineComments) (file : String) :
    Analysing Bindings := do
  let bindings ← (runText frame d.value).adapt (.invalidExpression (.assignment d.target))
  applyTypeComment frame comments file d.line bindings

/-! ## The walk through a module -/

/-- The state between two definitions. -/
structure Walk where
  point : Point := .root
  globals : Scope := ∅
  functions : List Function := []
  vars : List VariableReport := []
  /-- The specialisations that were asked for. -/
  requests : List SpecializeDef := []

namespace Walk

/-- Where the definition at hand is evaluated. -/
def frame (w : Walk) : Frame := ⟨w.point, w.globals⟩

/-- The walk with `name` bound. -/
def bind (w : Walk) (name : String) (b : Bindings) : Walk :=
  { w with globals := w.globals.insert name b }

/-- Go on to the next point. -/
def advance (w : Walk) : Walk := { w with point := w.point.succ }

/-- Carry out a definition at the point of the walk. -/
def define (m : Module) (w : Walk) : Definition → Analysing Walk
  | .typeVar d => return w.bind d.name (.ofValue w.point (.typeVar (← d.define w.frame)))
  | .cls d => return w.bind d.name (.ofValue w.point (.cls (d.define w.globals)))
  | .function d => return { w with functions := w.functions ++ [← d.define w.frame m.file] }
  | .assign d => do
    let b ← d.define w.frame m.lineComments m.file
    let found : VariableReport := ⟨d.target, d.line, (Ty.ofClasses b.values).text⟩
    return { w with vars := w.vars ++ [found] }.bind d.target b
  | .specialize d => return { w with requests := w.requests ++ [d] }

/-- Carry out the definitions of a module, and go on to the point after them. -/
def run (m : Module) : Analysing Walk :=
  advance <$> m.definitions.foldlM (fun w d => w.advance.define m d) {}

end Walk

/-! ## Specialisation -/

/-- What `v` says about the values at a call site, added to `b`: objects of the type that `v`
denotes, or else `v` itself. -/
def addCallValue (p : Point) (b : Bindings) (v : Value) : Bindings :=
  match v.instantiate p with
  | some objects => b.extend objects
  | none => b.add p v

/-- The values that a call site gives one type variable. -/
def SpecializeDef.valuesOf (d : SpecializeDef) (frame : Frame) (texts : List String) :
    Analysing Bindings :=
  texts.foldlM (fun b text => do
    let values ← (runText frame text).adapt (.invalidExpression (.specialization d.function))
    return values.values.foldl (addCallValue frame.point) b) ∅

/-- The map of a call site. -/
def SpecializeDef.substitution (d : SpecializeDef) (frame : Frame)
    (site : SortedMap String (List String)) : Analysing Substitution :=
  site.toList.foldlM (fun map (name, texts) => do
    return map.insert name (← d.valuesOf frame texts)) ∅

/-- Types in print. -/
def printed (annotations : SortedMap String Ty) : SortedMap String String :=
  annotations.map (·.text)

/-- The specialised annotations of the function defined last under its name. -/
def SpecializeDef.specialize (d : SpecializeDef) (frame : Frame) (functions : List Function) :
    Analysing SpecializationReport :=
  match functions.reverse.find? (·.name == d.function) with
  | none => throw (.unknownFunction d.function)
  | some f => do
    let maps ← d.maps.mapM (d.substitution frame)
    return ⟨d.function, printed (substituteAll f.signature.annotations frame.point maps)⟩

/-! ## Modules -/

/-- The annotations of a function in print. -/
def Function.report (f : Function) : FunctionReport :=
  ⟨f.name, f.line, printed f.signature.annotations⟩

/-- The version of the form that reports have. -/
def schemaVersion : String := "1"

/-- What is found in a module, without the diagnostics. -/
def findings (receivers : Receivers) (m : Module) : Analysing Report := do
  let w ← Walk.run m
  let functions ← w.functions.mapM fun f => f.resolveLate receivers w.frame
  let specializations ← w.requests.mapM (·.specialize w.frame functions)
  return {
    status := "ok"
    schemaVersion
    file := m.file
    functions := functions.map (·.report)
    vars := w.vars
    specializations
    diagnostics := [] }

def analyze (receivers : Receivers) (m : Module) : Except ModuleError Report :=
  match (findings receivers m).run.run ∅ with
  | (.ok r, log) => .ok { r with diagnostics := log.toList }
  | (.error e, _) => .error e

end TypeHints
