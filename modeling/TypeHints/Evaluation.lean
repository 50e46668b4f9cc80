import TypeHints.Expr.Reader
import TypeHints.Log
import TypeHints.Scope

/-!
# Evaluating annotation expressions

Names are looked up in the locals, then the globals, then among the builtin names; one that is
bound nowhere is reported and could be anything. A subscript gives a generic class its arguments
and the special forms their options. Whatever is reported has the synthetic location, since an
expression does not know where it stands.

`runText` evaluates a text and leaves its reports in the log; `evalText` takes them out again and
makes them an error.
-/

namespace TypeHints

/-- Where a text is evaluated: at a point of the program, among the globals. -/
structure Frame where
  point : Point
  globals : Scope

/-! ## Names -/

/-- What a name stands for. -/
def Frame.load (frame : Frame) (locals : Scope) (name : String) : Reporting Bindings :=
  match locals.get? name <|> frame.globals.get? name with
  | some bindings => return bindings
  | none =>
    match Builtin.resolve name with
    | some v => return .ofValue frame.point v
    | none => do
      report (.nameError .synthetic name)
      return .ofValue frame.point (.unknown .any)

/-! ## Subscripts -/

mutual

/-- The alternatives of a value, unions taken apart at every depth, added to `options`. -/
def Value.flattenInto : Value → List Value → List Value
  | .union members, options => Value.flattenAll members options
  | v, options => addNew (· == ·) options v
termination_by structural v => v

/-- The alternatives of several values added to `options`. -/
def Value.flattenAll : List Value → List Value → List Value
  | [], options => options
  | v :: vs, options => Value.flattenAll vs (v.flattenInto options)
termination_by structural vs => vs

end

/-- The union of several values, its options distinct and none of them a union. -/
def Value.unionOf (vs : List Value) : Value := .union (Value.flattenAll vs [])

/-- The values of one expression as one value: a union of several. -/
def Bindings.merged (b : Bindings) : Value :=
  match b.values with
  | [] => .unknown .nothing
  | [v] => v
  | vs => .union vs

/-- Report an unusable subscript of `base`, which then could be anything. -/
def rejectSubscript (base : String) (details : String) : Reporting Value := do
  report (.invalidHint .synthetic base (some details) none)
  return .unknown .any

/-- The class `c` with arguments. A tuple takes any number of them, by position. -/
def Class.parameterize (c : Class) (args : List Value) : Reporting Value :=
  if c.is .tuple then
    return .generic c .positional (args.mapIdx fun i arg => (toString i, arg))
  else if args.length = c.template.length then
    return .generic c .named (c.templateNames.zip args)
  else
    rejectSubscript c.name ("Expected " ++ toString c.template.length ++ " parameter(s), got " ++
      toString args.length)

/-- The value `base[args]`. -/
def Value.subscript (base : Value) (args : List Value) : Reporting Value :=
  match base, args with
  | .container c, _ => c.parameterize args
  | .form .union, _ => return .unionOf args
  | .form .optional, [arg] => return .unionOf [arg, .cls Builtin.noneType.cls]
  | .form .optional, _ => rejectSubscript base.text "Optional takes exactly one parameter"
  | .unknown u, _ => return .unknown u
  | .cls c, _ => if c.template.isEmpty then notSubscriptable else c.parameterize args
  | .generic .., _ | .union _, _ | .typeVar _, _ | .object .., _ => notSubscriptable
where
  notSubscriptable : Reporting Value := do
    report (.notSubscriptable .synthetic base.text)
    return .unknown .any

/-! ## Expressions -/

mutual

/-- The values that an expression may have. -/
def Expr.eval (frame : Frame) (locals : Scope) : Expr → Reporting Bindings
  | .name n => frame.load locals n
  | .str s => return .ofValue frame.point (.str s)
  | .int i => return .ofValue frame.point (.int i)
  | .tuple items => return .ofValue frame.point (.tuple (← Expr.evalAll frame locals items))
  | .subscript value index => do
    let base ← value.eval frame locals
    let args ← match index with
      | .tuple items => Expr.evalAll frame locals items
      | index => do pure [← index.eval frame locals]
    let results ← base.values.mapM (·.subscript (args.map (·.merged)))
    return .ofValues frame.point results

/-- The values of several expressions, evaluated in order. -/
def Expr.evalAll (frame : Frame) (locals : Scope) : List Expr → Reporting (List Bindings)
  | [] => return []
  | e :: es => return (← e.eval frame locals) :: (← Expr.evalAll frame locals es)

end

/-! ## Texts -/

/-- Why a text did not evaluate: it is no expression, or evaluating it reported `messages`. -/
inductive EvaluationError where
  | compile (e : CompileError)
  | diagnostics (messages : List String)
deriving DecidableEq, Repr

def EvaluationError.message : EvaluationError → String
  | compile e => e.message
  | diagnostics messages => "\n".intercalate messages

/-- The values of a text without local names. Reports stay in the log. -/
def runText (frame : Frame) (text : String) : ExceptT CompileError Reporting Bindings :=
  match Expr.parse text with
  | .error e => throw e
  | .ok e => e.eval frame ∅

/-- The values of a text without local names, if evaluating it reports nothing. Reports are taken
out of the log again. -/
def evalText (frame : Frame) (text : String) : ExceptT EvaluationError Reporting Bindings := do
  let checkpoint := (← get).save
  let bindings ← (runText frame text).adapt .compile
  match (← get).since checkpoint with
  | [] => return bindings
  | reported =>
    modify (·.revertTo checkpoint)
    throw (.diagnostics (reported.map (·.message)))

end TypeHints
