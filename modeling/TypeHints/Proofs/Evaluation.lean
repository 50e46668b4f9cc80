import Mathlib.Data.List.Forall2
import TypeHints.Evaluation
import TypeHints.Proofs.Reporting

/-!
# What evaluation reports

Evaluating an expression is append-only (`Expr.eval_appendOnly`), so the sandbox of `evalText`
finds exactly what the text reported and leaves every log as it was (`evalText_silent`). Its
result is the compile error, the value, or the messages, each read off the plain evaluation.
-/

namespace TypeHints

/-! ## Expressions -/

theorem Frame.load_appendOnly (frame : Frame) (locals : Scope) (name : String) :
    AppendOnly (frame.load locals name) := by
  unfold Frame.load
  split
  · exact .pure _
  · split
    · exact .pure _
    · exact (AppendOnly.report _).bind fun _ => .pure _

theorem rejectSubscript_appendOnly (base details : String) :
    AppendOnly (rejectSubscript base details) :=
  (AppendOnly.report _).bind fun _ => .pure _

theorem Class.parameterize_appendOnly (c : Class) (args : List Value) :
    AppendOnly (c.parameterize args) := by
  unfold Class.parameterize
  split
  · exact .pure _
  · split
    · exact .pure _
    · exact rejectSubscript_appendOnly _ _

theorem Value.notSubscriptable_appendOnly (base : Value) :
    AppendOnly (Value.subscript.notSubscriptable base) :=
  (AppendOnly.report _).bind fun _ => .pure _

theorem Value.subscript_appendOnly (base : Value) (args : List Value) :
    AppendOnly (base.subscript args) := by
  unfold Value.subscript
  split
  · exact Class.parameterize_appendOnly _ _
  · exact .pure _
  · exact .pure _
  · exact rejectSubscript_appendOnly _ _
  · exact .pure _
  · split
    · exact Value.notSubscriptable_appendOnly _
    · exact Class.parameterize_appendOnly _ _
  all_goals exact Value.notSubscriptable_appendOnly _

section Expr

variable (frame : Frame) (locals : Scope)

/-- The arguments that an index stands for: the items of a tuple, or the index itself. -/
def Expr.evalArgs : Expr → Reporting (List Bindings)
  | .tuple items => Expr.evalAll frame locals items
  | index => do return [← index.eval frame locals]

theorem Expr.eval_subscript (value index : Expr) :
    (Expr.subscript value index).eval frame locals = do
      let base ← value.eval frame locals
      let args ← index.evalArgs frame locals
      let results ← base.values.mapM (·.subscript (args.map (·.merged)))
      return .ofValues frame.point results := by
  cases index <;> rfl

mutual

theorem Expr.eval_appendOnly : ∀ e : Expr, AppendOnly (e.eval frame locals)
  | .name n => frame.load_appendOnly locals n
  | .str _ | .int _ => .pure _
  | .tuple items => (Expr.evalAll_appendOnly items).bind fun _ => .pure _
  | .subscript value index => by
    have hargs : AppendOnly (index.evalArgs frame locals) := by
      unfold Expr.evalArgs
      split
      · exact Expr.evalAll_appendOnly _
      · exact (Expr.eval_appendOnly index).bind fun _ => .pure _
    rw [Expr.eval_subscript]
    refine (Expr.eval_appendOnly value).bind fun base => hargs.bind fun args => ?_
    exact (AppendOnly.mapM (fun v => v.subscript_appendOnly _) _).bind fun _ => .pure _

theorem Expr.evalAll_appendOnly : ∀ es : List Expr, AppendOnly (Expr.evalAll frame locals es)
  | [] => .pure _
  | e :: es => (Expr.eval_appendOnly e).bind fun _ => (Expr.evalAll_appendOnly es).bind fun _ =>
    .pure _

end

end Expr

/-- Expressions that evaluate silently one by one do so together. -/
theorem Expr.evalAll_gives {frame : Frame} {locals : Scope} {es : List Expr} {bs : List Bindings}
    (h : List.Forall₂ (fun e b => Gives (e.eval frame locals) b []) es bs) :
    Gives (Expr.evalAll frame locals es) bs [] := by
  induction h with
  | nil => exact .pure _
  | cons he _ ih => exact he.bind_silent (ih.bind_silent (.pure _))

/-! ## The sandbox -/

section Sandbox

variable {frame : Frame} {text : String} {e : Expr} {b : Bindings} {ds : List Diagnostic}

theorem runText_of_parse (he : Expr.parse text = .ok e) (hb : Gives (e.eval frame ∅) b ds) :
    Gives (runText frame text).run (.ok b) ds := by
  rw [runText, he]
  exact hb.lift

theorem runText_of_parse_error {err : CompileError} (he : Expr.parse text = .error err) :
    Gives (runText frame text).run (.error err) [] := by
  rw [runText, he]
  exact .error err

/-- What the sandbox makes of a value and of the reports that came with it. -/
def sandboxed (b : Bindings) : List Diagnostic → Except EvaluationError Bindings
  | [] => .ok b
  | reported => .error (.diagnostics (reported.map (·.message)))

/-- What the sandbox does once the text was run, if it was entered at `c`. -/
def leaveSandbox (c : Checkpoint) (b : Bindings) : ExceptT EvaluationError Reporting Bindings := do
  match (← get).since c with
  | [] => return b
  | reported =>
    modify (·.revertTo c)
    throw (.diagnostics (reported.map (·.message)))

theorem run_evalText (frame : Frame) (text : String) (log : Log) :
    (evalText frame text).run.run log =
      ((runText frame text).adapt .compile >>= leaveSandbox log.save).run.run log := rfl

theorem run_leaveSandbox (b : Bindings) (ds : List Diagnostic) (log : Log) :
    (leaveSandbox log.save b).run.run (log.append ds) = (sandboxed b ds, log) := by
  have hrun : (leaveSandbox log.save b).run.run (log.append ds) =
      (match (log.append ds).since log.save with
        | [] => return b
        | reported => do
          modify fun log' : Log => log'.revertTo log.save
          throw (.diagnostics (reported.map (·.message))) :
        ExceptT EvaluationError Reporting Bindings).run.run (log.append ds) := rfl
  rw [hrun, Log.since_append]
  cases ds with
  | nil =>
    rw [Log.append_nil]
    rfl
  | cons d ds => exact congrArg (Prod.mk _) (Log.revertTo_append log (d :: ds))

theorem evalText_of_parse_error {err : CompileError} (he : Expr.parse text = .error err) :
    Gives (evalText frame text).run (.error (.compile err)) [] := by
  intro log
  rw [run_evalText]
  exact ((runText_of_parse_error he).adapt EvaluationError.compile).bind_error log

theorem evalText_of_eval (he : Expr.parse text = .ok e) (hb : Gives (e.eval frame ∅) b ds) :
    Gives (evalText frame text).run (sandboxed b ds) [] := by
  intro log
  have hrun := (runText_of_parse he hb).adapt EvaluationError.compile log
  rw [run_evalText, run_bind_ok hrun, run_leaveSandbox, Log.append_nil]

/-- Whatever a text evaluates to, its reports are taken out of the log again. -/
theorem evalText_silent (frame : Frame) (text : String) : Silent (evalText frame text) := by
  cases he : Expr.parse text with
  | error err => exact ⟨_, evalText_of_parse_error he⟩
  | ok e =>
    obtain ⟨b, ds, hb⟩ := e.eval_appendOnly frame ∅
    exact ⟨_, evalText_of_eval he hb⟩

theorem evalText_ok_iff :
    Gives (evalText frame text).run (.ok b) [] ↔
      ∃ e, Expr.parse text = .ok e ∧ Gives (e.eval frame ∅) b [] := by
  constructor
  · intro h
    cases he : Expr.parse text with
    | error err => cases (h.unique (evalText_of_parse_error he)).1
    | ok e =>
      obtain ⟨b', ds, hb⟩ := e.eval_appendOnly frame ∅
      cases ds with
      | nil =>
        obtain rfl : b = b' := Except.ok.inj (h.unique (evalText_of_eval he hb)).1
        exact ⟨e, rfl, hb⟩
      | cons d ds => cases (h.unique (evalText_of_eval he hb)).1
  · rintro ⟨e, he, hb⟩
    exact evalText_of_eval he hb

end Sandbox

end TypeHints
