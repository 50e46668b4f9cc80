import TypeHints.Proofs.Evaluation

/-!
# The sandbox of evaluation

A text may be run plainly, which leaves its reports in the log, or in the sandbox of `evalText`,
which takes them out again. The sandbox is a function of the plain run (`isolated`): it makes the
value, the compile error or the messages of the reports of it, and leaves every log as it found it
(`evalText_isolates`).
-/

namespace TypeHints

/-- What the sandbox makes of the result of a text and of the reports that came with it. -/
def isolated : Except CompileError Bindings → List Diagnostic → Except EvaluationError Bindings
  | .error e, _ => .error (.compile e)
  | .ok b, ds => sandboxed b ds

section Isolated

variable {r : Except CompileError Bindings} {ds : List Diagnostic}

theorem isolated_eq_ok_iff {b : Bindings} : isolated r ds = .ok b ↔ r = .ok b ∧ ds = [] := by
  cases r with
  | error e => simp [isolated]
  | ok c => cases ds <;> simp [isolated, sandboxed]

theorem isolated_eq_compile_iff {e : CompileError} :
    isolated r ds = .error (.compile e) ↔ r = .error e := by
  cases r with
  | error e' => simp [isolated]
  | ok c => cases ds <;> simp [isolated, sandboxed]

theorem isolated_eq_diagnostics_iff {messages : List String} :
    isolated r ds = .error (.diagnostics messages) ↔
      (∃ b, r = .ok b) ∧ ds ≠ [] ∧ messages = ds.map (·.message) := by
  cases r with
  | error e => simp [isolated]
  | ok c => cases ds <;> simp [isolated, sandboxed, eq_comm]

end Isolated

/-- Running a text and evaluating it in the sandbox, side by side. -/
theorem exists_runText_isolated (frame : Frame) (text : String) :
    ∃ r ds, Gives (runText frame text).run r ds ∧
      Gives (evalText frame text).run (isolated r ds) [] := by
  cases he : Expr.parse text with
  | error e => exact ⟨_, _, runText_of_parse_error he, evalText_of_parse_error he⟩
  | ok e =>
    obtain ⟨b, ds, hb⟩ := e.eval_appendOnly frame ∅
    exact ⟨_, ds, runText_of_parse he hb, evalText_of_eval he hb⟩

/-- The sandbox is a function of the plain run. -/
theorem evalText_of_run {frame : Frame} {text : String} {r : Except CompileError Bindings}
    {ds : List Diagnostic} (h : Gives (runText frame text).run r ds) :
    Gives (evalText frame text).run (isolated r ds) [] := by
  obtain ⟨r', ds', hrun, heval⟩ := exists_runText_isolated frame text
  obtain ⟨rfl, rfl⟩ := h.unique hrun
  exact heval

/-- **The sandbox isolates.** Running a text gives one result `r` and adds the same reports `ds`
to every log. Evaluating it in the sandbox leaves every log unchanged; it gives the value exactly
if the run does and reports nothing, the compile error exactly if the run does, and otherwise the
messages of `ds`, one on each line. -/
theorem evalText_isolates (frame : Frame) (text : String) :
    ∃ r ds, (∀ log, (runText frame text).run.run log = (r, log.append ds)) ∧
      ∀ log, ∃ result, (evalText frame text).run.run log = (result, log) ∧
        (∀ b, result = .ok b ↔ r = .ok b ∧ ds = []) ∧
        (∀ e, result = .error (.compile e) ↔ r = .error e) ∧
        (∀ messages, result = .error (.diagnostics messages) ↔
          (∃ b, r = .ok b) ∧ ds ≠ [] ∧ messages = ds.map (·.message)) ∧
        ∀ e, result = .error e → (∃ b, r = .ok b) →
          e.message = "\n".intercalate (ds.map (·.message)) := by
  obtain ⟨r, ds, hrun, heval⟩ := exists_runText_isolated frame text
  refine ⟨r, ds, hrun, fun log => ⟨isolated r ds, ?_, fun _ => isolated_eq_ok_iff,
    fun _ => isolated_eq_compile_iff, fun _ => isolated_eq_diagnostics_iff, ?_⟩⟩
  · rw [heval log, Log.append_nil]
  · rintro (e | messages) he ⟨b, hb⟩
    · rw [isolated_eq_compile_iff.1 he] at hb
      cases hb
    · obtain ⟨-, -, rfl⟩ := isolated_eq_diagnostics_iff.1 he
      rfl

end TypeHints
