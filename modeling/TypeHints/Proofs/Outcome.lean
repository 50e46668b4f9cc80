import TypeHints.Proofs.Resolution

/-!
# What an annotation evaluates and reports

Resolving an annotation goes through its texts, and with a frame each of them is evaluated.
`Value.resolveWith` is resolution with the evaluation of texts left open; with `evalText` it is
`Value.resolve` (`Value.resolveWith_evalText`). Without a frame the evaluation is never asked:
whatever stands in its place, the annotation is resolved alike (`Value.resolveWith_none`).

However deep an annotation fails, and however many of its parts are bad, it is reported once
(`Value.resolve_reports_once`).
-/

namespace TypeHints

/-! ## Any evaluation of texts -/

/-- A way to evaluate texts. -/
abbrev TextEvaluation := Frame → String → ExceptT EvaluationError Reporting Bindings

section Evaluation

variable (evaluate : TextEvaluation)

/-- The one value that the text of the string `v` evaluates to. -/
def Site.valueOfText (site : Site) (frame : Frame) (v : Value) (text : String) :
    Resolving Value := do
  match ← (evaluate frame text).run with
  | .error e =>
    report (.invalidHint site.location v.text (some e.message) none)
    throw .failed
  | .ok bindings =>
    match bindings.single with
    | .ok value => return value
    | .error _ => site.reject v "Must be constant"

/-- The type of a string: put off without a frame, and with one that of the value of its text, if
`next` has levels left for it. -/
def Site.resolveText (site : Site) (frame? : Option Frame) (next : Option (Value → Resolving Ty))
    (v : Value) : Resolving Ty :=
  match v.str?, frame?, next with
  | none, _, _ => site.reject v "Must be constant"
  | some _, none, _ => throw .late
  | some _, some _, none => site.reject v "Too many nested string annotations"
  | some text, some frame, some next => site.valueOfText evaluate frame v text >>= next

/-- The type that an annotation denotes when texts are evaluated by `evaluate`, at most `levels`
of them inside one another. -/
def Value.resolveLevels (site : Site) (frame? : Option Frame) :
    (levels : Nat) → Value → Resolving Ty
  | 0 => Value.resolveBy (site.resolveText evaluate frame? none) site
  | levels + 1 => Value.resolveBy
      (site.resolveText evaluate frame? (some (Value.resolveLevels site frame? levels))) site

/-- Resolve an annotation with texts evaluated by `evaluate`. -/
def Value.resolveWith (v : Value) (site : Site) (frame? : Option Frame) : Reporting Outcome :=
  Outcome.ofResult <$> (v.resolveLevels evaluate site frame? maxTextNesting).run

end Evaluation

theorem Site.readText_bind (site : Site) (frame : Frame) (next : Value → Resolving Ty) :
    (fun v => site.readText frame v >>= next) =
      site.resolveText evalText (some frame) (some next) := by
  funext v
  unfold Site.readText Site.resolveText
  cases v.str? with
  | none => rfl
  | some text => rfl

/-- Without a frame strings are put off, whatever the evaluation and the levels left. -/
theorem Site.resolveText_none (evaluate : TextEvaluation) (site : Site)
    (next : Option (Value → Resolving Ty)) :
    site.resolveText evaluate none next = site.deferText := by
  funext v
  unfold Site.resolveText Site.deferText
  cases v.str? with
  | none => rfl
  | some text => rfl

theorem Value.resolveLevels_none (evaluate : TextEvaluation) (site : Site) (levels : Nat) :
    Value.resolveLevels evaluate site none levels = Value.resolveBy site.deferText site := by
  cases levels <;> rw [Value.resolveLevels, Site.resolveText_none]

theorem Value.resolveLevels_evalText (site : Site) (frame : Frame) (levels : Nat) :
    Value.resolveLevels evalText site (some frame) levels =
      fun v => Value.resolveIn frame site levels v := by
  induction levels with
  | zero =>
    funext v
    unfold Value.resolveLevels Value.resolveIn
    refine congrArg (fun onText => Value.resolveBy onText site v) ?_
    funext w
    unfold Site.resolveText
    cases w.str? <;> rfl
  | succ levels ih =>
    rw [Value.resolveLevels, ih, ← Site.readText_bind]
    rfl

/-- Resolution evaluates its texts with `evalText`. -/
theorem Value.resolveWith_evalText (v : Value) (site : Site) (frame? : Option Frame) :
    v.resolveWith evalText site frame? = v.resolve site frame? := by
  rw [Value.resolve_eq, Value.resolveWith]
  cases frame? with
  | none => rw [Value.resolveLevels_none, map_eq_pure_bind]
  | some frame => rw [Value.resolveLevels_evalText, map_eq_pure_bind]

/-- Without a frame no text is evaluated. -/
theorem Value.resolveWith_none (evaluate : TextEvaluation) (v : Value) (site : Site) :
    v.resolveWith evaluate site none = v.resolve site none := by
  rw [← Value.resolveWith_evalText, Value.resolveWith, Value.resolveWith,
    Value.resolveLevels_none, Value.resolveLevels_none]

/-! ## Reports -/

/-- What an outcome at `location` reports: nothing, unless the annotation failed, and then one
invalid annotation there. -/
def Outcome.Reports (location : Location) : Outcome → List Diagnostic → Prop
  | .resolved _, ds | .late, ds => ds = []
  | .failed, ds => ∃ d, ds = [d] ∧ d.kind = .invalidHint ∧ d.location = location

theorem Ends.reports {location : Location} {deferrable : Prop} {r : Except Unresolved Ty}
    {ds : List Diagnostic} (h : Ends location deferrable r ds) :
    (Outcome.ofResult r).Reports location ds := by
  cases h with
  | resolved | late => rfl
  | failed d kind place => exact ⟨d, rfl, kind, place⟩

theorem Ends.deferrable_of_late {location : Location} {deferrable : Prop}
    {r : Except Unresolved Ty} {ds : List Diagnostic} (h : Ends location deferrable r ds)
    (hr : Outcome.ofResult r = .late) : deferrable := by
  cases h with
  | late hd => exact hd
  | resolved | failed => cases hr

/-- **One failed annotation, one report.** Resolving an annotation only adds to the log, and it
adds the same to every log: nothing if the annotation is resolved or put off, and one invalid
annotation at its own place if it failed. With a frame it is never put off. Without one no text is
evaluated: the outcome is that of the same resolution with anything else in place of `evalText`. -/
theorem Value.resolve_reports_once (v : Value) (site : Site) (frame? : Option Frame) :
    (∃ outcome ds, (∀ log, (v.resolve site frame?).run log = (outcome, log.append ds)) ∧
      outcome.Reports site.location ds ∧ (frame? ≠ none → outcome ≠ .late)) ∧
    v.resolveWith evalText site frame? = v.resolve site frame? ∧
    ∀ evaluate, v.resolveWith evaluate site none = v.resolve site none := by
  obtain ⟨r, ds, hrun, hend⟩ := v.exists_resolve site frame?
  refine ⟨⟨.ofResult r, ds, hrun, hend.reports, fun hframe hlate => ?_⟩,
    v.resolveWith_evalText site frame?, fun evaluate => v.resolveWith_none evaluate site⟩
  exact hframe (hend.deferrable_of_late hlate)

end TypeHints
