import TypeHints.Proofs.ArgumentList

/-!
# Argument lists are bound as a whole

Whatever can refuse an argument list is checked before the first parameter is set, so a list that
is refused leaves the function and the log as they were. A list that is not refused has one
argument for each parameter it binds, and no other name is touched
(`Function.resolveArguments_all_or_nothing`).
-/

namespace TypeHints

/-! ## Setting types in place -/

namespace Function

/-- Resolve `v` for the name `name` of the function in the state. -/
def commitName (frame : Frame) (location : Location) (name : String) (v : Value) :
    StateT Function Reporting Unit := fun f => do
  return ((), ← f.resolveName frame location name v)

/-- Resolve the argument list `l` for the parameters of the function in the state. What was set
before a failure would stay set. -/
def commitArguments (receivers : Receivers) (frame : Frame) (l : LateHint) :
    ExceptT TextError (StateT Function Reporting) Unit :=
  match l.value.str? with
  | none => throw (.conversion (.notConstant .str l.value.text))
  | some text => do
    let args ← ExceptT.mk (liftM (evalTextAsTuple frame text).run)
    let f ← get
    let names ← (receivers.reconcile f.varnames f.argCount args.length).mapError TextError.arity
    (names.zip args).forM fun (name, arg) => liftM (commitName frame l.location name arg)

/-- What a caller of `f` is left with. -/
def outcome (f : Function) : Except TextError Function → Except TextError Unit × Function
  | .error e => (.error e, f)
  | .ok g => (.ok (), g)

section InPlace

variable {receivers : Receivers} {frame : Frame} {l : LateHint}

theorem commitAll_run (frame : Frame) (location : Location) (pairs : List (String × Value))
    (f : Function) :
    (pairs.forM fun (name, v) => liftM (commitName frame location name v) :
        ExceptT TextError (StateT Function Reporting) Unit).run.run f =
      (fun g => (.ok (), g)) <$>
        pairs.foldlM (fun f (name, v) => f.resolveName frame location name v) f := by
  induction pairs generalizing f with
  | nil => rfl
  | cons pair pairs ih =>
    rw [List.foldlM_cons, map_bind]
    exact bind_congr fun g => ih g

/-- If the parameters are known, setting them in place cannot fail. -/
theorem commitNames_run (frame : Frame) (location : Location)
    (names : Except ArityMismatch (List String)) (args : List Value) (f : Function) :
    (do
        let names ← names.mapError TextError.arity
        (names.zip args).forM fun (name, v) => liftM (commitName frame location name v) :
        ExceptT TextError (StateT Function Reporting) Unit).run.run f =
      f.outcome <$> (do
        let names ← names.mapError TextError.arity
        (names.zip args).foldlM (fun f (name, v) => f.resolveName frame location name v) f :
        ExceptT TextError Reporting Function).run := by
  cases names with
  | error e => rfl
  | ok names =>
    have hfold : ((names.zip args).foldlM (fun f (name, v) =>
        liftM (f.resolveName frame location name v)) f : ExceptT TextError Reporting _).run =
          Except.ok <$> (names.zip args).foldlM (fun f (name, v) =>
            f.resolveName frame location name v) f :=
      congrArg ExceptT.run (Gives.foldlM_liftM _ _ _)
    calc _ = (fun g => (.ok (), g)) <$> (names.zip args).foldlM (fun f (name, v) =>
            f.resolveName frame location name v) f := commitAll_run frame location _ f
      _ = f.outcome <$> Except.ok <$> (names.zip args).foldlM (fun f (name, v) =>
            f.resolveName frame location name v) f := (Functor.map_map _ _ _).symm
      _ = _ := congrArg (f.outcome <$> ·) hfold.symm

/-- What does not look at the function comes first. -/
theorem evalArguments_run {α : Type} (x : ExceptT TextError Reporting α)
    (k : α → ExceptT TextError (StateT Function Reporting) Unit) (f : Function) :
    (ExceptT.mk (liftM x.run) >>= k).run.run f = x.run >>= fun
      | .error e => pure (.error e, f)
      | .ok a => (k a).run.run f := by
  have hlift : (ExceptT.mk (liftM x.run) : ExceptT TextError (StateT Function Reporting) α).run.run
      f = (fun r => (r, f)) <$> x.run := rfl
  rw [ExceptT.run_bind, StateT.run_bind, hlift, bind_map_left]
  refine bind_congr fun r => ?_
  cases r <;> rfl

/-- Setting types in place leaves the function that `resolveArguments` gives or, if it fails, the
function of before. -/
theorem commitArguments_run (receivers : Receivers) (frame : Frame) (l : LateHint) (f : Function) :
    (commitArguments receivers frame l).run.run f =
      f.outcome <$> (f.resolveArguments receivers frame l).run := by
  unfold commitArguments resolveArguments
  cases l.value.str? with
  | none => rfl
  | some text =>
    dsimp only
    rw [evalArguments_run, ExceptT.run_bind, map_bind]
    refine bind_congr fun r => ?_
    cases r with
    | error e => rfl
    | ok args => exact commitNames_run frame l.location _ args f

end InPlace

end Function

/-! ## What is set -/

section Settled

variable {frame : Frame} {location : Location} {f g : Function} {pairs : List (String × Value)}
  {ds : List Diagnostic}

theorem Settled.steps_retyped (h : Steps (Settled frame location) f pairs g ds) :
    f.Retyped (pairs.map (·.1)) g := by
  refine h.preserves (P := f.Retyped _) (fun hmem hset hf => hf.trans ?_) (.refl _ f)
  refine hset.retyped.mono fun name hname => ?_
  obtain rfl := List.mem_singleton.1 hname
  exact List.mem_map_of_mem hmem

/-- A name that stands once has the type of its value, if that is resolved. -/
theorem Settled.steps_get? (h : Steps (Settled frame location) f pairs g ds)
    (hnodup : (pairs.map (·.1)).Nodup) {name : String} {v : Value} (hmem : (name, v) ∈ pairs) :
    (∃ t, Gives (v.resolve ⟨name, location⟩ (some frame)) (.resolved t) [] ∧
        g.signature.get? name = some t) ∨
      ∃ d, Gives (v.resolve ⟨name, location⟩ (some frame)) .failed [d] ∧
        g.signature.get? name = f.signature.get? name := by
  induction h with
  | nil => cases hmem
  | @cons f f' g pair pairs _ _ hfirst hrest ih =>
    obtain ⟨hnew, hnodup⟩ := List.nodup_cons.1 hnodup
    rcases List.mem_cons.1 hmem with rfl | hmem
    · -- the members behind the first leave its name alone
      have hkeep : g.signature.get? name = f'.signature.get? name :=
        (steps_retyped hrest).get?_eq name hnew
      cases hfirst with
      | set hv => exact .inl ⟨_, hv, hkeep.trans (SortedMap.get?_insert_self _ _ _)⟩
      | reported hv => exact .inr ⟨_, hv, hkeep⟩
    · have hne : name ∉ [pair.1] := by
        intro heq
        obtain rfl := List.mem_singleton.1 heq
        exact hnew (List.mem_map.2 ⟨_, hmem, rfl⟩)
      have hkeep : f'.signature.get? name = f.signature.get? name :=
        hfirst.retyped.get?_eq name hne
      rw [← hkeep]
      exact ih hnodup hmem

end Settled

/-- The parameters that are bound are as many as the arguments: all of them, or all after a
receiver. -/
theorem Receivers.bound_of_reconcile {receivers : Receivers} {formals names : List String}
    {expected given : Nat} (hcount : expected ≤ formals.length)
    (h : receivers.reconcile formals expected given = .ok names) :
    given = names.length ∧ (names = formals.take expected ∨
      given + 1 = expected ∧ ∃ first, receivers.isReceiver first = true ∧
        formals.take expected = first :: names) := by
  obtain ⟨rfl, rfl⟩ | ⟨-, hgiven, first, hfirst, htake⟩ := Receivers.reconcile_cases h
  · rw [List.length_take]
    exact ⟨by omega, .inl rfl⟩
  · have hlen := congrArg List.length htake
    rw [List.length_take, List.length_cons] at hlen
    exact ⟨by omega, .inr ⟨by omega, first, hfirst, htake⟩⟩

theorem Receivers.nodup_of_reconcile {receivers : Receivers} {formals names : List String}
    {expected given : Nat} (hnodup : (formals.take expected).Nodup)
    (h : receivers.reconcile formals expected given = .ok names) : names.Nodup := by
  obtain ⟨-, rfl⟩ | ⟨-, -, first, -, htake⟩ := Receivers.reconcile_cases h
  · exact hnodup
  · rw [htake] at hnodup
    exact (List.nodup_cons.1 hnodup).2

/-- **All or nothing.** Let the parameters of `f` have different names. Either the argument list
is refused, and then neither the log nor the function in the state has changed; or it lists as
many values as there are parameters to bind, all of them or all after a receiver, each of which
gets the type of its value or, if that has none, keeps its own. Other names keep their types. -/
theorem Function.resolveArguments_all_or_nothing (receivers : Receivers) {f : Function}
    (hcount : f.argCount ≤ f.varnames.length) (hnodup : (f.varnames.take f.argCount).Nodup)
    (frame : Frame) (l : LateHint) (log : Log) :
    (∃ e, (f.resolveArguments receivers frame l).run.run log = (.error e, log) ∧
      ((commitArguments receivers frame l).run.run f).run log = ((.error e, f), log)) ∨
    ∃ g log', (f.resolveArguments receivers frame l).run.run log = (.ok g, log') ∧
      ((commitArguments receivers frame l).run.run f).run log = ((.ok (), g), log') ∧
      ∃ text args names, l.value.str? = some text ∧
        Gives (evalTextAsTuple frame text).run (.ok args) [] ∧
        args.length = names.length ∧
        (names = f.varnames.take f.argCount ∨
          args.length + 1 = f.argCount ∧ ∃ first, receivers.isReceiver first = true ∧
            f.varnames.take f.argCount = first :: names) ∧
        (∀ (i : Nat) name v, names[i]? = some name → args[i]? = some v →
          (∃ t, Gives (v.resolve ⟨name, l.location⟩ (some frame)) (.resolved t) [] ∧
              g.signature.get? name = some t) ∨
            ∃ d, Gives (v.resolve ⟨name, l.location⟩ (some frame)) .failed [d] ∧
              g.signature.get? name = f.signature.get? name) ∧
        f.Retyped names g := by
  have hinplace : ((commitArguments receivers frame l).run.run f).run log = _ :=
    congrArg (StateT.run · log) (commitArguments_run receivers frame l f)
  rw [StateT.run_map] at hinplace
  obtain ⟨e, he⟩ | ⟨text, args, names, g, ds, htext, hargs, hnames, hg, hs⟩ :=
    f.resolveArguments_cases receivers frame l
  · have hrun := he log
    rw [Log.append_nil] at hrun
    rw [hrun] at hinplace
    exact .inl ⟨e, hrun, hinplace⟩
  · have hrun := hg log
    rw [hrun] at hinplace
    obtain ⟨hlen, hbound⟩ := Receivers.bound_of_reconcile hcount hnames
    -- the arguments are as many as the parameters, so pairing them up loses none
    have hkeys : (names.zip args).map (·.1) = names := List.map_fst_zip hlen.ge
    refine .inr ⟨g, _, hrun, hinplace, text, args, names, htext, hargs, hlen, hbound, ?_, ?_⟩
    · intro i name v hname hv
      have hnodup' : ((names.zip args).map (·.1)).Nodup := by
        rw [hkeys]
        exact Receivers.nodup_of_reconcile hnodup hnames
      have hmem : (name, v) ∈ names.zip args :=
        List.mem_of_getElem? (List.getElem?_zip_eq_some.2 ⟨hname, hv⟩)
      exact Settled.steps_get? hs hnodup' hmem
    · have hretyped := Settled.steps_retyped hs
      rwa [hkeys] at hretyped

/-- A method whose comment leaves out the receiver. -/
def Function.methodSample : Function :=
  ⟨"f", "m.py", 1, 2, 0, false, false, ["self", "x", "y"], ∅⟩

/-- The argument list `X` sets the parameter behind the receiver. -/
theorem resolveArguments_all_or_nothing_of_method :
    Function.methodSample.argCount ≤ Function.methodSample.varnames.length ∧
    (Function.methodSample.varnames.take Function.methodSample.argCount).Nodup ∧
    ∃ g, ((Function.commitArguments .standard (.binding (.cls Builtin.int.cls))
        (.ofText "X" argumentsName ⟨"m.py", 1⟩)).run.run Function.methodSample).run ∅ =
          ((.ok (), g), ∅) ∧
      g.signature.get? "x" = some (.cls Builtin.int.cls) ∧ g.signature.get? "self" = none ∧
      g.signature.get? "y" = none := by
  have hargs : Gives (evalTextAsTuple (.binding (.cls Builtin.int.cls)) "X").run
      (.ok [.cls Builtin.int.cls]) [] := evalTextAsTuple_of_value rfl (evaluatesTo_binding _) rfl
  have hnames : Receivers.standard.reconcile ["self", "x", "y"] 2 1 = .ok ["x"] := rfl
  have hrun := Function.resolveArguments_of_names (f := .methodSample)
    (l := .ofText "X" argumentsName ⟨"m.py", 1⟩) rfl hargs hnames
    (Gives.foldlM_singleton (Function.resolveName_of_resolves (.pure _))) ∅
  refine ⟨by decide, by decide, ?_⟩
  obtain ⟨e, he, -⟩ | ⟨g, log', hg, hcommit, -⟩ :=
    Function.resolveArguments_all_or_nothing .standard (f := .methodSample) (by decide) (by decide)
      (.binding (.cls Builtin.int.cls)) (.ofText "X" argumentsName ⟨"m.py", 1⟩) ∅
  · cases he.symm.trans hrun
  · cases hg.symm.trans hrun
    exact ⟨_, hcommit, rfl, rfl, rfl⟩

end TypeHints
