import TypeHints.Function.Late
import TypeHints.Proofs.Resolution

/-!
# The queue of late annotations

Every late annotation is consumed once and in order (`Function.resolveLate_drains`): it sets the
type of its name or is reported once, at its own location. An argument list is refused with one
report, or settles each parameter it binds in the same way. Afterwards the queue is empty, so a
second pass does nothing.
-/

namespace TypeHints

/-! ## Functions that differ in their types -/

/-- `g` is `f` with the types of some of `names` set. -/
structure Function.Retyped (names : List String) (f g : Function) : Prop where
  late : g.signature.late = f.signature.late
  code : g = f.mapSignature fun _ => g.signature
  get?_eq : ∀ name ∉ names, g.signature.get? name = f.signature.get? name

namespace Function.Retyped

variable {names names' : List String} {f g h : Function}

protected theorem refl (names : List String) (f : Function) : Retyped names f f :=
  ⟨rfl, rfl, fun _ _ => rfl⟩

protected theorem trans (hfg : Retyped names f g) (hgh : Retyped names g h) :
    Retyped names f h where
  late := hgh.late.trans hfg.late
  code := by
    rw [hgh.code, hfg.code]
    rfl
  get?_eq name hname := (hgh.get?_eq name hname).trans (hfg.get?_eq name hname)

theorem mono (hsub : names ⊆ names') (hfg : Retyped names f g) : Retyped names' f g :=
  ⟨hfg.late, hfg.code, fun name hname => hfg.get?_eq name fun hmem => hname (hsub hmem)⟩

theorem set (f : Function) (name : String) (t : Ty) :
    Retyped [name] f (f.mapSignature (·.set name t)) where
  late := rfl
  code := rfl
  get?_eq other hother := SortedMap.get?_insert_of_ne _ _ (by simpa using hother)

theorem varnames (hfg : Retyped names f g) : g.varnames = f.varnames := by
  rw [hfg.code]
  rfl

theorem argCount (hfg : Retyped names f g) : g.argCount = f.argCount := by
  rw [hfg.code]
  rfl

end Function.Retyped

/-! ## One name -/

/-- What becomes of the annotation `v` of `name`, written at `location`: its type is set, or it
is reported there. -/
inductive Settled (frame : Frame) (location : Location) :
    Function → String × Value → Function → List Diagnostic → Prop
  | set {f : Function} {name : String} {v : Value} {t : Ty}
      (h : Gives (v.resolve ⟨name, location⟩ (some frame)) (.resolved t) []) :
      Settled frame location f (name, v) (f.mapSignature (·.set name t)) []
  | reported {f : Function} {name : String} {v : Value} {d : Diagnostic}
      (h : Gives (v.resolve ⟨name, location⟩ (some frame)) .failed [d])
      (kind : d.kind = .invalidHint) (place : d.location = location) :
      Settled frame location f (name, v) f [d]

theorem Settled.retyped {frame : Frame} {location : Location} {f g : Function}
    {pair : String × Value} {ds : List Diagnostic} (h : Settled frame location f pair g ds) :
    f.Retyped [pair.1] g := by
  cases h with
  | set => exact .set f _ _
  | reported => exact .refl _ f

theorem Function.resolveName_settles (f : Function) (frame : Frame) (location : Location)
    (name : String) (v : Value) :
    ∃ g ds, Gives (f.resolveName frame location name v) g ds ∧
      Settled frame location f (name, v) g ds := by
  unfold Function.resolveName
  rcases v.resolve_some_cases ⟨name, location⟩ frame with ⟨t, h⟩ | ⟨d, kind, place, h⟩
  · exact ⟨_, _, h.bind_silent (.pure _), .set h⟩
  · exact ⟨_, _, h.bind (.pure _), .reported h kind place⟩

/-! ## An argument list -/

theorem evalTextAsTuple_silent (frame : Frame) (text : String) :
    Silent (evalTextAsTuple frame text) := by
  unfold evalTextAsTuple
  split
  · exact .pure _
  · refine ((evalText_silent frame text).adapt _).bind fun b => ?_
    refine (Silent.liftExcept _).bind fun v => ?_
    split
    · exact .liftExcept _
    · exact .pure _

theorem Receivers.eq_cons_of_skipReceiver {receivers : Receivers} {names rest : List String}
    (h : receivers.skipReceiver names = some rest) :
    ∃ first, receivers.isReceiver first = true ∧ names = first :: rest := by
  cases names with
  | nil => cases h
  | cons first others =>
    rw [Receivers.skipReceiver] at h
    split at h
    · rename_i hfirst
      cases h
      exact ⟨first, hfirst, rfl⟩
    · cases h

/-- The parameters that are bound are all of them, or all after a receiver. -/
theorem Receivers.reconcile_cases {receivers : Receivers} {formals names : List String}
    {expected given : Nat} (h : receivers.reconcile formals expected given = .ok names) :
    expected = given ∧ names = formals.take expected ∨
      expected ≠ given ∧ expected - 1 = given ∧
        ∃ first, receivers.isReceiver first = true ∧ formals.take expected = first :: names := by
  simp only [Receivers.reconcile] at h
  split at h
  · rename_i heq
    exact .inl ⟨heq, (Except.ok.inj h).symm⟩
  · rename_i hne
    split at h
    · rename_i rest hrest
      split at h
      · rename_i hgiven
        obtain rfl := Except.ok.inj h
        exact .inr ⟨hne, hgiven, Receivers.eq_cons_of_skipReceiver hrest⟩
      · cases h
    · cases h

theorem Receivers.subset_of_reconcile {receivers : Receivers} {formals names : List String}
    {expected given : Nat} (h : receivers.reconcile formals expected given = .ok names) :
    names ⊆ formals.take expected := by
  obtain ⟨-, rfl⟩ | ⟨-, -, first, -, heq⟩ := Receivers.reconcile_cases h
  · exact List.Subset.refl _
  · rw [heq]
    exact List.subset_cons_self _ _

section Arguments

variable {receivers : Receivers} {f g : Function} {frame : Frame} {l : LateHint} {text : String}
  {args : List Value} {names : List String} {ds : List Diagnostic}

theorem Function.resolveArguments_of_mismatch {e : ArityMismatch}
    (htext : l.value.str? = some text)
    (hargs : Gives (evalTextAsTuple frame text).run (.ok args) [])
    (hnames : receivers.reconcile f.varnames f.argCount args.length = .error e) :
    Gives (f.resolveArguments receivers frame l).run (.error (.arity e)) [] := by
  unfold Function.resolveArguments
  rw [htext]
  refine hargs.bind_ok_silent ?_
  simp only [hnames]
  exact (Gives.liftExcept _).bind_error

theorem Function.resolveArguments_of_names (htext : l.value.str? = some text)
    (hargs : Gives (evalTextAsTuple frame text).run (.ok args) [])
    (hnames : receivers.reconcile f.varnames f.argCount args.length = .ok names)
    (hg : Gives ((names.zip args).foldlM
      (fun f (name, arg) => f.resolveName frame l.location name arg) f) g ds) :
    Gives (f.resolveArguments receivers frame l).run (.ok g) ds := by
  unfold Function.resolveArguments
  rw [htext]
  refine hargs.bind_ok_silent ?_
  simp only [hnames]
  exact (Gives.liftExcept _).bind_ok_silent hg.foldlM_lift

end Arguments

/-- An argument list is refused without a report, or settles the parameters it binds. -/
theorem Function.resolveArguments_cases (receivers : Receivers) (f : Function) (frame : Frame)
    (l : LateHint) :
    (∃ e, Gives (f.resolveArguments receivers frame l).run (.error e) []) ∨
    ∃ text args names g ds, l.value.str? = some text ∧
      Gives (evalTextAsTuple frame text).run (.ok args) [] ∧
      receivers.reconcile f.varnames f.argCount args.length = .ok names ∧
      Gives (f.resolveArguments receivers frame l).run (.ok g) ds ∧
      Steps (Settled frame l.location) f (names.zip args) g ds := by
  cases htext : l.value.str? with
  | none =>
    refine .inl ⟨.conversion (.notConstant .str l.value.text), ?_⟩
    unfold Function.resolveArguments
    rw [htext]
    exact .error _
  | some text =>
    obtain ⟨r, hr⟩ := evalTextAsTuple_silent frame text
    cases r with
    | error e =>
      refine .inl ⟨e, ?_⟩
      unfold Function.resolveArguments
      rw [htext]
      exact hr.bind_error
    | ok args =>
      cases hnames : receivers.reconcile f.varnames f.argCount args.length with
      | error e => exact .inl ⟨_, Function.resolveArguments_of_mismatch htext hr hnames⟩
      | ok names =>
        have hstep : ∀ (f : Function) (pair : String × Value), ∃ g ds,
            Gives (f.resolveName frame l.location pair.1 pair.2) g ds ∧
              Settled frame l.location f pair g ds :=
          fun f pair => f.resolveName_settles frame l.location pair.1 pair.2
        obtain ⟨g, ds, hg, hs⟩ := Steps.of_foldlM _ hstep (names.zip args) f
        exact .inr ⟨text, args, names, g, ds, rfl, hr, hnames,
          Function.resolveArguments_of_names htext hr hnames hg, hs⟩

/-! ## The queue -/

/-- What becomes of one late annotation of `f`. An argument list is refused with one report, or
it lists as many values as there are parameters to bind and settles them in order. -/
inductive Consumed (receivers : Receivers) (frame : Frame) :
    Function → LateHint → Function → List Diagnostic → Prop
  | single {f g : Function} {l : LateHint} {ds : List Diagnostic} (hl : l.isArguments = false)
      (h : Settled frame l.location f (l.name, l.value) g ds) : Consumed receivers frame f l g ds
  | refused {f : Function} {l : LateHint} {d : Diagnostic} (hl : l.isArguments = true)
      (kind : d.kind = .invalidFunctionTypeComment) (place : d.location = l.location) :
      Consumed receivers frame f l f [d]
  | listed {f g : Function} {l : LateHint} {ds : List Diagnostic} {text : String}
      {args : List Value} {names : List String} (hl : l.isArguments = true)
      (htext : l.value.str? = some text)
      (hargs : Gives (evalTextAsTuple frame text).run (.ok args) [])
      (hnames : receivers.reconcile f.varnames f.argCount args.length = .ok names)
      (h : Steps (Settled frame l.location) f (names.zip args) g ds) :
      Consumed receivers frame f l g ds

theorem Function.resolveNext_consumes (receivers : Receivers) (frame : Frame) (f : Function)
    (l : LateHint) :
    ∃ g ds, Gives (Function.resolveNext receivers frame f l) g ds ∧
      Consumed receivers frame f l g ds := by
  unfold Function.resolveNext
  split
  · rename_i hl
    obtain ⟨e, he⟩ | ⟨text, args, names, g, ds, htext, hargs, hnames, hg, hs⟩ :=
      f.resolveArguments_cases receivers frame l
    · exact ⟨_, _, he.bind_silent ((Gives.report _).bind (.pure _)), .refused hl rfl rfl⟩
    · refine ⟨g, ds, ?_, .listed hl htext hargs hnames hs⟩
      exact hg.bind_then_silent (.pure g)
  · rename_i hl
    obtain ⟨g, ds, h, hsettled⟩ := f.resolveName_settles frame l.location l.name l.value
    exact ⟨g, ds, h, .single (by simpa using hl) hsettled⟩

/-- The names whose types a late annotation of `f` may set. -/
def LateHint.targets (l : LateHint) (f : Function) : List String :=
  if l.isArguments then f.varnames.take f.argCount else [l.name]

theorem LateHint.targets_of_retyped {f g : Function} {names : List String}
    (h : f.Retyped names g) (l : LateHint) : l.targets g = l.targets f := by
  unfold LateHint.targets
  rw [h.varnames, h.argCount]

theorem Consumed.retyped {receivers : Receivers} {frame : Frame} {f g : Function} {l : LateHint}
    {ds : List Diagnostic} (h : Consumed receivers frame f l g ds) :
    f.Retyped (l.targets f) g := by
  unfold LateHint.targets
  cases h with
  | single hl h =>
    rw [hl]
    exact h.retyped
  | refused => exact .refl _ f
  | listed hl _ _ hnames h =>
    rw [hl]
    refine h.preserves (P := f.Retyped _) (fun hmem hset hf => hf.trans ?_) (.refl _ f)
    refine hset.retyped.mono ?_
    intro name hname
    obtain rfl := List.mem_singleton.1 hname
    exact Receivers.subset_of_reconcile hnames (List.of_mem_zip hmem).1

/-- Without late annotations there is nothing to do. -/
theorem Function.resolveLate_of_late_eq_nil (receivers : Receivers) (frame : Frame) {f : Function}
    (h : f.signature.late = []) : Gives (f.resolveLate receivers frame) f [] := by
  have hclear : f.mapSignature .clearLate = f := by
    unfold Function.mapSignature Signature.clearLate
    rw [← h]
  rw [Function.resolveLate, h, hclear]
  exact .pure f

/-- **The queue is drained.** Every late annotation is consumed once, in the order of the queue;
what it reports comes at the end of the log, at its own location. Names that no late annotation
is for keep their types, and a second pass changes nothing. -/
theorem Function.resolveLate_drains (receivers : Receivers) (frame : Frame) (f : Function)
    (log : Log) :
    ∃ g ds, (f.resolveLate receivers frame).run log = (g, log.append ds) ∧
      Steps (Consumed receivers frame) (f.mapSignature .clearLate) f.signature.late g ds ∧
      g.signature.late = [] ∧
      (∀ name, (∀ l ∈ f.signature.late, name ∉ l.targets f) →
        g.signature.get? name = f.signature.get? name) ∧
      (g.resolveLate receivers frame).run (log.append ds) = (g, log.append ds) := by
  obtain ⟨g, ds, hrun, hs⟩ := Steps.of_foldlM (Function.resolveNext receivers frame)
    (Function.resolveNext_consumes receivers frame) f.signature.late (f.mapSignature .clearLate)
  have hretyped : (f.mapSignature .clearLate).Retyped
      (f.signature.late.flatMap (·.targets f)) g := by
    refine hs.preserves (P := (f.mapSignature .clearLate).Retyped _) (fun hmem hl hf => ?_)
      (.refl _ _)
    refine hf.trans (hl.retyped.mono ?_)
    rw [LateHint.targets_of_retyped hf]
    exact fun name hname => List.mem_flatMap.2 ⟨_, hmem, hname⟩
  have hlate : g.signature.late = [] := hretyped.late
  refine ⟨g, ds, hrun log, hs, hlate, fun name hname => ?_, ?_⟩
  · refine hretyped.get?_eq name fun hmem => ?_
    obtain ⟨l, hl, hname'⟩ := List.mem_flatMap.1 hmem
    exact hname l hl hname'
  · rw [Function.resolveLate_of_late_eq_nil receivers frame hlate, Log.append_nil]

end TypeHints
