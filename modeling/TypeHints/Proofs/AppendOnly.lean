import TypeHints.Proofs.LateQueue
import TypeHints.Proofs.Phases

/-!
# The analysis only adds to the log

Whatever a definition evaluates, collects or resolves, it gives one result and adds the same
diagnostics to every log (`Walk.define_appendOnly`), and so do the late annotations of a function
and a specialisation afterwards. The reports of a whole run can therefore be told apart by the
part of the analysis that makes them.
-/

namespace TypeHints

/-! ## Texts -/

theorem runText_appendOnly (frame : Frame) (text : String) :
    AppendOnly (runText frame text).run := by
  unfold runText
  split
  · exact .error _
  · exact (Expr.eval_appendOnly frame ∅ _).lift

theorem evalTypeComment_appendOnly (frame : Frame) (comment : String) :
    AppendOnly (evalTypeComment frame comment).run := by
  unfold evalTypeComment
  refine ((evalText_silent frame comment).adapt _).appendOnly.bindExcept fun b => ?_
  refine (AppendOnly.liftExcept _).bindExcept fun v => ?_
  split
  · exact .ok _
  · exact .error _

theorem applyTypeComment_appendOnly (frame : Frame) (comments : LineComments) (file : String)
    (line : UInt32) (b : Bindings) :
    AppendOnly (applyTypeComment frame comments file line b) := by
  unfold applyTypeComment
  split
  · exact .pure _
  · refine (evalTypeComment_appendOnly frame _).bind fun result => ?_
    split
    · exact .pure _
    · exact (AppendOnly.report _).bind fun _ => .pure _

theorem evalBound_appendOnly (frame : Frame) (text : String) :
    AppendOnly (evalBound frame text).run := by
  unfold evalBound
  refine ((runText_appendOnly frame text).adapt _).bindExcept fun b => ?_
  refine (AppendOnly.liftExcept _).bindExcept fun v => ?_
  split
  · exact .ok _
  · exact .error _

/-! ## Functions -/

theorem Value.resolve_none_appendOnly (v : Value) (site : Site) :
    AppendOnly (v.resolve site none) := by
  obtain ⟨r, ds, h, -⟩ := v.exists_resolve site none
  exact h.appendOnly

theorem Collected.add_appendOnly (p : Point) (location : Location) (c : Collected) (name : String)
    (hint : Bindings) : AppendOnly (c.add p location name hint) := by
  unfold Collected.add
  split
  · refine (Value.resolve_none_appendOnly _ _).bind fun outcome => ?_
    cases outcome <;> exact .pure _
  · exact (AppendOnly.report _).bind fun _ => .pure _

theorem collectAnnotations_appendOnly (p : Point) (payload : List Bindings)
    (location : Location) : AppendOnly (collectAnnotations p payload location).run := by
  unfold collectAnnotations
  split
  · exact .ok _
  · exact (AppendOnly.liftExcept _).bindExcept fun names =>
      .foldlMExcept (fun c pair => (c.add_appendOnly p location pair.1 pair.2).lift) _ _

/-- A type comment changes nothing but the signature. -/
theorem Function.exists_attachComment (f : Function) (comment : String) (location : Location) :
    ∃ change ds, Gives (f.attachComment comment location) (f.mapSignature change) ds := by
  cases h : Function.splitComment (Text.trimChars comment.toList) with
  | none =>
    simp only [Function.attachComment, h]
    exact ⟨id, _, (Gives.report _).bind (.pure f)⟩
  | some parts =>
    simp only [Function.attachComment, h]
    exact ⟨_, _, .pure _⟩

theorem FunctionDef.payload_appendOnly (d : FunctionDef) (frame : Frame) :
    AppendOnly (d.payload frame).run := by
  unfold FunctionDef.payload
  refine AppendOnly.bindExcept (AppendOnly.mapMExcept (fun entry => ?_) _) fun values => .ok _
  obtain ⟨name, text⟩ := entry
  exact (runText_appendOnly frame text).adapt _

theorem FunctionDef.define_appendOnly (d : FunctionDef) (frame : Frame) (file : String) :
    AppendOnly (d.define frame file).run := by
  unfold FunctionDef.define
  refine (d.payload_appendOnly frame).bindExcept fun payload => ?_
  refine ((collectAnnotations_appendOnly _ payload _).adapt _).bindExcept fun collected => ?_
  split
  · obtain ⟨change, ds, h⟩ := Function.exists_attachComment _ _ _
    exact h.appendOnly.lift
  · exact .ok _

/-- Resolving the late annotations of a function leaves its name. -/
theorem Function.exists_resolveLate (receivers : Receivers) (frame : Frame) (f : Function) :
    ∃ g ds, Gives (f.resolveLate receivers frame) g ds ∧ g.name = f.name := by
  obtain ⟨g, ds, h, hs⟩ := Steps.of_foldlM (Function.resolveNext receivers frame)
    (Function.resolveNext_consumes receivers frame) f.signature.late (f.mapSignature .clearLate)
  refine ⟨g, ds, h, hs.preserves (P := fun g => g.name = f.name) (fun _ hl hname => ?_) rfl⟩
  rw [hl.retyped.code]
  exact hname

/-! ## The walk -/

theorem Walk.define_appendOnly (m : Module) (w : Walk) (d : Definition) :
    AppendOnly (w.define m d).run := by
  cases d with
  | typeVar d =>
    refine AppendOnly.bindExcept ?_ fun v => .ok _
    unfold TypeVarDef.define
    split
    · exact .ok _
    · exact ((evalBound_appendOnly _ _).adapt _).bindExcept fun bound => .ok _
  | cls d => exact .ok _
  | function d => exact (d.define_appendOnly w.frame m.file).bindExcept fun f => .ok _
  | assign d =>
    refine AppendOnly.bindExcept ?_ fun b => .ok _
    unfold AssignDef.define
    exact ((runText_appendOnly _ _).adapt _).bindExcept fun b =>
      (applyTypeComment_appendOnly _ _ _ _ b).lift
  | specialize d => exact .ok _

theorem Walk.through_appendOnly (m : Module) (w : Walk) (ds : List Definition) :
    AppendOnly (w.through m ds).run :=
  .foldlMExcept (fun w d => w.advance.define_appendOnly m d) ds w

theorem SpecializeDef.substitution_appendOnly (d : SpecializeDef) (frame : Frame)
    (site : SortedMap String (List String)) : AppendOnly (d.substitution frame site).run := by
  have hvalues : ∀ texts, AppendOnly (d.valuesOf frame texts).run := by
    intro texts
    refine AppendOnly.foldlMExcept (fun b text => ?_) texts ∅
    exact ((runText_appendOnly frame text).adapt _).bindExcept fun _ => .ok _
  refine AppendOnly.foldlMExcept (fun map entry => ?_) site.toList ∅
  obtain ⟨name, texts⟩ := entry
  exact (hvalues texts).bindExcept fun _ => .ok _

theorem SpecializeDef.specialize_appendOnly (d : SpecializeDef) (frame : Frame)
    (functions : List Function) : AppendOnly (d.specialize frame functions).run := by
  unfold SpecializeDef.specialize
  split
  · exact .error _
  · exact (AppendOnly.mapMExcept (d.substitution_appendOnly frame) d.maps).bindExcept
      fun maps => .ok _

/-! ## The phases -/

theorem Walk.run_appendOnly (m : Module) : AppendOnly (Walk.run m).run := by
  obtain ⟨r, ds, h⟩ := Walk.through_appendOnly m {} m.definitions
  rw [Walk.run_eq_through, ExceptT.run_map]
  exact (h.map _).appendOnly

/-- Late annotations may be reported, but the analysis goes on. -/
theorem exists_resolveAll (receivers : Receivers) (frame : Frame) (functions : List Function) :
    ∃ resolved ds, Gives (resolveAll receivers frame functions).run (.ok resolved) ds := by
  refine Gives.exists_mapM_ok functions fun f _ => ?_
  obtain ⟨g, ds, h, -⟩ := f.exists_resolveLate receivers frame
  exact ⟨g, ds, h.lift⟩

theorem specializeAll_appendOnly (frame : Frame) (functions : List Function)
    (requests : List SpecializeDef) :
    AppendOnly (specializeAll frame functions requests).run :=
  .mapMExcept (fun d => d.specialize_appendOnly frame functions) requests

/-- The analysis starts with an empty log, so its report holds all that is reported. -/
theorem analyze_of_gives {receivers : Receivers} {m : Module} {r : Except ModuleError Report}
    {ds : List Diagnostic} (h : Gives (findings receivers m).run r ds) :
    analyze receivers m = r.map fun report => { report with diagnostics := ds } := by
  unfold analyze
  rw [h ∅]
  cases r with
  | error e => rfl
  | ok report =>
    show Except.ok { report with diagnostics := [] ++ ds } = _
    rw [List.nil_append]
    rfl

theorem findings_appendOnly (receivers : Receivers) (m : Module) :
    AppendOnly (findings receivers m).run := by
  refine (Walk.run_appendOnly m).bindExcept fun w => ?_
  obtain ⟨functions, ds, h⟩ := exists_resolveAll receivers w.frame w.functions
  refine h.appendOnly.bindExcept fun functions => ?_
  exact (specializeAll_appendOnly w.frame functions w.requests).bindExcept fun _ => .ok _

theorem exists_of_analyze_eq_ok {receivers : Receivers} {m : Module} {report : Report}
    (h : analyze receivers m = .ok report) :
    ∃ found ds, Gives (findings receivers m).run (.ok found) ds ∧
      report = { found with diagnostics := ds } := by
  obtain ⟨r, ds, hr⟩ := findings_appendOnly receivers m
  rw [analyze_of_gives hr] at h
  cases r with
  | error e => cases h
  | ok found => exact ⟨found, ds, hr, (Except.ok.inj h).symm⟩

/-- The walk through a module that can be analysed comes to its end. -/
theorem Walk.exists_run_of_analyze {receivers : Receivers} {m : Module} {report : Report}
    (h : analyze receivers m = .ok report) :
    ∃ w ds, Gives (Walk.run m).run (.ok w) ds := by
  obtain ⟨r, ds, hwalk⟩ := Walk.run_appendOnly m
  cases r with
  | error e =>
    rw [analyze_of_gives (hwalk.bind_error (k := Walk.conclude receivers m.file))] at h
    cases h
  | ok w => exact ⟨w, ds, hwalk⟩

end TypeHints
