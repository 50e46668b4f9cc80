import TypeHints.Proofs.Reached
import TypeHints.Proofs.Sources

/-!
# What is bound is visible

Every binding carries the point it was made at, and only those made by a point are visible there.
The walk through a module never uses a binding before its point: what the globals hold was bound
by the point of the walk, and so was every value of an expression (`Expr.eval_boundBy`,
`Walk.Reached.boundBy`). So the check for visible values, when annotations are collected, only
looks at their number (`Walk.Reached.hides_nothing`).
-/

namespace TypeHints

/-- All values were bound at `p` or before it. -/
def Bindings.BoundBy (b : Bindings) (p : Point) : Prop := ∀ x ∈ b.toList, x.origin ≤ p

/-- All names of the scope stand for values that were bound at `p` or before it. -/
def Scope.BoundBy (scope : Scope) (p : Point) : Prop :=
  SortedMap.All (fun b : Bindings => b.BoundBy p) scope

/-! ## Bindings -/

namespace Bindings

variable {b c : Bindings} {p q : Point}

/-- What was bound by `p` is visible at `p`. -/
theorem BoundBy.visible_eq (h : b.BoundBy p) : b.visible p = b.values := by
  have hall : b.toList.filter (·.origin ≤ p) = b.toList :=
    List.filter_eq_self.2 fun x hx => decide_eq_true (h x hx)
  rw [visible, values, hall]

theorem BoundBy.mono (h : b.BoundBy p) (hpq : p ≤ q) : b.BoundBy q :=
  fun x hx => Point.le_trans (h x hx) hpq

theorem boundBy_empty (p : Point) : (∅ : Bindings).BoundBy p :=
  fun _ hx => absurd hx List.not_mem_nil

theorem boundBy_ofValue (p : Point) (v : Value) : (Bindings.ofValue p v).BoundBy p := by
  intro x hx
  obtain rfl := List.mem_singleton.1 hx
  exact Point.le_refl p

theorem BoundBy.add (h : b.BoundBy p) (v : Value) : (b.add p v).BoundBy p := by
  intro x (hx : x ∈ addNew (fun x y => x.value == y.value) b.toList ⟨v, p⟩)
  rcases mem_or_eq_of_mem_addNew _ hx with hx | rfl
  · exact h x hx
  · exact Point.le_refl p

theorem BoundBy.extend (h : b.BoundBy p) (h' : c.BoundBy p) : (b.extend c).BoundBy p := by
  intro x (hx : x ∈ addAllNew _ b.toList c.toList)
  rcases mem_or_mem_of_mem_addAllNew _ hx with hx | hx
  · exact h x hx
  · exact h' x hx

theorem boundBy_ofValues (p : Point) (vs : List Value) : (Bindings.ofValues p vs).BoundBy p :=
  List.foldlRecOn (motive := fun b : Bindings => b.BoundBy p) vs _ (boundBy_empty p)
    fun _ hb v _ => hb.add v

end Bindings

/-! ## Objects of types -/

theorem Ty.boundBy_instantiate (p : Point) (t : Ty) : (t.instantiate p).BoundBy p := by
  have hkept : KeptByObjects p (fun b => b.BoundBy p) fun _ => True :=
    { empty := Bindings.boundBy_empty p
      extend := fun hb hc => hb.extend hc
      cls := fun _ hb => hb.add _
      generic := fun _ hb => hb.add _
      unknown := fun _ hb => hb.add _
      options := fun _ _ _ => True.intro
      bound := fun _ => True.intro }
  exact hkept.instantiate True.intro

/-! ## Evaluation -/

section Frame

variable {frame : Frame} (hglobals : Scope.BoundBy frame.globals frame.point)

include hglobals

/-- A name keeps the points of its bindings; every other expression binds its values anew. -/
theorem Expr.eval_boundBy {locals : Scope} (hlocals : locals.BoundBy frame.point) (e : Expr) :
    Yields (fun b : Bindings => b.BoundBy frame.point) (e.eval frame locals) := by
  cases e with
  | name n =>
    show Yields _ (frame.load locals n)
    unfold Frame.load
    split
    · rename_i b hb
      rw [Option.orElse_eq_orElse, Option.orElse_eq_or, Option.or_eq_some_iff] at hb
      rcases hb with h | ⟨-, h⟩
      · exact .pure (hlocals n b h)
      · exact .pure (hglobals n b h)
    · split
      · exact .pure (Bindings.boundBy_ofValue _ _)
      · exact (Yields.trivial _).bind fun _ _ => .pure (Bindings.boundBy_ofValue _ _)
  | str s => exact .pure (Bindings.boundBy_ofValue _ _)
  | int i => exact .pure (Bindings.boundBy_ofValue _ _)
  | tuple items =>
    exact (Yields.trivial _).bind fun _ _ => .pure (Bindings.boundBy_ofValue _ _)
  | subscript value index =>
    rw [Expr.eval_subscript]
    exact (Yields.trivial _).bind fun _ _ => (Yields.trivial _).bind fun _ _ =>
      (Yields.trivial _).bind fun _ _ => .pure (Bindings.boundBy_ofValues _ _)

theorem runText_boundBy (text : String) :
    Returns (fun b : Bindings => b.BoundBy frame.point) (runText frame text) := by
  unfold runText
  split
  · exact .throw _
  · exact .lift (Expr.eval_boundBy hglobals .empty _)

/-- The objects of a type comment are bound where it stands, as the values of the text are. -/
theorem AssignDef.define_boundBy (d : AssignDef) (comments : LineComments) (file : String) :
    Returns (fun b : Bindings => b.BoundBy frame.point) (d.define frame comments file) :=
  AssignDef.define_holds (runText_boundBy hglobals _) fun comment _ =>
    (evalTypeComment_returns frame comment).mono fun _ ⟨t, _, hobjects⟩ =>
      hobjects ▸ t.boundBy_instantiate frame.point

theorem FunctionDef.evalHints_boundBy (d : FunctionDef) :
    Returns (fun bs : List Bindings => ∀ b ∈ bs, b.BoundBy frame.point) (d.evalHints frame) :=
  (Returns.mapM _ fun _ _ => (runText_boundBy hglobals _).adapt _).mono fun _ h => h.2

end Frame

/-! ## The walk -/

/-- The globals of the walk were bound by its point. -/
def Walk.BoundBy (w : Walk) : Prop := Scope.BoundBy w.globals w.point

theorem Walk.BoundBy.advance {w : Walk} (hw : w.BoundBy) : w.advance.BoundBy :=
  fun name b hb => (hw name b hb).mono (Point.le_succ _)

/-- Every definition binds at the point of the walk. -/
theorem Walk.define_boundBy (m : Module) {w : Walk} (hw : w.BoundBy) (d : Definition) :
    Returns Walk.BoundBy (w.define m d) := by
  have hglobals : Scope.BoundBy w.frame.globals w.frame.point := hw
  cases d with
  | typeVar d =>
    exact (Returns.trivial _).bind fun _ _ =>
      .pure (SortedMap.All.insert hw d.name (Bindings.boundBy_ofValue _ _))
  | cls d => exact .pure (SortedMap.All.insert hw d.name (Bindings.boundBy_ofValue _ _))
  | function d => exact (Returns.trivial _).bind fun _ _ => .pure hw
  | assign d =>
    exact (d.define_boundBy hglobals _ m.file).bind fun b hb =>
      .pure (SortedMap.All.insert hw d.target hb)
  | specialize d => exact .pure hw

theorem Walk.Reached.boundBy {m : Module} {w : Walk} (hw : w.Reached m) : w.BoundBy := by
  refine hw.induct (P := Walk.BoundBy) SortedMap.All.empty ?_
  intro w v d rs _ _ _ hdefine hbefore
  exact (Walk.define_boundBy m hbefore.advance d).of_gives hdefine

/-! ## Collecting annotations -/

/-- What becomes of one annotation of a definition at `location`: it is dropped with one report
if it does not have exactly one value, wherever that was bound, and resolved or put off if it
does. -/
inductive CollectedAs (location : Location) :
    Collected → String × Bindings → Collected → List Diagnostic → Prop
  | dropped {c : Collected} {name : String} {hint : Bindings} (hsize : hint.size ≠ 1) :
      CollectedAs location c (name, hint) c [.invalidHint location (mergedVisible hint.values).text
        (some "Must be constant") (some name)]
  | resolved {c : Collected} {name : String} {hint : Bindings} {v : Value} {t : Ty}
      (hv : hint.values = [v]) (h : Gives (v.resolve ⟨name, location⟩ none) (.resolved t) []) :
      CollectedAs location c (name, hint) (c.set name t) []
  | late {c : Collected} {name : String} {hint : Bindings} {v : Value} (hv : hint.values = [v])
      (h : Gives (v.resolve ⟨name, location⟩ none) .late []) :
      CollectedAs location c (name, hint) (c.defer ⟨v, name, location⟩) []
  | failed {c : Collected} {name : String} {hint : Bindings} {v : Value} {d : Diagnostic}
      (hv : hint.values = [v]) (h : Gives (v.resolve ⟨name, location⟩ none) .failed [d]) :
      CollectedAs location c (name, hint) c [d]

theorem Collected.add_collectedAs {p : Point} (location : Location) (c : Collected)
    (name : String) {hint : Bindings} (hhint : hint.BoundBy p) :
    ∃ c' ds, Gives (c.add p location name hint) c' ds ∧
      CollectedAs location c (name, hint) c' ds := by
  by_cases hsize : hint.size = 1
  · obtain ⟨v, hv⟩ : ∃ v, hint.values = [v] := by
      rw [← List.length_eq_one_iff, Bindings.values, List.length_map]
      exact hsize
    have hvisible : hint.visible p = [v] := hhint.visible_eq.trans hv
    obtain h | ⟨t, h, -⟩ | ⟨d, -, -, h, -⟩ := v.resolve_none_cases ⟨name, location⟩
    · exact ⟨_, _, Collected.add_of_visible hvisible h rfl, .late hv h⟩
    · exact ⟨_, _, Collected.add_of_visible hvisible h rfl, .resolved hv h⟩
    · exact ⟨_, _, Collected.add_of_visible hvisible h rfl, .failed hv h⟩
  · have hlength : (hint.visible p).length ≠ 1 := by
      rwa [hhint.visible_eq, Bindings.values, List.length_map]
    have hadd : Gives (c.add p location name hint) c _ := c.add_of_not_visible name hlength
    rw [hhint.visible_eq] at hadd
    exact ⟨c, _, hadd, .dropped hsize⟩

/-- Annotations whose values were bound by `p` are all collected as their number of values says. -/
theorem FunctionDef.collectHints_steps {frame : Frame} (d : FunctionDef) (file : String)
    {values : List Bindings} (hvalues : ∀ b ∈ values, b.BoundBy frame.point) :
    ∃ c ds, Gives (d.collectHints frame file values) c ds ∧
      Steps (CollectedAs (d.bare file).location) {}
        ((d.annotations.toList.map (·.1)).zip values) c ds := by
  refine Steps.of_foldlM_mem _ _ (fun c pair hpair => ?_) _
  exact Collected.add_collectedAs _ c _ (hvalues _ (List.of_mem_zip hpair).2)

/-- **The walk hides nothing.** Wherever the walk through a module is, all that the globals hold
was bound by that point. At the next point every expression has values that were bound by then,
so all of them are visible. When a function is defined there, each of its annotations in turn is
dropped as not constant if it does not have exactly one value, and is resolved or put off
otherwise; nothing else is reported before its type comment. -/
theorem Walk.Reached.hides_nothing {m : Module} {w : Walk} (hw : w.Reached m) :
    (∀ name b, w.globals.get? name = some b → ∀ x ∈ b.toList, x.origin ≤ w.point) ∧
    (∀ text b ds, Gives (runText w.advance.frame text).run (.ok b) ds →
      (∀ x ∈ b.toList, x.origin ≤ w.advance.point) ∧ b.visible w.advance.point = b.values) ∧
    ∀ (d : FunctionDef) (file : String) (f : Function) (ds : List Diagnostic),
      Gives (d.define w.advance.frame file).run (.ok f) ds →
        ∃ values c es fs gs, Gives (d.evalHints w.advance.frame).run (.ok values) es ∧
          Steps (CollectedAs (d.bare file).location) {}
            ((d.annotations.toList.map (·.1)).zip values) c fs ∧
          Gives (d.attach ((d.bare file).mapSignature c.addTo)) f gs ∧ ds = es ++ (fs ++ gs) := by
  have hglobals : Scope.BoundBy w.advance.frame.globals w.advance.frame.point :=
    hw.boundBy.advance
  refine ⟨fun name b hb => hw.boundBy name b hb, fun text b ds h => ?_, fun d file f ds h => ?_⟩
  · have hb := (runText_boundBy hglobals text).of_gives h
    exact ⟨hb, hb.visible_eq⟩
  · obtain ⟨values, c, es, fs, gs, hvalues, hc, hattach, rfl⟩ := d.exists_of_define _ _ h
    obtain ⟨c', fs', hc', hsteps⟩ :=
      d.collectHints_steps file ((d.evalHints_boundBy hglobals).of_gives hvalues)
    obtain ⟨rfl, rfl⟩ := hc.unique hc'
    exact ⟨values, c, es, fs, gs, hvalues, hsteps, hattach, rfl⟩

/-- A function of one parameter, annotated by the variable `x`. -/
def choiceDef : FunctionDef where
  name := "f"
  line := 2
  params := ["a"]
  annotations := (∅ : SortedMap String String).insert "a" "x"

/-- A module in which a type comment gives `x` two values before the function is defined. -/
def choiceModule : Module where
  file := "m.py"
  typeComments := (∅ : SortedMap UInt32 String).insert 1 "Union[int, str]"
  definitions := [.assign ⟨"x", 1, "0"⟩, .function choiceDef]

/-- The two values of `x`. -/
def choices : Bindings :=
  ⟨[⟨.object (.cls Builtin.int.cls) none, ⟨1⟩⟩, ⟨.object (.cls Builtin.str.cls) none, ⟨1⟩⟩]⟩

/-- The walk between the variable and the function. -/
def choiceWalk : Walk where
  point := ⟨1⟩
  globals := (∅ : Scope).insert "x" choices
  vars := [⟨"x", 1, "Union[int, str]"⟩]

theorem choices_commented :
    Gives (applyTypeComment ⟨⟨1⟩, ∅⟩ choiceModule.lineComments "m.py" 1 (.ofValue ⟨1⟩ (.int 0)))
      choices [] := by
  have hcomment : choiceModule.lineComments.commentAt? "m.py" 1 = some "Union[int, str]" := by
    decide +kernel
  have hparse : Expr.parse "Union[int, str]" =
      .ok (.subscript (.name "Union") (.tuple [.name "int", .name "str"])) := by decide +kernel
  have heval : Gives ((Expr.subscript (.name "Union") (.tuple [.name "int", .name "str"])).eval
      ⟨⟨1⟩, ∅⟩ ∅)
      (.ofValue ⟨1⟩ (.union [.cls Builtin.int.cls, .cls Builtin.str.cls])) [] := by
    refine .of_unchanged fun _ => ?_
    with_unfolding_all rfl
  have htext := evalText_ok_iff.2 ⟨_, hparse, heval⟩
  have hobjects : Gives (evalTypeComment ⟨⟨1⟩, ∅⟩ "Union[int, str]").run (.ok choices) [] :=
    (htext.adapt TextError.evaluation).bind_ok_silent (.ok _)
  unfold applyTypeComment
  rw [hcomment]
  exact hobjects.bind_silent (.pure _)

theorem choiceWalk_reached : choiceWalk.Reached choiceModule := by
  have hvalue : Gives (runText ⟨⟨1⟩, ∅⟩ "0").run (.ok (.ofValue ⟨1⟩ (.int 0))) [] :=
    runText_of_parse (e := .int 0) (by decide +kernel) (.pure _)
  have hassign : Gives (AssignDef.define ⟨"x", 1, "0"⟩ ⟨⟨1⟩, ∅⟩ choiceModule.lineComments
      "m.py").run (.ok choices) [] :=
    (hvalue.adapt (ModuleError.invalidExpression (.assignment "x"))).bind_ok_silent
      choices_commented.lift
  refine ⟨[.assign ⟨"x", 1, "0"⟩], [], ⟨_, rfl⟩, ?_⟩
  refine Gives.bind_ok_silent (hassign.bind_ok_silent (.ok _)) ?_
  have htype : (Ty.ofClasses choices.values).text = "Union[int, str]" := by decide +kernel
  rw [htype]
  exact .ok _

theorem choices_loaded : Gives (runText choiceWalk.advance.frame "x").run (.ok choices) [] :=
  runText_of_parse (e := .name "x") (by decide +kernel) (.of_unchanged fun _ => rfl)

/-- The annotation of the function has two values. -/
def choiceReport : Diagnostic :=
  .invalidHint ⟨"m.py", 2⟩ "Union[<instance of int>, <instance of str>]" (some "Must be constant")
    (some "a")

theorem choiceDef_defined :
    Gives (choiceDef.define choiceWalk.advance.frame "m.py").run (.ok (choiceDef.bare "m.py"))
      [choiceReport] := by
  have hvalues : Gives (choiceDef.evalHints choiceWalk.advance.frame).run (.ok [choices]) [] :=
    (choices_loaded.adapt _).bind_ok_silent (.ok _)
  have hnot : (choices.visible ⟨2⟩).length ≠ 1 := by decide
  have htext : (mergedVisible (choices.visible ⟨2⟩)).text =
      "Union[<instance of int>, <instance of str>]" := by decide +kernel
  have hadd : Gives (Collected.add ⟨2⟩ ⟨"m.py", 2⟩ {} "a" choices) {} _ :=
    Collected.add_of_not_visible {} "a" hnot
  rw [htext] at hadd
  have hcollect : Gives (choiceDef.collectHints choiceWalk.advance.frame "m.py" [choices]) {}
      [choiceReport] := Gives.foldlM_singleton hadd
  rw [FunctionDef.define_eq]
  exact hvalues.bind_ok_silent (hcollect.lift.bind_ok (.ok _))

/-- At the point of the function both values of `x` are visible, and its annotation is dropped
because there are two. -/
theorem hides_nothing_of_choices :
    choiceWalk.Reached choiceModule ∧ choices.visible ⟨2⟩ = choices.values ∧
      ∃ values c es fs gs,
        Gives (choiceDef.evalHints choiceWalk.advance.frame).run (.ok values) es ∧
        Steps (CollectedAs ⟨"m.py", 2⟩) {} (["a"].zip values) c fs ∧
        Gives (choiceDef.attach ((choiceDef.bare "m.py").mapSignature c.addTo))
          (choiceDef.bare "m.py") gs ∧
        [choiceReport] = es ++ (fs ++ gs) := by
  obtain ⟨-, hvisible, hdefine⟩ := choiceWalk_reached.hides_nothing
  exact ⟨choiceWalk_reached, (hvisible _ _ _ choices_loaded).2,
    hdefine choiceDef "m.py" _ _ choiceDef_defined⟩

end TypeHints
