import Mathlib.Logic.Equiv.Basic
import Mathlib.Tactic.Choose
import TypeHints.Proofs.FunctionComment
import TypeHints.Proofs.FunctionDef
import TypeHints.Proofs.Schedule

/-!
# The place of a function among the definitions

The annotations of a function that are all forward references, and the two parts of its type
comment, wait until the names of the module are final. Defining such a function evaluates nothing
and reports nothing (`FunctionDef.define_of_isDeferred`), so it may change places with a
definition next to it (`analyze_swap`): the points at which the two are carried out change
places, and nothing that is found depends on them.
-/

namespace TypeHints

/-! ## Type comments that have the form of one -/

/-- The comment, without blanks at its ends, is `(args) -> result`. Arguments and result are one
line each, and blanks may stand around the arrow. -/
def IsFunctionComment (comment : String) : Prop :=
  ∃ args before after result : List Char,
    Text.trimChars comment.toList =
      '(' :: (args ++ ')' :: (before ++ '-' :: '>' :: (after ++ result))) ∧
    '\n' ∉ args ∧ (∀ c ∈ before, Text.isBlank c = true) ∧
    (∀ c ∈ after, Text.isBlank c = true) ∧ '\n' ∉ result

namespace Function

theorem splitComment_isSome {comment : String} (h : IsFunctionComment comment) :
    (splitComment (Text.trimChars comment.toList)).isSome := by
  obtain ⟨args, before, after, result, htext, hargs, hbefore, hafter, hresult⟩ := h
  have hsplits : Splits (Text.trimChars comment.toList) args result :=
    ⟨before, after, htext, hbefore, hafter, hargs, hresult⟩
  obtain ⟨_, _, hsplit, -⟩ := hsplits.exists_splitComment
  rw [hsplit]
  rfl

theorem attachComment_of_isFunctionComment {comment : String} (h : IsFunctionComment comment)
    {f : Function} (location : Location) (hf : ∀ r, f.renumber r = f) :
    ∃ g : Function, (∀ r, g.renumber r = g) ∧ f.attachComment comment location = pure g := by
  obtain ⟨parts, hparts⟩ := Option.isSome_iff_exists.1 (splitComment_isSome h)
  have hpure : ∃ g, f.attachComment comment location = pure g :=
    ⟨_, by simp only [attachComment, hparts]; rfl⟩
  obtain ⟨g, hg⟩ := hpure
  refine ⟨g, fun r => ?_, hg⟩
  have hr := f.attachComment_renumber r comment location
  rw [hf, hg, map_pure] at hr
  exact (congrArg (fun m : Reporting Function => (m.run ∅).1) hr).symm

end Function

/-! ## Deferred functions -/

/-- All annotations of the function are string literals, and its type comment, if it has one, is
of the form `(args) -> result`. -/
structure FunctionDef.IsDeferred (d : FunctionDef) : Prop where
  hints : ∀ entry ∈ d.annotations.toList, ∃ s, Expr.parse entry.2 = .ok (.str s)
  comment : ∀ comment, d.typeComment = some comment → IsFunctionComment comment

/-- Strings are put off. -/
theorem Collected.add_str (p : Point) (location : Location) (c : Collected) (name s : String) :
    c.add p location name (.ofValue p (.str s)) = pure (c.defer ⟨.str s, name, location⟩) := by
  have hvisible : (Bindings.ofValue p (.str s)).visible p = [.str s] := by
    simp [Bindings.visible, Bindings.ofValue, Point.le_refl]
  unfold Collected.add
  rw [hvisible]
  rfl

namespace FunctionDef

variable {d : FunctionDef} (hd : d.IsDeferred) (file : String)

include hd

/-- What is collected from string literals depends on no point and no name of the module. -/
theorem collect_of_isDeferred :
    ∃ c : Collected, (∀ r, c.renumber r = c) ∧ ∀ frame : Frame, ∃ values,
      d.evalHints frame = pure values ∧ d.collectHints frame file values = pure c := by
  choose! text htext using hd.hints
  let defer (c : Collected) (entry : String × String) : Collected :=
    c.defer ⟨.str (text entry), entry.1, (d.bare file).location⟩
  refine ⟨d.annotations.toList.foldl defer {}, fun r => ?_, fun frame =>
    ⟨d.annotations.toList.map fun entry => .ofValue frame.point (.str (text entry)), ?_, ?_⟩⟩
  · have hempty : Collected.renumber r {} = {} := rfl
    refine List.foldlRecOn (motive := fun c => c.renumber r = c) _ defer hempty ?_
    intro c hc entry _
    have hdefer : (defer c entry).renumber r = defer (c.renumber r) entry := by
      simp only [defer, Collected.defer, Collected.renumber, List.map_append]
      rfl
    rw [hdefer, hc]
  · refine mapM_eq_pure _ fun entry hentry => ?_
    unfold runText
    simp only [htext entry hentry]
    rfl
  · unfold collectHints
    rw [List.zip_map', List.foldlM_map, ← List.foldlM_pure]
    have hstep : ∀ (c : Collected) (entry : String × String), c.add frame.point
        (d.bare file).location entry.1 (.ofValue frame.point (.str (text entry))) =
          pure (defer c entry) :=
      fun c entry => c.add_str frame.point _ entry.1 (text entry)
    simp only [hstep]

/-- Defining a deferred function gives the same function in every frame and reports nothing. -/
theorem define_of_isDeferred :
    ∃ f : Function, (∀ r, f.renumber r = f) ∧ ∀ frame, d.define frame file = pure f := by
  obtain ⟨c, hc, hcollect⟩ := collect_of_isDeferred hd file
  have hbare : ∀ r, ((d.bare file).mapSignature c.addTo).renumber r =
      (d.bare file).mapSignature c.addTo := by
    intro r
    have h := Collected.addTo_renumber r c ∅
    rw [hc] at h
    exact congrArg (fun s => (d.bare file).mapSignature fun _ => s) h.symm
  obtain ⟨f, hf, hattach⟩ : ∃ f : Function, (∀ r, f.renumber r = f) ∧
      d.attach ((d.bare file).mapSignature c.addTo) = pure f := by
    unfold attach
    cases hcomment : d.typeComment with
    | none => exact ⟨_, hbare, rfl⟩
    | some comment =>
      exact Function.attachComment_of_isFunctionComment (hd.comment comment hcomment) _ hbare
  refine ⟨f, hf, fun frame => ?_⟩
  obtain ⟨values, hvalues, hcollected⟩ := hcollect frame
  have hc : (liftM (pure c : Reporting Collected) : Analysing Collected) = pure c := liftM_pure c
  rw [define_eq, hvalues, pure_bind, hcollected, hc, pure_bind, hattach]
  exact liftM_pure f

end FunctionDef

/-! ## Changing places -/

/-- Two neighbouring points that change places keep their order with all others. -/
theorem keepsOrder_swap {a b p : Point} (hab : b = a.succ) (ha : p ≠ a) (hb : p ≠ b) :
    KeepsOrder (Equiv.swap a b) p := by
  intro q
  obtain ⟨a⟩ := a
  obtain ⟨p⟩ := p
  obtain ⟨q⟩ := q
  subst hab
  rw [Equiv.swap_apply_of_ne_of_ne ha hb]
  simp only [ne_eq, Point.mk.injEq, Point.succ] at ha hb
  show (Equiv.swap _ _ (Point.mk q)).id ≤ p ↔ q ≤ p
  rw [Equiv.swap_apply_def]
  simp only [Point.mk.injEq, Point.succ]
  split
  · simp only []
    omega
  · split
    · simp only []
      omega
    · rfl

namespace Walk

/-- A function may be defined before or after a definition of another kind. -/
theorem define_push (m : Module) (w : Walk) (f : Function) {d : Definition}
    (hd : ∀ g, d ≠ .function g) : (w.push f).define m d = (·.push f) <$> w.define m d :=
  w.define_revise m (F := (· ++ [f])) (R := id) (fun g hg => absurd hg (hd g))
    (fun _ _ _ _ => rfl)

/-- A schedule that leaves out two neighbouring points does not notice that they change places. -/
theorem carryOut_renumber_swap (m : Module) (w : Walk) {a b : Point} (hab : b = a.succ)
    {s : List (Point × Definition)} (hs : ∀ x ∈ s, x.1 ≠ a ∧ x.1 ≠ b) :
    (w.renumber (Equiv.swap a b)).carryOut m s =
      (·.renumber (Equiv.swap a b)) <$> w.carryOut m s := by
  have hmap : s.map (Prod.map (Equiv.swap a b) id) = s := by
    refine (List.map_congr_left fun x hx => ?_).trans (List.map_id s)
    exact Prod.ext (Equiv.swap_apply_of_ne_of_ne (hs x hx).1 (hs x hx).2) rfl
  have h := carryOut_renumber (Equiv.swap a b).injective m w s fun x hx _ _ =>
    keepsOrder_swap hab (hs x hx).1 (hs x hx).2
  rwa [hmap] at h

section Swap

variable (m : Module) {f : FunctionDef} {d : Definition} (hd : ∀ g, d ≠ .function g) {F : Function}
  (hF : ∀ r, F.renumber r = F) (hf : ∀ frame, f.define frame m.file = pure F)

include hd hF hf

/-- A function that is the same everywhere changes places with the definition after it. -/
theorem carryOut_swap (w : Walk) {a b : Point} :
    (w.renumber (Equiv.swap a b)).carryOut m [(a, .function f), (b, d)] =
      (·.renumber (Equiv.swap a b)) <$> w.carryOut m [(a, d), (b, .function f)] := by
  have hpush : ∀ (w : Walk) (p : Point), w.defineAt m (p, .function f) = pure (w.push F) := by
    intro w p
    unfold defineAt
    rw [define_function, hf, map_pure, map_pure]
    rfl
  have hcomm : (w.push F).defineAt m (a, d) = (·.push F) <$> w.defineAt m (a, d) := by
    show _ <$> ((w.place a).push F).define m d = _
    rw [define_push m (w.place a) F hd, Functor.map_map, defineAt, Functor.map_map]
    rfl
  have hmove : ((w.push F).renumber (Equiv.swap a b)).carryOut m [(b, d)] =
      (·.renumber (Equiv.swap a b)) <$> (w.push F).carryOut m [(a, d)] := by
    have h := carryOut_renumber (Equiv.swap a b).injective m (w.push F) [(a, d)] fun x hx g hg => by
      obtain rfl := List.mem_singleton.1 hx
      exact absurd hg (hd g)
    simpa using h
  have hrenumber : (w.renumber (Equiv.swap a b)).push F =
      (w.push F).renumber (Equiv.swap a b) := by
    simp [push, renumber, hF]
  have hsingle : ∀ (w : Walk) (x : Point × Definition), w.carryOut m [x] = w.defineAt m x := by
    intro w x
    simp [carryOut]
  calc (w.renumber (Equiv.swap a b)).carryOut m [(a, .function f), (b, d)]
      = ((w.push F).renumber (Equiv.swap a b)).carryOut m [(b, d)] := by
        show (w.renumber _).defineAt m _ >>= (fun v : Walk => v.carryOut m [(b, d)]) = _
        rw [hpush, pure_bind, hrenumber]
    _ = (·.renumber (Equiv.swap a b)) <$> (·.push F) <$> w.defineAt m (a, d) := by
        rw [hmove, hsingle, hcomm]
    _ = (·.renumber (Equiv.swap a b)) <$> w.carryOut m [(a, d), (b, .function f)] := by
        show _ = _ <$> (w.defineAt m (a, d) >>= fun v : Walk => v.carryOut m [(b, .function f)])
        simp only [hsingle, hpush]
        rw [bind_pure_comp]

/-- Swapping the two definitions in a schedule swaps their points in what it comes to. -/
theorem carryOut_schedule_swap (w : Walk) (p : Point) (pre post : List Definition) {a b : Point}
    (ha : a = ⟨p.id + pre.length + 1⟩) (hb : b = a.succ) :
    (w.renumber (Equiv.swap a b)).carryOut m (schedule p (pre ++ .function f :: d :: post)) =
      (·.renumber (Equiv.swap a b)) <$>
        w.carryOut m (schedule p (pre ++ d :: .function f :: post)) := by
  have hschedule : ∀ x y : Definition, schedule p (pre ++ x :: y :: post) =
      schedule p pre ++ ([(a, x), (b, y)] ++ schedule b post) := by
    intro x y
    rw [schedule_append, hb, ha]
    rfl
  have hbefore : ∀ x ∈ schedule p pre, x.1 ≠ a ∧ x.1 ≠ b := by
    intro x hx
    have := mem_schedule hx
    rw [hb, ha]
    constructor <;> intro h <;> simp only [h, Point.succ] at this <;> omega
  have hafter : ∀ x ∈ schedule b post, x.1 ≠ a ∧ x.1 ≠ b := by
    intro x hx
    have := mem_schedule hx
    rw [hb] at this ⊢
    constructor <;> intro h <;> simp only [h, Point.succ] at this <;> omega
  rw [hschedule, hschedule, carryOut_append, carryOut_append, map_bind,
    carryOut_renumber_swap m w hb hbefore, bind_map_left]
  refine bind_congr fun v => ?_
  rw [carryOut_append, carryOut_append, map_bind, carryOut_swap m hd hF hf, bind_map_left]
  exact bind_congr fun u => carryOut_renumber_swap m u hb hafter

end Swap

end Walk

/-- **The place of a deferred function does not matter.** If all annotations of a function are
string literals and its type comment, if any, is of the form `(args) -> result`, the function may
change places with a definition of another kind next to it: the analysis fails with the same
error or comes to the same report, its diagnostics in the same order. -/
theorem analyze_swap (receivers : Receivers) (m : Module) (pre post : List Definition)
    {f : FunctionDef} {d : Definition} (hf : f.IsDeferred) (hd : ∀ g, d ≠ .function g) :
    analyze receivers { m with definitions := pre ++ .function f :: d :: post } =
      analyze receivers { m with definitions := pre ++ d :: .function f :: post } := by
  obtain ⟨F, hF, hdefine⟩ := FunctionDef.define_of_isDeferred hf m.file
  let m₁ : Module := { m with definitions := pre ++ .function f :: d :: post }
  let m₂ : Module := { m with definitions := pre ++ d :: .function f :: post }
  let a : Point := ⟨pre.length + 1⟩
  let r := Equiv.swap a a.succ
  have hsame : Walk.define m₁ = Walk.define m₂ := Walk.define_congr rfl rfl fun line => by
    simp [m₁, m₂, Module.codeAt?, List.findSome?_append, List.findSome?_cons]
  have hwalk : ({} : Walk).carryOut m₁ (schedule .root m₁.definitions) =
      (·.renumber r) <$> ({} : Walk).carryOut m₂ (schedule .root m₂.definitions) := by
    have hroot : r .root = .root :=
      Equiv.swap_apply_of_ne_of_ne (by simp [Point.root, a]) (by simp [Point.root, a, Point.succ])
    have h := Walk.carryOut_schedule_swap m₂ hd hF hdefine {} .root pre post (a := a)
      (by simp [Point.root, a]) rfl
    rwa [Walk.renumber_empty hroot, ← Walk.carryOut_congr hsame] at h
  have hlast : r ⟨m₂.definitions.length + 1⟩ = ⟨m₁.definitions.length + 1⟩ := by
    have hlength : m₂.definitions.length = m₁.definitions.length := by simp [m₁, m₂]
    have hpast : pre.length + 2 ≤ m₂.definitions.length := by simp [m₂]
    rw [← hlength]
    refine Equiv.swap_apply_of_ne_of_ne ?_ ?_ <;> simp [a, Point.succ] <;> omega
  have hrun : Walk.run m₁ = (·.renumber r) <$> Walk.run m₂ := by
    rw [Walk.renumber_run, Walk.run_eq_carryOut, hwalk, hlast]
  refine analyze_congr ?_
  show findings receivers m₁ = findings receivers m₂
  rw [findings_eq_bind_renumber r.injective receivers m₂, ← hrun]
  rfl

/-- A function whose annotations and type comment refer to a class. -/
def referring : FunctionDef :=
  ⟨"f", 3, ["x"], [], none, none, ⟨[("return", "'C'"), ("x", "'List[C]'")], by decide⟩,
    some "(List[C]) -> C"⟩

theorem referring_isDeferred : referring.IsDeferred := by
  refine ⟨fun entry hentry => ?_, fun comment hcomment => ?_⟩
  · rcases List.mem_pair.1 hentry with rfl | rfl
    · exact ⟨"C", rfl⟩
    · exact ⟨"List[C]", rfl⟩
  · obtain rfl := Option.some.inj hcomment
    have hblank : ∀ c ∈ [' '], Text.isBlank c = true := by
      intro c hc
      obtain rfl := List.mem_singleton.1 hc
      rfl
    exact ⟨"List[C]".toList, [' '], [' '], ['C'], rfl, by decide, hblank, hblank, by decide⟩

/-- The function changes places with the class. -/
theorem analyze_swap_of_reference :
    referring.IsDeferred ∧ (∀ g, Definition.cls ⟨"C", []⟩ ≠ .function g) ∧
      analyze .standard
          ⟨"m.py", ∅, [.function referring, .cls ⟨"C", []⟩, .specialize ⟨"f", []⟩]⟩ =
        analyze .standard
          ⟨"m.py", ∅, [.cls ⟨"C", []⟩, .function referring, .specialize ⟨"f", []⟩]⟩ := by
  have hd : ∀ g, Definition.cls ⟨"C", []⟩ ≠ .function g := fun g h => by cases h
  exact ⟨referring_isDeferred, hd, analyze_swap .standard ⟨"m.py", ∅, []⟩ []
    [.specialize ⟨"f", []⟩] referring_isDeferred hd⟩

end TypeHints
