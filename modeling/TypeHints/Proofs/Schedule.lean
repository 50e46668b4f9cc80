import TypeHints.Proofs.Renumbering.Walk

/-!
# Definitions at given points

The walk numbers its points itself, one for each definition. Here every definition comes with the
point it is carried out at, so that definitions can be left out or change places while the others
keep their points (`Walk.run_eq_carryOut`). Moving all points of a schedule by an injective map
moves those of the result (`Walk.carryOut_renumber`).
-/

namespace TypeHints

/-- The definitions with the points that follow `p`, one for each. -/
def schedule : Point → List Definition → List (Point × Definition)
  | _, [] => []
  | p, d :: ds => (p.succ, d) :: schedule p.succ ds

theorem schedule_append (p : Point) (ds es : List Definition) :
    schedule p (ds ++ es) = schedule p ds ++ schedule ⟨p.id + ds.length⟩ es := by
  induction ds generalizing p with
  | nil => rfl
  | cons d ds ih =>
    have hpoint : p.succ.id + ds.length = p.id + (d :: ds).length := by
      simp only [Point.succ, List.length_cons]
      omega
    rw [List.cons_append, schedule, ih, hpoint]
    rfl

theorem mem_schedule {p : Point} {ds : List Definition} {x : Point × Definition}
    (h : x ∈ schedule p ds) : p.id < x.1.id ∧ x.1.id ≤ p.id + ds.length := by
  induction ds generalizing p with
  | nil => cases h
  | cons d ds ih =>
    rw [List.length_cons]
    rcases List.mem_cons.1 h with rfl | h
    · exact ⟨Nat.lt_succ_self _, by simp only [Point.succ]; omega⟩
    · have := ih h
      simp only [Point.succ] at this
      omega

namespace Walk

/-- The walk at another point. -/
def place (w : Walk) (p : Point) : Walk := { w with point := p }

/-- A definition leaves the walk at its point. -/
theorem place_define (m : Module) (w : Walk) (d : Definition) :
    (·.place w.point) <$> w.define m d = w.define m d := by
  cases d with
  | typeVar d =>
    simp only [define, map_bind, map_pure]
    rfl
  | cls d => rfl
  | function d =>
    simp only [define, map_bind, map_pure]
    rfl
  | assign d =>
    simp only [define, map_bind, map_pure]
    rfl
  | specialize d => rfl

/-- Go to the point of a definition, carry it out and come back. -/
def defineAt (m : Module) (w : Walk) (x : Point × Definition) : Analysing Walk :=
  (·.place w.point) <$> (w.place x.1).define m x.2

/-- Carry out definitions at their points. -/
def carryOut (m : Module) (w : Walk) (s : List (Point × Definition)) : Analysing Walk :=
  s.foldlM (defineAt m) w

theorem carryOut_append (m : Module) (w : Walk) (s t : List (Point × Definition)) :
    w.carryOut m (s ++ t) = w.carryOut m s >>= fun v => v.carryOut m t :=
  List.foldlM_append

/-- Where the walk stands makes no difference to definitions that have points of their own. -/
theorem carryOut_place (m : Module) (w : Walk) (p : Point) (s : List (Point × Definition)) :
    (w.place p).carryOut m s = (·.place p) <$> w.carryOut m s := by
  refine foldlM_comm (m := Analysing) (k := fun w : Walk => w.place p) s (fun w x _ => ?_) w
  unfold defineAt
  rw [Functor.map_map]
  rfl

/-- The walk carries out the definitions at the points that follow its own. -/
theorem through_eq_carryOut (m : Module) (w : Walk) (ds : List Definition) :
    w.through m ds =
      (·.place ⟨w.point.id + ds.length⟩) <$> w.carryOut m (schedule w.point ds) := by
  induction ds generalizing w with
  | nil => rfl
  | cons d ds ih =>
    have hpoint : w.point.succ.id + ds.length = w.point.id + (d :: ds).length := by
      simp only [Point.succ, List.length_cons]
      omega
    have hrest : ∀ v : Walk, (v.place w.point.succ).through m ds =
        (·.place ⟨w.point.id + (d :: ds).length⟩) <$>
          (v.place w.point).carryOut m (schedule w.point.succ ds) := by
      intro v
      rw [ih, carryOut_place, carryOut_place, Functor.map_map, Functor.map_map, ← hpoint]
      rfl
    have hstep : w.advance.define m d = (·.place w.point.succ) <$> w.advance.define m d :=
      (place_define m w.advance d).symm
    have hfirst : w.defineAt m (w.point.succ, d) =
        (·.place w.point) <$> w.advance.define m d := rfl
    rw [through_cons, hstep, bind_map_left, funext hrest]
    show _ = _ <$> (w.defineAt m (w.point.succ, d) >>= fun v => v.carryOut m _)
    rw [hfirst, bind_map_left, map_bind]

theorem run_eq_carryOut (m : Module) :
    run m = (·.place ⟨m.definitions.length + 1⟩) <$>
      ({} : Walk).carryOut m (schedule .root m.definitions) := by
  have hlength : (Point.mk (Point.root.id + m.definitions.length)).succ =
      ⟨m.definitions.length + 1⟩ := by
    simp [Point.root, Point.succ]
  rw [run_eq_through, through_eq_carryOut, Functor.map_map, ← hlength]
  rfl

theorem carryOut_congr {m m' : Module} (h : define m = define m') (w : Walk)
    (s : List (Point × Definition)) : w.carryOut m s = w.carryOut m' s := by
  unfold carryOut defineAt
  rw [h]

/-- A schedule with its points moved gives the walk with its points moved. -/
theorem carryOut_renumber {r : Point → Point} (hr : r.Injective) (m : Module) (w : Walk)
    (s : List (Point × Definition))
    (hs : ∀ x ∈ s, ∀ f, x.2 = .function f → KeepsOrder r x.1) :
    (w.renumber r).carryOut m (s.map (Prod.map r id)) = (·.renumber r) <$> w.carryOut m s := by
  refine foldlM_map_comm (m := Analysing) (k := Walk.renumber r) s (fun w x hx => ?_) w
  have hplace : (w.renumber r).place (Prod.map r id x).1 = (w.place x.1).renumber r := rfl
  unfold defineAt
  rw [hplace]
  show _ <$> ((w.place x.1).renumber r).define m x.2 = _
  rw [define_renumber hr m (w.place x.1) x.2 (hs x hx), Functor.map_map, Functor.map_map]
  rfl

theorem renumber_run (r : Point → Point) (m : Module) :
    (·.renumber r) <$> run m = (·.place (r ⟨m.definitions.length + 1⟩)) <$>
      (·.renumber r) <$> ({} : Walk).carryOut m (schedule .root m.definitions) := by
  rw [run_eq_carryOut, Functor.map_map, Functor.map_map]
  rfl

theorem renumber_empty {r : Point → Point} (hroot : r .root = .root) :
    ({} : Walk).renumber r = {} :=
  congrArg (fun p => ({ point := p } : Walk)) hroot

end Walk

/-- What is found in a module does not depend on how the points of its walk are numbered. -/
theorem findings_eq_bind_renumber {r : Point → Point} (hr : r.Injective) (receivers : Receivers)
    (m : Module) :
    findings receivers m = (·.renumber r) <$> Walk.run m >>= Walk.conclude receivers m.file := by
  rw [findings_eq_bind, bind_map_left]
  exact bind_congr fun w => (w.conclude_renumber hr receivers m.file).symm

end TypeHints
