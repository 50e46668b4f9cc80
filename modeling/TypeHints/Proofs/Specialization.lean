import TypeHints.Proofs.AppendOnly
import TypeHints.Proofs.Schedule

/-!
# Specialisations are worked out last and change nothing

To ask for a specialisation takes a point of the program and does nothing else before the end of
the walk. Leaving all such definitions out moves the points of the others together, in order
(`exists_keepsOrder_schedule_filter`), and what comes before the specialisations stays as it is
(`findings_withoutSpecializations`): the same functions, the same variables, the same reports.
-/

namespace TypeHints

/-- Whether the definition asks for a specialisation. -/
def Definition.isSpecialize : Definition → Bool
  | .specialize _ => true
  | _ => false

theorem Definition.eq_specialize_of_isSpecialize {d : Definition} (h : d.isSpecialize = true) :
    ∃ e, d = .specialize e := by
  cases d with
  | specialize e => exact ⟨e, rfl⟩
  | _ => cases h

/-- The module without the definitions that ask for specialisations. -/
def Module.withoutSpecializations (m : Module) : Module :=
  { m with definitions := m.definitions.filter fun d => !d.isSpecialize }

/-! ## Points -/

theorem map_succ_schedule (p : Point) (ds : List Definition) :
    (schedule p ds).map (Prod.map Point.succ id) = schedule p.succ ds := by
  induction ds generalizing p with
  | nil => rfl
  | cons d ds ih => exact congrArg (_ :: ·) (ih p.succ)

theorem injective_of_keepsOrder {r : Point → Point} (hr : ∀ p, KeepsOrder r p) : r.Injective := by
  intro p q h
  have hpq : p ≤ q := (hr q p).1 (h ▸ Point.le_refl _)
  have hqp : q ≤ p := (hr p q).1 (h ▸ Point.le_refl _)
  exact congrArg Point.mk (Nat.le_antisymm hpq hqp)

/-- Leave out the point after `p`: the points up to `p` stay, and the later ones are those that
`r` has for their successors. -/
def leaveOut (p : Point) (r : Point → Point) (q : Point) : Point := if q ≤ p then q else r q.succ

section LeaveOut

variable {p q : Point} {r : Point → Point}

theorem leaveOut_of_le (h : q ≤ p) : leaveOut p r q = q := if_pos h

theorem leaveOut_of_lt (h : p.id < q.id) : leaveOut p r q = r q.succ := if_neg (Nat.not_le.2 h)

theorem keepsOrder_leaveOut (hr : ∀ q, KeepsOrder r q) (hfix : ∀ q, q ≤ p.succ → r q = q)
    (q : Point) : KeepsOrder (leaveOut p r) q := by
  intro q'
  have hsucc : q'.succ ≤ q.succ ↔ q' ≤ q := Nat.succ_le_succ_iff
  rcases Nat.lt_or_ge p.id q.id with hq | hq <;> rcases Nat.lt_or_ge p.id q'.id with hq' | hq'
  · rw [leaveOut_of_lt hq, leaveOut_of_lt hq', hr q.succ q'.succ, hsucc]
  · -- `q'` stays below, and `r` moves no point past it
    have hle : q' ≤ p.succ := Point.le_trans hq' p.le_succ
    rw [leaveOut_of_lt hq, leaveOut_of_le hq', ← hfix q' hle, hr q.succ q', hfix q' hle]
    show q'.id ≤ q.id + 1 ↔ q'.id ≤ q.id
    omega
  · have hle : q ≤ p.succ := Point.le_trans hq p.le_succ
    rw [leaveOut_of_le hq, leaveOut_of_lt hq', ← hfix q hle, hr q q'.succ, hfix q hle]
    show q'.id + 1 ≤ q.id ↔ q'.id ≤ q.id
    omega
  · rw [leaveOut_of_le hq, leaveOut_of_le hq']

end LeaveOut

/-- Some definitions are left out. In order, the points of the others are moved to where they
were among all of them. -/
theorem exists_keepsOrder_schedule_filter (keep : Definition → Bool) (p : Point)
    (ds : List Definition) :
    ∃ r : Point → Point, (∀ q, KeepsOrder r q) ∧ (∀ q, q ≤ p → r q = q) ∧
      r ⟨p.id + (ds.filter keep).length + 1⟩ = ⟨p.id + ds.length + 1⟩ ∧
      (schedule p (ds.filter keep)).map (Prod.map r id) =
        (schedule p ds).filter fun x => keep x.2 := by
  induction ds generalizing p with
  | nil => exact ⟨id, fun _ _ => Iff.rfl, fun _ _ => rfl, rfl, rfl⟩
  | cons d ds ih =>
    obtain ⟨r, hr, hfix, hlast, hmap⟩ := ih p.succ
    have hsucc : ∀ n, p.succ.id + n + 1 = p.id + (n + 1) + 1 := by
      intro n
      simp only [Point.succ]
      omega
    rw [hsucc, hsucc] at hlast
    by_cases hd : keep d = true
    · rw [List.filter_cons_of_pos hd]
      refine ⟨r, hr, fun q hq => hfix q (Point.le_trans hq p.le_succ), hlast, ?_⟩
      have hfilter : (schedule p (d :: ds)).filter (fun x => keep x.2) =
          (p.succ, d) :: (schedule p.succ ds).filter fun x => keep x.2 := List.filter_cons_of_pos hd
      rw [hfilter, ← hmap]
      exact congrArg (fun q => (q, d) :: _) (hfix p.succ (Point.le_refl _))
    · rw [List.filter_cons_of_neg hd]
      refine ⟨leaveOut p r, keepsOrder_leaveOut hr hfix, fun q hq => leaveOut_of_le hq, ?_, ?_⟩
      · rw [leaveOut_of_lt (by simp only []; omega)]
        exact hlast
      · have hfilter : (schedule p (d :: ds)).filter (fun x => keep x.2) =
            (schedule p.succ ds).filter fun x => keep x.2 := List.filter_cons_of_neg hd
        rw [hfilter, ← hmap, ← map_succ_schedule, List.map_map]
        refine List.map_congr_left fun x hx => ?_
        exact congrArg (·, x.2) (leaveOut_of_lt (mem_schedule hx).1)

/-! ## Requests -/

/-- The walk without the requests for specialisations. -/
def Walk.withoutRequests (w : Walk) : Walk := { w with requests := [] }

theorem Walk.define_withoutRequests (m : Module) (w : Walk) {d : Definition}
    (hd : d.isSpecialize = false) :
    w.withoutRequests.define m d = (·.withoutRequests) <$> w.define m d := by
  refine w.define_revise m (F := id) (R := fun _ => []) (fun _ _ _ _ => rfl) ?_
  rintro e rfl
  cases hd

/-- Without requests, the definitions that make some may be left out. -/
theorem Walk.carryOut_withoutRequests (m : Module) (w : Walk) (s : List (Point × Definition)) :
    w.withoutRequests.carryOut m (s.filter fun x => !x.2.isSpecialize) =
      (·.withoutRequests) <$> w.carryOut m s := by
  induction s generalizing w with
  | nil => rfl
  | cons x s ih =>
    obtain ⟨p, d⟩ := x
    show _ = _ <$> (w.defineAt m (p, d) >>= fun v => v.carryOut m s)
    cases hd : d.isSpecialize with
    | true =>
      obtain ⟨d, rfl⟩ := Definition.eq_specialize_of_isSpecialize hd
      exact ih { w with requests := w.requests ++ [d] }
    | false =>
      have hstep : w.withoutRequests.defineAt m (p, d) =
          (·.withoutRequests) <$> w.defineAt m (p, d) := by
        unfold defineAt
        show _ <$> (w.place p).withoutRequests.define m d = _
        rw [define_withoutRequests m (w.place p) hd, Functor.map_map, Functor.map_map]
        rfl
      rw [List.filter_cons_of_pos (by simp [hd])]
      show (w.withoutRequests.defineAt m (p, d) >>= fun v => v.carryOut m _) = _
      rw [hstep, bind_map_left, map_bind]
      exact bind_congr fun v => ih v

/-- To ask for a specialisation is no code of a line. -/
theorem Module.define_withoutSpecializations (m : Module) :
    Walk.define m.withoutSpecializations = Walk.define m := by
  refine Walk.define_congr rfl rfl fun line => ?_
  have hcode : (fun d : Definition => if (!d.isSpecialize) = true then codeAt? line d else none) =
      codeAt? line := by
    funext d
    cases d <;> rfl
  show (m.definitions.filter _).findSome? _ = _
  rw [← List.head?_filterMap, List.filterMap_filter, hcode, List.head?_filterMap]

/-- Leaving out the specialisations takes nothing away from what is found before them. -/
theorem findings_withoutSpecializations (receivers : Receivers) (m : Module) :
    findings receivers m.withoutSpecializations =
      Walk.run m >>= fun w => w.withoutRequests.conclude receivers m.file := by
  let m' := m.withoutSpecializations
  obtain ⟨r, hr, hfix, hlast, hmap⟩ := exists_keepsOrder_schedule_filter
    (fun d => !d.isSpecialize) .root m.definitions
  have hinj := injective_of_keepsOrder hr
  have hsame : Walk.define m' = Walk.define m := m.define_withoutSpecializations
  have hwalk : (·.renumber r) <$> ({} : Walk).carryOut m' (schedule .root m'.definitions) =
      (·.withoutRequests) <$> ({} : Walk).carryOut m (schedule .root m.definitions) := by
    have h := Walk.carryOut_renumber hinj m' {} (schedule .root m'.definitions)
      fun x _ _ _ => hr x.1
    rw [Walk.renumber_empty (hfix .root (Point.le_refl _))] at h
    rw [← h, ← Walk.carryOut_withoutRequests, Walk.carryOut_congr hsame]
    exact congrArg _ hmap
  have hlast : r ⟨m'.definitions.length + 1⟩ = ⟨m.definitions.length + 1⟩ := by
    simpa [Point.root, m', Module.withoutSpecializations] using hlast
  have hrun : (·.renumber r) <$> Walk.run m' = (·.withoutRequests) <$> Walk.run m := by
    rw [Walk.renumber_run, hwalk, hlast, Walk.run_eq_carryOut, Functor.map_map, Functor.map_map]
    rfl
  show findings receivers m' = _
  rw [findings_eq_bind_renumber hinj, hrun, bind_map_left]
  rfl

/-- **Specialisation is read-only.** If a module can be analysed, it can be analysed without its
requests for specialisations: the functions and the variables are the same, and the diagnostics
are the first ones of those before. -/
theorem analyze_withoutSpecializations {receivers : Receivers} {m : Module} {report : Report}
    (h : analyze receivers m = .ok report) :
    ∃ ds, ds <+: report.diagnostics ∧ analyze receivers m.withoutSpecializations =
      .ok { report with specializations := [], diagnostics := ds } := by
  obtain ⟨w, ds, hwalk⟩ := Walk.exists_run_of_analyze h
  obtain ⟨functions, es, hlate⟩ := exists_resolveAll receivers w.frame w.functions
  obtain ⟨r, fs, hspecialize⟩ := specializeAll_appendOnly w.frame functions w.requests
  cases r with
  | error e =>
    rw [analyze_of_gives (hwalk.bind_ok (hlate.bind_ok hspecialize.bind_error))] at h
    cases h
  | ok specializations =>
    have hlong : Gives (findings receivers m).run
        (.ok (w.report m.file functions specializations)) (ds ++ (es ++ (fs ++ []))) :=
      hwalk.bind_ok (hlate.bind_ok (hspecialize.bind_ok (.ok _)))
    have hshort : Gives (findings receivers m.withoutSpecializations).run
        (.ok (w.report m.file functions [])) (ds ++ (es ++ ([] ++ []))) := by
      rw [findings_withoutSpecializations]
      exact hwalk.bind_ok (hlate.bind_ok (Gives.bind_ok (.ok []) (.ok _)))
    rw [analyze_of_gives hlong] at h
    obtain rfl := Except.ok.inj h
    refine ⟨_, ?_, analyze_of_gives hshort⟩
    rw [List.nil_append, List.append_nil]
    exact ⟨fs ++ [], by simp⟩

/-- A function is specialised to a class and to a name that is missing, before a class that its
annotations refer to. -/
def specializedModule : Module :=
  ⟨"m.py", ∅, [.typeVar ⟨"T", none⟩,
    .function ⟨"f", 3, ["x"], [], none, none, ⟨[("return", "'C'"), ("x", "T")], by decide⟩, none⟩,
    .specialize ⟨"f", [⟨[("T", ["int", "Missing"])], by simp⟩]⟩, .cls ⟨"C", []⟩]⟩

/-- The missing name is reported with the specialisation only. -/
theorem analyze_withoutSpecializations_of_missing :
    analyze .standard specializedModule =
        .ok ⟨"ok", "1", "m.py", [⟨"f", 3, ⟨[("return", "C"), ("x", "T")], by decide⟩⟩], [],
          [⟨"f", ⟨[("return", "C"), ("x", "Any")], by decide⟩⟩],
          [.nameError .synthetic "Missing"]⟩ ∧
      ∃ ds, ds <+: [.nameError .synthetic "Missing"] ∧
        analyze .standard specializedModule.withoutSpecializations =
          .ok ⟨"ok", "1", "m.py", [⟨"f", 3, ⟨[("return", "C"), ("x", "T")], by decide⟩⟩], [], [],
            ds⟩ := by
  have h : analyze .standard specializedModule =
      .ok ⟨"ok", "1", "m.py", [⟨"f", 3, ⟨[("return", "C"), ("x", "T")], by decide⟩⟩], [],
        [⟨"f", ⟨[("return", "C"), ("x", "Any")], by decide⟩⟩],
        [.nameError .synthetic "Missing"]⟩ := by
    decide +kernel
  exact ⟨h, analyze_withoutSpecializations h⟩

end TypeHints
