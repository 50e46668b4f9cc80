import Mathlib.Data.List.Induction
import TypeHints.Proofs.AppendOnly

/-!
# Where the walk comes

The walk through the definitions of a module comes to a state for each number of definitions, the
first ones, that it carries out. What every definition keeps holds in all of them
(`Walk.Reached.induct`).
-/

namespace TypeHints

/-- The walk through `m` comes to `w`: no definition, or the first ones, or all, are carried out.
Afterwards texts are evaluated in `w.advance.frame`, those of the next definition or those that
wait for the end. -/
def Walk.Reached (m : Module) (w : Walk) : Prop :=
  ∃ ds rs, ds <+: m.definitions ∧ Gives (({} : Walk).through m ds).run (.ok w) rs

/-- What holds before the first definition and is kept by every definition holds wherever the walk
comes. -/
theorem Walk.Reached.induct {m : Module} {P : Walk → Prop} (hempty : P {})
    (hstep : ∀ {w v : Walk} {d : Definition} {rs : List Diagnostic}, w.Reached m → v.Reached m →
      d ∈ m.definitions → Gives (w.advance.define m d).run (.ok v) rs → P w → P v)
    {w : Walk} (hw : w.Reached m) : P w := by
  obtain ⟨ds, rs, hds, h⟩ := hw
  induction ds using List.reverseRecOn generalizing w rs with
  | nil =>
    have hgives : Gives (({} : Walk).through m []).run (.ok ({} : Walk)) [] := .ok _
    obtain rfl := Except.ok.inj (h.unique hgives).1
    exact hempty
  | append_singleton ds d ih =>
    have hw : w.Reached m := ⟨_, rs, hds, h⟩
    rw [Walk.through_append] at h
    obtain ⟨v, es, fs, hv, hd, -⟩ := (Walk.through_appendOnly m {} ds).exists_of_bind_ok
      (fun v => Walk.through_appendOnly m v [d]) h
    have hbefore : ds <+: m.definitions := (List.prefix_append ds [d]).trans hds
    have hdefine : Gives (v.advance.define m d).run (.ok w) fs := by
      rw [Walk.through_cons] at hd
      rwa [← bind_pure (v.advance.define m d)]
    exact hstep ⟨ds, es, hbefore, hv⟩ hw (hds.subset (by simp)) hdefine (ih _ hbefore hv)

/-- The walk through a module that can be analysed carries out every definition. -/
theorem Walk.Reached.exists_of_analyze {receivers : Receivers} {m : Module} {report : Report}
    {d : Definition} (h : analyze receivers m = .ok report) (hd : d ∈ m.definitions) :
    ∃ w v : Walk, ∃ rs, w.Reached m ∧ Gives (w.advance.define m d).run (.ok v) rs := by
  obtain ⟨_, _, hrun⟩ := Walk.exists_run_of_analyze h
  rw [Walk.run_eq_through, map_eq_pure_bind] at hrun
  obtain ⟨_, _, _, hwalk, -, -⟩ :=
    (Walk.through_appendOnly m {} m.definitions).exists_of_bind_ok (fun _ => .ok _) hrun
  obtain ⟨before, after, hm⟩ := List.append_of_mem hd
  rw [hm, Walk.through_append] at hwalk
  obtain ⟨w, es, _, hw, hrest, -⟩ := (Walk.through_appendOnly m {} before).exists_of_bind_ok
    (fun w => Walk.through_appendOnly m w (d :: after)) hwalk
  rw [Walk.through_cons] at hrest
  obtain ⟨v, rs, _, hv, -, -⟩ := (Walk.define_appendOnly m w.advance d).exists_of_bind_ok
    (fun v => Walk.through_appendOnly m v after) hrest
  exact ⟨w, v, rs, ⟨before, es, ⟨d :: after, hm.symm⟩, hw⟩, hv⟩

/-- The walk goes behind the first definition of a module if that is a function. -/
theorem Walk.Reached.first_function {m : Module} {d : FunctionDef} {f : Function}
    {rs : List Diagnostic} (hd : [.function d] <+: m.definitions)
    (h : Gives (d.define (Walk.advance {}).frame m.file).run (.ok f) rs) :
    ((Walk.advance {}).push f).Reached m := by
  refine ⟨[.function d], rs, hd, ?_⟩
  have hdefine : Gives ((Walk.advance {}).define m (.function d)).run
      (.ok ((Walk.advance {}).push f)) rs := by
    rw [Walk.define_function, ExceptT.run_map]
    exact h.map _
  show Gives ((Walk.advance {}).define m (.function d) >>= pure).run _ rs
  rwa [bind_pure]

end TypeHints
