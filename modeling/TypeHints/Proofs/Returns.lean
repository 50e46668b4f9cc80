import Mathlib.Data.List.Forall2
import TypeHints.Proofs.Reporting

/-!
# What the results of computations satisfy

`Yields P m` says that the result of `m` satisfies `P`, whatever the log, `Returns P x` that the
result of `x` does, if `x` succeeds, and `Throws P x` that its error does, if it fails. They are
carried along `bind` and the traversals of lists.
-/

namespace TypeHints

variable {α β ε ε' : Type}

/-- Whatever the log, the result of `m` satisfies `P`. -/
def Yields (P : α → Prop) (m : Reporting α) : Prop := ∀ log, P (m.run log).1

/-- If `x` succeeds, its result satisfies `P`. -/
def Returns (P : α → Prop) (x : ExceptT ε Reporting α) : Prop :=
  Yields (fun r => ∀ a, r = .ok a → P a) x.run

/-- If `x` fails, its error satisfies `P`. -/
def Throws (P : ε → Prop) (x : ExceptT ε Reporting α) : Prop :=
  Yields (fun r => ∀ e, r = .error e → P e) x.run

namespace Yields

variable {P : α → Prop} {Q : β → Prop} {m : Reporting α} {k : α → Reporting β}

protected theorem pure {a : α} (h : P a) : Yields P (pure a) := fun _ => h

protected theorem bind (h : Yields P m) (hk : ∀ a, P a → Yields Q (k a)) : Yields Q (m >>= k) :=
  fun log => hk _ (h log) _

theorem bind_congr {k' : α → Reporting β} (h : Yields P m) (hk : ∀ a, P a → k a = k' a) :
    m >>= k = m >>= k' :=
  funext fun log => congrArg (StateT.run · (m.run log).2) (hk _ (h log))

theorem mono {P' : α → Prop} (h : Yields P m) (hP : ∀ a, P a → P' a) : Yields P' m :=
  fun log => hP _ (h log)

theorem and {P' : α → Prop} (h : Yields P m) (h' : Yields P' m) :
    Yields (fun a => P a ∧ P' a) m :=
  fun log => ⟨h log, h' log⟩

/-- Nothing need be known of a result that is not used. -/
theorem trivial (m : Reporting α) : Yields (fun _ => True) m := fun _ => True.intro

theorem of_gives (h : Yields P m) {a : α} {ds : List Diagnostic} (hm : Gives m a ds) : P a := by
  have := h ∅
  rwa [hm ∅] at this

/-- What is known of the result of a computation that only adds to the log. -/
theorem of_appendOnly (h : AppendOnly m) : Yields (fun a => ∃ ds, Gives m a ds) m := by
  intro log
  obtain ⟨a, ds, h⟩ := h
  rw [h log]
  exact ⟨ds, h⟩

theorem mapM {f : β → Reporting α} (xs : List β) (h : ∀ x ∈ xs, Yields P (f x)) :
    Yields (fun bs => ∀ b ∈ bs, P b) (xs.mapM f) := by
  induction xs with
  | nil =>
    rw [List.mapM_nil]
    exact .pure fun _ hb => absurd hb List.not_mem_nil
  | cons x xs ih =>
    rw [List.mapM_cons]
    refine (h x List.mem_cons_self).bind fun b hb => ?_
    refine (ih fun y hy => h y (List.mem_cons_of_mem _ hy)).bind fun bs hbs => ?_
    exact .pure (List.forall_mem_cons.2 ⟨hb, hbs⟩)

/-- What every step of a fold keeps, the fold keeps. -/
theorem foldlM {step : β → α → Reporting β} (xs : List α)
    (hstep : ∀ b, Q b → ∀ x ∈ xs, Yields Q (step b x)) {b : β} (hb : Q b) :
    Yields Q (xs.foldlM step b) := by
  induction xs generalizing b with
  | nil =>
    rw [List.foldlM_nil]
    exact .pure hb
  | cons x xs ih =>
    rw [List.foldlM_cons]
    refine (hstep b hb x List.mem_cons_self).bind fun c hc => ?_
    exact ih (fun b hb y hy => hstep b hb y (List.mem_cons_of_mem _ hy)) hc

end Yields

namespace Returns

variable {P : α → Prop} {Q : β → Prop} {x : ExceptT ε Reporting α}
  {k : α → ExceptT ε Reporting β}

protected theorem pure {a : α} (h : P a) : Returns P (pure a : ExceptT ε Reporting α) := by
  rintro log _ ⟨⟩
  exact h

protected theorem throw (e : ε) : Returns P (throw e : ExceptT ε Reporting α) := by
  rintro log _ ⟨⟩

protected theorem bind (h : Returns P x) (hk : ∀ a, P a → Returns Q (k a)) :
    Returns Q (x >>= k) := by
  refine Yields.bind (k := ExceptT.bindCont k) h fun r hr => ?_
  cases r with
  | error e => exact Returns.throw e
  | ok a => exact hk a (hr a rfl)

theorem mono {P' : α → Prop} (h : Returns P x) (hP : ∀ a, P a → P' a) : Returns P' x :=
  Yields.mono h fun _ hr a ha => hP a (hr a ha)

theorem trivial (x : ExceptT ε Reporting α) : Returns (fun _ => True) x :=
  fun _ _ _ => True.intro

/-- What may not be returned does not matter for what follows. -/
theorem bind_congr {k' : α → ExceptT ε Reporting β} (h : Returns P x)
    (hk : ∀ a, P a → k a = k' a) : x >>= k = x >>= k' := by
  show (x.run >>= ExceptT.bindCont k : Reporting _) = x.run >>= ExceptT.bindCont k'
  refine Yields.bind_congr h fun r hr => ?_
  cases r with
  | error e => rfl
  | ok a => exact hk a (hr a rfl)

theorem lift {m : Reporting α} (h : Yields P m) : Returns P (liftM m : ExceptT ε Reporting α) := by
  rintro log _ ⟨⟩
  exact h log

theorem liftExcept {s : Except ε α} (h : ∀ a, s = .ok a → P a) :
    Returns P (liftM s : ExceptT ε Reporting α) :=
  fun _ => h

theorem map {f : α → β} (h : Returns P x) (hf : ∀ a, P a → Q (f a)) : Returns Q (f <$> x) := by
  rw [map_eq_pure_bind]
  exact h.bind fun a ha => .pure (hf a ha)

theorem of_gives (h : Returns P x) {a : α} {ds : List Diagnostic} (hx : Gives x.run (.ok a) ds) :
    P a :=
  Yields.of_gives h hx a rfl

theorem of_run {r : Except ε α} {ds : List Diagnostic} (hx : Gives x.run r ds)
    (h : ∀ a, r = .ok a → P a) : Returns P x := by
  intro log
  rw [hx log]
  exact h

theorem of_appendOnly (h : AppendOnly x.run) :
    Returns (fun a => ∃ ds, Gives x.run (.ok a) ds) x :=
  (Yields.of_appendOnly h).mono fun _ ⟨ds, hr⟩ _ ha => ⟨ds, ha ▸ hr⟩

theorem adapt (f : ε → ε') (h : Returns P x) : Returns P (x.adapt f) := by
  intro log a ha
  refine h log a ?_
  have hrun : ((x.adapt f).run.run log).1 = ((x.run.run log).1).mapError f := rfl
  rw [hrun] at ha
  cases hr : (x.run.run log).1 with
  | error e =>
    rw [hr] at ha
    cases ha
  | ok b =>
    rw [hr] at ha
    cases ha
    rfl

/-- What each member gives, member by member. -/
theorem mapM_forall₂ {R : β → α → Prop} {f : β → ExceptT ε Reporting α} (xs : List β)
    (h : ∀ x ∈ xs, Returns (R x) (f x)) : Returns (List.Forall₂ R xs) (xs.mapM f) := by
  induction xs with
  | nil =>
    rw [List.mapM_nil]
    exact .pure .nil
  | cons x xs ih =>
    rw [List.mapM_cons]
    refine (h x List.mem_cons_self).bind fun b hb => ?_
    refine (ih fun y hy => h y (List.mem_cons_of_mem _ hy)).bind fun bs hbs => ?_
    exact .pure (.cons hb hbs)

theorem mapM {f : β → ExceptT ε Reporting α} (xs : List β) (h : ∀ x ∈ xs, Returns P (f x)) :
    Returns (fun bs => bs.length = xs.length ∧ ∀ b ∈ bs, P b) (xs.mapM f) := by
  refine (mapM_forall₂ xs h).mono fun bs hbs => ⟨hbs.length_eq.symm, ?_⟩
  have hboth : List.Forall₂ (fun b _ => P b ∧ True) bs xs := hbs.flip.imp fun _ _ hb => ⟨hb, ⟨⟩⟩
  exact ((List.forall₂_and_left bs xs).1 hboth).1

/-- What every step of a fold keeps, the fold keeps. -/
theorem foldlM {step : β → α → ExceptT ε Reporting β} (xs : List α)
    (hstep : ∀ b, Q b → ∀ x ∈ xs, Returns Q (step b x)) {b : β} (hb : Q b) :
    Returns Q (xs.foldlM step b) := by
  induction xs generalizing b with
  | nil =>
    rw [List.foldlM_nil]
    exact .pure hb
  | cons x xs ih =>
    rw [List.foldlM_cons]
    refine (hstep b hb x List.mem_cons_self).bind fun c hc => ?_
    exact ih (fun b hb y hy => hstep b hb y (List.mem_cons_of_mem _ hy)) hc

end Returns

namespace Throws

variable {P : ε → Prop} {x : ExceptT ε Reporting α} {k : α → ExceptT ε Reporting β}

protected theorem pure (a : α) : Throws P (pure a : ExceptT ε Reporting α) := by
  rintro log _ ⟨⟩

protected theorem throw {e : ε} (h : P e) : Throws P (throw e : ExceptT ε Reporting α) := by
  rintro log _ ⟨⟩
  exact h

protected theorem bind (h : Throws P x) (hk : ∀ a, Throws P (k a)) : Throws P (x >>= k) := by
  refine Yields.bind (k := ExceptT.bindCont k) h fun r hr => ?_
  cases r with
  | error e => exact Throws.throw (hr e rfl)
  | ok a => exact hk a

theorem lift (m : Reporting α) : Throws P (liftM m : ExceptT ε Reporting α) := by
  rintro log _ ⟨⟩

theorem map (f : α → β) (h : Throws P x) : Throws P (f <$> x) := by
  rw [map_eq_pure_bind]
  exact h.bind fun a => .pure _

/-- What every wrapped error satisfies, the error does, whatever was wrapped. -/
theorem adapt {P : ε' → Prop} {f : ε → ε'} (h : ∀ e, P (f e)) (x : ExceptT ε Reporting α) :
    Throws P (x.adapt f) := by
  intro log e' he'
  have hrun : ((x.adapt f).run.run log).1 = ((x.run.run log).1).mapError f := rfl
  rw [hrun] at he'
  cases hr : (x.run.run log).1 with
  | error e =>
    rw [hr] at he'
    exact Except.error.inj he' ▸ h e
  | ok a =>
    rw [hr] at he'
    cases he'

theorem mapM {f : α → ExceptT ε Reporting β} (h : ∀ a, Throws P (f a)) (xs : List α) :
    Throws P (xs.mapM f) := by
  induction xs with
  | nil => exact .pure []
  | cons x xs ih =>
    rw [List.mapM_cons]
    exact (h x).bind fun _ => ih.bind fun _ => .pure _

theorem foldlM {step : β → α → ExceptT ε Reporting β} (h : ∀ b a, Throws P (step b a))
    (xs : List α) (b : β) : Throws P (xs.foldlM step b) := by
  induction xs generalizing b with
  | nil => exact .pure b
  | cons x xs ih =>
    rw [List.foldlM_cons]
    exact (h b x).bind fun c => ih c

end Throws

end TypeHints
