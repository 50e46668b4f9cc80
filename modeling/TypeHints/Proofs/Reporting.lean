import TypeHints.Log

/-!
# What a computation reports

The computations of the analysis never read the log: each gives one result and adds the same
diagnostics to every log. `Gives m a ds` says so of a computation; it composes along `bind`, with
`ExceptT` on top as well, and determines result and diagnostics (`Gives.unique`).
`AppendOnly m` says it without naming them.
-/

namespace TypeHints

variable {α β ε : Type}

/-- Whatever the log, `m` gives `a` and adds `ds` to it. -/
def Gives (m : Reporting α) (a : α) (ds : List Diagnostic) : Prop :=
  ∀ log, m.run log = (a, log.append ds)

/-- `m` gives the same and adds the same to every log. -/
def AppendOnly (m : Reporting α) : Prop := ∃ a ds, Gives m a ds

/-- A success at one log goes on from the log it leaves. -/
theorem run_bind_ok {x : ExceptT ε Reporting α} {k : α → ExceptT ε Reporting β} {a : α}
    {log log' : Log} (h : x.run.run log = (.ok a, log')) :
    (x >>= k).run.run log = (k a).run.run log' := by
  rw [ExceptT.run_bind, StateT.run_bind, h]
  rfl

namespace Gives

/-! ## Computations that only report -/

section Reporting

variable {m : Reporting α} {k : α → Reporting β} {a a' : α} {b : β} {ds ds' es : List Diagnostic}

theorem unique (h : Gives m a ds) (h' : Gives m a' ds') : a = a' ∧ ds = ds' := by
  have e : (a, Log.append ∅ ds) = (a', Log.append ∅ ds') := (h ∅).symm.trans (h' ∅)
  obtain ⟨ha, hlog⟩ := Prod.mk.inj e
  exact ⟨ha, by simpa using congrArg Log.toList hlog⟩

theorem of_unchanged (h : ∀ log, m.run log = (a, log)) : Gives m a [] := by
  intro log
  rw [Log.append_nil, h log]

protected theorem pure (a : α) : Gives (pure a) a [] := .of_unchanged fun _ => rfl

protected theorem report (d : Diagnostic) : Gives (report d) () [d] := fun _ => rfl

protected theorem bind (h : Gives m a ds) (hk : Gives (k a) b es) :
    Gives (m >>= k) b (ds ++ es) := by
  intro log
  have hrun : (m >>= k).run log = (k (m.run log).1).run (m.run log).2 := rfl
  rw [hrun, h log, hk, Log.append_append]

/-- A silent computation in front changes nothing. -/
theorem bind_silent (h : Gives m a []) (hk : Gives (k a) b es) : Gives (m >>= k) b es :=
  h.bind hk

/-- A silent computation behind changes nothing. -/
theorem bind_then_silent (h : Gives m a ds) (hk : Gives (k a) b []) : Gives (m >>= k) b ds := by
  have := h.bind hk
  rwa [List.append_nil] at this

theorem map (f : α → β) (h : Gives m a ds) : Gives (f <$> m) (f a) ds := by
  intro log
  have hrun : (f <$> m).run log = (f (m.run log).1, (m.run log).2) := rfl
  rw [hrun, h log]

theorem appendOnly (h : Gives m a ds) : AppendOnly m := ⟨a, ds, h⟩

end Reporting

/-! ## Computations that may fail -/

section Failing

variable {x : ExceptT ε Reporting α} {k : α → ExceptT ε Reporting β} {a : α} {e : ε}
  {r : Except ε β} {ds es : List Diagnostic}

theorem ok (a : α) : Gives (pure a : ExceptT ε Reporting α).run (.ok a) [] := Gives.pure _

theorem error (e : ε) : Gives (throw e : ExceptT ε Reporting α).run (.error e) [] := Gives.pure _

theorem lift {m : Reporting α} (h : Gives m a ds) :
    Gives (liftM m : ExceptT ε Reporting α).run (.ok a) ds := h.map Except.ok

theorem liftExcept (s : Except ε α) : Gives (liftM s : ExceptT ε Reporting α).run s [] :=
  Gives.pure s

theorem bind_ok (h : Gives x.run (.ok a) ds) (hk : Gives (k a).run r es) :
    Gives (x >>= k).run r (ds ++ es) :=
  Gives.bind (k := ExceptT.bindCont k) h hk

/-- A silent success in front changes nothing. -/
theorem bind_ok_silent (h : Gives x.run (.ok a) []) (hk : Gives (k a).run r es) :
    Gives (x >>= k).run r es :=
  h.bind_ok hk

theorem bind_error (h : Gives x.run (.error e) ds) :
    Gives (x >>= k).run (Except.error e) ds := by
  have := Gives.bind (k := ExceptT.bindCont k) h (Gives.pure (Except.error e))
  rwa [List.append_nil] at this

theorem adapt {ε' : Type} {r : Except ε α} (f : ε → ε') (h : Gives x.run r ds) :
    Gives (x.adapt f).run (r.mapError f) ds :=
  h.map (Except.mapError f)

/-- A traversal succeeds if it does so at every member. -/
theorem exists_mapM_ok {f : α → ExceptT ε Reporting β} (xs : List α)
    (h : ∀ x ∈ xs, ∃ b ds, Gives (f x).run (.ok b) ds) :
    ∃ bs ds, Gives (xs.mapM f).run (.ok bs) ds := by
  induction xs with
  | nil => exact ⟨[], [], .ok []⟩
  | cons x xs ih =>
    obtain ⟨b, ds, hb⟩ := h x List.mem_cons_self
    obtain ⟨bs, es, hbs⟩ := ih fun y hy => h y (List.mem_cons_of_mem _ hy)
    rw [List.mapM_cons]
    exact ⟨b :: bs, _, hb.bind_ok (hbs.bind_ok (.ok _))⟩

end Failing

/-! ## Folds -/

theorem foldlM_cons {step : β → α → Reporting β} {x : α} {xs : List α} {b c d : β}
    {ds es : List Diagnostic} (h : Gives (step b x) c ds) (hs : Gives (xs.foldlM step c) d es) :
    Gives ((x :: xs).foldlM step b) d (ds ++ es) := by
  rw [List.foldlM_cons]
  exact h.bind hs

theorem foldlM_append {step : β → α → Reporting β} {xs ys : List α} {b c d : β}
    {ds es : List Diagnostic} (h : Gives (xs.foldlM step b) c ds)
    (hs : Gives (ys.foldlM step c) d es) : Gives ((xs ++ ys).foldlM step b) d (ds ++ es) := by
  rw [List.foldlM_append]
  exact h.bind hs

theorem foldlM_singleton {step : β → α → Reporting β} {x : α} {b c : β} {ds : List Diagnostic}
    (h : Gives (step b x) c ds) : Gives ([x].foldlM step b) c ds := by
  rw [List.foldlM_cons]
  exact h.bind_then_silent (.pure c)

theorem foldlM_liftM (step : β → α → Reporting β) (xs : List α) (b : β) :
    xs.foldlM (fun b x => (liftM (step b x) : ExceptT ε Reporting β)) b =
      liftM (xs.foldlM step b) := by
  induction xs generalizing b with
  | nil => rfl
  | cons x xs ih => simp only [List.foldlM_cons, liftM_bind, ih]

/-- A fold that only reports may be carried out among computations that may fail. -/
theorem foldlM_lift {step : β → α → Reporting β} {xs : List α} {b c : β} {ds : List Diagnostic}
    (h : Gives (xs.foldlM step b) c ds) :
    Gives (xs.foldlM (fun b x => (liftM (step b x) : ExceptT ε Reporting β)) b).run (.ok c) ds := by
  rw [foldlM_liftM]
  exact h.lift

end Gives

/-! ## Silent computations -/

/-- `x` may fail but reports nothing. -/
def Silent (x : ExceptT ε Reporting α) : Prop := ∃ r, Gives x.run r []

namespace Silent

protected theorem pure (a : α) : Silent (pure a : ExceptT ε Reporting α) := ⟨_, .ok a⟩

theorem liftExcept (s : Except ε α) : Silent (liftM s : ExceptT ε Reporting α) :=
  ⟨s, .liftExcept s⟩

theorem adapt {ε' : Type} {x : ExceptT ε Reporting α} (h : Silent x) (f : ε → ε') :
    Silent (x.adapt f) := by
  obtain ⟨r, hr⟩ := h
  exact ⟨_, hr.adapt f⟩

protected theorem bind {x : ExceptT ε Reporting α} {k : α → ExceptT ε Reporting β}
    (h : Silent x) (hk : ∀ a, Silent (k a)) : Silent (x >>= k) := by
  obtain ⟨r, hr⟩ := h
  cases r with
  | error e => exact ⟨_, hr.bind_error⟩
  | ok a =>
    obtain ⟨r, hka⟩ := hk a
    exact ⟨r, hr.bind_ok_silent hka⟩

end Silent

/-! ## Steps -/

/-- From `s` through all of a list to the last state and with these reports, where `R` says what
one member may do. -/
inductive Steps {σ : Type} (R : σ → α → σ → List Diagnostic → Prop) :
    σ → List α → σ → List Diagnostic → Prop
  | nil (s : σ) : Steps R s [] s []
  | cons {s t u : σ} {x : α} {xs : List α} {ds es : List Diagnostic} (h : R s x t ds)
      (hs : Steps R t xs u es) : Steps R s (x :: xs) u (ds ++ es)

namespace Steps

variable {σ : Type} {R : σ → α → σ → List Diagnostic → Prop}

theorem of_foldlM_mem (step : σ → α → Reporting σ) (xs : List α)
    (h : ∀ s, ∀ x ∈ xs, ∃ t ds, Gives (step s x) t ds ∧ R s x t ds) (s : σ) :
    ∃ t ds, Gives (xs.foldlM step s) t ds ∧ Steps R s xs t ds := by
  induction xs generalizing s with
  | nil => exact ⟨s, [], .pure s, .nil s⟩
  | cons x xs ih =>
    obtain ⟨t, ds, hstep, hR⟩ := h s x List.mem_cons_self
    obtain ⟨u, es, hfold, hs⟩ := ih (fun s y hy => h s y (List.mem_cons_of_mem _ hy)) t
    exact ⟨u, ds ++ es, hstep.foldlM_cons hfold, .cons hR hs⟩

theorem of_foldlM (step : σ → α → Reporting σ)
    (h : ∀ s x, ∃ t ds, Gives (step s x) t ds ∧ R s x t ds) (xs : List α) (s : σ) :
    ∃ t ds, Gives (xs.foldlM step s) t ds ∧ Steps R s xs t ds :=
  of_foldlM_mem step xs (fun s x _ => h s x) s

/-- What every member keeps, the whole list keeps. -/
theorem preserves {P : σ → Prop} {xs : List α} {s t : σ} {ds : List Diagnostic}
    (hR : ∀ {s x t ds}, x ∈ xs → R s x t ds → P s → P t) (h : Steps R s xs t ds) (hs : P s) :
    P t := by
  induction h with
  | nil => exact hs
  | cons hx _ ih =>
    exact ih (fun hmem => hR (List.mem_cons_of_mem _ hmem)) (hR List.mem_cons_self hx hs)

end Steps

/-! ## Append-only computations -/

namespace AppendOnly

variable {m : Reporting α} {k : α → Reporting β}

protected theorem pure (a : α) : AppendOnly (pure a) := (Gives.pure a).appendOnly

protected theorem report (d : Diagnostic) : AppendOnly (report d) := (Gives.report d).appendOnly

protected theorem bind (h : AppendOnly m) (hk : ∀ a, AppendOnly (k a)) : AppendOnly (m >>= k) := by
  obtain ⟨a, ds, h⟩ := h
  obtain ⟨b, es, hk⟩ := hk a
  exact (h.bind hk).appendOnly

theorem mapM {f : α → Reporting β} (h : ∀ a, AppendOnly (f a)) (xs : List α) :
    AppendOnly (xs.mapM f) := by
  induction xs with
  | nil => exact AppendOnly.pure []
  | cons x xs ih =>
    rw [List.mapM_cons]
    exact (h x).bind fun _ => ih.bind fun _ => AppendOnly.pure _

theorem foldlM {step : β → α → Reporting β} (h : ∀ b x, AppendOnly (step b x)) (xs : List α)
    (b : β) : AppendOnly (xs.foldlM step b) := by
  induction xs generalizing b with
  | nil => exact AppendOnly.pure b
  | cons x xs ih =>
    rw [List.foldlM_cons]
    exact (h b x).bind ih

section Failing

variable {x : ExceptT ε Reporting α}

theorem ok (a : α) : AppendOnly (pure a : ExceptT ε Reporting α).run := (Gives.ok a).appendOnly

theorem error (e : ε) : AppendOnly (throw e : ExceptT ε Reporting α).run :=
  (Gives.error e).appendOnly

theorem lift (h : AppendOnly m) : AppendOnly (liftM m : ExceptT ε Reporting α).run := by
  obtain ⟨a, ds, h⟩ := h
  exact h.lift.appendOnly

theorem liftExcept (s : Except ε α) : AppendOnly (liftM s : ExceptT ε Reporting α).run :=
  (Gives.liftExcept s).appendOnly

theorem adapt {ε' : Type} (f : ε → ε') (h : AppendOnly x.run) : AppendOnly (x.adapt f).run := by
  obtain ⟨r, ds, h⟩ := h
  exact (h.adapt f).appendOnly

theorem bindExcept {k : α → ExceptT ε Reporting β} (h : AppendOnly x.run)
    (hk : ∀ a, AppendOnly (k a).run) : AppendOnly (x >>= k).run := by
  obtain ⟨r, ds, h⟩ := h
  cases r with
  | error e => exact h.bind_error.appendOnly
  | ok a =>
    obtain ⟨r, es, hka⟩ := hk a
    exact (h.bind_ok hka).appendOnly

/-- What a success is made of. -/
theorem exists_of_bind_ok {k : α → ExceptT ε Reporting β} {b : β} {ds : List Diagnostic}
    (hx : AppendOnly x.run) (hk : ∀ a, AppendOnly (k a).run)
    (h : Gives (x >>= k).run (.ok b) ds) :
    ∃ a es fs, Gives x.run (.ok a) es ∧ Gives (k a).run (.ok b) fs ∧ ds = es ++ fs := by
  obtain ⟨r, es, hx⟩ := hx
  cases r with
  | error e => cases (h.unique hx.bind_error).1
  | ok a =>
    obtain ⟨r, fs, hka⟩ := hk a
    obtain ⟨rfl, rfl⟩ := h.unique (hx.bind_ok hka)
    exact ⟨a, es, fs, hx, hka, rfl⟩

theorem mapMExcept {f : α → ExceptT ε Reporting β} (h : ∀ a, AppendOnly (f a).run)
    (xs : List α) : AppendOnly (xs.mapM f).run := by
  induction xs with
  | nil => exact AppendOnly.ok []
  | cons x xs ih =>
    rw [List.mapM_cons]
    exact (h x).bindExcept fun _ => ih.bindExcept fun _ => AppendOnly.ok _

theorem foldlMExcept {step : β → α → ExceptT ε Reporting β} (h : ∀ b x, AppendOnly (step b x).run)
    (xs : List α) (b : β) : AppendOnly (xs.foldlM step b).run := by
  induction xs generalizing b with
  | nil => exact AppendOnly.ok b
  | cons x xs ih =>
    rw [List.foldlM_cons]
    exact (h b x).bindExcept ih

end Failing

end AppendOnly

theorem Silent.appendOnly {x : ExceptT ε Reporting α} (h : Silent x) : AppendOnly x.run := by
  obtain ⟨r, h⟩ := h
  exact h.appendOnly

end TypeHints
