/-!
# Traversals that commute with a map

If a step commutes with a map, so do the traversals it makes up: `mapM` and `foldlM` over the
images of a list give the images of what they give over the list.
-/

namespace TypeHints

universe u v w

variable {m : Type u → Type v} [Monad m] [LawfulMonad m]

theorem mapM_comm {α : Type w} {β β' : Type u} {step : α → m β} {step' : α → m β'} {h : β → β'}
    (hstep : ∀ x, step' x = h <$> step x) (xs : List α) :
    xs.mapM step' = List.map h <$> xs.mapM step := by
  induction xs with
  | nil => simp
  | cons x xs ih =>
    rw [List.mapM_cons, List.mapM_cons, hstep, ih]
    simp only [map_bind, bind_map_left, map_pure, List.map_cons]

theorem mapM_map_comm {α α' : Type w} {β β' : Type u} {step : α → m β} {step' : α' → m β'}
    {g : α → α'} {h : β → β'} (hstep : ∀ x, step' (g x) = h <$> step x) (xs : List α) :
    (xs.map g).mapM step' = List.map h <$> xs.mapM step := by
  rw [List.mapM_map]
  exact mapM_comm hstep xs

theorem mapM_congr_map {α α' : Type w} {β : Type u} {step : α → m β} {step' : α' → m β}
    {g : α → α'} (hstep : ∀ x, step' (g x) = step x) (xs : List α) :
    (xs.map g).mapM step' = xs.mapM step := by
  rw [List.mapM_map]
  exact congrArg (fun k => xs.mapM k) (funext hstep)

theorem mapM_eq_pure {α : Type w} {β : Type u} {step : α → m β} {f : α → β} (xs : List α)
    (hstep : ∀ x ∈ xs, step x = pure (f x)) : xs.mapM step = pure (xs.map f) := by
  induction xs with
  | nil => exact List.mapM_nil
  | cons x xs ih =>
    rw [List.mapM_cons, hstep x List.mem_cons_self,
      ih fun y hy => hstep y (List.mem_cons_of_mem _ hy), pure_bind, pure_bind, List.map_cons]

theorem foldlM_comm {α : Type w} {σ σ' : Type u} {step : σ → α → m σ} {step' : σ' → α → m σ'}
    {k : σ → σ'} (xs : List α) (hstep : ∀ s, ∀ x ∈ xs, step' (k s) x = k <$> step s x) (s : σ) :
    xs.foldlM step' (k s) = k <$> xs.foldlM step s := by
  induction xs generalizing s with
  | nil => simp
  | cons x xs ih =>
    rw [List.foldlM_cons, List.foldlM_cons, hstep s x List.mem_cons_self, bind_map_left, map_bind]
    exact bind_congr fun t => ih (fun s y hy => hstep s y (List.mem_cons_of_mem _ hy)) t

theorem foldlM_map_comm {α α' : Type w} {σ σ' : Type u} {step : σ → α → m σ}
    {step' : σ' → α' → m σ'} {g : α → α'} {k : σ → σ'} (xs : List α)
    (hstep : ∀ s, ∀ x ∈ xs, step' (k s) (g x) = k <$> step s x) (s : σ) :
    (xs.map g).foldlM step' (k s) = k <$> xs.foldlM step s := by
  rw [List.foldlM_map]
  exact foldlM_comm xs hstep s

end TypeHints
