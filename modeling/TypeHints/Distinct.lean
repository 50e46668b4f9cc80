/-!
# Lists without repetition

Building a list up to a relation `same`: a member is added at the end unless one already in the
list is the same. The first of several equal members is the one that stays.
-/

namespace TypeHints

universe u

variable {α : Type u} (same : α → α → Bool)

/-- `x` at the end of `xs`, unless a member of `xs` is the same. -/
def addNew (xs : List α) (x : α) : List α := if xs.any (same · x) then xs else xs ++ [x]

/-- The members of `ys` added to `xs` one after the other. -/
def addAllNew (xs ys : List α) : List α := ys.foldl (addNew same) xs

@[simp] theorem addAllNew_nil (xs : List α) : addAllNew same xs [] = xs := rfl

@[simp] theorem addAllNew_cons (xs : List α) (y : α) (ys : List α) :
    addAllNew same xs (y :: ys) = addAllNew same (addNew same xs y) ys := rfl

theorem addAllNew_append (xs ys zs : List α) :
    addAllNew same xs (ys ++ zs) = addAllNew same (addAllNew same xs ys) zs := by
  simp [addAllNew, List.foldl_append]

theorem mem_or_eq_of_mem_addNew {xs : List α} {x y : α} (h : y ∈ addNew same xs x) :
    y ∈ xs ∨ y = x := by
  unfold addNew at h
  split at h <;> simp_all

theorem mem_or_mem_of_mem_addAllNew {xs ys : List α} {y : α} (h : y ∈ addAllNew same xs ys) :
    y ∈ xs ∨ y ∈ ys := by
  induction ys generalizing xs with
  | nil => exact .inl h
  | cons x ys ih =>
    rcases ih h with h | h
    · rcases mem_or_eq_of_mem_addNew same h with h | rfl
      · exact .inl h
      · exact .inr List.mem_cons_self
    · exact .inr (List.mem_cons_of_mem _ h)

/-- No two members of the list are the same. -/
def Distinct (xs : List α) : Prop := xs.Pairwise fun x y => same x y = false

theorem Distinct.addNew {xs : List α} (h : Distinct same xs) (x : α) :
    Distinct same (addNew same xs x) := by
  unfold TypeHints.addNew
  split
  · exact h
  · rename_i hx
    refine List.pairwise_append.2 ⟨h, by simp, fun a ha b hb => ?_⟩
    obtain rfl := List.mem_singleton.1 hb
    simpa using fun e => hx (List.any_eq_true.2 ⟨a, ha, e⟩)

theorem Distinct.addAllNew {xs : List α} (h : Distinct same xs) (ys : List α) :
    Distinct same (addAllNew same xs ys) := by
  induction ys generalizing xs with
  | nil => exact h
  | cons y ys ih => exact ih (h.addNew same y)

end TypeHints
