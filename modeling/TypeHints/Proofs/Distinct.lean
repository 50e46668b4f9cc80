import Mathlib.Data.List.Induction
import Mathlib.Data.List.Nodup
import Mathlib.Data.List.Perm.Basic
import TypeHints.Distinct

/-!
# Lists without repetition, as sets

Where sameness means that a key is equal, adding members one after the other gives a list with one
member for each key (`nodup_map_addAllNew`) and with the keys of all that was added
(`mem_map_addAllNew`). So the order and the repetition of what is added decide only the order of
the list (`perm_map_addAllNew`), and what is built from the members may be added without their
repetitions (`addAllNew_flatMap_addAllNew`).
-/

namespace TypeHints

universe u v w

/-! ## Members that are mapped -/

section Map

variable {α : Type u} {β : Type v} {same : α → α → Bool} {same' : β → β → Bool} {f : α → β}

theorem map_addNew (h : ∀ x y, same' (f x) (f y) = same x y) (xs : List α) (x : α) :
    (addNew same xs x).map f = addNew same' (xs.map f) (f x) := by
  have hany : (xs.map f).any (same' · (f x)) = xs.any (same · x) := by
    rw [List.any_map]
    exact congrArg (xs.any ·) (funext fun y => h y x)
  unfold addNew
  rw [hany]
  split
  · rfl
  · rw [List.map_append]
    rfl

theorem map_addAllNew (h : ∀ x y, same' (f x) (f y) = same x y) (xs ys : List α) :
    (addAllNew same xs ys).map f = addAllNew same' (xs.map f) (ys.map f) := by
  unfold addAllNew
  rw [List.foldl_map]
  exact (List.foldl_hom (List.map f) fun xs x => (map_addNew h xs x).symm).symm

end Map

/-! ## Members that are added for the first time -/

/-- A list that is distinct itself is added by appending its new members. -/
theorem addAllNew_eq_append_of_distinct {α : Type u} {same : α → α → Bool} {ys : List α}
    (h : Distinct same ys) (xs : List α) :
    addAllNew same xs ys = xs ++ ys.filter fun y => !xs.any (same · y) := by
  induction ys generalizing xs with
  | nil => simp
  | cons y ys ih =>
    obtain ⟨hy, hys⟩ := List.pairwise_cons.1 h
    rw [addAllNew_cons, ih hys, addNew]
    cases hany : xs.any (same · y) with
    | true => simp [hany]
    | false =>
      -- no later member is the same as `y`
      have hrest : ∀ z ∈ ys, (!(xs ++ [y]).any (same · z)) = !xs.any (same · z) := by
        intro z hz
        simp [hy z hz]
      simp only [Bool.false_eq_true, if_false, List.filter_cons, hany, Bool.not_false, if_true,
        List.append_assoc, List.singleton_append, List.filter_congr hrest]

/-- What is distinct already is added as it is. -/
theorem addAllNew_nil_of_distinct {α : Type u} {same : α → α → Bool} {xs : List α}
    (h : Distinct same xs) : addAllNew same [] xs = xs := by
  simp [addAllNew_eq_append_of_distinct h]

section Equality

variable {α : Type u} [BEq α] [EquivBEq α]

/-- A member is added only once. -/
theorem addNew_addNew (xs : List α) (x : α) :
    addNew (· == ·) (addNew (· == ·) xs x) x = addNew (· == ·) xs x := by
  have hx : (addNew (· == ·) xs x).any (· == x) = true := by
    unfold addNew
    split
    · assumption
    · simp
  rw [addNew, if_pos hx]

/-- Adding members up to equality appends the new ones, each where it comes first. -/
theorem addAllNew_eq_append_eraseDups (xs ys : List α) :
    addAllNew (· == ·) xs ys = xs ++ (ys.filter fun y => !xs.any (· == y)).eraseDups := by
  induction ys generalizing xs with
  | nil => simp
  | cons y ys ih =>
    rw [addAllNew_cons, ih, addNew]
    cases hy : xs.any (· == y) with
    | true => simp [hy]
    | false =>
      have hrest : ∀ z, (!(xs ++ [y]).any (· == z)) = (!(z == y) && !xs.any (· == z)) := by
        intro z
        simp [BEq.comm (a := z), Bool.and_comm]
      simp only [Bool.false_eq_true, if_false, List.filter_cons, hy, Bool.not_false, if_true,
        List.eraseDups_cons, List.filter_filter, hrest, List.append_assoc, List.singleton_append]

theorem addAllNew_nil_eq_eraseDups (xs : List α) : addAllNew (· == ·) [] xs = xs.eraseDups := by
  simp [addAllNew_eq_append_eraseDups]

theorem distinct_eraseDups (xs : List α) : Distinct (· == ·) xs.eraseDups := by
  rw [← addAllNew_nil_eq_eraseDups]
  exact Distinct.addAllNew _ .nil _

theorem eraseDups_concat (xs : List α) (x : α) :
    (xs ++ [x]).eraseDups = addNew (· == ·) xs.eraseDups x := by
  rw [← addAllNew_nil_eq_eraseDups, addAllNew_append, addAllNew_nil_eq_eraseDups, addAllNew_cons,
    addAllNew_nil]

end Equality

/-! ## Members with keys -/

variable {α : Type u} {β : Type v} {same : α → α → Bool} {key : α → β}
  (hkey : ∀ x y, same x y = true ↔ key x = key y)

include hkey

theorem mem_map_addNew {xs : List α} {x : α} {k : β} :
    k ∈ (addNew same xs x).map key ↔ k ∈ xs.map key ∨ k = key x := by
  unfold addNew
  split
  · rename_i hany
    obtain ⟨y, hy, hsame⟩ := List.any_eq_true.1 hany
    refine ⟨.inl, fun h => h.elim id fun hk => ?_⟩
    rw [hk, ← (hkey y x).1 hsame]
    exact List.mem_map_of_mem hy
  · rw [List.map_append, List.mem_append, List.map_singleton, List.mem_singleton]

theorem mem_map_addAllNew {xs ys : List α} {k : β} :
    k ∈ (addAllNew same xs ys).map key ↔ k ∈ xs.map key ∨ k ∈ ys.map key := by
  induction ys generalizing xs with
  | nil => simp
  | cons y ys ih =>
    rw [addAllNew_cons, ih, mem_map_addNew hkey, List.map_cons, List.mem_cons, or_assoc]

theorem Distinct.nodup_map {xs : List α} (h : Distinct same xs) : (xs.map key).Nodup := by
  refine List.pairwise_map.2 (h.imp fun hxy heq => ?_)
  rw [(hkey _ _).2 heq] at hxy
  cases hxy

theorem nodup_map_addAllNew (xs : List α) : ((addAllNew same [] xs).map key).Nodup :=
  Distinct.nodup_map hkey (Distinct.addAllNew same .nil xs)

/-- Adding the same keys in another order, or more often, gives the same members in some order. -/
theorem perm_map_addAllNew {xs ys : List α} (h : ∀ k, k ∈ xs.map key ↔ k ∈ ys.map key) :
    ((addAllNew same [] xs).map key).Perm ((addAllNew same [] ys).map key) := by
  rw [List.perm_ext_iff_of_nodup (nodup_map_addAllNew hkey xs) (nodup_map_addAllNew hkey ys)]
  intro k
  rw [mem_map_addAllNew hkey, mem_map_addAllNew hkey, h k]

/-! ## What is there already -/

theorem addNew_eq_self {xs : List α} {x : α} (h : key x ∈ xs.map key) : addNew same xs x = xs := by
  obtain ⟨y, hy, heq⟩ := List.mem_map.1 h
  exact if_pos (List.any_eq_true.2 ⟨y, hy, (hkey y x).2 heq⟩)

theorem addNew_of_not_mem {xs : List α} {x : α} (h : key x ∉ xs.map key) :
    addNew same xs x = xs ++ [x] := by
  refine if_neg fun hany => h ?_
  obtain ⟨y, hy, hsame⟩ := List.any_eq_true.1 hany
  exact List.mem_map.2 ⟨y, hy, (hkey y x).1 hsame⟩

theorem addAllNew_eq_self {xs ys : List α} (h : ∀ y ∈ ys, key y ∈ xs.map key) :
    addAllNew same xs ys = xs := by
  induction ys with
  | nil => rfl
  | cons y ys ih =>
    obtain ⟨hy, hys⟩ := List.forall_mem_cons.1 h
    rw [addAllNew_cons, addNew_eq_self hkey hy, ih hys]

/-- Adding what is built from members adds the same as building it from each of them once, if the
same members make the same keys. -/
theorem addAllNew_flatMap_addAllNew {f : α → List α}
    (hf : ∀ x y, key x = key y → (f x).map key = (f y).map key) (xs ys : List α) :
    addAllNew same xs ((addAllNew same [] ys).flatMap f) = addAllNew same xs (ys.flatMap f) := by
  induction ys using List.reverseRecOn with
  | nil => rfl
  | append_singleton ys y ih =>
    rw [addAllNew_append, addAllNew_cons, addAllNew_nil, List.flatMap_append, addAllNew_append]
    by_cases hy : key y ∈ (addAllNew same [] ys).map key
    · rw [addNew_eq_self hkey hy, ih]
      -- what `y` makes was made by the member that is the same
      refine (addAllNew_eq_self hkey fun z hz => ?_).symm
      obtain ⟨y', hy', hsame⟩ : ∃ y' ∈ ys, key y' = key y := by
        simpa [mem_map_addAllNew hkey] using hy
      have hz' : key z ∈ (f y').map key := by
        rw [hf y' y hsame]
        exact List.mem_map_of_mem (by simpa using hz)
      obtain ⟨z', hmem, heq⟩ := List.mem_map.1 hz'
      rw [mem_map_addAllNew hkey, ← heq]
      exact .inr (List.mem_map_of_mem (List.mem_flatMap.2 ⟨y', hy', hmem⟩))
    · rw [addNew_of_not_mem hkey hy, List.flatMap_append, addAllNew_append, ih]

theorem addAllNew_addNew (xs ys : List α) (y : α) :
    addAllNew same xs (addNew same ys y) = addNew same (addAllNew same xs ys) y := by
  by_cases hy : key y ∈ ys.map key
  · have hadded : key y ∈ (addAllNew same xs ys).map key := (mem_map_addAllNew hkey).2 (.inr hy)
    rw [addNew_eq_self hkey hy, addNew_eq_self hkey hadded]
  · rw [addNew_of_not_mem hkey hy, addAllNew_append, addAllNew_cons, addAllNew_nil]

/-- It makes no difference which lists are put together first. -/
theorem addAllNew_assoc (xs ys zs : List α) :
    addAllNew same (addAllNew same xs ys) zs = addAllNew same xs (addAllNew same ys zs) := by
  induction zs generalizing ys with
  | nil => rfl
  | cons z zs ih => rw [addAllNew_cons, addAllNew_cons, ← ih, addAllNew_addNew hkey]

theorem addAllNew_addAllNew (xs ys : List α) :
    addAllNew same xs (addAllNew same [] ys) = addAllNew same xs ys :=
  (addAllNew_assoc hkey xs [] ys).symm

/-- Several lists are added one after the other with or without their own repetitions. -/
theorem addAllNew_flatMap_of_each {ι : Type w} (f : ι → List α) (xs : List α) (is : List ι) :
    addAllNew same xs (is.flatMap fun i => addAllNew same [] (f i)) =
      addAllNew same xs (is.flatMap f) := by
  induction is generalizing xs with
  | nil => rfl
  | cons i is ih =>
    rw [List.flatMap_cons, List.flatMap_cons, addAllNew_append, addAllNew_append,
      addAllNew_addAllNew hkey, ih]

end TypeHints
