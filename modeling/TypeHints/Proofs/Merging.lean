import TypeHints.Proofs.Distinct
import TypeHints.Ty.Same

/-!
# Merging in another order

What types merge to is decided by their shapes, and up to the order of a union's options by the
set of these (`Ty.merge_sameUpToOrder`): neither the order in which the types come nor how often
each comes matters. A type that comes again changes nothing at all (`Ty.merge_addAllNew`).
-/

namespace TypeHints.Ty

/-! ## Types up to the order of options -/

/-- The two types are the same, or they are unions of the same options in some order. -/
inductive SameUpToOrder : Ty → Ty → Prop
  | same {t u : Ty} (h : (t == u) = true) : SameUpToOrder t u
  | reordered {ts us : List Ty} (h : (ts.map shape).Perm (us.map shape)) :
      SameUpToOrder (union ts) (union us)

theorem SameUpToOrder.refl (t : Ty) : t.SameUpToOrder t := .same (beq_iff.2 rfl)

/-! ## Merging and shapes -/

@[simp] theorem isAny_shape (t : Ty) : t.shape.isAny = t.isAny := by cases t <;> rfl

theorem alternatives_shape (t : Ty) : t.shape.alternatives = t.alternatives.map shape := by
  cases t with
  | union ts => exact shapes_eq_map ts
  | cls _ | typeVar _ | generic _ _ _ | unknown _ => rfl

theorem map_shape_flatMap_alternatives (ts : List Ty) :
    (ts.flatMap alternatives).map shape = (ts.map shape).flatMap alternatives := by
  rw [List.map_flatMap, List.flatMap_map]
  exact List.flatMap_congr fun t _ => (alternatives_shape t).symm

theorem ofAlternatives_sameUpToOrder {ts us : List Ty}
    (h : (ts.map shape).Perm (us.map shape)) :
    (ofAlternatives ts).SameUpToOrder (ofAlternatives us) := by
  -- how many alternatives there are decides the form of the type
  have hlength : ts.length = us.length := by simpa using h.length_eq
  match ts, us, hlength with
  | [], [], _ => exact .refl _
  | [t], [u], _ => exact .same (beq_iff.2 (List.singleton_perm_singleton.1 h))
  | _ :: _ :: _, _ :: _ :: _, _ => exact .reordered h

theorem any_isAny_congr {ts us : List Ty} (h : ∀ s, s ∈ ts.map shape ↔ s ∈ us.map shape) :
    ts.any isAny = us.any isAny := by
  have hshapes : (ts.map shape).any isAny = (us.map shape).any isAny := by
    rw [Bool.eq_iff_iff, List.any_eq_true, List.any_eq_true]
    simp only [h]
  simpa [List.any_map, Function.comp_def] using hshapes

/-- Types that are the same as sets merge to the same type, up to the order of its options. -/
theorem merge_sameUpToOrder {ts us : List Ty}
    (h : ∀ s, s ∈ ts.map shape ↔ s ∈ us.map shape) :
    (merge ts).SameUpToOrder (merge us) := by
  have halternatives : ∀ s, s ∈ (ts.flatMap alternatives).map shape ↔
      s ∈ (us.flatMap alternatives).map shape := by
    intro s
    simp only [map_shape_flatMap_alternatives, List.mem_flatMap, h]
  unfold merge
  rw [any_isAny_congr h]
  split
  · exact .refl _
  · exact ofAlternatives_sameUpToOrder (perm_map_addAllNew same_iff halternatives)

/-! ## Merging each type once -/

/-- The alternatives of several types, each of them once. -/
def distinctAlternatives (ts : List Ty) : List Ty :=
  addAllNew (· == ·) [] (ts.flatMap alternatives)

theorem exists_of_mem_distinctAlternatives {ts : List Ty} {a : Ty}
    (h : a ∈ distinctAlternatives ts) : ∃ t ∈ ts, a ∈ t.alternatives :=
  List.mem_flatMap.1 ((mem_or_mem_of_mem_addAllNew _ h).resolve_left List.not_mem_nil)

theorem merge_of_not_any {ts : List Ty} (h : ts.any isAny = false) :
    merge ts = ofAlternatives (distinctAlternatives ts) := if_neg (by simp [h])

theorem any_isAny_iff {ts : List Ty} : ts.any isAny = true ↔ unknown .any ∈ ts := by
  rw [List.any_eq_true]
  constructor
  · rintro ⟨t, ht, hany⟩
    unfold isAny at hany
    split at hany
    · exact ht
    · cases hany
  · exact fun h => ⟨_, h, rfl⟩

theorem map_shape_alternatives {t u : Ty} (h : t.shape = u.shape) :
    t.alternatives.map shape = u.alternatives.map shape := by
  rw [← alternatives_shape, ← alternatives_shape, h]

/-- Merging the types without those that are there already. -/
theorem merge_addAllNew (ts : List Ty) : merge (addAllNew (· == ·) [] ts) = merge ts := by
  have hkey : ∀ t u : Ty, (t == u) = true ↔ t.shape = u.shape := fun _ _ => beq_iff
  have hany : (addAllNew (· == ·) [] ts).any isAny = ts.any isAny := by
    refine any_isAny_congr fun s => ?_
    rw [mem_map_addAllNew hkey]
    simp
  unfold merge
  rw [hany, addAllNew_flatMap_addAllNew hkey fun _ _ => map_shape_alternatives]

/-- What holds of unknown types, of the options of a union that it holds of, and of a union of
distinct options that it holds of, holds of several types merged. -/
theorem merge_induct {P : Ty → Prop} (hunknown : ∀ u, P (unknown u))
    (hoptions : ∀ {ts}, P (union ts) → ∀ t ∈ ts, P t)
    (hunion : ∀ {ts}, Distinct (· == ·) ts → (∀ t ∈ ts, P t) → P (union ts)) {ts : List Ty}
    (h : ∀ t ∈ ts, P t) : P (merge ts) := by
  have halternatives : ∀ t ∈ distinctAlternatives ts, P t := by
    intro t ht
    obtain ⟨u, hu, htu⟩ := exists_of_mem_distinctAlternatives ht
    cases u with
    | unknown => cases htu
    | union options => exact hoptions (h _ hu) t htu
    | cls | typeVar | generic =>
      obtain rfl := List.mem_singleton.1 htu
      exact h _ hu
  cases hany : ts.any isAny with
  | true =>
    rw [merge_of_any (any_isAny_iff.1 hany)]
    exact hunknown .any
  | false =>
    rw [merge_of_not_any hany]
    unfold ofAlternatives
    split
    · exact hunknown .nothing
    · rename_i heq
      exact halternatives _ (heq ▸ List.mem_singleton_self _)
    · exact hunion (Distinct.addAllNew _ .nil _) halternatives

end TypeHints.Ty
