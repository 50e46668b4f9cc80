import TypeHints.Proofs.Merging

/-!
# What types merge to

Merging takes the unions among the types apart, but leaves their options as they are. As long as
these are no unions themselves and known (`Ty.Flat`), what comes out is in normal form
(`Ty.merge_merged`), and the types may be merged in any grouping (`Ty.merge_regroups`). An `Any`
one level further down stays an option among others (`Ty.merge_of_nested_any`).
-/

namespace TypeHints.Ty

/-! ## Flat types and normal forms -/

/-- Whether the type is known and no union. -/
def isDefinite : Ty → Bool
  | cls _ | typeVar _ | generic .. => true
  | union _ | unknown _ => false

/-- The type is no union, or a union whose options are known and no unions. -/
def Flat : Ty → Prop
  | union options => ∀ t ∈ options, t.isDefinite = true
  | cls _ | typeVar _ | generic .. | unknown _ => True

/-- A normal form: a type that is not known further, one definite type, or a union of at least two
definite types, no two of them the same. -/
inductive Merged : Ty → Prop
  | unknown (u : Unknown) : Merged (.unknown u)
  | definite {t : Ty} (h : t.isDefinite = true) : Merged t
  | union {options : List Ty} (two_le : 2 ≤ options.length) (distinct : Distinct (· == ·) options)
      (definite : ∀ t ∈ options, t.isDefinite = true) : Merged (.union options)

/-- The type is `Any`, or a union that has `Any` among its options, at any depth. -/
inductive OffersAny : Ty → Prop
  | any : OffersAny (.unknown .any)
  | option {t : Ty} {options : List Ty} (ht : t.OffersAny) (hmem : t ∈ options) :
      OffersAny (.union options)

theorem flat_iff {t : Ty} : t.Flat ↔ ∀ a ∈ t.alternatives, a.isDefinite = true := by
  cases t <;> simp [Flat, alternatives, isDefinite]

theorem Merged.isDefinite_of_mem {options : List Ty} (h : (Ty.union options).Merged) :
    ∀ t ∈ options, t.isDefinite = true := by
  cases h with
  | definite h => cases h
  | union _ _ hdefinite => exact hdefinite

theorem OffersAny.eq_any {t : Ty} (h : t.OffersAny) (hflat : t.Flat) : t = unknown .any := by
  cases h with
  | any => rfl
  | option ht hmem =>
    have hdefinite := hflat _ hmem
    -- an option that offers `Any` is `Any` or a union
    cases ht <;> cases hdefinite

/-! ## Definite alternatives -/

section Alternatives

variable {ts : List Ty} (h : ∀ t ∈ ts, t.isDefinite = true)

include h

theorem alternatives_ofAlternatives : (ofAlternatives ts).alternatives = ts := by
  match ts with
  | [] => rfl
  | [t] =>
    have ht := h t (List.mem_singleton_self t)
    show t.alternatives = [t]
    cases t with
    | cls | typeVar | generic => rfl
    | union | unknown => cases ht
  | _ :: _ :: _ => rfl

theorem isAny_ofAlternatives : (ofAlternatives ts).isAny = false := by
  match ts with
  | [] => rfl
  | [t] =>
    have ht := h t (List.mem_singleton_self t)
    show t.isAny = false
    cases t with
    | cls | typeVar | generic | union => rfl
    | unknown => cases ht
  | _ :: _ :: _ => rfl

theorem merged_ofAlternatives (hdistinct : Distinct (· == ·) ts) : (ofAlternatives ts).Merged := by
  match ts with
  | [] => exact .unknown .nothing
  | [t] => exact .definite (h t (List.mem_singleton_self t))
  | _ :: _ :: _ => exact .union (by simp) hdistinct h

end Alternatives

/-! ## Merging flat types -/

section Flat

variable {ts : List Ty} (h : ∀ t ∈ ts, t.Flat)

include h

theorem isDefinite_of_mem_distinctAlternatives {a : Ty} (ha : a ∈ distinctAlternatives ts) :
    a.isDefinite = true := by
  obtain ⟨t, ht, hat⟩ := exists_of_mem_distinctAlternatives ha
  exact flat_iff.1 (h t ht) a hat

theorem alternatives_merge (hany : ts.any isAny = false) :
    (merge ts).alternatives = distinctAlternatives ts := by
  rw [merge_of_not_any hany]
  exact alternatives_ofAlternatives fun _ => isDefinite_of_mem_distinctAlternatives h

theorem isAny_merge : (merge ts).isAny = ts.any isAny := by
  cases hany : ts.any isAny with
  | true =>
    rw [merge_of_any (any_isAny_iff.1 hany)]
    rfl
  | false =>
    rw [merge_of_not_any hany]
    exact isAny_ofAlternatives fun _ => isDefinite_of_mem_distinctAlternatives h

end Flat

/-- **Normal form.** Types are merged into a normal form, and into `Any` exactly if one of them
offers it, unless a union among them has an option that is a union again or not known; if `Any`
itself is among them, not even that matters. -/
theorem merge_merged {ts : List Ty} (h : unknown .any ∈ ts ∨ ∀ t ∈ ts, t.Flat) :
    (merge ts).Merged ∧ (merge ts = unknown .any ↔ ∃ t ∈ ts, t.OffersAny) := by
  by_cases hmem : unknown .any ∈ ts
  · rw [merge_of_any hmem]
    exact ⟨.unknown .any, iff_of_true rfl ⟨_, hmem, .any⟩⟩
  · have hflat := h.resolve_left hmem
    have hany : ts.any isAny = false := by
      rw [← Bool.not_eq_true, any_isAny_iff]
      exact hmem
    constructor
    · rw [merge_of_not_any hany]
      exact merged_ofAlternatives (fun _ => isDefinite_of_mem_distinctAlternatives hflat)
        (Distinct.addAllNew _ .nil _)
    · refine iff_of_false (fun heq => ?_) ?_
      · have hmerge := isAny_merge hflat
        rw [heq, hany] at hmerge
        cases hmerge
      · rintro ⟨t, ht, hoffers⟩
        exact hmem (hoffers.eq_any (hflat t ht) ▸ ht)

/-- Three types that merge to a union of two, `nothing` and a repetition being left out. -/
theorem merge_merged_of_int_and_str :
    let ts := [cls Builtin.int.cls, unknown .nothing,
      union [cls Builtin.str.cls, cls Builtin.int.cls]]
    (∀ t ∈ ts, t.Flat) ∧ merge ts = union [cls Builtin.int.cls, cls Builtin.str.cls] ∧
      (merge ts).Merged ∧ (merge ts = unknown .any ↔ ∃ t ∈ ts, t.OffersAny) := by
  intro ts
  have hflat : ∀ t ∈ ts, t.Flat := by simp [ts, Flat, isDefinite]
  exact ⟨hflat, rfl, merge_merged (.inr hflat)⟩

/-- An `Any` among the options of a union is kept as one of them, and so is a union. Neither is a
normal form. -/
theorem merge_of_nested_any :
    let ts := [cls Builtin.int.cls, union [cls Builtin.str.cls, unknown .any]]
    let us := [union [union [cls Builtin.int.cls, cls Builtin.str.cls], cls Builtin.int.cls]]
    merge ts = union [cls Builtin.int.cls, cls Builtin.str.cls, unknown .any] ∧
      (∃ t ∈ ts, t.OffersAny) ∧ ¬ (merge ts).Merged ∧
      merge us = union [union [cls Builtin.int.cls, cls Builtin.str.cls], cls Builtin.int.cls] ∧
      ¬ (merge us).Merged := by
  intro ts us
  refine ⟨rfl, ⟨union [cls Builtin.str.cls, unknown .any], by simp [ts], ?_⟩, ?_, rfl, ?_⟩
  · exact .option .any (by simp)
  · intro h
    cases h.isDefinite_of_mem (unknown .any) (by simp)
  · intro h
    cases h.isDefinite_of_mem (union [cls Builtin.int.cls, cls Builtin.str.cls]) (by simp)

/-! ## Merging in groups -/

/-- Flat types may be merged group by group. -/
theorem merge_flatten {groups : List (List Ty)} (h : ∀ ts ∈ groups, ∀ t ∈ ts, t.Flat) :
    merge groups.flatten = merge (groups.map merge) := by
  have hany : (groups.map merge).any isAny = groups.flatten.any isAny := by
    rw [List.any_map, List.any_flatten, Bool.eq_iff_iff, List.any_eq_true, List.any_eq_true]
    refine exists_congr fun ts => and_congr_right fun hts => ?_
    rw [Function.comp_apply, isAny_merge (h ts hts)]
  cases hgroups : groups.flatten.any isAny with
  | true =>
    rw [merge_of_any (any_isAny_iff.1 hgroups), merge_of_any (any_isAny_iff.1 (hany.trans hgroups))]
  | false =>
    have halternatives : ∀ ts ∈ groups, (merge ts).alternatives = distinctAlternatives ts := by
      intro ts hts
      refine alternatives_merge (h ts hts) ?_
      rw [List.any_flatten, List.any_eq_false] at hgroups
      exact Bool.eq_false_iff.2 (hgroups ts hts)
    have hkey : ∀ t u : Ty, (t == u) = true ↔ t.shape = u.shape := fun _ _ => beq_iff
    have hdistinct : distinctAlternatives (groups.map merge) =
        distinctAlternatives groups.flatten := by
      calc distinctAlternatives (groups.map merge)
          = addAllNew (· == ·) [] (groups.flatMap distinctAlternatives) := by
            rw [distinctAlternatives, List.flatMap_map, List.flatMap_congr halternatives]
        _ = addAllNew (· == ·) [] (groups.flatMap fun ts => ts.flatMap alternatives) :=
            addAllNew_flatMap_of_each hkey _ _ _
        _ = distinctAlternatives groups.flatten := by
            rw [distinctAlternatives, List.flatten_eq_flatMap, List.flatMap_assoc]
            rfl
    rw [merge_of_not_any hgroups, merge_of_not_any (hany.trans hgroups), hdistinct]

/-- **Grouping.** Two lists of flat types may be merged together or each for itself and then the
two results. If they are made of the same types, they merge to the same type up to the order of its
options. -/
theorem merge_regroups {ts us : List Ty} (hts : ∀ t ∈ ts, t.Flat) (hus : ∀ u ∈ us, u.Flat) :
    merge (ts ++ us) = merge [merge ts, merge us] ∧
      ((∀ s, s ∈ ts.map shape ↔ s ∈ us.map shape) → (merge ts).SameUpToOrder (merge us)) := by
  refine ⟨?_, merge_sameUpToOrder⟩
  have hgroups : ∀ g ∈ [ts, us], ∀ t ∈ g, t.Flat := by
    intro g hg
    rcases List.mem_pair.1 hg with rfl | rfl
    · exact hts
    · exact hus
  simpa using merge_flatten hgroups

/-- Two lists of the same types, which merge to the same options in another order. -/
theorem merge_regroups_of_int_and_str :
    let ts := [cls Builtin.int.cls, union [cls Builtin.str.cls, cls Builtin.int.cls]]
    let us := [union [cls Builtin.str.cls, cls Builtin.int.cls], cls Builtin.int.cls,
      cls Builtin.int.cls]
    (∀ t ∈ ts, t.Flat) ∧ (∀ u ∈ us, u.Flat) ∧ (∀ s, s ∈ ts.map shape ↔ s ∈ us.map shape) ∧
      merge (ts ++ us) = merge [merge ts, merge us] ∧
      merge ts = union [cls Builtin.int.cls, cls Builtin.str.cls] ∧
      merge us = union [cls Builtin.str.cls, cls Builtin.int.cls] ∧
      (merge ts).SameUpToOrder (merge us) := by
  intro ts us
  have hts : ∀ t ∈ ts, t.Flat := by simp [ts, Flat, isDefinite]
  have hus : ∀ u ∈ us, u.Flat := by simp [us, Flat, isDefinite]
  have hsame : ∀ s, s ∈ ts.map shape ↔ s ∈ us.map shape := by
    intro s
    simp only [ts, us, List.map_cons, List.map_nil, List.mem_cons, List.not_mem_nil, or_false]
    tauto
  obtain ⟨hgroups, horder⟩ := merge_regroups hts hus
  exact ⟨hts, hus, hsame, hgroups, rfl, rfl, horder hsame⟩

end TypeHints.Ty
