import TypeHints.Proofs.Elimination
import TypeHints.Proofs.Sources
import TypeHints.Proofs.Unrepeated.Resolution

/-!
# Specialised unions without repetitions

The classes of call-site values are merged, which leaves out repetitions, but the options of a
union are specialised one by one and not compared again: `Union[T, int]` with `int` for `T` has
`int` twice. Where no option with a type variable becomes the same as another one
(`Ty.StaysApart`), specialising an unrepeated type leaves it unrepeated
(`Ty.Unrepeated.substitute`).
-/

namespace TypeHints

/-! ## Classes of values -/

theorem Value.Unrepeated.classOf {v : Value} (hv : v.Unrepeated) : v.classOf.Unrepeated := by
  cases hv with
  | object htype _ => exact htype
  | typeVar | unknown => exact .unknown _
  | cls | container | form | generic | union => exact .cls (Builtin.cls_unrepeated _)

theorem Ty.Unrepeated.merge {ts : List Ty} (h : ∀ t ∈ ts, t.Unrepeated) :
    (Ty.merge ts).Unrepeated := by
  refine Ty.merge_induct .unknown (fun ht => ?_) .union h
  cases ht with
  | union _ hoptions => exact hoptions

theorem Ty.Unrepeated.ofClasses {vs : List Value} (h : ∀ v ∈ vs, v.Unrepeated) :
    (Ty.ofClasses vs).Unrepeated :=
  .merge (List.forall_mem_map.2 fun v hv => (h v hv).classOf)

/-! ## Call sites -/

theorem addCallValue_unrepeated {frame : Frame} (hglobals : frame.globals.Unrepeated)
    {b : Bindings} (hb : b.Unrepeated) {v : Value} (hv : v.Clear frame) :
    (addCallValue frame.point b v).Unrepeated := by
  unfold addCallValue
  split
  · rename_i objects hobjects
    obtain ⟨t, ht, rfl⟩ := Option.map_eq_some_iff.1 hobjects
    exact hb.extend ((hv.toTy? hglobals ht).instantiate _)
  · exact hb.add hv.unrepeated

/-- The maps of call sites whose texts have clear values hold unrepeated values. -/
theorem SpecializeDef.substitution_unrepeated {frame : Frame}
    (hglobals : frame.globals.Unrepeated) (d : SpecializeDef)
    {site : SortedMap String (List String)}
    (h : ∀ entry ∈ site.toList, ∀ text ∈ entry.2,
      Returns (Bindings.All (Value.Clear frame)) (runText frame text)) :
    Returns (fun map : Substitution => map.All Bindings.Unrepeated) (d.substitution frame site) :=
  d.substitution_holds .empty fun entry hentry text htext =>
    (h entry hentry text htext).mono fun _ hvalues v hv _ hb =>
      addCallValue_unrepeated hglobals hb (hvalues v hv)

/-! ## Specialised types -/

/-- In no union of the type, at any depth, does an option with a type variable become the same as
another option when `maps` replace the type variables. -/
inductive Ty.StaysApart (p : Point) (maps : List Substitution) : Ty → Prop
  | cls (c : Class) : StaysApart p maps (.cls c)
  | typeVar (v : TypeVar) : StaysApart p maps (.typeVar v)
  | generic {base : Class} {keys : ParamKeys} {params : List (String × Ty)}
      (hparams : ∀ q ∈ params, StaysApart p maps q.2) :
      StaysApart p maps (.generic base keys params)
  | union {options : List Ty}
      (apart : ∀ t ∈ options, ¬ t.Closed → ∀ u ∈ options,
        (t.substitute p maps == u.substitute p maps) = true → (t == u) = true)
      (hoptions : ∀ t ∈ options, StaysApart p maps t) : StaysApart p maps (.union options)
  | unknown (u : Unknown) : StaysApart p maps (.unknown u)

/-- Distinct options that stay apart are specialised to distinct types. -/
theorem Ty.distinct_map_substitute {p : Point} {maps : List Substitution} {ts : List Ty}
    (h : Distinct (· == ·) ts)
    (apart : ∀ t ∈ ts, ¬ t.Closed → ∀ u ∈ ts,
      (t.substitute p maps == u.substitute p maps) = true → (t == u) = true) :
    Distinct (· == ·) (ts.map (·.substitute p maps)) := by
  refine List.pairwise_map.2 (h.imp_of_mem fun {t u} ht hu hdiff => ?_)
  refine Bool.eq_false_iff.2 fun hsame => Bool.eq_false_iff.1 hdiff ?_
  by_cases htc : t.Closed
  · by_cases huc : u.Closed
    · -- nothing is replaced in either of them
      rwa [substitute_of_closed htc, substitute_of_closed huc] at hsame
    · exact BEq.symm (apart u hu huc t ht (BEq.symm hsame))
  · exact apart t ht htc u hu hsame

namespace Substitution

variable {p : Point} {maps : List Substitution}
  (hmaps : ∀ map ∈ maps, SortedMap.All Bindings.Unrepeated map)

include hmaps

theorem applyVar_unrepeated {v : TypeVar} (hv : v.Unrepeated) :
    (applyVar p maps v).Unrepeated := by
  unfold applyVar
  split
  · refine .ofClasses fun w hw => ?_
    obtain ⟨map, hmap, b, hb, hw⟩ := mem_valuesOf.1 hw
    exact (hmaps map hmap v.name b hb).all w hw
  · exact .ofClasses ((Ty.Unrepeated.keptByObjects p).instantiateVar (.typeVar hv)).all

end Substitution

section Substitute

variable {p : Point} {maps : List Substitution}

theorem Substitution.applyAll_eq_map (ts : List Ty) :
    Substitution.applyAll p maps ts = ts.map (Substitution.apply p maps) := by
  induction ts with
  | nil => rfl
  | cons t ts ih => exact congrArg (_ :: ·) ih

theorem Ty.substitute_of_usable (h : Substitution.usable maps = true) (t : Ty) :
    t.substitute p maps = Substitution.apply p maps t := if_pos h

mutual

theorem Ty.Unrepeated.apply (husable : Substitution.usable maps = true)
    (hmaps : ∀ map ∈ maps, SortedMap.All Bindings.Unrepeated map) : ∀ {t : Ty}, t.Unrepeated →
      t.StaysApart p maps → (Substitution.apply p maps t).Unrepeated
  | .typeVar _, .typeVar hv, _ => Substitution.applyVar_unrepeated hmaps hv
  | .generic .., .generic hbase hparams, .generic hapart =>
    .generic hbase (Ty.Unrepeated.applyParams husable hmaps hparams hapart)
  | .union options, .union hdistinct hoptions, .union apart hapart => by
    refine .union ?_ (Ty.Unrepeated.applyAll husable hmaps hoptions hapart)
    have hmap := Ty.distinct_map_substitute hdistinct apart
    simp only [Ty.substitute_of_usable husable] at hmap
    rwa [Substitution.applyAll_eq_map]
  | .cls _, ht, _ | .unknown _, ht, _ => ht
termination_by structural t => t

theorem Ty.Unrepeated.applyAll (husable : Substitution.usable maps = true)
    (hmaps : ∀ map ∈ maps, SortedMap.All Bindings.Unrepeated map) : ∀ {ts : List Ty},
      (∀ t ∈ ts, t.Unrepeated) → (∀ t ∈ ts, t.StaysApart p maps) →
        ∀ t ∈ Substitution.applyAll p maps ts, t.Unrepeated
  | [], _, _ => fun _ ht => absurd ht List.not_mem_nil
  | _ :: _, hts, hapart => by
    obtain ⟨ht, hts⟩ := List.forall_mem_cons.1 hts
    obtain ⟨hapart, hrest⟩ := List.forall_mem_cons.1 hapart
    exact List.forall_mem_cons.2 ⟨Ty.Unrepeated.apply husable hmaps ht hapart,
      Ty.Unrepeated.applyAll husable hmaps hts hrest⟩
termination_by structural ts => ts

theorem Ty.Unrepeated.applyParams (husable : Substitution.usable maps = true)
    (hmaps : ∀ map ∈ maps, SortedMap.All Bindings.Unrepeated map) : ∀ {ps : List (String × Ty)},
      (∀ q ∈ ps, q.2.Unrepeated) → (∀ q ∈ ps, q.2.StaysApart p maps) →
        ∀ q ∈ Substitution.applyParams p maps ps, q.2.Unrepeated
  | [], _, _ => fun _ hq => absurd hq List.not_mem_nil
  | (_, _) :: _, hps, hapart => by
    obtain ⟨hq, hps⟩ := List.forall_mem_cons.1 hps
    obtain ⟨hapart, hrest⟩ := List.forall_mem_cons.1 hapart
    exact List.forall_mem_cons.2 ⟨Ty.Unrepeated.apply husable hmaps hq hapart,
      Ty.Unrepeated.applyParams husable hmaps hps hrest⟩
termination_by structural ps => ps

end

/-- An unrepeated type is specialised to one, as long as its options stay apart. -/
theorem Ty.Unrepeated.substitute {t : Ty} (ht : t.Unrepeated)
    (hmaps : ∀ map ∈ maps, SortedMap.All Bindings.Unrepeated map) (hapart : t.StaysApart p maps) :
    (t.substitute p maps).Unrepeated := by
  unfold Ty.substitute
  split
  · exact ht.apply ‹_› hmaps hapart
  · exact ht

end Substitute

end TypeHints
