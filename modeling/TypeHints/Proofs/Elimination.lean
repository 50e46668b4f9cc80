import TypeHints.Proofs.Bindings
import TypeHints.Proofs.CallSites

/-!
# Substitution leaves no type variables

A substituted type contains the type variables of what took the place of its own
(`Substitution.typeVars_apply`). This is made of the classes that the call sites give, or of the
bound. Where none of these contains a type variable the result contains none, and there is nothing
left for another substitution to replace (`Ty.substitute_eliminates`).
-/

namespace TypeHints

/-! ## The type variables of a type -/

mutual

/-- The type variables of a type, in its arguments and options at every depth. The type variables
that a class declares and those in bounds are not counted: nothing replaces them. -/
def Ty.typeVars : Ty → List TypeVar
  | .cls _ => []
  | .typeVar v => [v]
  | .generic _ _ params => Ty.paramTypeVars params
  | .union options => Ty.allTypeVars options
  | .unknown _ => []

/-- The type variables of several types. -/
def Ty.allTypeVars : List Ty → List TypeVar
  | [] => []
  | t :: ts => t.typeVars ++ Ty.allTypeVars ts

/-- The type variables of arguments. -/
def Ty.paramTypeVars : List (String × Ty) → List TypeVar
  | [] => []
  | (_, t) :: ps => t.typeVars ++ Ty.paramTypeVars ps

end

/-- The type contains no type variable. -/
def Ty.Closed (t : Ty) : Prop := t.typeVars = []

theorem Ty.allTypeVars_eq_flatMap (ts : List Ty) : Ty.allTypeVars ts = ts.flatMap Ty.typeVars := by
  induction ts with
  | nil => rfl
  | cons t ts ih => simp [Ty.allTypeVars, ih]

theorem Ty.closed_union_iff {ts : List Ty} : (Ty.union ts).Closed ↔ ∀ t ∈ ts, t.Closed := by
  show Ty.allTypeVars ts = [] ↔ _
  rw [Ty.allTypeVars_eq_flatMap]
  exact List.flatMap_eq_nil_iff

theorem Ty.not_closed_typeVar (v : TypeVar) : ¬ (Ty.typeVar v).Closed := List.cons_ne_nil v []

/-! ## Closed classes -/

theorem Value.closed_classOf {v : Value} (h : ∀ t c, v = .object t c → t.Closed) :
    v.classOf.Closed := by
  cases v with
  | object t c => exact h t c rfl
  | cls | container | form | generic | union | typeVar | unknown => rfl

theorem Ty.closed_ofClasses {vs : List Value} (h : ∀ v ∈ vs, v.classOf.Closed) :
    (Ty.ofClasses vs).Closed :=
  Ty.merge_induct (fun _ => rfl) Ty.closed_union_iff.1 (fun _ => Ty.closed_union_iff.2)
    (List.forall_mem_map.2 h)

theorem Ty.Closed.keptByObjects (p : Point) :
    KeptByObjects p (Bindings.All fun v => v.classOf.Closed) Ty.Closed where
  empty := .empty
  extend hb hc := hb.extend hc
  cls ht hb := hb.add ht
  generic ht hb := hb.add ht
  unknown _ hb := hb.add rfl
  options ht := Ty.closed_union_iff.1 ht
  bound ht := absurd ht (Ty.not_closed_typeVar _)

/-! ## What takes the place of a type variable -/

/-- Nothing that can take the place of the type variable contains a type variable: neither its
bound, nor the class of an object that a call site gives it. -/
structure TypeVar.GroundedBy (maps : List Substitution) (v : TypeVar) : Prop where
  bound : ∀ t, v.bound = some t → t.Closed
  objects : ∀ map ∈ maps, ∀ b, map.get? v.name = some b →
    ∀ t constant, .object t constant ∈ b.values → t.Closed

namespace Substitution

variable (p : Point) (maps : List Substitution)

theorem applyVar_closed {v : TypeVar} (h : v.GroundedBy maps) : (applyVar p maps v).Closed := by
  unfold applyVar
  split
  · refine Ty.closed_ofClasses fun w hw => Value.closed_classOf fun t constant heq => ?_
    obtain ⟨map, hmap, b, hb, hw⟩ := mem_valuesOf.1 hw
    exact h.objects map hmap b hb t constant (heq ▸ hw)
  · obtain ⟨name, bound⟩ := v
    exact Ty.closed_ofClasses ((Ty.Closed.keptByObjects p).instantiateBound h.bound)

/-! ## The type variables of a substituted type -/

mutual

theorem typeVars_apply : ∀ t : Ty,
    (apply p maps t).typeVars = t.typeVars.flatMap fun v => (applyVar p maps v).typeVars
  | .cls _ => rfl
  | .typeVar v => by simp [apply, Ty.typeVars]
  | .generic _ _ ps => paramTypeVars_applyParams ps
  | .union ts => allTypeVars_applyAll ts
  | .unknown _ => rfl
termination_by structural t => t

theorem allTypeVars_applyAll : ∀ ts, Ty.allTypeVars (applyAll p maps ts) =
    (Ty.allTypeVars ts).flatMap fun v => (applyVar p maps v).typeVars
  | [] => rfl
  | t :: ts => by
    simp only [applyAll, Ty.allTypeVars]
    rw [typeVars_apply t, allTypeVars_applyAll ts, List.flatMap_append]
termination_by structural ts => ts

theorem paramTypeVars_applyParams : ∀ ps, Ty.paramTypeVars (applyParams p maps ps) =
    (Ty.paramTypeVars ps).flatMap fun v => (applyVar p maps v).typeVars
  | [] => rfl
  | (_, t) :: ps => by
    simp only [applyParams, Ty.paramTypeVars]
    rw [typeVars_apply t, paramTypeVars_applyParams ps, List.flatMap_append]
termination_by structural ps => ps

end

mutual

/-- There is nothing to replace in a closed type. -/
theorem apply_of_closed : ∀ t : Ty, t.Closed → apply p maps t = t
  | .cls _, _ => rfl
  | .typeVar v, h => absurd h (Ty.not_closed_typeVar v)
  | .generic base keys ps, h => congrArg (Ty.generic base keys) (applyParams_of_closed ps h)
  | .union ts, h => congrArg Ty.union (applyAll_of_closed ts h)
  | .unknown _, _ => rfl
termination_by structural t => t

theorem applyAll_of_closed : ∀ ts, Ty.allTypeVars ts = [] → applyAll p maps ts = ts
  | [], _ => rfl
  | t :: ts, h => by
    obtain ⟨ht, hts⟩ := List.append_eq_nil_iff.1 h
    simp only [applyAll]
    rw [apply_of_closed t ht, applyAll_of_closed ts hts]
termination_by structural ts => ts

theorem applyParams_of_closed : ∀ ps, Ty.paramTypeVars ps = [] → applyParams p maps ps = ps
  | [], _ => rfl
  | (_, t) :: ps, h => by
    obtain ⟨ht, hps⟩ := List.append_eq_nil_iff.1 h
    simp only [applyParams]
    rw [apply_of_closed t ht, applyParams_of_closed ps hps]
termination_by structural ps => ps

end

end Substitution

namespace Ty

theorem substitute_of_closed {t : Ty} (h : t.Closed) (p : Point) (maps : List Substitution) :
    t.substitute p maps = t := by
  unfold substitute
  split
  · exact Substitution.apply_of_closed p maps t h
  · rfl

/-- **Elimination.** Call sites that give values, and only closed classes and bounds in the place of
the type variables of a type, leave no type variable in it; another substitution then changes
nothing. -/
theorem substitute_eliminates {t : Ty} {maps : List Substitution} (hmaps : maps ≠ [])
    (hvalues : ∀ map ∈ maps, map.isEmpty = false) (h : ∀ v ∈ t.typeVars, v.GroundedBy maps)
    (p : Point) :
    (t.substitute p maps).Closed ∧
      ∀ q maps', (t.substitute p maps).substitute q maps' = t.substitute p maps := by
  have husable : Substitution.usable maps = true := by
    simpa [Substitution.usable, hmaps] using hvalues
  have hclosed : (t.substitute p maps).Closed := by
    rw [substitute, if_pos husable, Closed, Substitution.typeVars_apply, List.flatMap_eq_nil_iff]
    exact fun v hv => Substitution.applyVar_closed p maps (h v hv)
  exact ⟨hclosed, fun q maps' => substitute_of_closed hclosed q maps'⟩

theorem groundedBy_of_builtins {maps : List Substitution}
    (hmaps : ∀ map ∈ maps, ∃ b, map = Substitution.ofBuiltin b) {v : TypeVar}
    (hbound : ∀ t, v.bound = some t → t.Closed) : v.GroundedBy maps where
  bound := hbound
  objects := by
    intro map hmap bindings hget t constant hobject
    obtain ⟨b, rfl⟩ := hmaps map hmap
    have hentry := List.mem_singleton.1 (SortedMap.get?_eq_some_iff.1 hget)
    obtain rfl := (Prod.mk.inj hentry).2
    obtain ⟨rfl, -⟩ := Value.object.inj (List.mem_singleton.1 hobject)
    rfl

/-- The annotation `dict[T, U]`, where `U` is bound by `Union[float, int]`. -/
def dictOfVars : Ty :=
  .generic Builtin.dict.cls .named [("K", .typeVar ⟨"T", none⟩),
    ("V", .typeVar ⟨"U", some (.union [.cls Builtin.float.cls, .cls Builtin.int.cls])⟩)]

/-- Two call sites give `T` a class each. Neither gives `U` one, which becomes its bound. -/
theorem substitute_eliminates_of_two_sites :
    let maps := [Substitution.ofBuiltin .int, .ofBuiltin .str]
    maps ≠ [] ∧ (∀ map ∈ maps, map.isEmpty = false) ∧
      (∀ v ∈ dictOfVars.typeVars, v.GroundedBy maps) ∧
      (dictOfVars.substitute .root maps).text = "dict[Union[int, str], Union[float, int]]" ∧
      (dictOfVars.substitute .root maps).Closed ∧
      (dictOfVars.substitute .root maps).substitute ⟨7⟩ [.ofBuiltin .bytes] =
        dictOfVars.substitute .root maps := by
  intro maps
  have hmaps : maps ≠ [] := List.cons_ne_nil _ _
  have hvalues : ∀ map ∈ maps, map.isEmpty = false := by decide
  have hgrounded : ∀ v ∈ dictOfVars.typeVars, v.GroundedBy maps := by
    intro v hv
    refine groundedBy_of_builtins (by simp [maps]) fun t ht => ?_
    rcases List.mem_pair.1 hv with rfl | rfl
    · cases ht
    · obtain rfl := Option.some.inj ht
      rfl
  obtain ⟨hclosed, hagain⟩ := substitute_eliminates hmaps hvalues hgrounded .root
  exact ⟨hmaps, hvalues, hgrounded, by decide, hclosed, hagain ⟨7⟩ [.ofBuiltin .bytes]⟩

end Ty

end TypeHints
