import TypeHints.Proofs.Merging
import TypeHints.Proofs.WellFormed.Value

/-!
# The objects of a type, and their classes

The objects of a type are those of its leaves: the classes and unknown types that are left of it
once unions are taken apart and type variables are replaced by their bounds
(`Ty.toList_instantiate`). So the classes of its objects make up the type its leaves merge to
(`Ty.ofClasses_instantiate`), which is the type itself if it is a class, with or without arguments.
-/

namespace TypeHints

/-! ## Leaves -/

mutual

/-- The leaves of a type, from left to right: those of each option of a union, and those of its
bound for a type variable. -/
def Ty.leaves : Ty → List Ty
  | .cls c => [.cls c]
  | .generic base keys params => [.generic base keys params]
  | .union options => Ty.leavesAll options
  | .typeVar v => v.leaves
  | .unknown u => [.unknown u]
termination_by structural t => t

/-- The leaves of several types. -/
def Ty.leavesAll : List Ty → List Ty
  | [] => []
  | t :: ts => t.leaves ++ Ty.leavesAll ts
termination_by structural ts => ts

/-- The leaves of the bound of a type variable. -/
def TypeVar.leaves : TypeVar → List Ty
  | ⟨_, bound⟩ => TypeVar.boundLeaves bound
termination_by structural v => v

/-- The leaves of a bound; `Any` when there is none. -/
def TypeVar.boundLeaves : Option Ty → List Ty
  | none => [.unknown .any]
  | some bound => bound.leaves
termination_by structural b => b

end

namespace Ty

/-! ## Objects of leaves -/

/-- The object of a leaf. -/
def sample : Ty → Value
  | unknown u => .unknown u
  | t => .object t none

/-- The object of a leaf, bound at `p`. -/
def sampleAt (p : Point) (t : Ty) : Binding := ⟨t.sample, p⟩

theorem classOf_sample (t : Ty) : t.sample.classOf = t := by cases t <;> rfl

theorem beq_sample (t u : Ty) : (t.sample == u.sample) = (t == u) := by
  rw [Bool.eq_iff_iff, Value.beq_iff, Ty.beq_iff]
  cases t <;> cases u <;> simp [sample, Value.shape, Ty.shape, Constant.knownShape]

/-- The objects of the leaves, bound at `p`. -/
def samples (p : Point) (ts : List Ty) : Bindings := ⟨ts.map (sampleAt p)⟩

theorem toList_extend_samples (p : Point) (ts : List Ty) :
    (Bindings.extend ∅ (samples p ts)).toList = (addAllNew (· == ·) [] ts).map (sampleAt p) :=
  Eq.symm (map_addAllNew (f := sampleAt p) (fun t u => beq_sample t u) [] ts)

end Ty

theorem Bindings.extend_extend_empty (b c : Bindings) :
    b.extend (Bindings.extend ∅ c) = b.extend c := by
  rw [← extend_assoc, extend_empty]

/-! ## Objects of types -/

mutual

/-- Instantiating a type adds the objects of its leaves one after the other. -/
theorem Ty.instantiateInto_eq (p : Point) :
    ∀ (t : Ty) (b : Bindings), t.instantiateInto p b = b.extend (Ty.samples p t.leaves)
  | .cls _, _ => rfl
  | .generic .., _ => rfl
  | .union options, b => Ty.instantiateAll_eq p options b
  | .typeVar v, b => by
    show b.extend (v.instantiate p) = b.extend (Ty.samples p v.leaves)
    rw [TypeVar.instantiate_eq p v, Bindings.extend_extend_empty]
  | .unknown _, _ => rfl
termination_by structural t => t

theorem Ty.instantiateAll_eq (p : Point) :
    ∀ (ts : List Ty) (b : Bindings),
      Ty.instantiateAll p ts b = b.extend (Ty.samples p (Ty.leavesAll ts))
  | [], b => (Bindings.extend_empty b).symm
  | t :: ts, b => by
    show Ty.instantiateAll p ts (t.instantiateInto p b) = _
    rw [Ty.instantiateAll_eq p ts, Ty.instantiateInto_eq p t]
    simp [Bindings.extend, Ty.samples, Ty.leavesAll, addAllNew_append]
termination_by structural ts => ts

theorem TypeVar.instantiate_eq (p : Point) :
    ∀ v : TypeVar, v.instantiate p = Bindings.extend ∅ (Ty.samples p v.leaves)
  | ⟨_, bound⟩ => TypeVar.instantiateBound_eq p bound
termination_by structural v => v

theorem TypeVar.instantiateBound_eq (p : Point) :
    ∀ bound : Option Ty, TypeVar.instantiateBound p bound =
      Bindings.extend ∅ (Ty.samples p (TypeVar.boundLeaves bound))
  | none => rfl
  | some bound => Ty.instantiateInto_eq p bound ∅
termination_by structural bound => bound

end

namespace Ty

/-- The objects of a type are those of its leaves, each once. -/
theorem toList_instantiate (t : Ty) (p : Point) :
    (t.instantiate p).toList = (addAllNew (· == ·) [] t.leaves).map (sampleAt p) := by
  rw [instantiate, instantiateInto_eq, toList_extend_samples]

theorem map_classOf_instantiate (t : Ty) (p : Point) :
    (t.instantiate p).values.map (·.classOf) = addAllNew (· == ·) [] t.leaves := by
  rw [Bindings.values, toList_instantiate, List.map_map, List.map_map]
  exact List.map_id'' classOf_sample _

/-- **Back from objects.** The classes of the objects of a type make up the type its leaves merge
to, and all these objects are bound where they were asked for. A class, with or without arguments,
comes back as it is. -/
theorem ofClasses_instantiate (t : Ty) (p : Point) :
    ofClasses (t.instantiate p).values = merge t.leaves ∧
      (∀ b ∈ (t.instantiate p).toList, b.origin = p) ∧
      (t.IsClass → ofClasses (t.instantiate p).values = t) := by
  have hleaves : ofClasses (t.instantiate p).values = merge t.leaves := by
    rw [ofClasses, map_classOf_instantiate, merge_addAllNew]
  refine ⟨hleaves, fun b hb => ?_, fun hclass => ?_⟩
  · rw [toList_instantiate] at hb
    obtain ⟨leaf, -, rfl⟩ := List.mem_map.1 hb
    rfl
  · rw [hleaves]
    cases t with
    | cls | generic => rfl
    | union | typeVar | unknown => exact hclass.elim

/-- The annotation `Union[int, T]`, where `T` is bound by `Union[str, int]`. -/
def intOrBounded : Ty :=
  .union [.cls Builtin.int.cls,
    .typeVar ⟨"T", some (.union [.cls Builtin.str.cls, .cls Builtin.int.cls])⟩]

/-- The annotation `list[int]`. -/
def listOfInt : Ty := .generic Builtin.list.cls .named [("T", .cls Builtin.int.cls)]

/-- The class that is both an option and in the bound comes back once. -/
theorem ofClasses_instantiate_of_bound :
    let p : Point := ⟨4⟩
    let b : Binding := ⟨.object (.cls Builtin.str.cls) none, p⟩
    intOrBounded.leaves =
        [.cls Builtin.int.cls, .cls Builtin.str.cls, .cls Builtin.int.cls] ∧
      ofClasses (intOrBounded.instantiate p).values = merge intOrBounded.leaves ∧
      merge intOrBounded.leaves = .union [.cls Builtin.int.cls, .cls Builtin.str.cls] ∧
      b ∈ (intOrBounded.instantiate p).toList ∧ b.origin = p ∧
      listOfInt.IsClass ∧ ofClasses (listOfInt.instantiate p).values = listOfInt := by
  intro p b
  obtain ⟨hleaves, horigin, -⟩ := ofClasses_instantiate intOrBounded p
  have hb : b ∈ (intOrBounded.instantiate p).toList :=
    List.mem_cons_of_mem _ (List.mem_singleton_self b)
  exact ⟨rfl, hleaves, rfl, hb, horigin b hb, trivial,
    (ofClasses_instantiate listOfInt p).2.2 trivial⟩

end Ty

end TypeHints
