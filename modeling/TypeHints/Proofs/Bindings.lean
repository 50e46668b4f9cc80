import Mathlib.Data.List.Forall2
import TypeHints.Proofs.Distinct
import TypeHints.Value.Denotation

/-!
# Reading and building bindings

Bindings have a single value exactly when they list one (`Bindings.single_eq_ok_iff`), and a list
is read member by member (`mapM_eq_ok_iff`). Extending bindings is associative, and extending them
by what they hold changes nothing (`Bindings.extend_assoc`, `Bindings.extend_extend_self`). What
all values of bindings satisfy is kept as they grow (`Bindings.All.add`, `Bindings.All.extend`) and
holds of each value that is read. The objects of a type are added one after the other
(`KeptByObjects.instantiate`).
-/

namespace TypeHints

section Except

variable {α β ε : Type}

theorem bind_eq_ok_iff {x : Except ε α} {f : α → Except ε β} {b : β} :
    (x >>= f) = .ok b ↔ ∃ a, x = .ok a ∧ f a = .ok b := by
  cases x <;> simp [bind, Except.bind]

theorem mapM_eq_ok_iff {f : α → Except ε β} {xs : List α} {ys : List β} :
    xs.mapM f = .ok ys ↔ List.Forall₂ (fun x y => f x = .ok y) xs ys := by
  induction xs generalizing ys with
  | nil =>
    rw [List.mapM_nil, List.forall₂_nil_left_iff]
    exact ⟨fun h => (Except.ok.inj h).symm, fun h => h ▸ rfl⟩
  | cons x xs ih =>
    simp only [List.mapM_cons, List.forall₂_cons_left_iff, bind_eq_ok_iff, ih]
    constructor
    · rintro ⟨y, hx, zs, hxs, hys⟩
      exact ⟨y, zs, hx, hxs, (Except.ok.inj hys).symm⟩
    · rintro ⟨y, zs, hx, hxs, rfl⟩
      exact ⟨y, hx, zs, hxs, rfl⟩

theorem exists_of_mem_mapM {f : α → Except ε β} {xs : List α} {ys : List β}
    (h : xs.mapM f = .ok ys) {y : β} (hy : y ∈ ys) : ∃ x ∈ xs, f x = .ok y := by
  induction mapM_eq_ok_iff.1 h with
  | nil => cases hy
  | cons hx _ ih =>
    rcases List.mem_cons.1 hy with rfl | hy
    · exact ⟨_, List.mem_cons_self, hx⟩
    · obtain ⟨x, hmem, hx⟩ := ih (mapM_eq_ok_iff.2 ‹_›) hy
      exact ⟨x, List.mem_cons_of_mem _ hmem, hx⟩

theorem mapError_eq_ok {ε' : Type} {x : Except ε α} {f : ε → ε'} {a : α}
    (h : x.mapError f = .ok a) : x = .ok a := by
  cases x with
  | error e => cases h
  | ok b => exact congrArg Except.ok (Except.ok.inj h)

end Except

theorem Bindings.single_eq_ok_iff {b : Bindings} {v : Value} :
    b.single = .ok v ↔ b.values = [v] := by
  obtain ⟨bs⟩ := b
  unfold Bindings.single Bindings.values
  match bs with
  | [] => simp
  | [x] => simp
  | x :: y :: bs => simp

/-- Whether two bindings have the same value, wherever it was bound. -/
abbrev Binding.sameValue (x y : Binding) : Bool := x.value == y.value

theorem Binding.sameValue_iff (x y : Binding) :
    x.sameValue y = true ↔ x.value.shape = y.value.shape := Value.beq_iff

namespace Bindings

/-! ## Extending -/

theorem extend_assoc (b c d : Bindings) : (b.extend c).extend d = b.extend (c.extend d) :=
  Bindings.ext (addAllNew_assoc Binding.sameValue_iff b.toList c.toList d.toList)

theorem extend_self (b : Bindings) : b.extend b = b := by
  have hheld : ∀ x ∈ b.toList, x.value.shape ∈ b.toList.map (·.value.shape) :=
    fun _ hx => List.mem_map_of_mem hx
  exact Bindings.ext (addAllNew_eq_self Binding.sameValue_iff hheld)

/-- What was there first adds nothing at the end. -/
theorem extend_extend_self (b c : Bindings) : (b.extend c).extend b = b.extend c := by
  have hheld : ∀ x ∈ b.toList, x.value.shape ∈ (b.extend c).toList.map (·.value.shape) :=
    fun _ hx => (mem_map_addAllNew Binding.sameValue_iff).2 (.inl (List.mem_map_of_mem hx))
  exact Bindings.ext (addAllNew_eq_self Binding.sameValue_iff hheld)

/-! ## All values -/

/-- All values of the bindings satisfy `P`. -/
def All (P : Value → Prop) (b : Bindings) : Prop := ∀ v ∈ b.values, P v

namespace All

variable {P : Value → Prop} {b c : Bindings} {p : Point} {v : Value}

theorem of_toList (h : ∀ x ∈ b.toList, P x.value) : b.All P := List.forall_mem_map.2 h

theorem value (h : b.All P) {x : Binding} (hx : x ∈ b.toList) : P x.value :=
  h x.value (List.mem_map_of_mem hx)

theorem empty : (∅ : Bindings).All P := fun _ hv => absurd hv List.not_mem_nil

theorem ofValue (hv : P v) : (Bindings.ofValue p v).All P := List.forall_mem_singleton.2 hv

theorem add (h : b.All P) (hv : P v) : (b.add p v).All P := by
  refine of_toList fun x hx => ?_
  change x ∈ addNew (fun x y => x.value == y.value) b.toList ⟨v, p⟩ at hx
  rcases mem_or_eq_of_mem_addNew _ hx with hx | rfl
  · exact h.value hx
  · exact hv

theorem extend (h : b.All P) (h' : c.All P) : (b.extend c).All P := by
  refine of_toList fun x hx => ?_
  change x ∈ addAllNew (fun x y => x.value == y.value) b.toList c.toList at hx
  rcases mem_or_mem_of_mem_addAllNew _ hx with hx | hx
  · exact h.value hx
  · exact h'.value hx

theorem ofValues {vs : List Value} (h : ∀ v ∈ vs, P v) : (Bindings.ofValues p vs).All P :=
  List.foldlRecOn (motive := fun b : Bindings => b.All P) vs _ empty
    fun _ hb v hv => hb.add (h v hv)

theorem single (h : b.All P) (hv : b.single = .ok v) : P v := by
  refine h v ?_
  rw [single_eq_ok_iff.1 hv]
  exact List.mem_cons_self

theorem visible (h : b.All P) (hv : v ∈ b.visible p) : P v := by
  obtain ⟨x, hx, rfl⟩ := List.mem_map.1 hv
  exact h.value (List.mem_filter.1 hx).1

end All

end Bindings

/-! ## Objects of types -/

/-- What is kept as the objects of types that satisfy `Q` are added at `p`. -/
structure KeptByObjects (p : Point) (P : Bindings → Prop) (Q : Ty → Prop) : Prop where
  empty : P ∅
  extend {b c : Bindings} (hb : P b) (hc : P c) : P (b.extend c)
  cls {b : Bindings} {c : Class} (h : Q (.cls c)) (hb : P b) : P (b.add p (.object (.cls c) none))
  generic {b : Bindings} {base : Class} {keys : ParamKeys} {params : List (String × Ty)}
    (h : Q (.generic base keys params)) (hb : P b) :
    P (b.add p (.object (.generic base keys params) none))
  unknown {b : Bindings} (u : Unknown) (hb : P b) : P (b.add p (.unknown u))
  options {ts : List Ty} (h : Q (.union ts)) : ∀ t ∈ ts, Q t
  bound {name : String} {t : Ty} (h : Q (.typeVar ⟨name, some t⟩)) : Q t

namespace KeptByObjects

variable {p : Point} {P : Bindings → Prop} {Q : Ty → Prop}

mutual

theorem instantiateInto (h : KeptByObjects p P Q) : ∀ {t : Ty} {b : Bindings}, Q t → P b →
    P (t.instantiateInto p b)
  | .cls _, _, ht, hb => h.cls ht hb
  | .generic .., _, ht, hb => h.generic ht hb
  | .union _, _, ht, hb => h.instantiateAll (h.options ht) hb
  | .typeVar _, _, ht, hb => h.extend hb (h.instantiateVar ht)
  | .unknown u, _, _, hb => h.unknown u hb
termination_by structural t => t

theorem instantiateAll (h : KeptByObjects p P Q) : ∀ {ts : List Ty} {b : Bindings},
    (∀ t ∈ ts, Q t) → P b → P (Ty.instantiateAll p ts b)
  | [], _, _, hb => hb
  | t :: ts, b, hts, hb => by
    obtain ⟨ht, hts⟩ := List.forall_mem_cons.1 hts
    show P (Ty.instantiateAll p ts (t.instantiateInto p b))
    exact h.instantiateAll hts (h.instantiateInto ht hb)
termination_by structural ts => ts

theorem instantiateVar (h : KeptByObjects p P Q) : ∀ {v : TypeVar}, Q (.typeVar v) →
    P (v.instantiate p)
  | ⟨_, _⟩, hv => h.instantiateBound fun _ ht => h.bound (ht ▸ hv)
termination_by structural v => v

theorem instantiateBound (h : KeptByObjects p P Q) : ∀ {bound : Option Ty},
    (∀ t, bound = some t → Q t) → P (TypeVar.instantiateBound p bound)
  | none, _ => h.unknown .any h.empty
  | some t, ht => h.instantiateInto (ht t rfl) h.empty
termination_by structural bound => bound

end

/-- What is kept as objects are added holds of all objects of a type. -/
theorem instantiate (h : KeptByObjects p P Q) {t : Ty} (ht : Q t) : P (t.instantiate p) :=
  h.instantiateInto ht h.empty

end KeptByObjects

end TypeHints
