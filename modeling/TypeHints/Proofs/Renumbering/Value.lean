import Mathlib.Logic.Function.Basic
import TypeHints.Proofs.Distinct
import TypeHints.Value.Denotation
import TypeHints.Value.Text

/-!
# Values with their points renumbered

The points that values were bound at stand inside tuples. Moving them all by one injective map
keeps whatever the analysis reads of a value: its text, its type and class (`Value.text_renumber`,
`Value.toTy?_renumber`, `Value.classOf_renumber`), and whether it equals another one
(`Value.beq_renumber`). So renumbering commutes with every way to build bindings.
-/

namespace TypeHints

/-! ## Renumbering -/

/-- Moving points by `r` keeps which of them come before `p`. -/
def KeepsOrder (r : Point → Point) (p : Point) : Prop := ∀ q, r q ≤ r p ↔ q ≤ p

section Definitions

variable (r : Point → Point)

mutual

/-- A value with the points inside it moved by `r`. -/
def Value.renumber : Value → Value
  | .cls c => .cls c
  | .container c => .container c
  | .form f => .form f
  | .generic base keys params => .generic base keys (Value.renumberParams params)
  | .union options => .union (Value.renumberAll options)
  | .typeVar v => .typeVar v
  | .object t constant => .object t (Constant.renumberKnown constant)
  | .unknown u => .unknown u

/-- A constant, if known, with the points inside it moved. -/
def Constant.renumberKnown : Option Constant → Option Constant
  | none => none
  | some c => some c.renumber

/-- A constant with the points inside it moved. -/
def Constant.renumber : Constant → Constant
  | .none => .none
  | .bool b => .bool b
  | .int i => .int i
  | .str s => .str s
  | .tuple items => .tuple (Bindings.renumberAll items)

/-- Values with the points inside them moved. -/
def Value.renumberAll : List Value → List Value
  | [] => []
  | v :: vs => v.renumber :: Value.renumberAll vs

/-- Arguments with the points inside them moved. -/
def Value.renumberParams : List (String × Value) → List (String × Value)
  | [] => []
  | (key, v) :: ps => (key, v.renumber) :: Value.renumberParams ps

/-- A binding with its point and those inside its value moved. -/
def Binding.renumber : Binding → Binding
  | ⟨v, p⟩ => ⟨v.renumber, r p⟩

/-- A list of bindings with their points moved. -/
def Binding.renumberAll : List Binding → List Binding
  | [] => []
  | b :: bs => b.renumber :: Binding.renumberAll bs

/-- A group of bindings with their points moved. -/
def Bindings.renumber : Bindings → Bindings
  | ⟨bs⟩ => ⟨Binding.renumberAll bs⟩

/-- Groups of bindings with their points moved. -/
def Bindings.renumberAll : List Bindings → List Bindings
  | [] => []
  | b :: bs => b.renumber :: Bindings.renumberAll bs

end

theorem Value.renumberAll_eq_map (vs : List Value) :
    Value.renumberAll r vs = vs.map (·.renumber r) := by
  induction vs with
  | nil => rfl
  | cons v vs ih => rw [Value.renumberAll, ih, List.map_cons]

theorem Value.renumberParams_eq_map (ps : List (String × Value)) :
    Value.renumberParams r ps = ps.map (Prod.map id (·.renumber r)) := by
  induction ps with
  | nil => rfl
  | cons p ps ih =>
    rw [Value.renumberParams, ih, List.map_cons]
    rfl

theorem Binding.renumberAll_eq_map (bs : List Binding) :
    Binding.renumberAll r bs = bs.map (·.renumber r) := by
  induction bs with
  | nil => rfl
  | cons b bs ih => rw [Binding.renumberAll, ih, List.map_cons]

theorem Bindings.renumberAll_eq_map (bs : List Bindings) :
    Bindings.renumberAll r bs = bs.map (·.renumber r) := by
  induction bs with
  | nil => rfl
  | cons b bs ih => rw [Bindings.renumberAll, ih, List.map_cons]

end Definitions

/-! ## What is read of a value -/

section Reading

variable (r : Point → Point)

mutual

@[simp] theorem Value.text_renumber : ∀ v : Value, (v.renumber r).text = v.text
  | .cls _ | .container _ | .form _ | .typeVar _ | .unknown _ => rfl
  | .generic _ _ params => by
    simp only [Value.renumber, Value.text, Value.paramTexts_renumber params]
  | .union options => by simp only [Value.renumber, Value.text, Value.texts_renumber options]
  | .object _ c => by simp only [Value.renumber, Value.text, Constant.textOr_renumber _ c]

theorem Constant.textOr_renumber (other : String) :
    ∀ c : Option Constant, Constant.textOr other (Constant.renumberKnown r c) =
      Constant.textOr other c
  | none => rfl
  | some c => by simp only [Constant.renumberKnown, Constant.textOr, Constant.text_renumber c]

theorem Constant.text_renumber : ∀ c : Constant, (c.renumber r).text = c.text
  | .none | .bool _ | .int _ | .str _ => rfl
  | .tuple [] => rfl
  | .tuple [item] => by
    simp only [Constant.renumber, Bindings.renumberAll, Constant.text, Bindings.text_renumber item]
  | .tuple (item :: item' :: items) => by
    have h := Bindings.texts_renumber (item :: item' :: items)
    simp only [Bindings.renumberAll] at h
    simp only [Constant.renumber, Bindings.renumberAll, Constant.text, h]

theorem Value.texts_renumber :
    ∀ vs : List Value, Value.texts (Value.renumberAll r vs) = Value.texts vs
  | [] => rfl
  | v :: vs => by
    simp only [Value.renumberAll, Value.texts, Value.text_renumber v, Value.texts_renumber vs]

theorem Value.paramTexts_renumber :
    ∀ ps : List (String × Value), Value.paramTexts (Value.renumberParams r ps) = Value.paramTexts ps
  | [] => rfl
  | (_, v) :: ps => by
    simp only [Value.renumberParams, Value.paramTexts, Value.text_renumber v,
      Value.paramTexts_renumber ps]

theorem Binding.text_renumber : ∀ b : Binding, (b.renumber r).text = b.text
  | ⟨v, _⟩ => Value.text_renumber v

theorem Binding.texts_renumber :
    ∀ bs : List Binding, Binding.texts (Binding.renumberAll r bs) = Binding.texts bs
  | [] => rfl
  | b :: bs => by
    simp only [Binding.renumberAll, Binding.texts, Binding.text_renumber b,
      Binding.texts_renumber bs]

theorem Bindings.text_renumber : ∀ b : Bindings, (b.renumber r).text = b.text
  | ⟨[]⟩ => rfl
  | ⟨b :: bs⟩ => by
    simp only [Bindings.renumber, Binding.renumberAll, Bindings.text, Binding.text_renumber b,
      Binding.texts_renumber bs]

theorem Bindings.texts_renumber :
    ∀ bs : List Bindings, Bindings.texts (Bindings.renumberAll r bs) = Bindings.texts bs
  | [] => rfl
  | b :: bs => by
    simp only [Bindings.renumberAll, Bindings.texts, Bindings.text_renumber b,
      Bindings.texts_renumber bs]

end

mutual

@[simp] theorem Value.toTy?_renumber : ∀ v : Value, (v.renumber r).toTy? = v.toTy?
  | .cls _ | .container _ | .form _ | .typeVar _ | .unknown _ | .object .. => rfl
  | .generic _ _ params => by
    simp only [Value.renumber, Value.toTy?, Value.paramTys?_renumber params]
  | .union options => by simp only [Value.renumber, Value.toTy?, Value.tys?_renumber options]

theorem Value.tys?_renumber :
    ∀ vs : List Value, Value.tys? (Value.renumberAll r vs) = Value.tys? vs
  | [] => rfl
  | v :: vs => by
    simp only [Value.renumberAll, Value.tys?, Value.toTy?_renumber v, Value.tys?_renumber vs]

theorem Value.paramTys?_renumber :
    ∀ ps : List (String × Value), Value.paramTys? (Value.renumberParams r ps) = Value.paramTys? ps
  | [] => rfl
  | (_, v) :: ps => by
    simp only [Value.renumberParams, Value.paramTys?, Value.toTy?_renumber v,
      Value.paramTys?_renumber ps]

end

@[simp] theorem Value.classOf_renumber (v : Value) : (v.renumber r).classOf = v.classOf := by
  cases v <;> rfl

@[simp] theorem Value.isUnknown_renumber (v : Value) : (v.renumber r).isUnknown = v.isUnknown := by
  cases v <;> rfl

@[simp] theorem Value.str?_renumber (v : Value) : (v.renumber r).str? = v.str? := by
  match v with
  | .cls _ | .container _ | .form _ | .typeVar _ | .unknown _ => rfl
  | .generic .. | .union _ => rfl
  | .object _ none => rfl
  | .object _ (some c) => cases c <;> rfl

theorem Value.tuple?_renumber (v : Value) :
    (v.renumber r).tuple? = v.tuple?.map (List.map (·.renumber r)) := by
  match v with
  | .cls _ | .container _ | .form _ | .typeVar _ | .unknown _ => rfl
  | .generic .. | .union _ => rfl
  | .object _ none => rfl
  | .object _ (some .none) | .object _ (some (.bool _)) => rfl
  | .object _ (some (.int _)) | .object _ (some (.str _)) => rfl
  | .object _ (some (.tuple items)) => exact congrArg some (Bindings.renumberAll_eq_map r items)

end Reading

/-! ## Equality -/

mutual

theorem Value.renumber_renumber {r l : Point → Point} (h : Function.LeftInverse l r) :
    ∀ v : Value, (v.renumber r).renumber l = v
  | .cls _ | .container _ | .form _ | .typeVar _ | .unknown _ => rfl
  | .generic _ _ params => by simp only [Value.renumber, Value.renumberParams_renumber h params]
  | .union options => by simp only [Value.renumber, Value.renumberAll_renumber h options]
  | .object _ c => by simp only [Value.renumber, Constant.renumberKnown_renumber h c]

theorem Constant.renumberKnown_renumber {r l : Point → Point} (h : Function.LeftInverse l r) :
    ∀ c : Option Constant, Constant.renumberKnown l (Constant.renumberKnown r c) = c
  | none => rfl
  | some c => by simp only [Constant.renumberKnown, Constant.renumber_renumber h c]

theorem Constant.renumber_renumber {r l : Point → Point} (h : Function.LeftInverse l r) :
    ∀ c : Constant, (c.renumber r).renumber l = c
  | .none | .bool _ | .int _ | .str _ => rfl
  | .tuple items => by simp only [Constant.renumber, Bindings.renumberAll_renumber h items]

theorem Value.renumberAll_renumber {r l : Point → Point} (h : Function.LeftInverse l r) :
    ∀ vs : List Value, Value.renumberAll l (Value.renumberAll r vs) = vs
  | [] => rfl
  | v :: vs => by
    simp only [Value.renumberAll, Value.renumber_renumber h v, Value.renumberAll_renumber h vs]

theorem Value.renumberParams_renumber {r l : Point → Point} (h : Function.LeftInverse l r) :
    ∀ ps : List (String × Value), Value.renumberParams l (Value.renumberParams r ps) = ps
  | [] => rfl
  | (_, v) :: ps => by
    simp only [Value.renumberParams, Value.renumber_renumber h v,
      Value.renumberParams_renumber h ps]

theorem Binding.renumber_renumber {r l : Point → Point} (h : Function.LeftInverse l r) :
    ∀ b : Binding, (b.renumber r).renumber l = b
  | ⟨v, p⟩ => by simp only [Binding.renumber, Value.renumber_renumber h v, h p]

theorem Binding.renumberAll_renumber {r l : Point → Point} (h : Function.LeftInverse l r) :
    ∀ bs : List Binding, Binding.renumberAll l (Binding.renumberAll r bs) = bs
  | [] => rfl
  | b :: bs => by
    simp only [Binding.renumberAll, Binding.renumber_renumber h b,
      Binding.renumberAll_renumber h bs]

theorem Bindings.renumber_renumber {r l : Point → Point} (h : Function.LeftInverse l r) :
    ∀ b : Bindings, (b.renumber r).renumber l = b
  | ⟨bs⟩ => by simp only [Bindings.renumber, Binding.renumberAll_renumber h bs]

theorem Bindings.renumberAll_renumber {r l : Point → Point} (h : Function.LeftInverse l r) :
    ∀ bs : List Bindings, Bindings.renumberAll l (Bindings.renumberAll r bs) = bs
  | [] => rfl
  | b :: bs => by
    simp only [Bindings.renumberAll, Bindings.renumber_renumber h b,
      Bindings.renumberAll_renumber h bs]

end

theorem Value.renumber_injective {r : Point → Point} (hr : r.Injective) :
    (Value.renumber r).Injective := by
  obtain ⟨l, hl⟩ := hr.hasLeftInverse
  exact Function.LeftInverse.injective (Value.renumber_renumber hl)

mutual

theorem Value.shape_renumber (r : Point → Point) :
    ∀ v : Value, (v.renumber r).shape = v.shape.renumber r
  | .cls _ | .container _ | .form _ | .typeVar _ | .unknown _ => rfl
  | .generic _ _ params => by
    simp only [Value.renumber, Value.shape, Value.paramShapes_renumber r params]
  | .union options => by simp only [Value.renumber, Value.shape, Value.shapes_renumber r options]
  | .object _ c => by simp only [Value.renumber, Value.shape, Constant.knownShape_renumber r c]

theorem Constant.knownShape_renumber (r : Point → Point) :
    ∀ c : Option Constant, Constant.knownShape (Constant.renumberKnown r c) =
      Constant.renumberKnown r (Constant.knownShape c)
  | none => rfl
  | some c => by
    simp only [Constant.renumberKnown, Constant.knownShape, Constant.shape_renumber r c]

theorem Constant.shape_renumber (r : Point → Point) :
    ∀ c : Constant, (c.renumber r).shape = c.shape.renumber r
  | .none | .bool _ | .int _ | .str _ => rfl
  | .tuple items => by
    simp only [Constant.renumber, Constant.shape, Bindings.shapes_renumber r items]

theorem Value.shapes_renumber (r : Point → Point) :
    ∀ vs : List Value, Value.shapes (Value.renumberAll r vs) = Value.renumberAll r (Value.shapes vs)
  | [] => rfl
  | v :: vs => by
    simp only [Value.renumberAll, Value.shapes, Value.shape_renumber r v,
      Value.shapes_renumber r vs]

theorem Value.paramShapes_renumber (r : Point → Point) :
    ∀ ps : List (String × Value), Value.paramShapes (Value.renumberParams r ps) =
      Value.renumberParams r (Value.paramShapes ps)
  | [] => rfl
  | (_, v) :: ps => by
    simp only [Value.renumberParams, Value.paramShapes, Value.shape_renumber r v,
      Value.paramShapes_renumber r ps]

theorem Binding.shape_renumber (r : Point → Point) :
    ∀ b : Binding, (b.renumber r).shape = b.shape.renumber r
  | ⟨v, _⟩ => by simp only [Binding.renumber, Binding.shape, Value.shape_renumber r v]

theorem Binding.shapes_renumber (r : Point → Point) :
    ∀ bs : List Binding,
      Binding.shapes (Binding.renumberAll r bs) = Binding.renumberAll r (Binding.shapes bs)
  | [] => rfl
  | b :: bs => by
    simp only [Binding.renumberAll, Binding.shapes, Binding.shape_renumber r b,
      Binding.shapes_renumber r bs]

theorem Bindings.shape_renumber (r : Point → Point) :
    ∀ b : Bindings, (b.renumber r).shape = b.shape.renumber r
  | ⟨bs⟩ => by simp only [Bindings.renumber, Bindings.shape, Binding.shapes_renumber r bs]

theorem Bindings.shapes_renumber (r : Point → Point) :
    ∀ bs : List Bindings,
      Bindings.shapes (Bindings.renumberAll r bs) = Bindings.renumberAll r (Bindings.shapes bs)
  | [] => rfl
  | b :: bs => by
    simp only [Bindings.renumberAll, Bindings.shapes, Bindings.shape_renumber r b,
      Bindings.shapes_renumber r bs]

end

/-- Renumbering confuses no values and separates none. -/
theorem Value.beq_renumber {r : Point → Point} (hr : r.Injective) (v w : Value) :
    (v.renumber r == w.renumber r) = (v == w) := by
  rw [Bool.eq_iff_iff, Value.beq_iff, Value.beq_iff, Value.shape_renumber, Value.shape_renumber]
  exact (Value.renumber_injective hr).eq_iff

/-! ## Bindings -/

section Binding

variable (r : Point → Point)

@[simp] theorem Binding.value_renumber (b : Binding) :
    (b.renumber r).value = b.value.renumber r := by
  cases b
  rfl

@[simp] theorem Binding.origin_renumber (b : Binding) : (b.renumber r).origin = r b.origin := by
  cases b
  rfl

end Binding

namespace Bindings

section Reading

variable (r : Point → Point)

@[simp] theorem toList_renumber (b : Bindings) :
    (b.renumber r).toList = b.toList.map (·.renumber r) := by
  obtain ⟨bs⟩ := b
  exact Binding.renumberAll_eq_map r bs

@[simp] theorem values_renumber (b : Bindings) :
    (b.renumber r).values = b.values.map (·.renumber r) := by
  simp [values, Function.comp_def]

theorem single_renumber (b : Bindings) :
    (b.renumber r).single = (·.renumber r) <$> b.single := by
  match b with
  | ⟨[]⟩ | ⟨[⟨_, _⟩]⟩ => rfl
  | ⟨_ :: _ :: bs⟩ =>
    simp only [single, toList_renumber, List.map_cons, List.length_cons, List.length_map]
    rfl

@[simp] theorem isEmpty_renumber (b : Bindings) : (b.renumber r).isEmpty = b.isEmpty := by
  simp [isEmpty]

@[simp] theorem renumber_ofValue (p : Point) (v : Value) :
    (ofValue p v).renumber r = ofValue (r p) (v.renumber r) := rfl

@[simp] theorem ofClasses_renumber (b : Bindings) :
    Ty.ofClasses (b.renumber r).values = Ty.ofClasses b.values := by
  simp [Ty.ofClasses, Function.comp_def]

/-- What is visible moves along if the order with the point of view is kept. -/
theorem visible_renumber {p : Point} (hp : KeepsOrder r p) (b : Bindings) :
    (b.renumber r).visible (r p) = (b.visible p).map (·.renumber r) := by
  have horigin : ((fun x : Binding => decide (x.origin ≤ r p)) ∘ Binding.renumber r) =
      fun x => decide (x.origin ≤ p) := by
    funext x
    simp only [Function.comp, Binding.origin_renumber, hp x.origin]
  unfold visible
  rw [toList_renumber, List.filter_map, horigin, List.map_map, List.map_map]
  exact List.map_congr_left fun x _ => Binding.value_renumber r x

end Reading

section Building

variable {r : Point → Point} (hr : r.Injective)

include hr

theorem renumber_addBinding (b : Bindings) (x : Binding) :
    (b.addBinding x).renumber r = (b.renumber r).addBinding (x.renumber r) := by
  refine congrArg Bindings.mk ?_
  rw [Binding.renumberAll_eq_map, toList_renumber]
  refine map_addNew (fun x y => ?_) b.toList x
  rw [Binding.value_renumber, Binding.value_renumber, Value.beq_renumber hr]

theorem renumber_add (b : Bindings) (p : Point) (v : Value) :
    (b.add p v).renumber r = (b.renumber r).add (r p) (v.renumber r) :=
  renumber_addBinding hr b ⟨v, p⟩

theorem renumber_extend (b c : Bindings) :
    (b.extend c).renumber r = (b.renumber r).extend (c.renumber r) := by
  rw [extend_eq_foldl, extend_eq_foldl, toList_renumber, List.foldl_map]
  exact (List.foldl_hom (Bindings.renumber r) fun b x => (renumber_addBinding hr b x).symm).symm

theorem renumber_ofValues (p : Point) (vs : List Value) :
    (ofValues p vs).renumber r = ofValues (r p) (vs.map (·.renumber r)) := by
  unfold ofValues
  rw [List.foldl_map]
  exact (List.foldl_hom (Bindings.renumber r) fun b v => (renumber_add hr b p v).symm).symm

end Building

end Bindings

/-! ## The objects of a type -/

mutual

theorem Ty.renumber_instantiateInto {r : Point → Point} (hr : r.Injective) (p : Point) :
    ∀ (t : Ty) (b : Bindings),
      (t.instantiateInto p b).renumber r = t.instantiateInto (r p) (b.renumber r)
  | .cls _, b => Bindings.renumber_add hr b p _
  | .generic .., b => Bindings.renumber_add hr b p _
  | .union options, b => Ty.renumber_instantiateAll hr p options b
  | .typeVar v, b => by
    simp only [Ty.instantiateInto]
    rw [Bindings.renumber_extend hr, TypeVar.renumber_instantiate hr p v]
  | .unknown _, b => Bindings.renumber_add hr b p _
termination_by structural t => t

theorem Ty.renumber_instantiateAll {r : Point → Point} (hr : r.Injective) (p : Point) :
    ∀ (ts : List Ty) (b : Bindings),
      (Ty.instantiateAll p ts b).renumber r = Ty.instantiateAll (r p) ts (b.renumber r)
  | [], _ => rfl
  | t :: ts, b => by
    simp only [Ty.instantiateAll]
    rw [Ty.renumber_instantiateAll hr p ts, Ty.renumber_instantiateInto hr p t]
termination_by structural ts => ts

theorem TypeVar.renumber_instantiate {r : Point → Point} (hr : r.Injective) (p : Point) :
    ∀ v : TypeVar, (v.instantiate p).renumber r = v.instantiate (r p)
  | ⟨_, bound⟩ => TypeVar.renumber_instantiateBound hr p bound
termination_by structural v => v

theorem TypeVar.renumber_instantiateBound {r : Point → Point} (hr : r.Injective) (p : Point) :
    ∀ bound : Option Ty,
      (TypeVar.instantiateBound p bound).renumber r = TypeVar.instantiateBound (r p) bound
  | none => rfl
  | some bound => Ty.renumber_instantiateInto hr p bound ∅
termination_by structural bound => bound

end

theorem Ty.renumber_instantiate {r : Point → Point} (hr : r.Injective) (t : Ty) (p : Point) :
    (t.instantiate p).renumber r = t.instantiate (r p) :=
  Ty.renumber_instantiateInto hr p t ∅

theorem Value.instantiate_renumber {r : Point → Point} (hr : r.Injective) (v : Value) (p : Point) :
    (v.renumber r).instantiate (r p) = (v.instantiate p).map (·.renumber r) := by
  unfold Value.instantiate
  rw [Value.toTy?_renumber, Option.map_map]
  exact congrArg (v.toTy?.map ·) (funext fun t => (Ty.renumber_instantiate hr t p).symm)

end TypeHints
