import TypeHints.Proofs.Bindings
import TypeHints.Proofs.Merging

/-!
# Well-formed types and values

In a well-formed type the arguments of a generic class fit its keys: a tuple has arguments by
position, any other class one for each of its type variables, in order. In a well-formed value the
same holds, and the type of an object is a class, with or without arguments. Both hold at every
depth: in arguments and options, in the types of objects, in the items of tuples, in the bounds of
type variables and in the classes that list them.

Types have well-formed objects (`Ty.WellFormed.instantiate`), and the classes of well-formed values
make a well-formed type (`Ty.WellFormed.ofClasses`).
-/

namespace TypeHints

/-- The keys that the arguments of a class have: positions for a tuple, the names of its type
variables for any other. -/
def KeysFit (base : Class) (keys : ParamKeys) (names : List String) : Prop :=
  if base.is .tuple then keys = .positional ∧ names = (List.range names.length).map toString
  else keys = .named ∧ names = base.templateNames

/-! ## Types -/

mutual

/-- All type variables of the class are well formed. -/
inductive Class.WellFormed : Class → Prop
  | mk {name : String} {template : List TypeVar} {id : ClassId}
      (template_wf : ∀ v ∈ template, v.WellFormed) : Class.WellFormed ⟨name, template, id⟩

/-- The bound of the type variable is well formed, if it has one. -/
inductive TypeVar.WellFormed : TypeVar → Prop
  | mk {name : String} {bound : Option Ty} (bound_wf : ∀ t, bound = some t → t.WellFormed) :
      TypeVar.WellFormed ⟨name, bound⟩

/-- The arguments of generic classes fit their keys, at every depth. -/
inductive Ty.WellFormed : Ty → Prop
  | cls {c : Class} (hc : c.WellFormed) : Ty.WellFormed (.cls c)
  | typeVar {v : TypeVar} (hv : v.WellFormed) : Ty.WellFormed (.typeVar v)
  | generic {base : Class} {keys : ParamKeys} {params : List (String × Ty)}
      (fit : KeysFit base keys (params.map (·.1))) (base_wf : base.WellFormed)
      (params_wf : ∀ p ∈ params, p.2.WellFormed) : Ty.WellFormed (.generic base keys params)
  | union {options : List Ty} (options_wf : ∀ t ∈ options, t.WellFormed) :
      Ty.WellFormed (.union options)
  | unknown (u : Unknown) : Ty.WellFormed (.unknown u)

end

/-- The type is a class, with or without arguments. -/
def Ty.IsClass : Ty → Prop
  | .cls _ | .generic .. => True
  | _ => False

/-! ## Values -/

mutual

/-- The arguments of generic classes fit their keys and objects are of classes, at every depth. -/
inductive Value.WellFormed : Value → Prop
  | cls {c : Class} (hc : c.WellFormed) : Value.WellFormed (.cls c)
  | container {c : Class} (hc : c.WellFormed) : Value.WellFormed (.container c)
  | form (f : SpecialForm) : Value.WellFormed (.form f)
  | generic {base : Class} {keys : ParamKeys} {params : List (String × Value)}
      (fit : KeysFit base keys (params.map (·.1))) (base_wf : base.WellFormed)
      (params_wf : ∀ p ∈ params, p.2.WellFormed) : Value.WellFormed (.generic base keys params)
  | union {options : List Value} (options_wf : ∀ v ∈ options, v.WellFormed) :
      Value.WellFormed (.union options)
  | typeVar {v : TypeVar} (hv : v.WellFormed) : Value.WellFormed (.typeVar v)
  | object {type : Ty} {constant : Option Constant} (isClass : type.IsClass)
      (type_wf : type.WellFormed) (constant_wf : ∀ c, constant = some c → c.WellFormed) :
      Value.WellFormed (.object type constant)
  | unknown (u : Unknown) : Value.WellFormed (.unknown u)

/-- The items of a tuple are well formed. -/
inductive Constant.WellFormed : Constant → Prop
  | none : Constant.WellFormed .none
  | bool (b : Bool) : Constant.WellFormed (.bool b)
  | int (i : Int64) : Constant.WellFormed (.int i)
  | str (s : String) : Constant.WellFormed (.str s)
  | tuple {items : List Bindings} (items_wf : ∀ b ∈ items, b.WellFormed) :
      Constant.WellFormed (.tuple items)

/-- All values of the bindings are well formed. -/
inductive Bindings.WellFormed : Bindings → Prop
  | mk {bs : List Binding} (values_wf : ∀ b ∈ bs, b.value.WellFormed) : Bindings.WellFormed ⟨bs⟩

end

/-! ## Builtin classes and constants -/

theorem Builtin.cls_wellFormed (b : Builtin) : b.cls.WellFormed := by
  refine .mk fun v hv => ?_
  obtain ⟨name, -, rfl⟩ := List.mem_map.1 hv
  exact .mk fun t ht => by cases ht

theorem Value.object_wellFormed {b : Builtin} {c : Constant} (hc : c.WellFormed) :
    (Value.object (.cls b.cls) (some c)).WellFormed := by
  refine .object True.intro (.cls b.cls_wellFormed) fun c' h => ?_
  obtain rfl := Option.some.inj h
  exact hc

/-! ## Bindings -/

theorem Bindings.wellFormed_iff {b : Bindings} : b.WellFormed ↔ b.All Value.WellFormed := by
  obtain ⟨bs⟩ := b
  rw [All, values, List.forall_mem_map]
  exact ⟨fun ⟨h⟩ => h, .mk⟩

theorem Value.WellFormed.tuple? {v : Value} {items : List Bindings} (hv : v.WellFormed)
    (h : v.tuple? = some items) : ∀ b ∈ items, b.WellFormed := by
  obtain ⟨t, rfl⟩ := Value.eq_object_of_tuple? h
  cases hv with
  | object _ _ hc =>
    cases hc _ rfl with
    | tuple hitems => exact hitems

/-! ## Objects of types -/

theorem Ty.WellFormed.keptByObjects (p : Point) :
    KeptByObjects p (Bindings.All Value.WellFormed) Ty.WellFormed where
  empty := .empty
  extend hb hc := hb.extend hc
  cls ht hb := hb.add (.object True.intro ht fun _ h => by cases h)
  generic ht hb := hb.add (.object True.intro ht fun _ h => by cases h)
  unknown u hb := hb.add (.unknown u)
  options ht := by
    cases ht with
    | union options_wf => exact options_wf
  bound ht := by
    cases ht with
    | typeVar hv =>
      cases hv with
      | mk bound_wf => exact bound_wf _ rfl

theorem Ty.WellFormed.instantiate {t : Ty} (ht : t.WellFormed) (p : Point) :
    (t.instantiate p).WellFormed :=
  Bindings.wellFormed_iff.2 ((Ty.WellFormed.keptByObjects p).instantiate ht)

theorem TypeVar.WellFormed.instantiate {v : TypeVar} (hv : v.WellFormed) (p : Point) :
    (v.instantiate p).WellFormed :=
  Bindings.wellFormed_iff.2 ((Ty.WellFormed.keptByObjects p).instantiateVar (.typeVar hv))

/-! ## Classes of values -/

theorem Value.WellFormed.classOf {v : Value} (hv : v.WellFormed) : v.classOf.WellFormed := by
  cases hv with
  | object _ htype => exact htype
  | typeVar | unknown => exact .unknown _
  | cls | container | form | generic | union => exact .cls (Builtin.cls_wellFormed _)

theorem Ty.wellFormed_union_iff {ts : List Ty} :
    (Ty.union ts).WellFormed ↔ ∀ t ∈ ts, t.WellFormed := by
  constructor
  · rintro ⟨⟩
    assumption
  · exact .union

theorem Ty.WellFormed.merge {ts : List Ty} (h : ∀ t ∈ ts, t.WellFormed) :
    (Ty.merge ts).WellFormed :=
  Ty.merge_induct .unknown Ty.wellFormed_union_iff.1 (fun _ => Ty.wellFormed_union_iff.2) h

theorem Ty.WellFormed.ofClasses {vs : List Value} (h : ∀ v ∈ vs, v.WellFormed) :
    (Ty.ofClasses vs).WellFormed :=
  .merge (List.forall_mem_map.2 fun v hv => (h v hv).classOf)

end TypeHints
