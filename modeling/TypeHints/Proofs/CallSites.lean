import TypeHints.Proofs.Merging
import TypeHints.Substitution
import TypeHints.Ty.Text

/-!
# Call sites in another order

A generic function is specialised to a set of call sites: neither the order in which they are
listed nor how often each is listed matters, except for the order of the options in the unions
that take the place of type variables (`substitute_ignores_order`). Two results that differ in
nothing else agree on the type they come from (`Ty.AgreeOn`).
-/

namespace TypeHints

/-! ## Results that agree -/

mutual

/-- Two types that took the place of one. They are the same but for the order of the options of
a union that stands where the type has a type variable. -/
inductive Ty.AgreeOn : Ty → Ty → Ty → Prop
  | cls (c : Class) : Ty.AgreeOn (.cls c) (.cls c) (.cls c)
  | unknown (u : Unknown) : Ty.AgreeOn (.unknown u) (.unknown u) (.unknown u)
  | typeVar (v : TypeVar) {u u' : Ty} (h : u.SameUpToOrder u') : Ty.AgreeOn (.typeVar v) u u'
  | generic {base : Class} {keys : ParamKeys} {ps qs qs' : List (String × Ty)}
      (h : Ty.ParamsAgreeOn ps qs qs') :
      Ty.AgreeOn (.generic base keys ps) (.generic base keys qs) (.generic base keys qs')
  | union {ts us us' : List Ty} (h : Ty.AllAgreeOn ts us us') :
      Ty.AgreeOn (.union ts) (.union us) (.union us')

/-- Types that took the place of several, member by member. -/
inductive Ty.AllAgreeOn : List Ty → List Ty → List Ty → Prop
  | nil : Ty.AllAgreeOn [] [] []
  | cons {t u u' : Ty} {ts us us' : List Ty} (head : t.AgreeOn u u')
      (tail : Ty.AllAgreeOn ts us us') : Ty.AllAgreeOn (t :: ts) (u :: us) (u' :: us')

/-- Types that took the place of arguments, under the same keys. -/
inductive Ty.ParamsAgreeOn :
    List (String × Ty) → List (String × Ty) → List (String × Ty) → Prop
  | nil : Ty.ParamsAgreeOn [] [] []
  | cons (key : String) {t u u' : Ty} {ps qs qs' : List (String × Ty)} (head : t.AgreeOn u u')
      (tail : Ty.ParamsAgreeOn ps qs qs') :
      Ty.ParamsAgreeOn ((key, t) :: ps) ((key, u) :: qs) ((key, u') :: qs')

end

mutual

theorem Ty.AgreeOn.refl : ∀ t : Ty, t.AgreeOn t t
  | .cls c => .cls c
  | .typeVar v => .typeVar v (.refl _)
  | .generic _ _ ps => .generic (Ty.ParamsAgreeOn.refl ps)
  | .union ts => .union (Ty.AllAgreeOn.refl ts)
  | .unknown u => .unknown u
termination_by structural t => t

theorem Ty.AllAgreeOn.refl : ∀ ts, Ty.AllAgreeOn ts ts ts
  | [] => .nil
  | t :: ts => .cons (Ty.AgreeOn.refl t) (Ty.AllAgreeOn.refl ts)
termination_by structural ts => ts

theorem Ty.ParamsAgreeOn.refl : ∀ ps, Ty.ParamsAgreeOn ps ps ps
  | [] => .nil
  | (key, t) :: ps => .cons key (Ty.AgreeOn.refl t) (Ty.ParamsAgreeOn.refl ps)
termination_by structural ps => ps

end

/-! ## What values look like -/

@[simp] theorem Value.isUnknown_shape (v : Value) : v.shape.isUnknown = v.isUnknown := by
  cases v <;> rfl

theorem Value.shape_classOf {v w : Value} (h : v.shape = w.shape) :
    v.classOf.shape = w.classOf.shape := by
  cases v <;> cases w <;> simp_all [Value.shape, Value.classOf, Ty.shape]

theorem Bindings.values_shape (b : Bindings) : b.shape.values = b.values.map Value.shape := by
  obtain ⟨bs⟩ := b
  show (Binding.shapes bs).map (·.value) = (bs.map (·.value)).map Value.shape
  rw [Binding.shapes_eq_map, List.map_map, List.map_map]
  exact List.map_congr_left fun ⟨_, _⟩ _ => rfl

@[simp] theorem Bindings.isEmpty_shape (b : Bindings) : b.shape.isEmpty = b.isEmpty := by
  obtain ⟨bs⟩ := b
  cases bs <;> rfl

/-! ## Sets of call sites -/

namespace Substitution

/-- The values of a call site without class identities. -/
def shape (map : Substitution) : Substitution := map.map Bindings.shape

/-- The two lists are made of the same maps: each map of one looks like a map of the other. -/
def SameMaps (maps maps' : List Substitution) : Prop :=
  ∀ s, s ∈ maps.map shape ↔ s ∈ maps'.map shape

variable {maps maps' : List Substitution}

theorem SameMaps.of_mem (h : ∀ m, m ∈ maps ↔ m ∈ maps') : SameMaps maps maps' := by
  intro s
  rw [List.mem_map, List.mem_map]
  exact exists_congr fun m => and_congr_left fun _ => h m

theorem SameMaps.symm (h : SameMaps maps maps') : SameMaps maps' maps := fun s => (h s).symm

theorem SameMaps.exists (h : SameMaps maps maps') {m : Substitution} (hm : m ∈ maps) :
    ∃ m' ∈ maps', m'.shape = m.shape :=
  List.mem_map.1 ((h m.shape).1 (List.mem_map_of_mem hm))

/-- What holds of all maps, and can be read off their shapes, holds of the same maps elsewhere. -/
theorem SameMaps.all (h : SameMaps maps maps') {test : Substitution → Bool}
    (htest : ∀ m, test m.shape = test m) : maps.all test = maps'.all test := by
  have hshapes : (maps.map shape).all test = (maps'.map shape).all test := by
    rw [Bool.eq_iff_iff, List.all_eq_true, List.all_eq_true]
    simp only [h _]
  simpa [List.all_map, Function.comp_def, htest] using hshapes

theorem SameMaps.isEmpty (h : SameMaps maps maps') : maps.isEmpty = maps'.isEmpty := by
  rw [Bool.eq_iff_iff, List.isEmpty_iff, List.isEmpty_iff, List.eq_nil_iff_forall_not_mem,
    List.eq_nil_iff_forall_not_mem]
  constructor
  · intro hnone m' hm'
    obtain ⟨m, hm, -⟩ := h.symm.exists hm'
    exact hnone m hm
  · intro hnone m hm
    obtain ⟨m', hm', -⟩ := h.exists hm
    exact hnone m' hm'

theorem SameMaps.usable (h : SameMaps maps maps') : usable maps = usable maps' := by
  have hall : maps.all (!·.isEmpty) = maps'.all (!·.isEmpty) :=
    h.all fun m => congrArg _ (SortedMap.isEmpty_map Bindings.shape m)
  rw [Substitution.usable, Substitution.usable, h.isEmpty, hall]

/-! ## What a type variable becomes -/

theorem binds_shape (name : String) (m : Substitution) : binds name m.shape = binds name m := by
  unfold binds shape
  rw [SortedMap.get?_map]
  cases m.get? name with
  | none => rfl
  | some b => simp [Bindings.values_shape, Function.comp_def]

theorem SameMaps.exists_value (h : SameMaps maps maps') {name : String} {v : Value}
    (hv : v ∈ valuesOf name maps) : ∃ w ∈ valuesOf name maps', w.shape = v.shape := by
  obtain ⟨m, hm, b, hb, hv⟩ := mem_valuesOf.1 hv
  -- the two maps only look alike, so the value is followed through the shapes
  obtain ⟨m', hm', hshape⟩ := h.exists hm
  have hget : (m'.get? name).map Bindings.shape = some b.shape := by
    calc (m'.get? name).map Bindings.shape = m'.shape.get? name := (SortedMap.get?_map ..).symm
      _ = m.shape.get? name := by rw [hshape]
      _ = some b.shape := by rw [shape, SortedMap.get?_map, hb, Option.map_some]
  obtain ⟨b', hb', hbshape⟩ := Option.map_eq_some_iff.1 hget
  have hmem : v.shape ∈ b'.values.map Value.shape := by
    rw [← Bindings.values_shape, hbshape, Bindings.values_shape]
    exact List.mem_map_of_mem hv
  obtain ⟨w, hw, hwshape⟩ := List.mem_map.1 hmem
  exact ⟨w, mem_valuesOf.2 ⟨m', hm', b', hb', hw⟩, hwshape⟩

theorem SameMaps.mem_classes (h : SameMaps maps maps') {name : String} {s : Ty}
    (hs : s ∈ ((valuesOf name maps).map (·.classOf)).map Ty.shape) :
    s ∈ ((valuesOf name maps').map (·.classOf)).map Ty.shape := by
  rw [List.map_map] at hs ⊢
  obtain ⟨v, hv, rfl⟩ := List.mem_map.1 hs
  obtain ⟨w, hw, hshape⟩ := h.exists_value hv
  exact List.mem_map.2 ⟨w, hw, Value.shape_classOf hshape⟩

theorem SameMaps.applyVar (h : SameMaps maps maps') (p : Point) (v : TypeVar) :
    (applyVar p maps v).SameUpToOrder (applyVar p maps' v) := by
  unfold Substitution.applyVar
  rw [h.all (binds_shape v.name)]
  split
  · exact Ty.merge_sameUpToOrder fun s => ⟨h.mem_classes, h.symm.mem_classes⟩
  · exact .refl _

/-! ## What a type becomes -/

mutual

theorem SameMaps.apply (h : SameMaps maps maps') (p : Point) :
    ∀ t : Ty, t.AgreeOn (apply p maps t) (apply p maps' t)
  | .cls c => .cls c
  | .typeVar v => .typeVar v (h.applyVar p v)
  | .generic _ _ ps => .generic (h.applyParams p ps)
  | .union ts => .union (h.applyAll p ts)
  | .unknown u => .unknown u
termination_by structural t => t

theorem SameMaps.applyAll (h : SameMaps maps maps') (p : Point) :
    ∀ ts, Ty.AllAgreeOn ts (applyAll p maps ts) (applyAll p maps' ts)
  | [] => .nil
  | t :: ts => .cons (h.apply p t) (h.applyAll p ts)
termination_by structural ts => ts

theorem SameMaps.applyParams (h : SameMaps maps maps') (p : Point) :
    ∀ ps, Ty.ParamsAgreeOn ps (applyParams p maps ps) (applyParams p maps' ps)
  | [] => .nil
  | (key, t) :: ps => .cons key (h.apply p t) (h.applyParams p ps)
termination_by structural ps => ps

end

theorem SameMaps.substitute (h : SameMaps maps maps') (p : Point) (t : Ty) :
    t.AgreeOn (t.substitute p maps) (t.substitute p maps') := by
  unfold Ty.substitute
  rw [h.usable]
  split
  · exact h.apply p t
  · exact .refl t

end Substitution

/-- **The order of call sites does not matter.** The same maps, in any order and any number of
times, make of a type two types that agree on it. They make of a signature two signatures with the
same keys, and of each type in it two types that agree on it. -/
theorem substitute_ignores_order {maps maps' : List Substitution}
    (h : Substitution.SameMaps maps maps') (p : Point) :
    (∀ t : Ty, t.AgreeOn (t.substitute p maps) (t.substitute p maps')) ∧
      ∀ annotations : SortedMap String Ty,
        (substituteAll annotations p maps).toList.map (·.1) =
            (substituteAll annotations p maps').toList.map (·.1) ∧
          ∀ name t, annotations.get? name = some t →
            ∃ u u', (substituteAll annotations p maps).get? name = some u ∧
              (substituteAll annotations p maps').get? name = some u' ∧ t.AgreeOn u u' := by
  refine ⟨h.substitute p, fun annotations => ⟨?_, fun name t ht => ?_⟩⟩
  · simp [substituteAll, Function.comp_def]
  · refine ⟨t.substitute p maps, t.substitute p maps', ?_, ?_, h.substitute p t⟩
    · rw [substituteAll, SortedMap.get?_map, ht, Option.map_some]
    · rw [substituteAll, SortedMap.get?_map, ht, Option.map_some]

/-- A call site that gives `T` an object of a builtin class. -/
def Substitution.ofBuiltin (b : Builtin) : Substitution :=
  ⟨[("T", .ofValue .root (.object (.cls b.cls) none))], by simp⟩

/-- The annotation `list[T]`. -/
def listOfT : Ty := .generic Builtin.list.cls .named [("T", .typeVar ⟨"T", none⟩)]

/-- Two call sites, and the same two the other way round with one of them listed twice. -/
theorem substitute_ignores_order_of_int_and_str :
    let maps := [Substitution.ofBuiltin .int, .ofBuiltin .str]
    let maps' := [Substitution.ofBuiltin .str, .ofBuiltin .int, .ofBuiltin .str]
    Substitution.SameMaps maps maps' ∧
      listOfT.AgreeOn (listOfT.substitute .root maps) (listOfT.substitute .root maps') ∧
      (listOfT.substitute .root maps).text = "list[Union[int, str]]" ∧
      (listOfT.substitute .root maps').text = "list[Union[str, int]]" := by
  intro maps maps'
  have h : Substitution.SameMaps maps maps' := by
    refine .of_mem fun m => ?_
    simp only [maps, maps', List.mem_cons, List.not_mem_nil, or_false]
    tauto
  exact ⟨h, (substitute_ignores_order h .root).1 listOfT, by decide, by decide⟩

end TypeHints
