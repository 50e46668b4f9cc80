import TypeHints.Proofs.Alternatives
import TypeHints.Proofs.Joining
import TypeHints.Proofs.WellFormed.Value
import TypeHints.Ty.Text

/-!
# Printed types are read back

The printed form of a type is an expression again: names, and subscripts of names. Where the names
stand for the classes and the type variables that the type is made of (`Ty.Writable`), each part of
the form evaluates to a value that denotes the part (`Ty.Writable.reads`), since a subscript of a
class gives it its arguments back under their keys, and a union of different types that are no
unions keeps its options as they are. So the printed form evaluates to one value, which denotes the
type it was printed from (`Ty.evalText_text`).
-/

namespace TypeHints

open Text
open TypeHints.Expr (IsItem IsExpr IsName isNameChar nestingDepth maxNesting parse_trimmed_iff)

/-! ## Names -/

/-- A name does not go on with a blank. -/
theorem Text.isNameChar_of_isBlank {c : Char} (h : isBlank c = true) : isNameChar c = false := by
  have hranges : ∀ r ∈ blankRanges, ∀ k < r.2 - r.1 + 1,
      isNameChar (Char.ofNat (r.1 + k)) = false := by
    decide +kernel
  obtain ⟨r, hr, hlow, hhigh⟩ := inRanges_iff.1 h
  have hc := hranges r hr (c.toNat - r.1) (by omega)
  rwa [Nat.add_sub_cancel' hlow, Char.ofNat_toNat] at hc

namespace Expr

theorem IsName.isNameChar {cs : List Char} {n : String} (h : IsName cs n) :
    ∀ c ∈ cs, isNameChar c = true := by
  obtain ⟨c, tail, hc, htail, rfl, -⟩ := h
  exact List.forall_mem_cons.2 ⟨isNameChar_of_isNameStart hc, htail⟩

theorem IsName.ne_nil {cs : List Char} {n : String} (h : IsName cs n) : cs ≠ [] := by
  obtain ⟨c, tail, -, -, rfl, -⟩ := h
  exact List.cons_ne_nil _ _

/-- There is no blank in a name. -/
theorem IsName.trimChars_eq {cs : List Char} {n : String} (h : IsName cs n) :
    trimChars cs = cs := by
  have hblank : ∀ c ∈ cs, isBlank c = false := by
    intro c hc
    by_contra hne
    have hname := isNameChar_of_isBlank (Bool.not_eq_false _ ▸ hne)
    rw [h.isNameChar c hc] at hname
    cases hname
  exact trimChars_eq_self_iff.2 ⟨fun c hc => hblank c (List.mem_of_mem_head? hc),
    fun c hc => hblank c (List.mem_of_getLast? hc)⟩

theorem IsName.isItem {cs : List Char} {n : String} (h : IsName cs n) : IsItem cs (.name n) := by
  have hspaces : IsSpaces [] := by simp [IsSpaces]
  exact .atom (.literal hspaces (.name h))

/-! ## Brackets -/

theorem toList_bracketed (head : String) (items : List String) :
    (bracketed head items).toList = head.toList ++ (['['] ++ (", ".intercalate items).toList ++
      [']']) := by
  simp [bracketed]

theorem isItem_bracketed {head : String} {items : List String} {index : Expr}
    (hhead : IsName head.toList head) (hindex : IsExpr (", ".intercalate items).toList index) :
    IsItem (bracketed head items).toList (.subscript (.name head) index) := by
  have hmark : ∀ c, Mark c [c] := fun c => ⟨[], by simp [IsSpaces], rfl⟩
  rw [toList_bracketed]
  exact .subscript hhead.isItem (hmark '[') hindex (hmark ']')

/-- What is no tuple is one argument. -/
theorem evalArgs_of_ne_tuple {e : Expr} (h : ∀ items, e ≠ .tuple items) (frame : Frame)
    (locals : Scope) : e.evalArgs frame locals = Expr.evalAll frame locals [e] := by
  cases e with
  | tuple items => exact absurd rfl (h items)
  | name | str | int | subscript => simp [evalArgs, Expr.evalAll]

/-- Items that are no tuples are, with commas between them, an index that has their values. -/
theorem exists_index {texts : List String} {es : List Expr}
    (h : List.Forall₂ (fun text e => IsItem text.toList e ∧ ∀ items, e ≠ .tuple items) texts es)
    (hne : texts ≠ []) (frame : Frame) (locals : Scope) :
    ∃ index, IsExpr (", ".intercalate texts).toList index ∧
      index.evalArgs frame locals = Expr.evalAll frame locals es := by
  have hitems := IsItems.intercalate (h.imp fun _ _ h => h.1) hne
  match es, h with
  | [], .nil => exact absurd rfl hne
  | [e], .cons ⟨_, hplain⟩ _ =>
    exact ⟨e, .item hitems.of_singleton, evalArgs_of_ne_tuple hplain frame locals⟩
  | e :: e' :: es, _ => exact ⟨.tuple (e :: e' :: es), .tuple hitems (by simp), rfl⟩

end Expr

open TypeHints.Expr (toList_bracketed isItem_bracketed exists_index)

/-! ## Values of the same shape -/

theorem Value.eq_noneType_of_toTy? {type t : Ty} {constant : Option Constant}
    (h : (Value.object type constant).toTy? = some t) : t = .cls Builtin.noneType.cls := by
  unfold Value.toTy? at h
  split at h
  · exact (Option.some.inj h).symm
  · cases h

mutual

/-- Values that are the same denote the same type, if both denote one. -/
theorem Value.shape_eq_of_toTy? : ∀ {v w : Value} {t u : Ty}, v.shape = w.shape →
    v.toTy? = some t → w.toTy? = some u → t.shape = u.shape
  | .cls _, w, _, _, h, ht, hu => by
    cases w with
    | cls => cases ht; cases hu; exact congrArg Ty.cls (Value.cls.inj h)
    | _ => cases h
  | .container _, w, _, _, h, ht, hu => by
    cases w with
    | container => cases ht; cases hu; exact congrArg Ty.cls (Value.container.inj h)
    | _ => cases h
  | .form _, _, _, _, _, ht, _ => by cases ht
  | .generic _ _ _, w, _, _, h, ht, hu => by
    cases w with
    | generic =>
      obtain ⟨rs, hrs, rfl⟩ := Option.map_eq_some_iff.1 ht
      obtain ⟨ss, hss, rfl⟩ := Option.map_eq_some_iff.1 hu
      obtain ⟨hbase, hkeys, hparams⟩ := Value.generic.inj h
      rw [Ty.shape, Ty.shape, hbase, hkeys, Value.paramShapes_eq_of_paramTys? hparams hrs hss]
    | _ => cases h
  | .union _, w, _, _, h, ht, hu => by
    cases w with
    | union =>
      obtain ⟨ts, hts, rfl⟩ := Option.map_eq_some_iff.1 ht
      obtain ⟨us, hus, rfl⟩ := Option.map_eq_some_iff.1 hu
      rw [Ty.shape, Ty.shape, Value.shapes_eq_of_tys? (Value.union.inj h) hts hus]
    | _ => cases h
  | .typeVar _, w, _, _, h, ht, hu => by
    cases w with
    | typeVar => cases ht; cases hu; exact congrArg Ty.typeVar (Value.typeVar.inj h)
    | _ => cases h
  | .object _ _, w, _, _, h, ht, hu => by
    cases w with
    | object =>
      -- whichever objects these are, the only type an object denotes is that of `None`
      rw [Value.eq_noneType_of_toTy? ht, Value.eq_noneType_of_toTy? hu]
    | _ => cases h
  | .unknown _, w, _, _, h, ht, hu => by
    cases w with
    | unknown => cases ht; cases hu; exact congrArg Ty.unknown (Value.unknown.inj h)
    | _ => cases h
termination_by structural v => v

theorem Value.shapes_eq_of_tys? : ∀ {vs ws : List Value} {ts us : List Ty},
    Value.shapes vs = Value.shapes ws → Value.tys? vs = some ts → Value.tys? ws = some us →
      Ty.shapes ts = Ty.shapes us
  | [], [], _, _, _, ht, hu => by
    cases ht
    cases hu
    rfl
  | v :: vs, w :: ws, _, _, h, ht, hu => by
    obtain ⟨hv, hvs⟩ := List.cons.inj h
    obtain ⟨t, ts, hvt, hts, rfl⟩ := Value.tys?_cons_eq_some_iff.1 ht
    obtain ⟨u, us, hwu, hus, rfl⟩ := Value.tys?_cons_eq_some_iff.1 hu
    rw [Ty.shapes, Ty.shapes, Value.shape_eq_of_toTy? hv hvt hwu,
      Value.shapes_eq_of_tys? hvs hts hus]
termination_by structural vs => vs

theorem Value.paramShapes_eq_of_paramTys? : ∀ {ps qs : List (String × Value)}
    {rs ss : List (String × Ty)}, Value.paramShapes ps = Value.paramShapes qs →
      Value.paramTys? ps = some rs → Value.paramTys? qs = some ss →
        Ty.paramShapes rs = Ty.paramShapes ss
  | [], [], _, _, _, hr, hs => by
    cases hr
    cases hs
    rfl
  | (_, v) :: ps, (_, w) :: qs, _, _, h, hr, hs => by
    obtain ⟨hpair, hps⟩ := List.cons.inj h
    obtain ⟨rfl, hv⟩ := Prod.mk.inj hpair
    obtain ⟨t, rs, hvt, hrs, rfl⟩ := Value.paramTys?_cons_eq_some_iff.1 hr
    obtain ⟨u, ss, hwu, hss, rfl⟩ := Value.paramTys?_cons_eq_some_iff.1 hs
    rw [Ty.paramShapes, Ty.paramShapes, Value.shape_eq_of_toTy? hv hvt hwu,
      Value.paramShapes_eq_of_paramTys? hps hrs hss]
termination_by structural ps => ps

end

/-! ## Denoting types one by one -/

section Denoting

variable {vs : List Value} {ts : List Ty} {params : List (String × Ty)}

theorem Value.tys?_eq_some_iff :
    Value.tys? vs = some ts ↔ List.Forall₂ (fun v t => v.toTy? = some t) vs ts := by
  induction vs generalizing ts with
  | nil => simp [Value.tys?, eq_comm]
  | cons v vs ih =>
    rw [Value.tys?_cons_eq_some_iff, List.forall₂_cons_left_iff]
    simp only [ih, exists_and_left]

theorem Value.exists_type_of_mem (h : List.Forall₂ (fun v t => v.toTy? = some t) vs ts) :
    ∀ v ∈ vs, ∃ t ∈ ts, v.toTy? = some t := by
  induction h with
  | nil => exact fun v hv => absurd hv List.not_mem_nil
  | @cons v t vs ts ht _ ih =>
    refine List.forall_mem_cons.2 ⟨⟨t, List.mem_cons_self, ht⟩, fun w hw => ?_⟩
    obtain ⟨u, hu, hwu⟩ := ih w hw
    exact ⟨u, List.mem_cons_of_mem _ hu, hwu⟩

/-- Values of different types are different. -/
theorem Value.distinct_of_types (h : List.Forall₂ (fun v t => v.toTy? = some t) vs ts)
    (hts : Distinct (· == ·) ts) : Distinct (· == ·) vs := by
  induction h with
  | nil => exact .nil
  | @cons v t vs ts ht hvs ih =>
    obtain ⟨hhead, htail⟩ := List.pairwise_cons.1 hts
    refine List.pairwise_cons.2 ⟨fun w hw => ?_, ih htail⟩
    obtain ⟨u, hu, hwu⟩ := Value.exists_type_of_mem hvs w hw
    by_contra hsame
    have hvw : v.shape = w.shape := Value.beq_iff.1 (Bool.not_eq_false _ ▸ hsame)
    have htu : (t == u) = true := Ty.beq_iff.2 (Value.shape_eq_of_toTy? hvw ht hwu)
    exact Bool.false_ne_true ((hhead u hu).symm.trans htu)

theorem Value.ne_union_of_toTy? {v : Value} {t : Ty} (ht : v.toTy? = some t)
    (hflat : ∀ members, t ≠ .union members) : ∀ members, v ≠ .union members := by
  rintro members rfl
  obtain ⟨ts, -, rfl⟩ := Option.map_eq_some_iff.1 ht
  exact hflat ts rfl

/-- Under the keys of arguments, values denote the arguments if they denote their types. -/
theorem Value.paramTys?_zip (h : List.Forall₂ (fun v t => v.toTy? = some t) vs (params.map (·.2))) :
    Value.paramTys? ((params.map (·.1)).zip vs) = some params := by
  induction params generalizing vs with
  | nil => rfl
  | cons param params ih =>
    match vs, h with
    | v :: vs, .cons ht hvs =>
      exact Value.paramTys?_cons_eq_some_iff.2 ⟨param.2, params, ht, ih hvs, rfl⟩

/-- A class gives its arguments back under the keys that it has for them. -/
theorem Class.exists_parameterize {base : Class} {keys : ParamKeys}
    (hfit : KeysFit base keys (params.map (·.1)))
    (h : List.Forall₂ (fun v t => v.toTy? = some t) vs (params.map (·.2))) :
    ∃ w, Gives (base.parameterize vs) w [] ∧ w.toTy? = some (.generic base keys params) := by
  have hlength : (params.map (·.1)).length = vs.length := by
    rw [h.length_eq, List.length_map, List.length_map]
  have htype : (Value.generic base keys ((params.map (·.1)).zip vs)).toTy? =
      some (.generic base keys params) :=
    Option.map_eq_some_iff.2 ⟨params, Value.paramTys?_zip h, rfl⟩
  unfold KeysFit at hfit
  unfold Class.parameterize
  split at hfit
  · rename_i htuple
    obtain ⟨rfl, hnames⟩ := hfit
    have hzip : vs.mapIdx (fun i v => (toString i, v)) = (params.map (·.1)).zip vs := by
      rw [hnames, hlength]
      exact List.ext_getElem (by simp) (by simp)
    rw [if_pos htuple, hzip]
    exact ⟨_, .pure _, htype⟩
  · rename_i htuple
    obtain ⟨rfl, hnames⟩ := hfit
    have htemplate : vs.length = base.template.length := by
      rw [← hlength, hnames, Class.templateNames, List.length_map]
    rw [if_neg htuple, if_pos htemplate, ← hnames]
    exact ⟨_, .pure _, htype⟩

end Denoting

/-! ## Types that can be written -/

/-- Among the globals the name stands for `v` alone, or nothing binds it there and it is a builtin
name of `v`. -/
inductive Frame.StandsFor (frame : Frame) (name : String) (v : Value) : Prop
  | bound {b : Bindings} (bound : frame.globals.get? name = some b) (single : b.values = [v])
  | builtin (unbound : frame.globals.get? name = none) (resolve : Builtin.resolve name = some v)

/-- The name of the class is a name, and stands for the class, as an object or as a container. -/
structure Frame.Names (frame : Frame) (c : Class) : Prop where
  isName : IsName c.name.toList c.name
  standsFor : frame.StandsFor c.name (.cls c) ∨ frame.StandsFor c.name (.container c)

/-- The printed form of the type says in the frame what the type is made of: its names stand for
its classes and type variables, arguments have the keys that their class gives them, and the
options of a union are different types and no unions. What has the identity of the builtin tuple
is the builtin tuple. -/
inductive Ty.Writable (frame : Frame) : Ty → Prop
  | cls {c : Class} (named : frame.Names c) : Ty.Writable frame (.cls c)
  | typeVar {v : TypeVar} (isName : IsName v.name.toList v.name)
      (standsFor : frame.StandsFor v.name (.typeVar v)) : Ty.Writable frame (.typeVar v)
  | generic {base : Class} {keys : ParamKeys} {params : List (String × Ty)}
      (named : frame.Names base) (tuple : base.is .tuple = true → base = Builtin.tuple.cls)
      (fit : KeysFit base keys (params.map (·.1))) (nonempty : params ≠ [])
      (params_writable : ∀ p ∈ params, p.2.Writable frame) :
      Ty.Writable frame (.generic base keys params)
  | union {options : List Ty} (nonempty : options ≠ []) (distinct : Distinct (· == ·) options)
      (flat : ∀ t ∈ options, ∀ members, t ≠ .union members)
      (options_writable : ∀ t ∈ options, t.Writable frame) : Ty.Writable frame (.union options)
  | any : Ty.Writable frame (.unknown .any)

/-- The printed form of `t` is the item `e`, and no tuple, whose one value `v` denotes `t`. -/
structure Ty.Reads (frame : Frame) (t : Ty) (e : Expr) (v : Value) : Prop where
  item : IsItem t.text.toList e
  plain : ∀ items, e ≠ .tuple items
  eval : ∃ b, Gives (e.eval frame ∅) b [] ∧ b.values = [v]
  denotes : v.toTy? = some t

section Reads

variable {frame : Frame} {t : Ty} {ts : List Ty} {name : String} {v : Value}

theorem Frame.StandsFor.eval (h : frame.StandsFor name v) :
    ∃ b, Gives ((Expr.name name).eval frame ∅) b [] ∧ b.values = [v] := by
  have hload : ((∅ : Scope).get? name <|> frame.globals.get? name) = frame.globals.get? name := rfl
  show ∃ b, Gives (frame.load ∅ name) b [] ∧ b.values = [v]
  unfold Frame.load
  rw [hload]
  cases h with
  | @bound b hbound single =>
    rw [hbound]
    exact ⟨b, .pure b, single⟩
  | builtin unbound resolve =>
    rw [unbound, resolve]
    exact ⟨.ofValue frame.point v, .pure _, rfl⟩

/-- Types that are read back one by one are read back in a row. -/
theorem Ty.exists_row (h : ∀ t ∈ ts, ∃ e v, t.Reads frame e v) :
    ∃ es bs, List.Forall₂ (fun text e => IsItem text.toList e ∧ ∀ items, e ≠ .tuple items)
        (ts.map Ty.text) es ∧
      Gives (Expr.evalAll frame ∅ es) bs [] ∧ Value.tys? (bs.map (·.merged)) = some ts := by
  induction ts with
  | nil => exact ⟨[], [], .nil, .pure _, rfl⟩
  | cons t ts ih =>
    obtain ⟨⟨e, v, hread⟩, hts⟩ := List.forall_mem_cons.1 h
    obtain ⟨es, bs, hes, hbs, htys⟩ := ih hts
    obtain ⟨b, hb, hv⟩ := hread.eval
    have hmerged : b.merged = v := by
      unfold Bindings.merged
      rw [hv]
    refine ⟨e :: es, b :: bs, .cons ⟨hread.item, hread.plain⟩ hes,
      hb.bind_silent (hbs.bind_silent (.pure _)), ?_⟩
    rw [List.map_cons, hmerged]
    exact Value.tys?_cons_eq_some_iff.2 ⟨t, ts, hread.denotes, htys, rfl⟩

/-- A form in brackets is read back, if the value that stands in front of the brackets makes a value
of the type out of any values of the parts. -/
theorem Ty.reads_of_bracketed {base : Value} (htext : t.text = bracketed name (ts.map Ty.text))
    (hname : IsName name.toList name) (hbase : frame.StandsFor name base) (hne : ts ≠ [])
    (hts : ∀ u ∈ ts, ∃ e v, u.Reads frame e v)
    (hsubscript : ∀ vs, List.Forall₂ (fun v t => v.toTy? = some t) vs ts →
      ∃ w, Gives (base.subscript vs) w [] ∧ w.toTy? = some t) :
    ∃ e v, t.Reads frame e v := by
  obtain ⟨es, bs, hes, hbs, htys⟩ := Ty.exists_row hts
  obtain ⟨index, hindex, hargs⟩ := exists_index hes (mt List.map_eq_nil_iff.1 hne) frame ∅
  obtain ⟨b, hb, hv⟩ := hbase.eval
  obtain ⟨w, hw, ht⟩ := hsubscript _ (Value.tys?_eq_some_iff.1 htys)
  refine ⟨.subscript (.name name) index, w, ?_, nofun, ⟨.ofValue frame.point w, ?_, rfl⟩, ht⟩
  · rw [htext]
    exact isItem_bracketed hname hindex
  · exact Expr.eval_subscript_gives hb hv (hargs ▸ hbs) hw

/-- The name of a class stands for a value whose subscripts are classes with arguments, unless the
class has no type variables. -/
theorem Frame.Names.exists_subscript {c : Class} (h : frame.Names c) (htemplate : c.template ≠ []) :
    ∃ base, frame.StandsFor c.name base ∧ ∀ vs, base.subscript vs = c.parameterize vs := by
  obtain hcls | hcontainer := h.standsFor
  · refine ⟨.cls c, hcls, fun vs => if_neg ?_⟩
    simpa using htemplate
  · exact ⟨.container c, hcontainer, fun vs => rfl⟩

/-- A class that has arguments has type variables. -/
theorem KeysFit.template_ne_nil {base : Class} {keys : ParamKeys} {params : List (String × Ty)}
    (htuple : base.is .tuple = true → base = Builtin.tuple.cls)
    (hfit : KeysFit base keys (params.map (·.1))) (hne : params ≠ []) : base.template ≠ [] := by
  unfold KeysFit at hfit
  split at hfit
  · rename_i h
    rw [htuple h]
    exact List.cons_ne_nil _ _
  · intro hnil
    have hnames : params.map (·.1) = [] := by rw [hfit.2, Class.templateNames, hnil, List.map_nil]
    exact hne (List.map_eq_nil_iff.1 hnames)

theorem isName_union : IsName "Union".toList "Union" :=
  ⟨'U', ['n', 'i', 'o', 'n'], rfl, List.all_eq_true.1 rfl, rfl, rfl⟩

theorem isName_any : IsName "Any".toList "Any" :=
  ⟨'A', ['n', 'y'], rfl, List.all_eq_true.1 rfl, rfl, rfl⟩

/-- A name that stands for a value denoting the type is read back as it. -/
theorem Ty.reads_of_name (htext : t.text = name) (hname : IsName name.toList name)
    (hv : frame.StandsFor name v) (ht : v.toTy? = some t) : ∃ e v, t.Reads frame e v :=
  ⟨.name name, v, htext ▸ hname.isItem, nofun, hv.eval, ht⟩

theorem Ty.Writable.reads (hunion : frame.globals.get? "Union" = none)
    (hany : frame.globals.get? "Any" = none) (h : t.Writable frame) :
    ∃ e v, t.Reads frame e v := by
  induction h with
  | @cls c named =>
    obtain hcls | hcontainer := named.standsFor
    · exact Ty.reads_of_name rfl named.isName hcls rfl
    · exact Ty.reads_of_name rfl named.isName hcontainer rfl
  | typeVar isName standsFor => exact Ty.reads_of_name rfl isName standsFor rfl
  | @generic base keys params named tuple fit nonempty _ ih =>
    obtain ⟨value, hvalue, hsubscript⟩ :=
      named.exists_subscript (fit.template_ne_nil tuple nonempty)
    have htext : (Ty.generic base keys params).text =
        bracketed base.name ((params.map (·.2)).map Ty.text) := by
      rw [Ty.text, Ty.paramTexts_eq_map, List.map_map]
      rfl
    refine Ty.reads_of_bracketed htext named.isName hvalue (mt List.map_eq_nil_iff.1 nonempty)
      (List.forall_mem_map.2 ih) fun vs hvs => ?_
    rw [hsubscript]
    exact Class.exists_parameterize fit hvs
  | @union options nonempty distinct flat _ ih =>
    refine Ty.reads_of_bracketed (by rw [Ty.text, Ty.texts_eq_map]) isName_union
      (.builtin hunion rfl) nonempty ih fun vs hvs => ⟨.unionOf vs, .pure _, ?_⟩
    have hflat : ∀ v ∈ vs, ∀ members, v ≠ .union members := by
      intro v hv
      obtain ⟨t, hmem, ht⟩ := Value.exists_type_of_mem hvs v hv
      exact Value.ne_union_of_toTy? ht (flat t hmem)
    rw [Value.unionOf_of_distinct hflat (Value.distinct_of_types hvs distinct)]
    exact Option.map_eq_some_iff.2 ⟨options, Value.tys?_eq_some_iff.2 hvs, rfl⟩
  | any => exact Ty.reads_of_name rfl isName_any (.builtin hany rfl) rfl

/-! ## The printed form as a text -/

theorem trimChars_bracketed (hname : IsName name.toList name) (items : List String) :
    trimChars (bracketed name items).toList = (bracketed name items).toList ∧
      (bracketed name items).toList ≠ [] := by
  have hclose : trimChars [']'] = [']'] := by decide
  rw [toList_bracketed, ← List.append_assoc]
  exact ⟨trimChars_append_append _ hname.trimChars_eq hclose hname.ne_nil (List.cons_ne_nil _ _),
    by simp⟩

/-- There are no blanks at the ends of the printed form, and it is not empty. -/
theorem Ty.Writable.trimChars_text (h : t.Writable frame) :
    trimChars t.text.toList = t.text.toList ∧ t.text.toList ≠ [] := by
  cases h with
  | cls named => exact ⟨named.isName.trimChars_eq, named.isName.ne_nil⟩
  | typeVar isName => exact ⟨isName.trimChars_eq, isName.ne_nil⟩
  | generic named => exact trimChars_bracketed named.isName _
  | union => exact trimChars_bracketed isName_union _
  | any => exact ⟨isName_any.trimChars_eq, isName_any.ne_nil⟩

end Reads

/-- **Printed types are read back.** If `Union` and `Any` are not bound among the globals, the
printed form of a type that can be written there, as long as it is not nested too deep, evaluates
to one value, and that value denotes the type. Nothing is reported. -/
theorem Ty.evalText_text {frame : Frame} {t : Ty} (hunion : frame.globals.get? "Union" = none)
    (hany : frame.globals.get? "Any" = none) (ht : t.Writable frame)
    (hdepth : nestingDepth t.text.toList ≤ maxNesting) :
    ∃ b v, (∀ log, (evalText frame t.text).run.run log = (.ok b, log)) ∧ b.values = [v] ∧
      v.toTy? = some t := by
  obtain ⟨e, v, hread⟩ := ht.reads hunion hany
  obtain ⟨b, hb, hv⟩ := hread.eval
  obtain ⟨htrim, hne⟩ := ht.trimChars_text
  have htrimmed : Text.trim t.text = t.text := by rw [← String.toList_inj, toList_trim, htrim]
  have hparse : Expr.parse t.text = .ok e :=
    (parse_trimmed_iff htrimmed).2 ⟨hne, hdepth, .item hread.item⟩
  refine ⟨b, v, fun log => ?_, hv, hread.denotes⟩
  rw [evalText_ok_iff.2 ⟨e, hparse, hb⟩ log, Log.append_nil]

/-! ### A type of several parts -/

/-- A type variable. -/
def boxVar : TypeVar := ⟨"T", none⟩

/-- A class with one type variable. -/
def boxClass : Class := ⟨"Box", [boxVar], .declared "Box"⟩

/-- Both are bound. -/
def boxFrame : Frame where
  point := .root
  globals := ((∅ : Scope).insert "T" (.ofValue .root (.typeVar boxVar))).insert "Box"
    (.ofValue .root (.cls boxClass))

/-- `Union[Box[T], tuple[int, Any]]`. -/
def boxUnion : Ty :=
  .union [.generic boxClass .named [("T", .typeVar boxVar)],
    .generic Builtin.tuple.cls .positional [("0", .cls Builtin.int.cls), ("1", .unknown .any)]]

theorem boxUnion_writable : boxUnion.Writable boxFrame := by
  have hbox : boxFrame.Names boxClass :=
    ⟨⟨'B', ['o', 'x'], rfl, List.all_eq_true.1 rfl, rfl, rfl⟩, .inl (.bound rfl rfl)⟩
  have hvar : Ty.Writable boxFrame (.typeVar boxVar) :=
    .typeVar ⟨'T', [], rfl, List.all_eq_true.1 rfl, rfl, rfl⟩ (.bound rfl rfl)
  have htuple : boxFrame.Names Builtin.tuple.cls :=
    ⟨⟨'t', ['u', 'p', 'l', 'e'], rfl, List.all_eq_true.1 rfl, rfl, rfl⟩, .inl (.builtin rfl rfl)⟩
  have hint : Ty.Writable boxFrame (.cls Builtin.int.cls) :=
    .cls ⟨⟨'i', ['n', 't'], rfl, List.all_eq_true.1 rfl, rfl, rfl⟩, .inl (.builtin rfl rfl)⟩
  refine .union (by simp) (List.pairwise_pair.2 (by decide)) (by simp) (List.forall_mem_cons.2 ⟨?_,
    List.forall_mem_singleton.2 ?_⟩)
  · exact .generic hbox (fun h => absurd h (by decide)) ⟨rfl, rfl⟩ (by simp)
      (List.forall_mem_singleton.2 hvar)
  · exact .generic htuple (fun _ => rfl) ⟨rfl, rfl⟩ (by simp)
      (List.forall_mem_cons.2 ⟨hint, List.forall_mem_singleton.2 .any⟩)

theorem evalText_text_of_box : boxFrame.globals.get? "Union" = none ∧
    boxFrame.globals.get? "Any" = none ∧ boxUnion.Writable boxFrame ∧
    nestingDepth boxUnion.text.toList ≤ maxNesting ∧
    ∃ b v, (∀ log, (evalText boxFrame boxUnion.text).run.run log = (.ok b, log)) ∧
      b.values = [v] ∧ v.toTy? = some boxUnion := by
  have hdepth : nestingDepth boxUnion.text.toList ≤ maxNesting := by decide +kernel
  exact ⟨rfl, rfl, boxUnion_writable, hdepth,
    Ty.evalText_text rfl rfl boxUnion_writable hdepth⟩

end TypeHints
