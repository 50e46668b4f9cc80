import TypeHints.Proofs.Invariant.Evaluation
import TypeHints.Proofs.WellFormed.Value

/-!
# Expressions have well-formed values

Well-formedness is an invariant of values and types (`Invariant.wellFormed`): generic classes come
from subscripts, which give them the keys that fit (`Class.parameterize_wellFormed`). If the names
of a frame stand for well-formed values, expressions have well-formed values there
(`Expr.eval_wellFormed`), whatever their texts are.
-/

namespace TypeHints

/-! ## Subscripts -/

theorem Value.WellFormed.unionOf {vs : List Value} (h : ∀ v ∈ vs, v.WellFormed) :
    (Value.unionOf vs).WellFormed := by
  refine .union (Value.forall_flattenAll ?_ h fun _ hw => absurd hw List.not_mem_nil)
  intro vs hvs
  cases hvs with
  | union options_wf => exact options_wf

/-- The arguments of a class get the keys that fit it. -/
theorem Class.parameterize_wellFormed {c : Class} (hc : c.WellFormed) {args : List Value}
    (hargs : ∀ arg ∈ args, arg.WellFormed) : Yields Value.WellFormed (c.parameterize args) := by
  unfold Class.parameterize
  split
  · rename_i htuple
    refine .pure (.generic ?_ hc ?_)
    · rw [KeysFit, if_pos htuple]
      exact ⟨rfl, List.ext_getElem (by simp) fun i _ _ => by simp⟩
    · intro p hp
      obtain ⟨i, hi, rfl⟩ := List.mem_mapIdx.1 hp
      exact hargs _ (List.getElem_mem hi)
  · rename_i htuple
    split
    · rename_i hlength
      refine .pure (.generic ?_ hc ?_)
      · rw [KeysFit, if_neg htuple]
        refine ⟨rfl, List.map_fst_zip (Nat.le_of_eq ?_)⟩
        rw [Class.templateNames, List.length_map, hlength]
      · exact fun p hp => hargs p.2 (List.of_mem_zip hp).2
    · exact (Yields.trivial _).bind fun _ _ => .pure (.unknown _)

/-! ## The invariant -/

theorem Class.wellFormed_of_value {c : Class}
    (h : (Value.cls c).WellFormed ∨ (Value.container c).WellFormed) : c.WellFormed := by
  rcases h with h | h
  · cases h with
    | cls hc => exact hc
  · cases h with
    | container hc => exact hc

/-- Well-formed values denote well-formed types. -/
def Invariant.wellFormed : Invariant where
  value := Value.WellFormed
  type := Ty.WellFormed
  text _ := True
  builtin := Builtin.of_resolve (fun b => .cls b.cls_wellFormed)
    (fun b => .container b.cls_wellFormed) .form (.unknown _) (Value.object_wellFormed .none)
    fun _ => Value.object_wellFormed (.bool _)
  int _ := Value.object_wellFormed (.int _)
  str _ := Value.object_wellFormed (.str _)
  text_of_str? _ _ := True.intro
  tuple h := Value.object_wellFormed (.tuple fun b hb => Bindings.wellFormed_iff.2 (h b hb))
  items_of_tuple? hv h b hb := Bindings.wellFormed_iff.1 (hv.tuple? h b hb)
  unknown := .unknown
  merged hb := hb.merged (.unknown _) fun _ => .union hb
  parameterize hc hargs := Class.parameterize_wellFormed (Class.wellFormed_of_value hc) hargs
  unionOf hvs _ := .unionOf hvs
  type_cls h := .cls (Class.wellFormed_of_value h)
  type_none := .cls (Builtin.cls_wellFormed _)
  type_typeVar h := by
    cases h with
    | typeVar hv => exact .typeVar hv
  type_unknown := .unknown
  params h := by
    cases h with
    | generic _ _ params_wf => exact params_wf
  type_generic h hkeys hqs := by
    cases h with
    | generic fit base_wf _ => exact .generic (hkeys ▸ fit) base_wf hqs
  options h := by
    cases h with
    | union options_wf => exact options_wf
  type_union _ _ hts := .union hts
  declaredVar _ hbound := .typeVar (.mk hbound)
  declaredClass _ htemplate := by
    refine .cls (.mk fun v hv => ?_)
    cases htemplate v hv with
    | typeVar hv => exact hv

/-! ## Scopes -/

/-- All names of the scope stand for well-formed values. -/
abbrev Scope.WellFormed (scope : Scope) : Prop := scope.All Bindings.WellFormed

theorem Scope.wellFormed_iff {scope : Scope} :
    scope.WellFormed ↔ Invariant.wellFormed.Scope scope :=
  forall_congr' fun _ => forall_congr' fun _ => imp_congr_right fun _ => Bindings.wellFormed_iff

/-! ## Expressions -/

section Frame

variable {frame : Frame} (hglobals : Scope.WellFormed frame.globals)

theorem Invariant.wellFormed_evaluable (frame : Frame) :
    Invariant.wellFormed.Evaluable frame fun _ => True where
  str _ := True.intro
  items _ _ _ := True.intro
  value _ := True.intro
  index _ := True.intro
  emptyIndex _ _ _ := .unionOf fun _ hv => absurd hv List.not_mem_nil

include hglobals

theorem Expr.eval_wellFormed (e : Expr) : Yields Bindings.WellFormed (e.eval frame ∅) :=
  (Invariant.eval (Scope.wellFormed_iff.1 hglobals) (Invariant.wellFormed_evaluable frame) e
    True.intro).mono fun _ => Bindings.wellFormed_iff.2

/-- Every text may be evaluated. -/
theorem Scope.WellFormed.evaluates : Invariant.wellFormed.Evaluates frame :=
  Invariant.evaluates_of_evaluable (Scope.wellFormed_iff.1 hglobals)
    (Invariant.wellFormed_evaluable frame) fun _ _ _ _ => True.intro

end Frame

end TypeHints
