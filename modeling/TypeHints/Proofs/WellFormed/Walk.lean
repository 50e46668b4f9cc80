import TypeHints.Proofs.Invariant.Walk
import TypeHints.Proofs.WellFormed.Resolution

/-!
# The walk keeps everything well formed

If the globals of the walk are well formed, so is what a definition binds, and so are the
signatures of functions: what is collected when they are defined and what they wait for
(`Walk.WellFormed.define`). Specialising a well-formed type with well-formed values leaves it well
formed (`Ty.WellFormed.substitute`).
-/

namespace TypeHints

/-! ## Definitions -/

section Definitions

variable {frame : Frame} (hglobals : Scope.WellFormed frame.globals)

include hglobals

theorem FunctionDef.payload_wellFormed (d : FunctionDef) :
    Returns (fun bs : List Bindings => ∀ b ∈ bs, b.WellFormed) (d.payload frame) := by
  have hhints := hglobals.evaluates.evalHints (d := d) fun _ _ => True.intro
  refine hhints.bind fun values hvalues => .pure fun b hb => Bindings.wellFormed_iff.2 ?_
  split at hb
  · exact absurd hb List.not_mem_nil
  · rcases List.mem_append.1 hb with hb | hb
    · exact hvalues b hb
    · obtain rfl := List.mem_singleton.1 hb
      refine .ofValue (Value.object_wellFormed (.tuple (List.forall_mem_map.2 fun entry _ => ?_)))
      exact Bindings.wellFormed_iff.2 (.ofValue (Value.object_wellFormed (.str entry.1)))

/-- The objects that a type comment gives are well formed. -/
theorem evalTypeComment_wellFormed (comment : String) :
    Returns (Bindings.All Value.WellFormed) (evalTypeComment frame comment) := by
  unfold evalTypeComment
  refine ((hglobals.evaluates.evalText True.intro).adapt _).bind fun b hb => ?_
  refine (Returns.liftExcept fun v hv => hb.single (mapError_eq_ok hv)).bind fun v hv => ?_
  split
  · rename_i objects hobjects
    exact .pure (Bindings.wellFormed_iff.1 (Value.WellFormed.instantiate hv hobjects))
  · exact .throw _

end Definitions

/-! ## The walk -/

/-- The globals and the signatures of the functions are well formed. -/
structure Walk.WellFormed (w : Walk) : Prop where
  globals : Scope.WellFormed w.globals
  functions : ∀ f ∈ w.functions, f.signature.WellFormed

namespace Walk

variable {w : Walk}

theorem wellFormed_iff : w.WellFormed ↔ Invariant.wellFormed.Walk w := by
  constructor
  · intro h
    exact ⟨Scope.wellFormed_iff.1 h.globals, fun f hf => Signature.wellFormed_iff.1
      (h.functions f hf)⟩
  · intro h
    exact ⟨Scope.wellFormed_iff.2 h.globals, fun f hf => Signature.wellFormed_iff.2
      (h.functions f hf)⟩

theorem WellFormed.empty : Walk.WellFormed {} := wellFormed_iff.2 .empty

theorem WellFormed.advance (hw : w.WellFormed) : w.advance.WellFormed := ⟨hw.globals, hw.functions⟩

/-- Every definition keeps the walk well formed. -/
theorem WellFormed.define (hw : w.WellFormed) (m : Module) (d : Definition) :
    Returns Walk.WellFormed (w.define m d) := by
  have hglobals : Scope.WellFormed w.frame.globals := hw.globals
  exact ((wellFormed_iff.1 hw).define m hglobals.evaluates (fun _ _ => True.intro)
    (evalTypeComment_wellFormed hglobals)).mono fun _ => wellFormed_iff.2

end Walk

/-! ## Specialisation -/

section Specialise

variable {frame : Frame} (hglobals : Scope.WellFormed frame.globals)

theorem addCallValue_wellFormed (p : Point) {b : Bindings} (hb : b.All Value.WellFormed)
    {v : Value} (hv : v.WellFormed) : (addCallValue p b v).All Value.WellFormed := by
  unfold addCallValue
  split
  · rename_i objects hobjects
    exact hb.extend (Bindings.wellFormed_iff.1 (hv.instantiate hobjects))
  · exact hb.add hv

include hglobals in
theorem SpecializeDef.substitution_wellFormed (d : SpecializeDef)
    (site : SortedMap String (List String)) :
    Returns (fun map : Substitution => map.All Bindings.WellFormed)
      (d.substitution frame site) := by
  refine d.substitution_holds (Bindings.wellFormed_iff.2 .empty) fun entry _ text _ => ?_
  refine (hglobals.evaluates text True.intro).mono fun values hvalues v hv b hb => ?_
  exact Bindings.wellFormed_iff.2
    (addCallValue_wellFormed _ (Bindings.wellFormed_iff.1 hb) (hvalues v hv))

end Specialise

section Substitution

variable {maps : List Substitution} (hmaps : ∀ map ∈ maps, map.All Bindings.WellFormed) (p : Point)

include hmaps

theorem Substitution.applyVar_wellFormed {v : TypeVar} (hv : v.WellFormed) :
    (Substitution.applyVar p maps v).WellFormed := by
  unfold Substitution.applyVar
  split
  · refine .ofClasses fun w hw => ?_
    obtain ⟨map, hmap, b, hb, hw⟩ := mem_valuesOf.1 hw
    exact Bindings.wellFormed_iff.1 (hmaps map hmap v.name b hb) w hw
  · exact .ofClasses (Bindings.wellFormed_iff.1 (hv.instantiate p))

end Substitution

mutual

theorem Ty.WellFormed.apply {maps : List Substitution}
    (hmaps : ∀ map ∈ maps, map.All Bindings.WellFormed) (p : Point) :
    ∀ {t : Ty}, t.WellFormed → (Substitution.apply p maps t).WellFormed
  | .typeVar _, .typeVar hv => Substitution.applyVar_wellFormed hmaps p hv
  | .generic .., .generic fit base_wf params_wf =>
    .generic ((Ty.WellFormed.applyParams hmaps p params_wf).1 ▸ fit) base_wf
      (Ty.WellFormed.applyParams hmaps p params_wf).2
  | .union _, .union options_wf => .union (Ty.WellFormed.applyAll hmaps p options_wf)
  | .cls _, ht | .unknown _, ht => ht
termination_by structural t => t

theorem Ty.WellFormed.applyAll {maps : List Substitution}
    (hmaps : ∀ map ∈ maps, map.All Bindings.WellFormed) (p : Point) :
    ∀ {ts : List Ty}, (∀ t ∈ ts, t.WellFormed) →
      ∀ t ∈ Substitution.applyAll p maps ts, t.WellFormed
  | [], _ => fun _ ht => absurd ht List.not_mem_nil
  | _ :: _, hts => List.forall_mem_cons.2
    ⟨Ty.WellFormed.apply hmaps p (List.forall_mem_cons.1 hts).1,
      Ty.WellFormed.applyAll hmaps p (List.forall_mem_cons.1 hts).2⟩
termination_by structural ts => ts

theorem Ty.WellFormed.applyParams {maps : List Substitution}
    (hmaps : ∀ map ∈ maps, map.All Bindings.WellFormed) (p : Point) :
    ∀ {ps : List (String × Ty)}, (∀ q ∈ ps, q.2.WellFormed) →
      (Substitution.applyParams p maps ps).map (·.1) = ps.map (·.1) ∧
        ∀ q ∈ Substitution.applyParams p maps ps, q.2.WellFormed
  | [], _ => ⟨rfl, fun _ hq => absurd hq List.not_mem_nil⟩
  | (key, _) :: _, hps =>
    have hrest := Ty.WellFormed.applyParams hmaps p (List.forall_mem_cons.1 hps).2
    ⟨congrArg (key :: ·) hrest.1, List.forall_mem_cons.2
      ⟨Ty.WellFormed.apply hmaps p (List.forall_mem_cons.1 hps).1, hrest.2⟩⟩
termination_by structural ps => ps

end

/-- A well-formed type is well formed with its variables replaced. -/
theorem Ty.WellFormed.substitute {t : Ty} (ht : t.WellFormed) {maps : List Substitution}
    (hmaps : ∀ map ∈ maps, map.All Bindings.WellFormed) (p : Point) :
    (t.substitute p maps).WellFormed := by
  unfold Ty.substitute
  split
  · exact ht.apply hmaps p
  · exact ht

end TypeHints
