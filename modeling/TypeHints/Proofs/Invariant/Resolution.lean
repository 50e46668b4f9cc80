import TypeHints.Function.Late
import TypeHints.Proofs.Invariant.Evaluation
import TypeHints.Proofs.Resolution
import TypeHints.Proofs.Signature

/-!
# Annotations resolve within an invariant

The types that a value denotes satisfy an invariant if the value does, also when its strings are
evaluated in a frame (`Invariant.resolve`). So the types in the signature of a function keep it
when its late annotations are resolved (`Invariant.resolveLate`).
-/

namespace TypeHints

namespace Invariant

variable {I : Invariant}

/-! ## By structure -/

mutual

theorem toTy? : ∀ {v : Value} {t : Ty}, I.value v → v.toTy? = some t → I.type t
  | .cls _, _, hv, h => by
    cases h
    exact I.type_cls (.inl hv)
  | .container _, _, hv, h => by
    cases h
    exact I.type_cls (.inr hv)
  | .generic _ _ params, _, hv, h => by
    obtain ⟨qs, hqs, rfl⟩ := Option.map_eq_some_iff.1 h
    obtain ⟨hkeys, htypes⟩ := paramTys? (I.params hv) hqs
    exact I.type_generic hv hkeys htypes
  | .union options, _, hv, h => by
    obtain ⟨ts, hts, rfl⟩ := Option.map_eq_some_iff.1 h
    obtain ⟨hlength, htypes⟩ := tys? (I.options hv) hts
    exact I.type_union hv hlength htypes
  | .typeVar _, _, hv, h => by
    cases h
    exact I.type_typeVar hv
  | .object t _, _, _, h => by
    unfold Value.toTy? at h
    split at h
    · cases h
      exact I.type_none
    · cases h
  | .unknown u, _, _, h => by
    cases h
    exact I.type_unknown u
termination_by structural v => v

theorem tys? : ∀ {vs : List Value} {ts : List Ty}, (∀ v ∈ vs, I.value v) →
    Value.tys? vs = some ts → ts.length = vs.length ∧ ∀ t ∈ ts, I.type t
  | [], _, _, h => by
    cases h
    exact ⟨rfl, fun _ ht => absurd ht List.not_mem_nil⟩
  | v :: vs, _, hvs, h => by
    obtain ⟨t, ts, ht, hts, rfl⟩ := Value.tys?_cons_eq_some_iff.1 h
    obtain ⟨hv, hvs⟩ := List.forall_mem_cons.1 hvs
    obtain ⟨hlength, htypes⟩ := tys? hvs hts
    exact ⟨congrArg (· + 1) hlength, List.forall_mem_cons.2 ⟨toTy? hv ht, htypes⟩⟩
termination_by structural vs => vs

theorem paramTys? : ∀ {ps : List (String × Value)} {qs : List (String × Ty)},
    (∀ p ∈ ps, I.value p.2) → Value.paramTys? ps = some qs →
      qs.map (·.1) = ps.map (·.1) ∧ ∀ q ∈ qs, I.type q.2
  | [], _, _, h => by
    cases h
    exact ⟨rfl, fun _ hq => absurd hq List.not_mem_nil⟩
  | (key, v) :: ps, _, hps, h => by
    obtain ⟨t, qs, ht, hqs, rfl⟩ := Value.paramTys?_cons_eq_some_iff.1 h
    obtain ⟨hv, hps⟩ := List.forall_mem_cons.1 hps
    obtain ⟨hkeys, htypes⟩ := paramTys? hps hqs
    exact ⟨congrArg (key :: ·) hkeys, List.forall_mem_cons.2 ⟨toTy? hv ht, htypes⟩⟩
termination_by structural ps => ps

end

mutual

theorem resolveBy {onText : Value → Resolving Ty}
    (hText : ∀ v, I.value v → Returns I.type (onText v)) (site : Site) :
    ∀ {v : Value}, I.value v → Returns I.type (v.resolveBy onText site)
  | .cls _, hv => .pure (I.type_cls (.inl hv))
  | .container _, hv => .pure (I.type_cls (.inr hv))
  | .form .union, _ | .form .optional, _ => site.reject_returns _ _ _
  | .generic .., hv => (resolveParamsBy hText site (I.params hv)).bind fun _ hqs =>
    .pure (I.type_generic hv hqs.1 hqs.2)
  | .union _, hv => (resolveAllBy hText site (I.options hv)).bind fun _ hts =>
    .pure (I.type_union hv hts.1 hts.2)
  | .typeVar _, hv => .pure (I.type_typeVar hv)
  | .unknown u, _ => .pure (I.type_unknown u)
  | .object t constant, hv => by
    unfold Value.resolveBy
    split
    · exact hText _ hv
    · split
      · exact .pure I.type_none
      · exact site.reject_returns _ _ _
termination_by structural v => v

theorem resolveAllBy {onText : Value → Resolving Ty}
    (hText : ∀ v, I.value v → Returns I.type (onText v)) (site : Site) :
    ∀ {vs : List Value}, (∀ v ∈ vs, I.value v) →
      Returns (fun ts : List Ty => ts.length = vs.length ∧ ∀ t ∈ ts, I.type t)
        (Value.resolveAllBy onText site vs)
  | [], _ => .pure ⟨rfl, fun _ ht => absurd ht List.not_mem_nil⟩
  | v :: vs, hvs => by
    obtain ⟨hv, hvs⟩ := List.forall_mem_cons.1 hvs
    exact (resolveBy hText site hv).bind fun _ ht =>
      (resolveAllBy hText site hvs).bind fun _ hts =>
        .pure ⟨congrArg (· + 1) hts.1, List.forall_mem_cons.2 ⟨ht, hts.2⟩⟩
termination_by structural vs => vs

theorem resolveParamsBy {onText : Value → Resolving Ty}
    (hText : ∀ v, I.value v → Returns I.type (onText v)) (site : Site) :
    ∀ {ps : List (String × Value)}, (∀ p ∈ ps, I.value p.2) →
      Returns (fun qs : List (String × Ty) => qs.map (·.1) = ps.map (·.1) ∧ ∀ q ∈ qs, I.type q.2)
        (Value.resolveParamsBy onText site ps)
  | [], _ => .pure ⟨rfl, fun _ hq => absurd hq List.not_mem_nil⟩
  | (key, v) :: ps, hps => by
    obtain ⟨hv, hps⟩ := List.forall_mem_cons.1 hps
    exact (resolveBy hText site hv).bind fun _ ht =>
      (resolveParamsBy hText site hps).bind fun _ hqs =>
        .pure ⟨congrArg (key :: ·) hqs.1, List.forall_mem_cons.2 ⟨ht, hqs.2⟩⟩
termination_by structural ps => ps

end

/-! ## Strings -/

section Frame

variable {frame : Frame} (hframe : I.Evaluates frame) (site : Site) {v : Value}

include hframe

theorem Evaluates.readText (hv : I.value v) : Returns I.value (site.readText frame v) := by
  unfold Site.readText
  split
  · exact site.reject_returns _ _ _
  · rename_i text htext
    refine Returns.bind (Returns.lift (hframe.evalText (I.text_of_str? hv htext))) fun r hr => ?_
    split
    · exact (Returns.trivial _).bind fun _ _ => .throw _
    · rename_i b
      split
      · rename_i w hw
        exact .pure ((hr b rfl).single hw)
      · exact site.reject_returns _ _ _

theorem Evaluates.resolveIn (levels : Nat) (hv : I.value v) :
    Returns I.type (v.resolveIn frame site levels) := by
  induction levels generalizing v with
  | zero =>
    refine resolveBy (fun w _ => ?_) site hv
    split
    · exact site.reject_returns _ _ _
    · exact site.reject_returns _ _ _
  | succ levels ih =>
    exact resolveBy (fun w hw => (hframe.readText site hw).bind fun _ hu => ih hu) site hv

end Frame

/-- The type of an outcome, if there is one, satisfies the invariant. -/
def Outcome (I : Invariant) : TypeHints.Outcome → Prop
  | .resolved t => I.type t
  | .late | .failed => True

theorem outcome_ofResult {r : Except Unresolved Ty} (h : ∀ t, r = .ok t → I.type t) :
    I.Outcome (.ofResult r) := by
  rcases r with (_ | _) | t
  · exact True.intro
  · exact True.intro
  · exact h t rfl

theorem resolve {v : Value} (hv : I.value v) (site : Site) {frame? : Option Frame}
    (hframe : ∀ frame, frame? = some frame → I.Evaluates frame) :
    Yields I.Outcome (v.resolve site frame?) := by
  rw [Value.resolve_eq]
  cases frame? with
  | none =>
    have hdefer := resolveBy (fun w _ => site.deferText_returns _ w) site hv
    exact Yields.bind hdefer fun _ hr => .pure (outcome_ofResult hr)
  | some frame =>
    have hin := (hframe frame rfl).resolveIn site maxTextNesting hv
    exact Yields.bind hin fun _ hr => .pure (outcome_ofResult hr)

/-! ## Signatures -/

/-- The types and the late annotations of a signature satisfy the invariant. -/
structure Signature (I : Invariant) (s : TypeHints.Signature) : Prop where
  types : s.annotations.All I.type
  late : ∀ l ∈ s.late, I.value l.value

namespace Signature

variable {s : TypeHints.Signature}

theorem set (h : I.Signature s) (name : String) {t : Ty} (ht : I.type t) :
    I.Signature (s.set name t) :=
  ⟨h.types.insert name ht, h.late⟩

theorem clearLate (h : I.Signature s) : I.Signature s.clearLate :=
  ⟨h.types, fun _ hl => absurd hl List.not_mem_nil⟩

end Signature

/-! ## Late annotations -/

section Late

variable {frame : Frame} (hframe : I.Evaluates frame) {f : Function}

include hframe

theorem Evaluates.evalTextAsTuple {text : String} (h : I.text text) :
    Returns (fun vs : List Value => ∀ v ∈ vs, I.value v)
      (TypeHints.evalTextAsTuple frame text) := by
  unfold TypeHints.evalTextAsTuple
  split
  · exact .pure fun _ hv => absurd hv List.not_mem_nil
  · refine ((hframe.evalText h).adapt _).bind fun b hb => ?_
    have hsingle : ∀ v, b.single.mapError TextError.conversion = .ok v → I.value v :=
      fun v hv => hb.single (mapError_eq_ok hv)
    refine (Returns.liftExcept hsingle).bind fun v hv => ?_
    split
    · rename_i items hitems
      refine Returns.liftExcept fun vs hvs w hw => ?_
      obtain ⟨item, hitem, hsingle⟩ := exists_of_mem_mapM (mapError_eq_ok hvs) hw
      exact (I.items_of_tuple? hv hitems item hitem).single hsingle
    · exact .pure (List.forall_mem_singleton.2 hv)

theorem Evaluates.resolveName (hf : I.Signature f.signature) (location : Location)
    (name : String) {v : Value} (hv : I.value v) :
    Yields (fun g : Function => I.Signature g.signature) (f.resolveName frame location name v) := by
  unfold Function.resolveName
  have hsome : ∀ frame', some frame = some frame' → I.Evaluates frame' :=
    fun _ h => Option.some.inj h ▸ hframe
  refine (resolve hv ⟨name, location⟩ hsome).bind fun outcome houtcome => ?_
  cases outcome with
  | resolved t => exact .pure (hf.set name houtcome)
  | late | failed => exact .pure hf

theorem Evaluates.resolveArguments (receivers : Receivers) (hf : I.Signature f.signature)
    {l : LateHint} (hl : I.value l.value) :
    Returns (fun g : Function => I.Signature g.signature)
      (f.resolveArguments receivers frame l) := by
  unfold Function.resolveArguments
  split
  · exact .throw _
  · rename_i text htext
    refine (hframe.evalTextAsTuple (I.text_of_str? hl htext)).bind fun args hargs => ?_
    refine (Returns.trivial _).bind fun names _ => ?_
    refine Returns.foldlM _ (fun g hg pair hpair => ?_) hf
    exact .lift (hframe.resolveName hg _ _ (hargs _ (List.of_mem_zip hpair).2))

theorem Evaluates.resolveNext (receivers : Receivers) (hf : I.Signature f.signature)
    {l : LateHint} (hl : I.value l.value) :
    Yields (fun g : Function => I.Signature g.signature)
      (Function.resolveNext receivers frame f l) := by
  unfold Function.resolveNext
  split
  · refine Yields.bind (hframe.resolveArguments receivers hf hl) fun r hr => ?_
    split
    · exact .pure (hr _ rfl)
    · exact (Yields.trivial _).bind fun _ _ => .pure hf
  · exact hframe.resolveName hf _ _ hl

/-- Resolving late annotations keeps the invariant. -/
theorem Evaluates.resolveLate (receivers : Receivers) (hf : I.Signature f.signature) :
    Yields (fun g : Function => I.Signature g.signature) (f.resolveLate receivers frame) :=
  Yields.foldlM f.signature.late (fun _ hg l hl => hframe.resolveNext receivers hg (hf.late l hl))
    hf.clearLate

end Late

end Invariant

end TypeHints
