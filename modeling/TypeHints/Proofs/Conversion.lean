import TypeHints.LineComment
import TypeHints.Proofs.Denotation

/-!
# Two ways from values to types

`Value.toTy?` reads a type off the structure of a value; type comments and bounds use it.
Annotations are resolved instead, which looks into strings as well. Where both have something to
say they agree: `toTy?` finds what the value denotes without any string
(`Value.toTy?_eq_some_iff`), so it finds a type exactly if resolution without a frame does, and
then every frame gives the same type (`conversions_agree`).
-/

namespace TypeHints

variable {frame : Frame}

/-! ## What is read off the structure -/

mutual

theorem Value.denotes_of_toTy? : ∀ {v : Value} {t : Ty}, v.toTy? = some t → v.Denotes frame t 0
  | .cls c, _, h => by
    cases h
    exact .cls c
  | .container c, _, h => by
    cases h
    exact .container c
  | .generic _ _ params, _, h => by
    obtain ⟨qs, hqs, rfl⟩ := Option.map_eq_some_iff.1 h
    exact .generic (Value.paramsDenote_of_paramTys? hqs)
  | .union options, _, h => by
    obtain ⟨ts, hts, rfl⟩ := Option.map_eq_some_iff.1 h
    exact .union (Value.allDenote_of_tys? hts)
  | .typeVar v, _, h => by
    cases h
    exact .typeVar v
  | .object type constant, _, h => by
    unfold Value.toTy? at h
    split at h
    · cases h
      exact .null constant ‹_›
    · cases h
  | .unknown u, _, h => by
    cases h
    exact .unknown u
termination_by structural v => v

theorem Value.allDenote_of_tys? : ∀ {vs : List Value} {ts : List Ty},
    Value.tys? vs = some ts → Value.AllDenote frame vs ts 0
  | [], _, h => by
    cases h
    exact .nil
  | v :: vs, _, h => by
    obtain ⟨t, ts, ht, hts, rfl⟩ := Value.tys?_cons_eq_some_iff.1 h
    exact .cons (Value.denotes_of_toTy? ht) (Value.allDenote_of_tys? hts)
termination_by structural vs => vs

theorem Value.paramsDenote_of_paramTys? : ∀ {ps : List (String × Value)}
    {qs : List (String × Ty)}, Value.paramTys? ps = some qs → Value.ParamsDenote frame ps qs 0
  | [], _, h => by
    cases h
    exact .nil
  | (key, v) :: ps, _, h => by
    obtain ⟨t, qs, ht, hqs, rfl⟩ := Value.paramTys?_cons_eq_some_iff.1 h
    exact .cons (Value.denotes_of_toTy? ht) (Value.paramsDenote_of_paramTys? hqs)
termination_by structural ps => ps

end

mutual

theorem Value.Denotes.toTy? : ∀ {v : Value} {t : Ty} {k : Nat}, v.Denotes frame t k → k = 0 →
    v.toTy? = some t
  | .cls _, _, _, .cls _, _ | .container _, _, _, .container _, _
  | .typeVar _, _, _, .typeVar _, _ | .unknown _, _, _, .unknown _, _ => rfl
  | .generic .., _, _, .generic hparams, hk =>
    Option.map_eq_some_iff.2 ⟨_, Value.ParamsDenote.paramTys? hparams hk, rfl⟩
  | .union _, _, _, .union hoptions, hk =>
    Option.map_eq_some_iff.2 ⟨_, Value.AllDenote.tys? hoptions hk, rfl⟩
  | .object _ _, _, _, .null _ hnull, _ => by
    unfold Value.toTy?
    rw [if_pos hnull]
termination_by structural v => v

theorem Value.AllDenote.tys? : ∀ {vs : List Value} {ts : List Ty} {k : Nat},
    Value.AllDenote frame vs ts k → k = 0 → Value.tys? vs = some ts
  | [], _, _, .nil, _ => rfl
  | _ :: _, _, _, .cons hv hvs, hk => by
    obtain ⟨hk, hl⟩ := Nat.max_eq_zero_iff.1 hk
    exact Value.tys?_cons_eq_some_iff.2
      ⟨_, _, Value.Denotes.toTy? hv hk, Value.AllDenote.tys? hvs hl, rfl⟩
termination_by structural vs => vs

theorem Value.ParamsDenote.paramTys? : ∀ {ps : List (String × Value)} {qs : List (String × Ty)}
    {k : Nat}, Value.ParamsDenote frame ps qs k → k = 0 → Value.paramTys? ps = some qs
  | [], _, _, .nil, _ => rfl
  | _ :: _, _, _, .cons hv hps, hk => by
    obtain ⟨hk, hl⟩ := Nat.max_eq_zero_iff.1 hk
    exact Value.paramTys?_cons_eq_some_iff.2
      ⟨_, _, Value.Denotes.toTy? hv hk, Value.ParamsDenote.paramTys? hps hl, rfl⟩
termination_by structural ps => ps

end

/-- The type of a value by its structure is what it denotes without any string. -/
theorem Value.toTy?_eq_some_iff {v : Value} {t : Ty} :
    v.toTy? = some t ↔ v.Denotes frame t 0 :=
  ⟨Value.denotes_of_toTy?, fun h => h.toTy? rfl⟩

/-! ## The same by resolution -/

variable {v : Value} {t : Ty}

theorem Value.resolve_of_toTy? (h : v.toTy? = some t) (site : Site) (frame? : Option Frame) :
    Gives (v.resolve site frame?) (.resolved t) [] := by
  cases frame? with
  | some frame =>
    have hdenotes : v.Denotes frame t 0 := Value.toTy?_eq_some_iff.1 h
    exact Value.resolve_some_gives (hdenotes.resolveIn site (Nat.zero_le _))
  | none =>
    -- no string is met, so any frame will do
    have hdenotes : v.Denotes ⟨.root, ∅⟩ t 0 := Value.toTy?_eq_some_iff.1 h
    refine Value.resolve_none_gives (hdenotes.resolveBy (fun htype h hk => ?_) (Nat.le_refl 0))
    exact absurd (h.pos_of_is_str htype) (Nat.not_lt.2 hk)

theorem Value.toTy?_of_resolve_none {site : Site} {log : Log}
    (h : ((v.resolve site none).run log).1 = .resolved t) : v.toTy? = some t := by
  have hsound : Returns (fun t => ∃ k ≤ 0, v.Denotes ⟨.root, ∅⟩ t k)
      (v.resolveBy site.deferText site) :=
    Value.resolveBy_denotes (fun _ _ _ => site.deferText_returns _ _) v
  obtain ⟨r, ds, hr, -⟩ := Value.resolveBy_endsAt site.deferText_endsAt v
  rw [Value.resolve_none_gives hr log] at h
  match r, h with
  | .ok t, rfl =>
    obtain ⟨k, hk, ht⟩ := hsound.of_gives hr
    obtain rfl := Nat.le_zero.1 hk
    exact Value.toTy?_eq_some_iff.2 ht
  | .error .late, h | .error .failed, h => cases h

/-! ## Type comments -/

/-- The type comment `text` is accepted in `frame` as the type `t`: it evaluates without a report
to one value, and `t` is the type of that value. -/
def AcceptedAs (frame : Frame) (text : String) (t : Ty) : Prop :=
  ∃ b v, Gives (evalText frame text).run (.ok b) [] ∧ b.single = .ok v ∧ v.toTy? = some t

theorem AcceptedAs.gives {text : String} (h : AcceptedAs frame text t) :
    Gives (evalTypeComment frame text).run (.ok (t.instantiate frame.point)) [] := by
  obtain ⟨b, v, hb, hv, ht⟩ := h
  unfold evalTypeComment
  refine (hb.adapt _).bind_ok_silent ?_
  simp only [hv]
  refine (Gives.liftExcept _).bind_ok_silent ?_
  simp only [Value.instantiate, ht]
  exact .ok _

theorem evalTypeComment_returns (frame : Frame) (text : String) :
    Returns (fun objects => ∃ t, AcceptedAs frame text t ∧ objects = t.instantiate frame.point)
      (evalTypeComment frame text) := by
  have htext : Returns (fun b => Gives (evalText frame text).run (.ok b) [])
      (evalText frame text) := by
    obtain ⟨r, hr⟩ := evalText_silent frame text
    exact Returns.of_run hr fun b hb => hb ▸ hr
  unfold evalTypeComment
  refine (htext.adapt _).bind fun b hb => ?_
  refine (Returns.liftExcept fun v hv => mapError_eq_ok hv).bind fun v hv => ?_
  split
  · rename_i objects hobjects
    obtain ⟨t, ht, rfl⟩ := Option.map_eq_some_iff.1 hobjects
    exact .pure ⟨t, ⟨b, v, hb, hv, ht⟩, rfl⟩
  · exact .throw _

/-- A comment gives the objects of the type that it is accepted as. -/
theorem evalTypeComment_ok_iff {text : String} {objects : Bindings} {log : Log} :
    ((evalTypeComment frame text).run.run log).1 = .ok objects ↔
      ∃ t, AcceptedAs frame text t ∧ objects = t.instantiate frame.point := by
  refine ⟨evalTypeComment_returns frame text log objects, ?_⟩
  rintro ⟨t, ht, rfl⟩
  rw [ht.gives log]

/-- A string whose text is accepted as a type comment is resolved to the same type. -/
theorem AcceptedAs.resolve {text : String} (h : AcceptedAs frame text t) {type : Ty}
    (htype : type.is .str = true) (site : Site) :
    Gives ((Value.object type (some (.str text))).resolve site (some frame)) (.resolved t) [] := by
  obtain ⟨b, v, hb, hv, ht⟩ := h
  obtain ⟨e, hparse, heval⟩ := evalText_ok_iff.1 hb
  have hdenotes : (Value.object type (some (.str text))).Denotes frame t 1 :=
    .text htype hparse heval (Bindings.single_eq_ok_iff.1 hv) (Value.toTy?_eq_some_iff.1 ht)
  exact Value.resolve_some_gives (hdenotes.resolveIn site (by decide))

/-- **The two conversions agree.** The structure of a value gives the type `t` exactly if
resolution without a frame does, and then resolution gives `t` wherever the annotation stands,
with any frame or none, and reports nothing. So a type comment gives the objects of a type, and a
string annotation of the same text in the same frame is resolved to that type. -/
theorem conversions_agree (v : Value) (t : Ty) (frame : Frame) (text : String) :
    (∀ site log, v.toTy? = some t ↔ ((v.resolve site none).run log).1 = .resolved t) ∧
    (v.toTy? = some t → ∀ site frame? log, (v.resolve site frame?).run log = (.resolved t, log)) ∧
    (∀ objects log, ((evalTypeComment frame text).run.run log).1 = .ok objects ↔
      ∃ t, AcceptedAs frame text t ∧ objects = t.instantiate frame.point) ∧
    (AcceptedAs frame text t → ∀ type : Ty, type.is .str = true → ∀ site log,
      ((Value.object type (some (.str text))).resolve site (some frame)).run log =
        (.resolved t, log)) := by
  have hresolve : v.toTy? = some t →
      ∀ site frame? log, (v.resolve site frame?).run log = (.resolved t, log) := by
    intro h site frame? log
    rw [v.resolve_of_toTy? h site frame? log, Log.append_nil]
  refine ⟨fun site log => ⟨fun h => ?_, Value.toTy?_of_resolve_none⟩, hresolve,
    fun objects log => evalTypeComment_ok_iff, fun h type htype site log => ?_⟩
  · rw [hresolve h site none log]
  · rw [h.resolve htype site log, Log.append_nil]

end TypeHints
