import TypeHints.Proofs.Bindings
import TypeHints.Proofs.Resolution

/-!
# What an annotation denotes

`v.Denotes frame t k` says by rules what annotation resolution computes: classes stand for
themselves, arguments and options for what they denote one by one, and a string for what the one
value of its text denotes. The number `k` counts how many strings stand inside one another, along
the deepest branch.

With a frame, an annotation is resolved to `t` exactly if it denotes `t` and at most
`maxTextNesting` strings are nested, and it fails otherwise (`Value.resolve_decides`).
-/

namespace TypeHints

mutual

/-- In `frame` the value denotes a type, with so many strings inside one another. -/
inductive Value.Denotes (frame : Frame) : Value → Ty → Nat → Prop
  | cls (c : Class) : Denotes frame (.cls c) (.cls c) 0
  | container (c : Class) : Denotes frame (.container c) (.cls c) 0
  | typeVar (v : TypeVar) : Denotes frame (.typeVar v) (.typeVar v) 0
  | unknown (u : Unknown) : Denotes frame (.unknown u) (.unknown u) 0
  /-- `None` stands for its class. -/
  | null {type : Ty} (constant : Option Constant) (htype : type.is .noneType = true) :
      Denotes frame (.object type constant) (.cls Builtin.noneType.cls) 0
  | generic {base : Class} {keys : ParamKeys} {params : List (String × Value)}
      {types : List (String × Ty)} {k : Nat} (hparams : Value.ParamsDenote frame params types k) :
      Denotes frame (.generic base keys params) (.generic base keys types) k
  | union {options : List Value} {types : List Ty} {k : Nat}
      (hoptions : Value.AllDenote frame options types k) :
      Denotes frame (.union options) (.union types) k
  /-- A string stands for the one value of its text, which evaluates without a report. -/
  | text {type : Ty} {s : String} {e : Expr} {b : Bindings} {v : Value} {t : Ty} {k : Nat}
      (htype : type.is .str = true) (hparse : Expr.parse s = .ok e)
      (heval : Gives (e.eval frame ∅) b []) (hone : b.values = [v]) (hv : Denotes frame v t k) :
      Denotes frame (.object type (some (.str s))) t (k + 1)

/-- The values denote the types one by one; the deepest counts. -/
inductive Value.AllDenote (frame : Frame) : List Value → List Ty → Nat → Prop
  | nil : AllDenote frame [] [] 0
  | cons {v : Value} {vs : List Value} {t : Ty} {ts : List Ty} {k l : Nat}
      (hv : Value.Denotes frame v t k) (hvs : AllDenote frame vs ts l) :
      AllDenote frame (v :: vs) (t :: ts) (max k l)

/-- The arguments denote types under the same keys; the deepest counts. -/
inductive Value.ParamsDenote (frame : Frame) :
    List (String × Value) → List (String × Ty) → Nat → Prop
  | nil : ParamsDenote frame [] [] 0
  | cons {key : String} {v : Value} {ps : List (String × Value)} {t : Ty}
      {qs : List (String × Ty)} {k l : Nat} (hv : Value.Denotes frame v t k)
      (hps : ParamsDenote frame ps qs l) :
      ParamsDenote frame ((key, v) :: ps) ((key, t) :: qs) (max k l)

end

variable {frame : Frame} {site : Site}

/-- A class is not two builtin classes at once. -/
theorem Ty.not_is_str_of_is_noneType {t : Ty} (h : t.is .noneType = true) : ¬ t.is .str = true := by
  cases t with
  | cls c =>
    have hid : c.id = .builtin .noneType := by simpa [Ty.is, Class.is] using h
    simp [Ty.is, Class.is, hid]
  | typeVar | generic | union | unknown => cases h

/-- A string takes at least one level. -/
theorem Value.Denotes.pos_of_is_str {type : Ty} {c : Option Constant} {t : Ty} {k : Nat}
    (h : (Value.object type c).Denotes frame t k) (htype : type.is .str = true) : 0 < k := by
  cases h with
  | null _ hnull => exact absurd htype (Ty.not_is_str_of_is_noneType hnull)
  | text => exact Nat.succ_pos _

/-! ## Resolved annotations denote their type -/

section Sound

variable {onText : Value → Resolving Ty} {n : Nat}

mutual

/-- If strings are resolved to what they denote, so is every value. -/
theorem Value.resolveBy_denotes
    (hText : ∀ (type : Ty) (c : Option Constant), type.is .str = true →
      Returns (fun t => ∃ k ≤ n, (Value.object type c).Denotes frame t k)
        (onText (.object type c))) :
    ∀ v : Value, Returns (fun t => ∃ k ≤ n, v.Denotes frame t k) (v.resolveBy onText site)
  | .cls c => .pure ⟨0, Nat.zero_le n, .cls c⟩
  | .container c => .pure ⟨0, Nat.zero_le n, .container c⟩
  | .typeVar v => .pure ⟨0, Nat.zero_le n, .typeVar v⟩
  | .unknown u => .pure ⟨0, Nat.zero_le n, .unknown u⟩
  | .form .union | .form .optional => site.reject_returns _ _ _
  | .generic _ _ params => (Value.resolveParamsBy_denotes hText params).bind fun _ h =>
    have ⟨k, hk, hparams⟩ := h
    .pure ⟨k, hk, .generic hparams⟩
  | .union options => (Value.resolveAllBy_denotes hText options).bind fun _ h =>
    have ⟨k, hk, hoptions⟩ := h
    .pure ⟨k, hk, .union hoptions⟩
  | .object type c => by
    unfold Value.resolveBy
    split
    · exact hText type c ‹_›
    · split
      · exact .pure ⟨0, Nat.zero_le n, .null c ‹_›⟩
      · exact site.reject_returns _ _ _
termination_by structural v => v

theorem Value.resolveAllBy_denotes
    (hText : ∀ (type : Ty) (c : Option Constant), type.is .str = true →
      Returns (fun t => ∃ k ≤ n, (Value.object type c).Denotes frame t k)
        (onText (.object type c))) :
    ∀ vs : List Value, Returns (fun ts => ∃ k ≤ n, Value.AllDenote frame vs ts k)
      (Value.resolveAllBy onText site vs)
  | [] => .pure ⟨0, Nat.zero_le n, .nil⟩
  | v :: vs => (Value.resolveBy_denotes hText v).bind fun _ ⟨_, hk, hv⟩ =>
    (Value.resolveAllBy_denotes hText vs).bind fun _ ⟨_, hl, hvs⟩ =>
      .pure ⟨_, Nat.max_le.2 ⟨hk, hl⟩, .cons hv hvs⟩
termination_by structural vs => vs

theorem Value.resolveParamsBy_denotes
    (hText : ∀ (type : Ty) (c : Option Constant), type.is .str = true →
      Returns (fun t => ∃ k ≤ n, (Value.object type c).Denotes frame t k)
        (onText (.object type c))) :
    ∀ ps : List (String × Value), Returns (fun qs => ∃ k ≤ n, Value.ParamsDenote frame ps qs k)
      (Value.resolveParamsBy onText site ps)
  | [] => .pure ⟨0, Nat.zero_le n, .nil⟩
  | (_, v) :: ps => (Value.resolveBy_denotes hText v).bind fun _ ⟨_, hk, hv⟩ =>
    (Value.resolveParamsBy_denotes hText ps).bind fun _ ⟨_, hl, hps⟩ =>
      .pure ⟨_, Nat.max_le.2 ⟨hk, hl⟩, .cons hv hps⟩
termination_by structural ps => ps

end

end Sound

/-- What a string is read as is the one value of its text. -/
theorem Site.readText_returns (site : Site) (frame : Frame) (type : Ty) (c : Option Constant) :
    Returns (fun v => ∃ s e b, c = some (.str s) ∧ Expr.parse s = .ok e ∧
      Gives (e.eval frame ∅) b [] ∧ b.values = [v]) (site.readText frame (.object type c)) := by
  obtain ⟨s, b, v, hs, hb, hv, h⟩ | ⟨d, -, -, h⟩ := site.readText_cases frame (.object type c)
  · refine Returns.of_run h fun w hw => ?_
    obtain rfl := Except.ok.inj hw
    obtain ⟨e, hparse, heval⟩ := evalText_ok_iff.1 hb
    refine ⟨s, e, b, ?_, hparse, heval, Bindings.single_eq_ok_iff.1 hv⟩
    match c, hs with
    | some (.str _), hs => rw [Option.some.inj hs]
  · exact Returns.of_run h fun w hw => by cases hw

/-- What is resolved denotes its type, with no more strings inside one another than there are
levels. -/
theorem Value.resolveIn_denotes (frame : Frame) (site : Site) (levels : Nat) (v : Value) :
    Returns (fun t => ∃ k ≤ levels, v.Denotes frame t k) (v.resolveIn frame site levels) := by
  induction levels generalizing v with
  | zero =>
    refine Value.resolveBy_denotes (fun type c _ => ?_) v
    split <;> exact site.reject_returns _ _ _
  | succ levels ih =>
    refine Value.resolveBy_denotes (fun type c htype => ?_) v
    refine (site.readText_returns frame type c).bind fun w hw => ?_
    obtain ⟨s, e, b, rfl, hparse, heval, hone⟩ := hw
    refine (ih w).mono fun t ht => ?_
    obtain ⟨k, hk, hw⟩ := ht
    exact ⟨k + 1, Nat.succ_le_succ hk, .text htype hparse heval hone hw⟩

/-! ## What denotes a type is resolved to it -/

section Complete

variable {onText : Value → Resolving Ty} {n : Nat}

mutual

/-- If strings are resolved to what they denote, so is every value. -/
theorem Value.Denotes.resolveBy
    (hText : ∀ {type : Ty} {c : Option Constant} {t : Ty} {k : Nat}, type.is .str = true →
      (Value.object type c).Denotes frame t k → k ≤ n →
        Gives (onText (.object type c)).run (.ok t) []) :
    ∀ {v : Value} {t : Ty} {k : Nat}, v.Denotes frame t k → k ≤ n →
      Gives (v.resolveBy onText site).run (.ok t) []
  | .cls _, _, _, .cls _, _ | .container _, _, _, .container _, _
  | .typeVar _, _, _, .typeVar _, _ | .unknown _, _, _, .unknown _, _ => .ok _
  | .generic .., _, _, .generic hparams, hk =>
    (Value.ParamsDenote.resolveParamsBy hText hparams hk).bind_ok_silent (.ok _)
  | .union _, _, _, .union hoptions, hk =>
    (Value.AllDenote.resolveAllBy hText hoptions hk).bind_ok_silent (.ok _)
  | .object type c, t, k, h, hk => by
    unfold Value.resolveBy
    split
    · exact hText ‹_› h hk
    · cases h with
      | null _ hnull =>
        rw [if_pos hnull]
        exact .ok _
      | text htype => exact absurd htype ‹_›
termination_by structural v => v

theorem Value.AllDenote.resolveAllBy
    (hText : ∀ {type : Ty} {c : Option Constant} {t : Ty} {k : Nat}, type.is .str = true →
      (Value.object type c).Denotes frame t k → k ≤ n →
        Gives (onText (.object type c)).run (.ok t) []) :
    ∀ {vs : List Value} {ts : List Ty} {k : Nat}, Value.AllDenote frame vs ts k → k ≤ n →
      Gives (Value.resolveAllBy onText site vs).run (.ok ts) []
  | [], _, _, .nil, _ => .ok _
  | _ :: _, _, _, .cons hv hvs, hk => by
    obtain ⟨hk, hl⟩ := Nat.max_le.1 hk
    exact (Value.Denotes.resolveBy hText hv hk).bind_ok_silent
      ((Value.AllDenote.resolveAllBy hText hvs hl).bind_ok_silent (.ok _))
termination_by structural vs => vs

theorem Value.ParamsDenote.resolveParamsBy
    (hText : ∀ {type : Ty} {c : Option Constant} {t : Ty} {k : Nat}, type.is .str = true →
      (Value.object type c).Denotes frame t k → k ≤ n →
        Gives (onText (.object type c)).run (.ok t) []) :
    ∀ {ps : List (String × Value)} {qs : List (String × Ty)} {k : Nat},
      Value.ParamsDenote frame ps qs k → k ≤ n →
        Gives (Value.resolveParamsBy onText site ps).run (.ok qs) []
  | [], _, _, .nil, _ => .ok _
  | _ :: _, _, _, .cons hv hps, hk => by
    obtain ⟨hk, hl⟩ := Nat.max_le.1 hk
    exact (Value.Denotes.resolveBy hText hv hk).bind_ok_silent
      ((Value.ParamsDenote.resolveParamsBy hText hps hl).bind_ok_silent (.ok _))
termination_by structural ps => ps

end

end Complete

/-- What denotes a type is resolved to it, if there are levels enough for its strings. -/
theorem Value.Denotes.resolveIn {v : Value} {t : Ty} {k : Nat} (h : v.Denotes frame t k)
    (site : Site) {levels : Nat} (hk : k ≤ levels) :
    Gives (v.resolveIn frame site levels).run (.ok t) [] := by
  induction levels generalizing v t k with
  | zero =>
    refine h.resolveBy (fun htype h hk => ?_) hk
    exact absurd (h.pos_of_is_str htype) (Nat.not_lt.2 hk)
  | succ levels ih =>
    refine h.resolveBy (fun {type _ _ _} htype h hk => ?_) hk
    cases h with
    | null _ hnull => exact absurd htype (Ty.not_is_str_of_is_noneType hnull)
    | @text _ s _ _ w _ _ _ hparse heval hone hw =>
      have hread : Gives (site.readText frame (.object type (some (.str s)))).run (.ok w) [] :=
        Site.readText_of_single rfl (evalText_ok_iff.2 ⟨_, hparse, heval⟩)
          (Bindings.single_eq_ok_iff.2 hone)
      exact hread.bind_ok_silent (ih hw (Nat.le_of_succ_le_succ hk))

/-! ## The decision -/

/-- **Resolution decides what annotations denote.** With a frame, wherever the annotation stands
and whatever was reported before, it is resolved to `t` exactly if it denotes `t` with at most
`maxTextNesting` strings inside one another, and it fails if there is no such type. -/
theorem Value.resolve_decides (v : Value) (site : Site) (frame : Frame) (log : Log) :
    (∀ t, ((v.resolve site (some frame)).run log).1 = .resolved t ↔
      ∃ k ≤ maxTextNesting, v.Denotes frame t k) ∧
    (((v.resolve site (some frame)).run log).1 = .failed ↔
      ¬ ∃ t, ∃ k ≤ maxTextNesting, v.Denotes frame t k) := by
  have hcomplete : ∀ {t k}, k ≤ maxTextNesting → v.Denotes frame t k →
      ((v.resolve site (some frame)).run log).1 = .resolved t := by
    intro t k hk h
    exact congrArg Prod.fst (Value.resolve_some_gives (h.resolveIn site hk) log)
  obtain ⟨r, ds, hr, hend⟩ := v.resolveIn_endsAt frame site maxTextNesting
  have hrun : ((v.resolve site (some frame)).run log).1 = .ofResult r :=
    congrArg Prod.fst (Value.resolve_some_gives hr log)
  cases hend with
  | resolved t =>
    have hsound := (v.resolveIn_denotes frame site maxTextNesting).of_gives hr
    refine ⟨fun t' => ⟨fun h => ?_, fun ⟨_, hk, h⟩ => hcomplete hk h⟩, fun h => ?_, fun h => ?_⟩
    · obtain rfl : t = t' := Outcome.resolved.inj (hrun.symm.trans h)
      exact hsound
    · cases hrun.symm.trans h
    · exact absurd ⟨t, hsound⟩ h
  | late h => exact h.elim
  | failed d _ _ =>
    refine ⟨fun t' => ⟨fun h => ?_, fun ⟨_, hk, h⟩ => hcomplete hk h⟩, fun _ hdenotes => ?_,
      fun _ => hrun⟩
    · cases hrun.symm.trans h
    · obtain ⟨t, k, hk, h⟩ := hdenotes
      cases hrun.symm.trans (hcomplete hk h)

end TypeHints
