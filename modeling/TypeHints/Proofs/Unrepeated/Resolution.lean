import TypeHints.Proofs.Conversion
import TypeHints.Proofs.LateQueue
import TypeHints.Proofs.Unrepeated.Evaluation

/-!
# Distinct options and the types they denote

Options that are distinct as values may still denote one type, as `None` and its class do, `List`
and `list`, or a string and what it spells. Where this happens in no union that resolution meets
(`Value.TellsApart`), the type that an unrepeated value denotes is unrepeated
(`Value.Denotes.unrepeated`), and so are the types of a function once its late annotations are
resolved (`Function.resolveLate_unrepeated`).
-/

namespace TypeHints

/-! ## Options that are told apart -/

/-- Resolving the value in `frame` may meet a union of these options: the value itself, in its
options and arguments, in the items of its tuple, or in what its text evaluates to. -/
inductive Value.Meets (frame : Frame) : Value → List Value → Prop
  | here (options : List Value) : Meets frame (.union options) options
  | option {members options : List Value} {v : Value} (hv : v ∈ members)
      (h : Meets frame v options) : Meets frame (.union members) options
  | param {base : Class} {keys : ParamKeys} {params : List (String × Value)}
      {p : String × Value} {options : List Value} (hp : p ∈ params)
      (h : Meets frame p.2 options) : Meets frame (.generic base keys params) options
  | item {type : Ty} {items : List Bindings} {b : Bindings} {v : Value} {options : List Value}
      (hb : b ∈ items) (hv : v ∈ b.values) (h : Meets frame v options) :
      Meets frame (.object type (some (.tuple items))) options
  | text {type : Ty} {s : String} {e : Expr} {b : Bindings} {v : Value} {options : List Value}
      (hparse : Expr.parse s = .ok e) (heval : Gives (e.eval frame ∅) b [])
      (hone : b.values = [v]) (h : Meets frame v options) :
      Meets frame (.object type (some (.str s))) options

/-- Values that denote the same type are the same. -/
def OptionsApart (frame : Frame) (options : List Value) : Prop :=
  ∀ x ∈ options, ∀ y ∈ options, ∀ (t u : Ty) (k l : Nat), x.Denotes frame t k →
    y.Denotes frame u l → (t == u) = true → (x == y) = true

/-- In every union that resolving the value in `frame` may meet, options that denote the same type
are the same. -/
def Value.TellsApart (frame : Frame) (v : Value) : Prop :=
  ∀ options, v.Meets frame options → OptionsApart frame options

/-- The value is unrepeated and tells its options apart in `frame`. -/
structure Value.Clear (frame : Frame) (v : Value) : Prop where
  unrepeated : v.Unrepeated
  tellsApart : v.TellsApart frame

variable {frame : Frame}

namespace Value.Clear

theorem option {options : List Value} (h : (Value.union options).Clear frame) :
    ∀ v ∈ options, v.Clear frame := by
  intro v hv
  refine ⟨?_, fun us hus => h.tellsApart us (.option hv hus)⟩
  cases h.unrepeated with
  | union _ hoptions => exact hoptions v hv

theorem param {base : Class} {keys : ParamKeys} {params : List (String × Value)}
    (h : (Value.generic base keys params).Clear frame) : ∀ p ∈ params, p.2.Clear frame := by
  intro p hp
  refine ⟨?_, fun us hus => h.tellsApart us (.param hp hus)⟩
  cases h.unrepeated with
  | generic _ hparams => exact hparams p hp

theorem item {v : Value} {items : List Bindings} (h : v.Clear frame)
    (hitems : v.tuple? = some items) : ∀ b ∈ items, b.All (Value.Clear frame) := by
  intro b hb w hw
  refine ⟨(h.unrepeated.tuple? hitems b hb).all w hw, fun us hus => h.tellsApart us ?_⟩
  obtain ⟨t, rfl⟩ := Value.eq_object_of_tuple? hitems
  exact .item hb hw hus

/-- The text of a string evaluates to a value that is as clear as the string. -/
theorem text (hglobals : frame.globals.Unrepeated) {v w : Value} {s : String} {e : Expr}
    {b : Bindings} (h : v.TellsApart frame) (hs : v.str? = some s) (hparse : Expr.parse s = .ok e)
    (heval : Gives (e.eval frame ∅) b []) (hone : b.values = [w]) : w.Clear frame := by
  refine ⟨?_, fun us hus => h us ?_⟩
  · exact ((Expr.eval_unrepeated hglobals e).of_gives heval).all w (by simp [hone])
  · obtain ⟨t, rfl⟩ := Value.eq_object_of_str? hs
    exact .text hparse heval hone hus

end Value.Clear

/-! ## Plain values -/

/-- The value is made of classes, type variables and unknown types: there is no container in it,
no `None` and no string. -/
inductive Value.Plain : Value → Prop
  | cls (c : Class) : Value.Plain (.cls c)
  | typeVar (v : TypeVar) : Value.Plain (.typeVar v)
  | unknown (u : Unknown) : Value.Plain (.unknown u)
  | generic {base : Class} {keys : ParamKeys} {params : List (String × Value)}
      (hparams : ∀ p ∈ params, p.2.Plain) : Value.Plain (.generic base keys params)
  | union {options : List Value} (hoptions : ∀ v ∈ options, v.Plain) : Value.Plain (.union options)

mutual

/-- Plain values that denote the same type are the same. -/
theorem Value.Denotes.same_of_plain : ∀ {x y : Value} {t u : Ty} {k l : Nat},
    x.Denotes frame t k → y.Denotes frame u l → x.Plain → y.Plain → t.same u = true →
      x.same y = true
  | _, _, _, _, _, _, .cls _, hy, _, hplain, h => by
    cases hy with
    | cls => exact h
    | typeVar | unknown | generic | union => cases h
    | container | null | text => cases hplain
  | _, _, _, _, _, _, .typeVar _, hy, _, hplain, h => by
    cases hy with
    | typeVar => exact h
    | cls | unknown | generic | union => cases h
    | container | null | text => cases hplain
  | _, _, _, _, _, _, .unknown _, hy, _, hplain, h => by
    cases hy with
    | unknown => exact h
    | cls | typeVar | generic | union => cases h
    | container | null | text => cases hplain
  | _, _, _, _, _, _, .generic hx, hy, hplain, hplain', h => by
    cases hy with
    | generic hy =>
      cases hplain with
      | generic hplain =>
        cases hplain' with
        | generic hplain' =>
          obtain ⟨hhead, hparams⟩ := Bool.and_eq_true_iff.1 h
          exact Bool.and_eq_true_iff.2
            ⟨hhead, Value.ParamsDenote.same_of_plain hx hy hplain hplain' hparams⟩
    | cls | typeVar | unknown | union => cases h
    | container | null | text => cases hplain'
  | _, _, _, _, _, _, .union hx, hy, hplain, hplain', h => by
    cases hy with
    | union hy =>
      cases hplain with
      | union hplain =>
        cases hplain' with
        | union hplain' => exact Value.AllDenote.same_of_plain hx hy hplain hplain' h
    | cls | typeVar | unknown | generic => cases h
    | container | null | text => cases hplain'
  | _, _, _, _, _, _, .container _, _, hplain, _, _ => by cases hplain
  | _, _, _, _, _, _, .null _ _, _, hplain, _, _ => by cases hplain
  | _, _, _, _, _, _, .text _ _ _ _ _, _, hplain, _, _ => by cases hplain

theorem Value.AllDenote.same_of_plain : ∀ {vs ws : List Value} {ts us : List Ty} {k l : Nat},
    Value.AllDenote frame vs ts k → Value.AllDenote frame ws us l → (∀ v ∈ vs, v.Plain) →
      (∀ w ∈ ws, w.Plain) → Ty.sameAll ts us = true → Value.sameAll vs ws = true
  | _, _, _, _, _, _, .nil, .nil, _, _, _ => rfl
  | _, _, _, _, _, _, .cons hv hvs, .cons hw hws, hplain, hplain', h => by
    obtain ⟨hhead, htail⟩ := Bool.and_eq_true_iff.1 h
    obtain ⟨hplain, hrest⟩ := List.forall_mem_cons.1 hplain
    obtain ⟨hplain', hrest'⟩ := List.forall_mem_cons.1 hplain'
    exact Bool.and_eq_true_iff.2 ⟨Value.Denotes.same_of_plain hv hw hplain hplain' hhead,
      Value.AllDenote.same_of_plain hvs hws hrest hrest' htail⟩
  | _, _, _, _, _, _, .nil, .cons _ _, _, _, h => by cases h
  | _, _, _, _, _, _, .cons _ _, .nil, _, _, h => by cases h

theorem Value.ParamsDenote.same_of_plain : ∀ {ps qs : List (String × Value)}
    {ts us : List (String × Ty)} {k l : Nat}, Value.ParamsDenote frame ps ts k →
      Value.ParamsDenote frame qs us l → (∀ p ∈ ps, p.2.Plain) → (∀ q ∈ qs, q.2.Plain) →
        Ty.sameParams ts us = true → Value.sameParams ps qs = true
  | _, _, _, _, _, _, .nil, .nil, _, _, _ => rfl
  | _, _, _, _, _, _, .cons hv hps, .cons hw hqs, hplain, hplain', h => by
    obtain ⟨hhead, htail⟩ := Bool.and_eq_true_iff.1 h
    obtain ⟨hkey, hsame⟩ := Bool.and_eq_true_iff.1 hhead
    obtain ⟨hplain, hrest⟩ := List.forall_mem_cons.1 hplain
    obtain ⟨hplain', hrest'⟩ := List.forall_mem_cons.1 hplain'
    have hvalues := Value.Denotes.same_of_plain hv hw hplain hplain' hsame
    exact Bool.and_eq_true_iff.2 ⟨Bool.and_eq_true_iff.2 ⟨hkey, hvalues⟩,
      Value.ParamsDenote.same_of_plain hps hqs hrest hrest' htail⟩
  | _, _, _, _, _, _, .nil, .cons _ _, _, _, h => by cases h
  | _, _, _, _, _, _, .cons _ _, .nil, _, _, h => by cases h

end

theorem Value.Plain.of_meets {v : Value} {options : List Value} (h : v.Meets frame options)
    (hplain : v.Plain) : ∀ w ∈ options, w.Plain := by
  induction h with
  | here =>
    cases hplain with
    | union hoptions => exact hoptions
  | option hv _ ih =>
    cases hplain with
    | union hoptions => exact ih (hoptions _ hv)
  | param hp _ ih =>
    cases hplain with
    | generic hparams => exact ih (hparams _ hp)
  | item | text => cases hplain

/-- Plain values tell their options apart in every frame. -/
theorem Value.Plain.tellsApart {v : Value} (h : v.Plain) (frame : Frame) : v.TellsApart frame :=
  fun _ hmeets x hx y hy _ _ _ _ hxt hyu hsame =>
    hxt.same_of_plain hyu (h.of_meets hmeets x hx) (h.of_meets hmeets y hy) hsame

/-! ## What is denoted -/

theorem Value.AllDenote.exists_of_mem : ∀ {vs : List Value} {ts : List Ty} {k : Nat},
    Value.AllDenote frame vs ts k → ∀ t ∈ ts, ∃ v ∈ vs, ∃ l, v.Denotes frame t l
  | _, _, _, .nil, _, ht => absurd ht List.not_mem_nil
  | _, _, _, .cons hv hvs, t, ht => by
    rcases List.mem_cons.1 ht with rfl | ht
    · exact ⟨_, List.mem_cons_self, _, hv⟩
    · obtain ⟨w, hw, l, h⟩ := Value.AllDenote.exists_of_mem hvs t ht
      exact ⟨w, List.mem_cons_of_mem _ hw, l, h⟩

/-- Distinct options that are told apart denote distinct types. -/
theorem Value.AllDenote.distinct : ∀ {vs : List Value} {ts : List Ty} {k : Nat},
    Value.AllDenote frame vs ts k → Distinct (· == ·) vs → OptionsApart frame vs →
      Distinct (· == ·) ts
  | _, _, _, .nil, _, _ => .nil
  | _, _, _, .cons hv hvs, hdistinct, hapart => by
    obtain ⟨hhead, htail⟩ := List.pairwise_cons.1 hdistinct
    refine List.pairwise_cons.2 ⟨fun u hu => ?_, ?_⟩
    · obtain ⟨w, hw, l, hwu⟩ := hvs.exists_of_mem u hu
      refine Bool.eq_false_iff.2 fun hsame => Bool.eq_false_iff.1 (hhead w hw) ?_
      exact hapart _ List.mem_cons_self w (List.mem_cons_of_mem _ hw) _ _ _ _ hv hwu hsame
    · exact hvs.distinct htail fun x hx y hy =>
        hapart x (List.mem_cons_of_mem _ hx) y (List.mem_cons_of_mem _ hy)

mutual

/-- The type that a clear value denotes is unrepeated. -/
theorem Value.Denotes.unrepeated (hglobals : frame.globals.Unrepeated) :
    ∀ {v : Value} {t : Ty} {k : Nat}, v.Denotes frame t k → v.Clear frame → t.Unrepeated
  | _, _, _, .cls _, h => by
    cases h.unrepeated with
    | cls hc => exact .cls hc
  | _, _, _, .container _, h => by
    cases h.unrepeated with
    | container hc => exact .cls hc
  | _, _, _, .typeVar _, h => by
    cases h.unrepeated with
    | typeVar hv => exact .typeVar hv
  | _, _, _, .unknown u, _ => .unknown u
  | _, _, _, .null _ _, _ => .cls (Builtin.cls_unrepeated _)
  | _, _, _, .generic hparams, h => by
    have hparams := Value.ParamsDenote.unrepeated hglobals hparams h.param
    cases h.unrepeated with
    | generic hbase _ => exact .generic hbase hparams
  | _, _, _, .union hoptions, h => by
    have htypes := Value.AllDenote.unrepeated hglobals hoptions h.option
    cases h.unrepeated with
    | union hdistinct _ =>
      exact .union (hoptions.distinct hdistinct (h.tellsApart _ (.here _))) htypes
  | _, _, _, .text _ hparse heval hone hw, h =>
    Value.Denotes.unrepeated hglobals hw (.text hglobals h.tellsApart rfl hparse heval hone)

theorem Value.AllDenote.unrepeated (hglobals : frame.globals.Unrepeated) :
    ∀ {vs : List Value} {ts : List Ty} {k : Nat}, Value.AllDenote frame vs ts k →
      (∀ v ∈ vs, v.Clear frame) → ∀ t ∈ ts, t.Unrepeated
  | _, _, _, .nil, _ => fun _ ht => absurd ht List.not_mem_nil
  | _, _, _, .cons hv hvs, h => by
    obtain ⟨hclear, hrest⟩ := List.forall_mem_cons.1 h
    exact List.forall_mem_cons.2 ⟨Value.Denotes.unrepeated hglobals hv hclear,
      Value.AllDenote.unrepeated hglobals hvs hrest⟩

theorem Value.ParamsDenote.unrepeated (hglobals : frame.globals.Unrepeated) :
    ∀ {ps : List (String × Value)} {qs : List (String × Ty)} {k : Nat},
      Value.ParamsDenote frame ps qs k → (∀ p ∈ ps, p.2.Clear frame) → ∀ q ∈ qs, q.2.Unrepeated
  | _, _, _, .nil, _ => fun _ hq => absurd hq List.not_mem_nil
  | _, _, _, .cons hv hps, h => by
    obtain ⟨hclear, hrest⟩ := List.forall_mem_cons.1 h
    exact List.forall_mem_cons.2 ⟨Value.Denotes.unrepeated hglobals hv hclear,
      Value.ParamsDenote.unrepeated hglobals hps hrest⟩

end

/-- The type that is read off the structure of a clear value is unrepeated. -/
theorem Value.Clear.toTy? (hglobals : frame.globals.Unrepeated) {v : Value} {t : Ty}
    (h : v.Clear frame) (ht : v.toTy? = some t) : t.Unrepeated :=
  (Value.toTy?_eq_some_iff.1 ht).unrepeated hglobals h

/-- A clear value is resolved to an unrepeated type. -/
theorem Value.Clear.resolve (hglobals : frame.globals.Unrepeated) {v : Value} {t : Ty}
    {site : Site} (h : v.Clear frame)
    (ht : Gives (v.resolve site (some frame)) (.resolved t) []) : t.Unrepeated := by
  obtain ⟨r, ds, hr, -⟩ := v.resolveIn_endsAt frame site maxTextNesting
  obtain ⟨heq, -⟩ := ht.unique (Value.resolve_some_gives hr)
  match r, heq with
  | .ok u, heq =>
    obtain rfl := Outcome.resolved.inj heq
    obtain ⟨k, -, hdenotes⟩ := (v.resolveIn_denotes frame site maxTextNesting).of_gives hr
    exact hdenotes.unrepeated hglobals h
  | .error .late, heq => cases heq
  | .error .failed, heq => cases heq

/-! ## Late annotations -/

/-- The types of the signature are unrepeated. -/
abbrev Signature.Unrepeated (s : Signature) : Prop := s.annotations.All Ty.Unrepeated

section Late

variable (hglobals : frame.globals.Unrepeated)

include hglobals

/-- The values that a text lists are clear if the text belongs to a value that is. -/
theorem evalTextAsTuple_clear {v : Value} {text : String} (h : v.TellsApart frame)
    (htext : v.str? = some text) :
    Returns (fun args : List Value => ∀ arg ∈ args, arg.Clear frame)
      (evalTextAsTuple frame text) := by
  have heval : Returns (fun b => ∃ e, Expr.parse text = .ok e ∧ Gives (e.eval frame ∅) b [])
      (evalText frame text) := by
    obtain ⟨r, hr⟩ := evalText_silent frame text
    exact Returns.of_run hr fun b hb => evalText_ok_iff.1 (hb ▸ hr)
  unfold evalTextAsTuple
  split
  · exact .pure fun _ hw => absurd hw List.not_mem_nil
  · refine (heval.adapt _).bind fun b ⟨e, hparse, heval⟩ => ?_
    refine (Returns.liftExcept fun w hw => mapError_eq_ok hw).bind fun w hw => ?_
    have hclear : w.Clear frame :=
      .text hglobals h htext hparse heval (Bindings.single_eq_ok_iff.1 hw)
    split
    · rename_i items hitems
      refine Returns.liftExcept fun args hargs arg harg => ?_
      obtain ⟨item, hitem, hsingle⟩ := exists_of_mem_mapM (mapError_eq_ok hargs) harg
      exact (hclear.item hitems item hitem).single hsingle
    · exact .pure (List.forall_mem_singleton.2 hclear)

theorem Settled.unrepeated {location : Location} {f g : Function} {pair : String × Value}
    {ds : List Diagnostic} (h : Settled frame location f pair g ds) (hv : pair.2.Clear frame)
    (hf : f.signature.Unrepeated) : g.signature.Unrepeated := by
  cases h with
  | set h => exact hf.insert _ (hv.resolve hglobals h)
  | reported => exact hf

theorem Consumed.unrepeated {receivers : Receivers} {f g : Function} {l : LateHint}
    {ds : List Diagnostic} (h : Consumed receivers frame f l g ds) (hl : l.value.Clear frame)
    (hf : f.signature.Unrepeated) : g.signature.Unrepeated := by
  cases h with
  | single _ h => exact h.unrepeated hglobals hl hf
  | refused => exact hf
  | listed _ htext hargs _ h =>
    have hclear := (evalTextAsTuple_clear hglobals hl.tellsApart htext).of_gives hargs
    refine h.preserves (P := fun f => f.signature.Unrepeated) (fun hmem hs hf => ?_) hf
    exact hs.unrepeated hglobals (hclear _ (List.of_mem_zip hmem).2) hf

/-- Where all late annotations are clear, resolving them gives no type that is repeated. -/
theorem Function.resolveLate_unrepeated {receivers : Receivers} {f g : Function}
    {ds : List Diagnostic} (h : Gives (f.resolveLate receivers frame) g ds)
    (hlate : ∀ l ∈ f.signature.late, l.value.Clear frame) (hf : f.signature.Unrepeated) :
    g.signature.Unrepeated := by
  obtain ⟨g', ds', hg', hs⟩ := Steps.of_foldlM (Function.resolveNext receivers frame)
    (Function.resolveNext_consumes receivers frame) f.signature.late (f.mapSignature .clearLate)
  obtain ⟨rfl, -⟩ := h.unique hg'
  refine hs.preserves (P := fun f => f.signature.Unrepeated) (fun hmem hl hf => ?_) hf
  exact hl.unrepeated hglobals (hlate _ hmem) hf

end Late

end TypeHints
