import TypeHints.Proofs.Evaluation
import TypeHints.Proofs.Returns
import TypeHints.Resolution

/-!
# What resolving an annotation reports

An annotation that resolves or is put off reports nothing; one that fails reports once, at its
own place (`Ends`). What is found without a frame is found with every frame, unless it is put
off (`Value.resolve_none_cases`), and what resolves keeps its type when it is written elsewhere
or when more strings may be nested (`Value.resolveIn_of_le`).
-/

namespace TypeHints

variable {α β : Type}

/-! ## Ends -/

/-- How resolving at `location` ends: with a result and no report, failed with one report there,
or, where that is `deferrable`, put off without a report. -/
inductive Ends (location : Location) (deferrable : Prop) :
    Except Unresolved α → List Diagnostic → Prop
  | resolved (a : α) : Ends location deferrable (.ok a) []
  | late (h : deferrable) : Ends location deferrable (.error .late) []
  | failed (d : Diagnostic) (kind : d.kind = .invalidHint) (place : d.location = location) :
    Ends location deferrable (.error .failed) [d]

theorem Ends.mono {location : Location} {deferrable deferrable' : Prop} {r : Except Unresolved α}
    {ds : List Diagnostic} (h : Ends location deferrable r ds)
    (himp : deferrable → deferrable') : Ends location deferrable' r ds := by
  cases h with
  | resolved a => exact .resolved a
  | late hd => exact .late (himp hd)
  | failed d kind place => exact .failed d kind place

/-- Resolving with `m` ends in one of these ways, whatever the log. -/
def EndsAt (location : Location) (deferrable : Prop) (m : Resolving α) : Prop :=
  ∃ r ds, Gives m.run r ds ∧ Ends location deferrable r ds

namespace EndsAt

variable {location : Location} {deferrable : Prop} {m : Resolving α} {k : α → Resolving β}

protected theorem pure (a : α) : EndsAt location deferrable (pure a : Resolving α) :=
  ⟨_, _, .ok a, .resolved a⟩

protected theorem bind (h : EndsAt location deferrable m)
    (hk : ∀ a, EndsAt location deferrable (k a)) : EndsAt location deferrable (m >>= k) := by
  obtain ⟨r, ds, hm, hend⟩ := h
  cases hend with
  | resolved a =>
    obtain ⟨r, es, hka, hend⟩ := hk a
    exact ⟨r, es, hm.bind_ok_silent hka, hend⟩
  | late hd => exact ⟨_, _, hm.bind_error, .late hd⟩
  | failed d kind place => exact ⟨_, _, hm.bind_error, .failed d kind place⟩

end EndsAt

/-- The report of an annotation that denotes no type. -/
def Site.rejection (site : Site) (v : Value) (details : String) : Diagnostic :=
  .invalidHint site.location v.text (some details) (some site.name)

theorem Site.reject_gives (site : Site) (v : Value) (details : String) :
    Gives (site.reject v details : Resolving α).run (.error .failed)
      [site.rejection v details] :=
  (Gives.lift (.report _)).bind_ok (.error _)

/-- Nothing is returned where an annotation is refused. -/
theorem Site.reject_returns (P : α → Prop) (site : Site) (v : Value) (details : String) :
    Returns P (site.reject v details : Resolving α) :=
  (Returns.trivial _).bind fun _ _ => .throw _

theorem Site.reject_endsAt (site : Site) (deferrable : Prop) (v : Value) (details : String) :
    EndsAt site.location deferrable (site.reject v details : Resolving α) :=
  ⟨_, _, site.reject_gives v details, .failed _ rfl rfl⟩

section Structure

variable {onText onText' : Value → Resolving Ty} {site site' : Site} {deferrable : Prop}

mutual

theorem Value.resolveBy_endsAt (h : ∀ v, EndsAt site.location deferrable (onText v)) :
    ∀ v : Value, EndsAt site.location deferrable (v.resolveBy onText site)
  | .cls _ | .container _ | .typeVar _ | .unknown _ => .pure _
  | .form .union => site.reject_endsAt _ _ _
  | .form .optional => site.reject_endsAt _ _ _
  | .generic _ _ params => (Value.resolveParamsBy_endsAt h params).bind fun _ => .pure _
  | .union options => (Value.resolveAllBy_endsAt h options).bind fun _ => .pure _
  | .object t c => by
    rw [Value.resolveBy]
    split
    · exact h _
    · split
      · exact .pure _
      · exact site.reject_endsAt _ _ _

theorem Value.resolveAllBy_endsAt (h : ∀ v, EndsAt site.location deferrable (onText v)) :
    ∀ vs : List Value, EndsAt site.location deferrable (Value.resolveAllBy onText site vs)
  | [] => .pure _
  | v :: vs => (Value.resolveBy_endsAt h v).bind fun _ =>
    (Value.resolveAllBy_endsAt h vs).bind fun _ => .pure _

theorem Value.resolveParamsBy_endsAt (h : ∀ v, EndsAt site.location deferrable (onText v)) :
    ∀ ps : List (String × Value),
      EndsAt site.location deferrable (Value.resolveParamsBy onText site ps)
  | [] => .pure _
  | (_, v) :: ps => (Value.resolveBy_endsAt h v).bind fun _ =>
    (Value.resolveParamsBy_endsAt h ps).bind fun _ => .pure _

end

end Structure

/-! ## Strings -/

theorem Site.deferText_endsAt (site : Site) (v : Value) :
    EndsAt site.location True (site.deferText v) := by
  unfold Site.deferText
  split
  · exact ⟨_, _, .error _, .late trivial⟩
  · exact site.reject_endsAt _ _ _

/-- Without a frame strings have no type. -/
theorem Site.deferText_returns (P : Ty → Prop) (site : Site) (v : Value) :
    Returns P (site.deferText v) := by
  unfold Site.deferText
  split
  · exact .throw _
  · exact site.reject_returns P v _

/-- The report of a string that does not evaluate. -/
def Site.evaluationFailure (site : Site) (v : Value) (e : EvaluationError) : Diagnostic :=
  .invalidHint site.location v.text (some e.message) none

section ReadText

variable {site : Site} {frame : Frame} {v w : Value} {text : String} {b : Bindings}

theorem Site.readText_of_not_text (hv : v.str? = none) :
    site.readText frame v = site.reject v "Must be constant" := by
  unfold Site.readText
  rw [hv]

theorem Site.readText_of_error {e : EvaluationError} (hv : v.str? = some text)
    (he : Gives (evalText frame text).run (.error e) []) :
    Gives (site.readText frame v).run (.error .failed) [site.evaluationFailure v e] := by
  unfold Site.readText
  rw [hv]
  exact he.lift.bind_ok_silent ((Gives.lift (.report _)).bind_ok (.error _))

theorem Site.readText_of_single (hv : v.str? = some text)
    (hb : Gives (evalText frame text).run (.ok b) []) (hw : b.single = .ok w) :
    Gives (site.readText frame v).run (.ok w) [] := by
  unfold Site.readText
  rw [hv]
  refine hb.lift.bind_ok_silent ?_
  simp only [hw]
  exact .ok w

theorem Site.readText_of_not_single {e : ConversionError} (hv : v.str? = some text)
    (hb : Gives (evalText frame text).run (.ok b) []) (hw : b.single = .error e) :
    Gives (site.readText frame v).run (.error .failed)
      [site.rejection v "Must be constant"] := by
  unfold Site.readText
  rw [hv]
  refine hb.lift.bind_ok_silent ?_
  simp only [hw]
  exact site.reject_gives _ _

/-- Reading a string yields its one value or fails with one report. -/
theorem Site.readText_cases (site : Site) (frame : Frame) (v : Value) :
    (∃ text b w, v.str? = some text ∧ Gives (evalText frame text).run (.ok b) [] ∧
      b.single = .ok w ∧ Gives (site.readText frame v).run (.ok w) []) ∨
    ∃ d, d.kind = .invalidHint ∧ d.location = site.location ∧
      Gives (site.readText frame v).run (.error .failed) [d] := by
  cases hv : v.str? with
  | none => exact .inr ⟨_, rfl, rfl, Site.readText_of_not_text hv ▸ site.reject_gives _ _⟩
  | some text =>
    obtain ⟨r, hr⟩ := evalText_silent frame text
    cases r with
    | error e => exact .inr ⟨_, rfl, rfl, Site.readText_of_error hv hr⟩
    | ok b =>
      cases hw : b.single with
      | error e => exact .inr ⟨_, rfl, rfl, Site.readText_of_not_single hv hr hw⟩
      | ok w => exact .inl ⟨text, b, w, rfl, hr, hw, Site.readText_of_single hv hr hw⟩

theorem Site.readText_endsAt (site : Site) (frame : Frame) (v : Value) :
    EndsAt site.location False (site.readText frame v) := by
  rcases site.readText_cases frame v with ⟨_, _, w, -, -, -, h⟩ | ⟨d, kind, place, h⟩
  · exact ⟨_, _, h, .resolved w⟩
  · exact ⟨_, _, h, .failed d kind place⟩

end ReadText

theorem Value.resolveIn_endsAt (frame : Frame) (site : Site) (levels : Nat) (v : Value) :
    EndsAt site.location False (v.resolveIn frame site levels) := by
  induction levels generalizing v with
  | zero =>
    refine Value.resolveBy_endsAt (fun w => ?_) v
    split <;> exact site.reject_endsAt _ _ _
  | succ levels ih =>
    exact Value.resolveBy_endsAt (fun w => (site.readText_endsAt frame w).bind ih) v

/-! ## Agreement -/

/-- `m` stops for a reason that `bad` admits, or else `m'` gives the same as `m`. -/
def AgreeUnless (bad : Unresolved → Prop) (m m' : Resolving α) : Prop :=
  (∃ u ds, bad u ∧ Gives m.run (.error u) ds) ∨ ∃ r ds, Gives m.run r ds ∧ Gives m'.run r ds

namespace AgreeUnless

variable {bad : Unresolved → Prop} {m m' : Resolving α} {k k' : α → Resolving β}

protected theorem pure (a : α) : AgreeUnless bad (pure a : Resolving α) (pure a) :=
  .inr ⟨_, _, .ok a, .ok a⟩

protected theorem bind (h : AgreeUnless bad m m') (hk : ∀ a, AgreeUnless bad (k a) (k' a)) :
    AgreeUnless bad (m >>= k) (m' >>= k') := by
  obtain ⟨u, ds, hu, hm⟩ | ⟨r, ds, hm, hm'⟩ := h
  · exact .inl ⟨u, ds, hu, hm.bind_error⟩
  · cases r with
    | error u => exact .inr ⟨_, _, hm.bind_error, hm'.bind_error⟩
    | ok a =>
      obtain ⟨u, es, hu, hka⟩ | ⟨r, es, hka, hka'⟩ := hk a
      · exact .inl ⟨u, _, hu, hm.bind_ok hka⟩
      · exact .inr ⟨r, _, hm.bind_ok hka, hm'.bind_ok hka'⟩

/-- A result that `m` comes to, `m'` comes to as well. -/
theorem ok {a : α} {ds : List Diagnostic} (h : AgreeUnless bad m m')
    (ha : Gives m.run (.ok a) ds) : Gives m'.run (.ok a) ds := by
  obtain ⟨u, es, -, hm⟩ | ⟨r, es, hm, hm'⟩ := h
  · cases (ha.unique hm).1
  · obtain ⟨rfl, rfl⟩ := ha.unique hm
    exact hm'

end AgreeUnless

section Agreement

variable {bad : Unresolved → Prop} {onText onText' : Value → Resolving Ty} {site site' : Site}

mutual

/-- Two ways to resolve agree if they agree on strings and on what they refuse. -/
theorem Value.resolveBy_agreeUnless
    (hreject : ∀ v details, AgreeUnless bad (site.reject v details : Resolving Ty)
      (site'.reject v details))
    (htext : ∀ v, AgreeUnless bad (onText v) (onText' v)) :
    ∀ v : Value, AgreeUnless bad (v.resolveBy onText site) (v.resolveBy onText' site')
  | .cls _ | .container _ | .typeVar _ | .unknown _ => .pure _
  | .form .union => hreject _ _
  | .form .optional => hreject _ _
  | .generic _ _ params => (Value.resolveParamsBy_agreeUnless hreject htext params).bind fun _ =>
    .pure _
  | .union options => (Value.resolveAllBy_agreeUnless hreject htext options).bind fun _ => .pure _
  | .object t c => by
    rw [Value.resolveBy, Value.resolveBy]
    split
    · exact htext _
    · split
      · exact .pure _
      · exact hreject _ _

theorem Value.resolveAllBy_agreeUnless
    (hreject : ∀ v details, AgreeUnless bad (site.reject v details : Resolving Ty)
      (site'.reject v details))
    (htext : ∀ v, AgreeUnless bad (onText v) (onText' v)) :
    ∀ vs : List Value,
      AgreeUnless bad (Value.resolveAllBy onText site vs) (Value.resolveAllBy onText' site' vs)
  | [] => .pure _
  | v :: vs => (Value.resolveBy_agreeUnless hreject htext v).bind fun _ =>
    (Value.resolveAllBy_agreeUnless hreject htext vs).bind fun _ => .pure _

theorem Value.resolveParamsBy_agreeUnless
    (hreject : ∀ v details, AgreeUnless bad (site.reject v details : Resolving Ty)
      (site'.reject v details))
    (htext : ∀ v, AgreeUnless bad (onText v) (onText' v)) :
    ∀ ps : List (String × Value),
      AgreeUnless bad (Value.resolveParamsBy onText site ps)
        (Value.resolveParamsBy onText' site' ps)
  | [] => .pure _
  | (_, v) :: ps => (Value.resolveBy_agreeUnless hreject htext v).bind fun _ =>
    (Value.resolveParamsBy_agreeUnless hreject htext ps).bind fun _ => .pure _

end

end Agreement

/-- Whatever is refused at one place may be refused at another. -/
theorem Site.reject_agreeUnless (site site' : Site) (v : Value) (details : String) :
    AgreeUnless (fun _ => True) (site.reject v details : Resolving α) (site'.reject v details) :=
  .inl ⟨_, _, trivial, site.reject_gives v details⟩

/-- The value that a string stands for does not depend on the place it is written at. -/
theorem Site.readText_agreeUnless (site site' : Site) (frame : Frame) (v : Value) :
    AgreeUnless (fun _ => True) (site.readText frame v) (site'.readText frame v) := by
  rcases site.readText_cases frame v with ⟨text, b, w, hv, hb, hw, h⟩ | ⟨d, -, -, h⟩
  · exact .inr ⟨_, _, h, Site.readText_of_single hv hb hw⟩
  · exact .inl ⟨_, _, trivial, h⟩

/-- More strings may be nested, and the annotation may be written elsewhere. -/
theorem Value.resolveIn_agreeUnless (frame : Frame) (site site' : Site) {levels levels' : Nat}
    (hle : levels ≤ levels') (v : Value) :
    AgreeUnless (fun _ => True) (v.resolveIn frame site levels)
      (v.resolveIn frame site' levels') := by
  induction levels generalizing levels' v with
  | zero =>
    -- every string is rejected here, whatever becomes of it with more levels
    cases levels' <;>
    · refine Value.resolveBy_agreeUnless (site.reject_agreeUnless site') (fun w => ?_) v
      cases w.str? <;> exact .inl ⟨_, _, trivial, site.reject_gives _ _⟩
  | succ levels ih =>
    obtain ⟨levels', rfl⟩ : ∃ n, levels' = n + 1 := ⟨levels' - 1, by omega⟩
    exact Value.resolveBy_agreeUnless (site.reject_agreeUnless site')
      (fun w => (site.readText_agreeUnless site' frame w).bind fun _ => ih (by omega) _) v

theorem Value.resolveIn_of_le {frame : Frame} {site : Site} (site' : Site) {levels levels' : Nat}
    (hle : levels ≤ levels') {v : Value} {t : Ty} {ds : List Diagnostic}
    (h : Gives (v.resolveIn frame site levels).run (.ok t) ds) :
    Gives (v.resolveIn frame site' levels').run (.ok t) ds :=
  (v.resolveIn_agreeUnless frame site site' hle).ok h

/-- What is found without a frame is found with one, unless it is put off. -/
theorem Value.resolveBy_deferText_agreeUnless (frame : Frame) (site : Site) (levels : Nat)
    (v : Value) :
    AgreeUnless (· = .late) (v.resolveBy site.deferText site)
      (v.resolveIn frame site (levels + 1)) := by
  have hreject : ∀ (v : Value) (details : String), AgreeUnless (· = .late)
      (site.reject v details : Resolving Ty) (site.reject v details) :=
    fun v details => .inr ⟨_, _, site.reject_gives v details, site.reject_gives v details⟩
  refine Value.resolveBy_agreeUnless hreject (fun w => ?_) v
  cases hw : w.str? with
  | some text =>
    refine .inl ⟨.late, [], rfl, ?_⟩
    rw [Site.deferText, hw]
    exact .error _
  | none =>
    rw [Site.deferText, hw, Site.readText_of_not_text hw]
    have h := site.reject_gives (α := Value) w "Must be constant"
    exact .inr ⟨_, _, site.reject_gives w "Must be constant", h.bind_error⟩

/-! ## Outcomes -/

/-- What a result is to the one who asked. -/
def Outcome.ofResult : Except Unresolved Ty → Outcome
  | .ok t => .resolved t
  | .error .late => .late
  | .error .failed => .failed

theorem Value.resolve_eq (v : Value) (site : Site) (frame? : Option Frame) :
    v.resolve site frame? = do
      let result ← match frame? with
        | none => (v.resolveBy site.deferText site).run
        | some frame => (v.resolveIn frame site maxTextNesting).run
      return .ofResult result := by
  unfold Value.resolve
  cases frame? <;>
  · refine bind_congr fun r => ?_
    rcases r with (_ | _) | _ <;> rfl

theorem Value.resolve_none_gives {v : Value} {site : Site} {r : Except Unresolved Ty}
    {ds : List Diagnostic} (h : Gives (v.resolveBy site.deferText site).run r ds) :
    Gives (v.resolve site none) (.ofResult r) ds := by
  rw [Value.resolve_eq]
  exact h.map Outcome.ofResult

theorem Value.resolve_some_gives {v : Value} {site : Site} {frame : Frame}
    {r : Except Unresolved Ty} {ds : List Diagnostic}
    (h : Gives (v.resolveIn frame site maxTextNesting).run r ds) :
    Gives (v.resolve site (some frame)) (.ofResult r) ds := by
  rw [Value.resolve_eq]
  exact h.map Outcome.ofResult

/-- How resolution ends does not depend on the log, and only without a frame is it put off. -/
theorem Value.exists_resolve (v : Value) (site : Site) (frame? : Option Frame) :
    ∃ r ds, Gives (v.resolve site frame?) (.ofResult r) ds ∧
      Ends site.location (frame? = none) r ds := by
  cases frame? with
  | none =>
    obtain ⟨r, ds, h, hend⟩ := Value.resolveBy_endsAt site.deferText_endsAt v
    exact ⟨r, ds, Value.resolve_none_gives h, hend.mono fun _ => rfl⟩
  | some frame =>
    obtain ⟨r, ds, h, hend⟩ := v.resolveIn_endsAt frame site maxTextNesting
    exact ⟨r, ds, Value.resolve_some_gives h, hend.mono False.elim⟩

/-- With a frame an annotation resolves silently or fails with one report at its place. -/
theorem Value.resolve_some_cases (v : Value) (site : Site) (frame : Frame) :
    (∃ t, Gives (v.resolve site (some frame)) (.resolved t) []) ∨
    ∃ d, d.kind = .invalidHint ∧ d.location = site.location ∧
      Gives (v.resolve site (some frame)) .failed [d] := by
  obtain ⟨r, ds, h, hend⟩ := v.exists_resolve site (some frame)
  cases hend with
  | resolved t => exact .inl ⟨t, h⟩
  | late hd => cases hd
  | failed d kind place => exact .inr ⟨d, kind, place, h⟩

/-- Without a frame an annotation is put off silently, or ends as it would with any frame. -/
theorem Value.resolve_none_cases (v : Value) (site : Site) :
    Gives (v.resolve site none) .late [] ∨
    (∃ t, Gives (v.resolve site none) (.resolved t) [] ∧
      ∀ frame, Gives (v.resolve site (some frame)) (.resolved t) []) ∨
    ∃ d, d.kind = .invalidHint ∧ d.location = site.location ∧
      Gives (v.resolve site none) .failed [d] ∧
      ∀ frame, Gives (v.resolve site (some frame)) .failed [d] := by
  have hsame : ∀ {r ds}, Gives (v.resolveBy site.deferText site).run r ds → r ≠ .error .late →
      ∀ frame, Gives (v.resolve site (some frame)) (.ofResult r) ds := by
    intro r ds h hr frame
    obtain ⟨u, es, rfl, hu⟩ | ⟨r', es, hm, hm'⟩ :=
      v.resolveBy_deferText_agreeUnless frame site (maxTextNesting - 1)
    · exact absurd (h.unique hu).1 hr
    · obtain ⟨rfl, rfl⟩ := h.unique hm
      exact Value.resolve_some_gives hm'
  obtain ⟨r, ds, h, hend⟩ := Value.resolveBy_endsAt site.deferText_endsAt v
  cases hend with
  | resolved t => exact .inr (.inl ⟨t, Value.resolve_none_gives h, hsame h (by simp)⟩)
  | late _ => exact .inl (Value.resolve_none_gives h)
  | failed d kind place =>
    exact .inr (.inr ⟨d, kind, place, Value.resolve_none_gives h, hsame h (by simp)⟩)

end TypeHints
