import TypeHints.Proofs.Renumbering.Evaluation
import TypeHints.Resolution

/-!
# Resolving with its points renumbered

An annotation comes to the same type, and is reported in the same words, when its points and
those of the frame are moved by an injective map (`Value.resolve_renumber`).
-/

namespace TypeHints

variable {r : Point → Point} {site : Site}

theorem Site.reject_renumber {α β : Type} (r : Point → Point) (f : α → β) (site : Site) (v : Value)
    (details : String) : site.reject (v.renumber r) details = f <$> site.reject v details := by
  unfold Site.reject
  rw [map_bind, Value.text_renumber]
  rfl

section Structure

variable {onText onText' : Value → Resolving Ty}

mutual

theorem Value.resolveBy_renumber (h : ∀ v, onText' (v.renumber r) = onText v) :
    ∀ v : Value, (v.renumber r).resolveBy onText' site = v.resolveBy onText site
  | .cls _ | .container _ | .typeVar _ | .unknown _ | .form .union | .form .optional => rfl
  | .generic _ _ params => by
    simp only [Value.renumber, Value.resolveBy, Value.resolveParamsBy_renumber h params]
  | .union options => by
    simp only [Value.renumber, Value.resolveBy, Value.resolveAllBy_renumber h options]
  | .object t c => by
    have htext := h (.object t c)
    have hreject := site.reject_renumber r (id : Ty → Ty) (.object t c) "Not a type"
    rw [id_map] at hreject
    simp only [Value.renumber] at htext hreject ⊢
    rw [Value.resolveBy, Value.resolveBy, htext, hreject]

theorem Value.resolveAllBy_renumber (h : ∀ v, onText' (v.renumber r) = onText v) :
    ∀ vs : List Value,
      Value.resolveAllBy onText' site (Value.renumberAll r vs) = Value.resolveAllBy onText site vs
  | [] => rfl
  | v :: vs => by
    simp only [Value.renumberAll, Value.resolveAllBy, Value.resolveBy_renumber h v,
      Value.resolveAllBy_renumber h vs]

theorem Value.resolveParamsBy_renumber (h : ∀ v, onText' (v.renumber r) = onText v) :
    ∀ ps : List (String × Value), Value.resolveParamsBy onText' site (Value.renumberParams r ps) =
      Value.resolveParamsBy onText site ps
  | [] => rfl
  | (_, v) :: ps => by
    simp only [Value.renumberParams, Value.resolveParamsBy, Value.resolveBy_renumber h v,
      Value.resolveParamsBy_renumber h ps]

end

end Structure

theorem Site.deferText_renumber (v : Value) :
    site.deferText (v.renumber r) = site.deferText v := by
  unfold Site.deferText
  rw [Value.str?_renumber]
  split
  · rfl
  · rw [site.reject_renumber r id, id_map]

theorem Site.readText_renumber (hr : r.Injective) (frame : Frame) (v : Value) :
    site.readText (frame.renumber r) (v.renumber r) =
      (·.renumber r) <$> site.readText frame v := by
  unfold Site.readText
  rw [Value.str?_renumber]
  cases v.str? with
  | none => exact site.reject_renumber r _ v _
  | some text =>
    simp only []
    rw [evalText_renumber hr, ExceptT.run_map, map_bind, liftM_map, bind_map_left]
    refine bind_congr fun result => ?_
    cases result with
    | error e =>
      simp only [Except.map]
      rw [map_bind, Value.text_renumber]
      rfl
    | ok bindings =>
      simp only [Except.map]
      rw [Bindings.single_renumber]
      cases bindings.single with
      | ok value => rfl
      | error e => exact site.reject_renumber r _ v _

theorem Value.resolveIn_renumber (hr : r.Injective) (frame : Frame) (levels : Nat) (v : Value) :
    (v.renumber r).resolveIn (frame.renumber r) site levels = v.resolveIn frame site levels := by
  induction levels generalizing v with
  | zero =>
    refine Value.resolveBy_renumber (fun w => ?_) v
    rw [Value.str?_renumber]
    split <;> rw [site.reject_renumber r id, id_map]
  | succ levels ih =>
    refine Value.resolveBy_renumber (fun w => ?_) v
    rw [Site.readText_renumber hr, bind_map_left]
    exact bind_congr fun value => ih value

theorem Value.resolve_renumber (hr : r.Injective) (v : Value) (frame : Frame) :
    (v.renumber r).resolve site (some (frame.renumber r)) = v.resolve site (some frame) := by
  unfold Value.resolve
  simp only [Value.resolveIn_renumber hr]

theorem Value.resolve_none_renumber (v : Value) :
    (v.renumber r).resolve site none = v.resolve site none := by
  unfold Value.resolve
  simp only [Value.resolveBy_renumber (fun v => Site.deferText_renumber v) v]

end TypeHints
