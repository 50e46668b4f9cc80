import TypeHints.Proofs.Invariant.Resolution
import TypeHints.Proofs.WellFormed.Evaluation

/-!
# Annotations resolve to well-formed types

A well-formed value denotes and resolves to a well-formed type, as long as the names of the frame
stand for well-formed values (`Value.resolve_wellFormed`). So the types in the signature of a
function stay well formed when its late annotations are resolved
(`Function.resolveLate_wellFormed`).
-/

namespace TypeHints

theorem Value.WellFormed.toTy? {v : Value} {t : Ty} (hv : v.WellFormed) (h : v.toTy? = some t) :
    t.WellFormed :=
  Invariant.toTy? (I := .wellFormed) hv h

theorem Value.WellFormed.instantiate {v : Value} {p : Point} {b : Bindings} (hv : v.WellFormed)
    (h : v.instantiate p = some b) : b.WellFormed := by
  obtain ⟨t, ht, rfl⟩ := Option.map_eq_some_iff.1 h
  exact (hv.toTy? ht).instantiate p

/-- The type of an outcome, if there is one, is well formed. -/
def Outcome.WellFormed : Outcome → Prop
  | .resolved t => t.WellFormed
  | .late | .failed => True

theorem Value.resolve_wellFormed {v : Value} (hv : v.WellFormed) (site : Site)
    {frame? : Option Frame}
    (hframe : ∀ frame, frame? = some frame → Scope.WellFormed frame.globals) :
    Yields Outcome.WellFormed (v.resolve site frame?) := by
  have hresolve := Invariant.resolve (I := .wellFormed) hv site
    fun frame h => (hframe frame h).evaluates
  refine hresolve.mono fun outcome h => ?_
  cases outcome with
  | resolved t => exact h
  | late | failed => exact True.intro

/-- The resolved types and the late annotations of a signature are well formed. -/
structure Signature.WellFormed (s : Signature) : Prop where
  types : s.annotations.All Ty.WellFormed
  late : ∀ l ∈ s.late, l.value.WellFormed

theorem Signature.wellFormed_iff {s : Signature} :
    s.WellFormed ↔ Invariant.wellFormed.Signature s :=
  ⟨fun h => ⟨h.types, h.late⟩, fun h => ⟨h.types, h.late⟩⟩

/-- Resolving late annotations leaves well-formed types. -/
theorem Function.resolveLate_wellFormed {frame : Frame}
    (hglobals : Scope.WellFormed frame.globals) (receivers : Receivers) {f : Function}
    (hf : f.signature.WellFormed) :
    Yields (fun g : Function => g.signature.WellFormed) (f.resolveLate receivers frame) :=
  (hglobals.evaluates.resolveLate receivers (Signature.wellFormed_iff.1 hf)).mono
    fun _ => Signature.wellFormed_iff.2

end TypeHints
