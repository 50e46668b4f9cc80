import TypeHints.Function.Payload
import TypeHints.Proofs.Bindings
import TypeHints.Proofs.Resolution
import TypeHints.Proofs.Signature

/-!
# The payload of a definition

A payload is well formed when the bindings at its end spell the names of the others
(`annotationNames_eq_ok_iff`). Its annotations are then collected one after the other, and what
is collected goes into an empty signature as it is (`Collected.addTo_empty`).
-/

namespace TypeHints

/-! ## Names -/

/-- The bindings hold one tuple constant, which spells `names`, one string after the other. -/
def SpellsNames (b : Bindings) (names : List String) : Prop :=
  ∃ v items, b.values = [v] ∧ v.tuple? = some items ∧
    List.Forall₂ (fun item name => ∃ w : Value, item.values = [w] ∧ w.str? = some name) items names

theorem annotationName_eq_ok_iff {item : Bindings} {name : String} :
    annotationName item = .ok name ↔ ∃ w : Value, item.values = [w] ∧ w.str? = some name := by
  unfold annotationName
  simp only [bind_eq_ok_iff, Bindings.single_eq_ok_iff]
  refine exists_congr fun w => and_congr_right fun _ => ?_
  cases w.str? <;> simp [pure, Except.pure, throw, throwThe, MonadExceptOf.throw]

theorem annotationNames_eq_ok_iff {b : Bindings} {names : List String} :
    annotationNames b = .ok names ↔ SpellsNames b names := by
  unfold annotationNames SpellsNames
  simp only [bind_eq_ok_iff, Bindings.single_eq_ok_iff, ← annotationName_eq_ok_iff,
    ← mapM_eq_ok_iff]
  refine exists_congr fun v => ?_
  rw [exists_and_left]
  refine and_congr_right fun _ => ?_
  cases v.tuple? <;> simp [throw, throwThe, MonadExceptOf.throw]

/-! ## Collecting -/

theorem Collected.add_of_visible {p : Point} {location : Location} {c d : Collected}
    {name : String} {hint : Bindings} {v : Value} {outcome : Outcome} {ds : List Diagnostic}
    (hv : hint.visible p = [v]) (h : Gives (v.resolve ⟨name, location⟩ none) outcome ds)
    (hd : d = match outcome with
      | .resolved t => c.set name t
      | .late => c.defer ⟨v, name, location⟩
      | .failed => c) : Gives (c.add p location name hint) d ds := by
  unfold Collected.add
  rw [hv, hd]
  refine h.bind_then_silent ?_
  cases outcome <;> exact .pure _

theorem Collected.add_of_not_visible {p : Point} {location : Location} (c : Collected)
    (name : String) {hint : Bindings} (hne : (hint.visible p).length ≠ 1) :
    Gives (c.add p location name hint) c [.invalidHint location
      (mergedVisible (hint.visible p)).text (some "Must be constant") (some name)] := by
  unfold Collected.add
  split
  · rename_i v hv
    exact absurd (congrArg List.length hv) hne
  · exact (Gives.report _).bind_then_silent (.pure c)

theorem collectAnnotations_eq {p : Point} {location : Location} {hints : List Bindings}
    {last : Bindings} {names : List String} (hnames : SpellsNames last names) :
    collectAnnotations p (hints ++ [last]) location =
      liftM ((names.zip hints).foldlM (fun c (name, hint) => c.add p location name hint) {}) := by
  unfold collectAnnotations
  rw [List.getLast?_concat, List.dropLast_concat]
  simp only [annotationNames_eq_ok_iff.2 hnames]
  exact Gives.foldlM_liftM _ _ _

theorem collectAnnotations_gives {p : Point} {location : Location} {hints : List Bindings}
    {last : Bindings} {names : List String} {c : Collected} {ds : List Diagnostic}
    (hnames : SpellsNames last names)
    (h : Gives ((names.zip hints).foldlM (fun c (name, hint) => c.add p location name hint) {})
      c ds) :
    Gives (collectAnnotations p (hints ++ [last]) location).run (.ok c) ds := by
  rw [collectAnnotations_eq hnames]
  exact h.lift

/-- An empty signature takes what is collected as it is. -/
theorem Collected.addTo_empty (c : Collected) (h : (c.late.map (·.name)).Nodup) :
    c.addTo ∅ = ⟨c.annotations, c.late⟩ := by
  unfold Collected.addTo
  rw [Signature.foldl_set, Signature.foldl_addLate _ h (fun _ _ _ hqueued => by cases hqueued)]
  show (⟨(∅ : SortedMap String Ty).insertAll c.annotations.toList, [] ++ c.late⟩ : Signature) = _
  rw [SortedMap.insertAll_toList, List.nil_append]

end TypeHints
