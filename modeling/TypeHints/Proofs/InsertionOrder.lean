import TypeHints.Function.Late
import TypeHints.Proofs.Distinct
import TypeHints.Proofs.Signature

/-!
# The queue in the order of insertion

Late annotations are added to a signature, and from time to time its queue is taken to be resolved.
In between the queue is a map from names to late annotations that keeps the order of insertion: a
name stands where it was added first, with what was added last (`LateHint.InsertionOrdered`). One
more addition keeps this up (`InsertionOrdered.enqueue`), and so does every other operation on the
signature (`Signature.apply_insertionOrdered`). So it holds of the queue after any run of
operations, and of every list that was taken in it (`Signature.run_insertionOrdered`).
-/

namespace TypeHints

/-! ## Names in order -/

namespace LateHint

/-- `l` is the last one of its name among the late annotations `added`. -/
def LastIn (l : LateHint) (added : List LateHint) : Prop :=
  ∃ before after, added = before ++ l :: after ∧ ∀ l' ∈ after, l'.name ≠ l.name

/-- The queue has the names of `added`, in the order in which each was added first, and with each
of them the late annotation that was added last. -/
structure InsertionOrdered (added queue : List LateHint) : Prop where
  names : queue.map (·.name) = (added.map (·.name)).eraseDups
  mem_iff (l : LateHint) : l ∈ queue ↔ l.LastIn added

theorem lastIn_concat_iff {l new : LateHint} {added : List LateHint} :
    l.LastIn (added ++ [new]) ↔ l = new ∨ (l.LastIn added ∧ l.name ≠ new.name) := by
  constructor
  · rintro ⟨before, after, heq, hafter⟩
    -- `new` is `l` itself, or the last of those after it
    obtain rfl | ⟨after, last, rfl⟩ := List.eq_nil_or_concat after
    · exact .inl (List.cons.inj (List.append_inj' heq rfl).2).1.symm
    · rw [List.concat_eq_append] at heq hafter
      rw [← List.cons_append, ← List.append_assoc] at heq
      obtain ⟨rfl, hlast⟩ := List.append_inj' heq rfl
      obtain rfl := (List.cons.inj hlast).1
      obtain ⟨hafter, hnew⟩ := List.forall_mem_append.1 hafter
      exact .inr ⟨⟨before, after, rfl, hafter⟩, (hnew new (List.mem_singleton_self new)).symm⟩
  · rintro (rfl | ⟨⟨before, after, rfl, hafter⟩, hne⟩)
    · exact ⟨added, [], rfl, fun _ hl' => absurd hl' List.not_mem_nil⟩
    · refine ⟨before, after ++ [new], by simp, List.forall_mem_append.2 ⟨hafter, fun l' hl' => ?_⟩⟩
      rw [List.mem_singleton.1 hl']
      exact hne.symm

namespace InsertionOrdered

variable {added queue : List LateHint}

theorem empty : InsertionOrdered [] [] where
  names := rfl
  mem_iff l := by
    refine iff_of_false List.not_mem_nil ?_
    rintro ⟨before, after, heq, -⟩
    simp at heq

/-- Every name stands once. -/
theorem nodup (h : InsertionOrdered added queue) : (queue.map (·.name)).Nodup := by
  rw [h.names]
  exact (distinct_eraseDups _).imp ne_of_beq_false

/-- What is added decides the queue. -/
theorem unique {queue' : List LateHint} (h : InsertionOrdered added queue)
    (h' : InsertionOrdered added queue') : queue' = queue := by
  have hnames : queue'.map (·.name) = queue.map (·.name) := h'.names.trans h.names.symm
  have hlength : queue'.length = queue.length := by simpa using congrArg List.length hnames
  refine List.ext_getElem hlength fun i hi' hi => ?_
  have hmem : queue'[i] ∈ queue := (h.mem_iff _).2 ((h'.mem_iff _).1 (List.getElem_mem hi'))
  have hname : queue'[i].name = queue[i].name := by
    simpa [hi, hi'] using congrArg (·[i]?) hnames
  exact List.inj_on_of_nodup_map h.nodup hmem (List.getElem_mem hi) hname

/-- One more addition leaves its name where it is, or puts it at the end. -/
theorem enqueue (h : InsertionOrdered added queue) (new : LateHint) :
    InsertionOrdered (added ++ [new]) (new.enqueue queue) where
  names := by rw [names_enqueue, h.names, List.map_append, List.map_singleton, eraseDups_concat]
  mem_iff l := by rw [mem_enqueue_iff h.nodup, h.mem_iff, lastIn_concat_iff]

end InsertionOrdered

end LateHint

/-! ## Runs -/

namespace Signature

/-- The late annotations that wait, and the signature without them. -/
def takeLate (s : Signature) : List LateHint × Signature := (s.late, s.clearLate)

/-- What may happen to a signature. -/
inductive Op where
  | addLate (l : LateHint)
  | set (name : String) (t : Ty)
  | takeLate

/-- The signature after one operation. -/
def apply (s : Signature) : Op → Signature
  | .addLate l => s.addLate l
  | .set name t => s.set name t
  | .takeLate => s.takeLate.2

/-- The signature after several operations. -/
def run (s : Signature) (ops : List Op) : Signature := ops.foldl apply s

/-- The lists of late annotations that are taken in a run, in order. -/
def taken (s : Signature) : List Op → List (List LateHint)
  | [] => []
  | .takeLate :: ops => s.takeLate.1 :: taken (s.apply .takeLate) ops
  | op :: ops => taken (s.apply op) ops

/-- What is added since the queue was taken last, in order, after one more operation. -/
def added (before : List LateHint) : Op → List LateHint
  | .addLate l => before ++ [l]
  | .set .. => before
  | .takeLate => []

/-- The late annotations that are added since the queue was taken last, in order. -/
def addedSince (ops : List Op) : List LateHint := ops.foldl added []

/-- For each time that the queue is taken, the late annotations that are added since it was taken
before, in order. Those of `before` are added before the operations. -/
def addedBetween (before : List LateHint) : List Op → List (List LateHint)
  | [] => []
  | .takeLate :: ops => before :: addedBetween [] ops
  | op :: ops => addedBetween (added before op) ops

/-- The type that an operation sets, under its name. -/
def Op.type? : Op → Option (String × Ty)
  | .set name t => some (name, t)
  | .addLate _ | .takeLate => none

section Run

variable {s : Signature} {before : List LateHint}

/-- Every operation keeps the queue in the order of what is added. -/
theorem apply_insertionOrdered (h : LateHint.InsertionOrdered before s.late) (op : Op) :
    LateHint.InsertionOrdered (added before op) (s.apply op).late := by
  cases op with
  | addLate l => exact h.enqueue l
  | set name t => exact h
  | takeLate => exact .empty

theorem late_run (h : LateHint.InsertionOrdered before s.late) (ops : List Op) :
    LateHint.InsertionOrdered (ops.foldl added before) (s.run ops).late := by
  induction ops generalizing s before with
  | nil => exact h
  | cons op ops ih => exact ih (apply_insertionOrdered h op)

theorem taken_insertionOrdered (h : LateHint.InsertionOrdered before s.late) (ops : List Op) :
    List.Forall₂ LateHint.InsertionOrdered (addedBetween before ops) (s.taken ops) := by
  induction ops generalizing s before with
  | nil => exact .nil
  | cons op ops ih =>
    have hrest := ih (apply_insertionOrdered h op)
    cases op with
    | addLate | set => exact hrest
    | takeLate => exact .cons h hrest

theorem annotations_run (s : Signature) (ops : List Op) :
    (s.run ops).annotations = s.annotations.insertAll (ops.filterMap Op.type?) := by
  induction ops generalizing s with
  | nil => rfl
  | cons op ops ih => cases op <;> exact ih (s.apply _)

end Run

/-- **The queue keeps the order of insertion.** Whatever is done to a new signature, it holds the
types that were set, each name with the last of them, and the queue in which every name stands once:
in the order in which the names were added first since the queue was taken last, each with what was
added last. Taking the queue gives this list and leaves an empty one beside the same types, and so
did every time that it was taken before. -/
theorem run_insertionOrdered (ops : List Op) :
    ∃ queue, (∅ : Signature).run ops = ⟨.ofList (ops.filterMap Op.type?), queue⟩ ∧
      ((∅ : Signature).run ops).takeLate = (queue, ⟨.ofList (ops.filterMap Op.type?), []⟩) ∧
      (queue.map (·.name)).Nodup ∧
      (∀ q, LateHint.InsertionOrdered (addedSince ops) q ↔ q = queue) ∧
      List.Forall₂ LateHint.InsertionOrdered (addedBetween [] ops) ((∅ : Signature).taken ops) := by
  have hqueue : LateHint.InsertionOrdered (addedSince ops) ((∅ : Signature).run ops).late :=
    late_run .empty ops
  have htypes : ((∅ : Signature).run ops).annotations = .ofList (ops.filterMap Op.type?) :=
    annotations_run ∅ ops
  refine ⟨((∅ : Signature).run ops).late, ?_, ?_, hqueue.nodup, fun q => ⟨hqueue.unique, ?_⟩,
    taken_insertionOrdered .empty ops⟩
  · rw [← htypes]
  · rw [takeLate, clearLate, htypes]
  · rintro rfl
    exact hqueue

/-- What is added under a name again takes the place of the first, and later types leave it. -/
example (l : Location) (t : Ty) :
    (∅ : Signature).taken [.addLate (.ofText "A" "x" l), .addLate (.ofText "B" "y" l),
      .addLate (.ofText "C" "x" l), .set "x" t, .takeLate, .takeLate] =
      [[.ofText "C" "x" l, .ofText "B" "y" l], []] := rfl

end Signature

/-- Resolving what is late takes the queue first. -/
theorem Function.resolveLate_eq_takeLate (receivers : Receivers) (frame : Frame) (f : Function) :
    f.resolveLate receivers frame =
      f.signature.takeLate.1.foldlM (resolveNext receivers frame)
        (f.mapSignature fun _ => f.signature.takeLate.2) := rfl

end TypeHints
