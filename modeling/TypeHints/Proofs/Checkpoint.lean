import TypeHints.Log

/-!
# Going back to a checkpoint

A checkpoint is a length, so what it stands for depends on all that happens to the log after it.
That is a list of operations here (`Log.Op`). Which of its reports survive is decided by looking
ahead from each of them: those that no later operation goes back behind (`Log.survivors`). Whatever
the operations are, a run leaves the entries that all of them keep, and then the survivors
(`Log.toList_run`). As long as none goes back behind a checkpoint, the checkpoint therefore tells
the survivors from the log as it was, and gives that log back (`Log.revertTo_restores`). Sandboxes
inside one another never do (`Log.Nested.keeps`).
-/

namespace TypeHints.Log

/-! ## Operations -/

/-- What may happen to a log. Any checkpoint may be gone back to, be it of another log. -/
inductive Op where
  | report (d : Diagnostic)
  | save
  | revertTo (c : Checkpoint)
deriving DecidableEq

/-- The log after one operation. Taking a checkpoint changes nothing. -/
def apply (log : Log) : Op → Log
  | .report d => log.report d
  | .save => log
  | .revertTo c => log.revertTo c

/-- The log after several operations. -/
def run (log : Log) (ops : List Op) : Log := ops.foldl apply log

@[simp] theorem run_nil (log : Log) : log.run [] = log := rfl

@[simp] theorem run_cons (log : Log) (op : Op) (ops : List Op) :
    log.run (op :: ops) = (log.apply op).run ops := rfl

@[simp] theorem take_length (log : Log) : log.toList.take log.length = log.toList :=
  List.take_length

theorem length_report (log : Log) (d : Diagnostic) : (log.report d).length = log.length + 1 :=
  List.length_append

theorem length_revertTo (log : Log) (c : Checkpoint) :
    (log.revertTo c).length = min c.position log.length :=
  List.length_take

/-! ## What is kept -/

/-- The first `n` entries are still there after the operation. -/
def Op.Keeps (n : Nat) : Op → Prop
  | .revertTo c => n ≤ c.position
  | _ => True

instance (n : Nat) : DecidablePred (Op.Keeps n)
  | .revertTo c => inferInstanceAs (Decidable (n ≤ c.position))
  | .report _ | .save => isTrue trivial

theorem Op.Keeps.mono {m n : Nat} {op : Op} (hle : m ≤ n) (h : op.Keeps n) : op.Keeps m := by
  cases op with
  | revertTo c => exact Nat.le_trans hle h
  | report _ | save => trivial

/-- How many of the first `n` entries all operations keep. -/
def kept : Nat → List Op → Nat
  | n, [] => n
  | n, .report _ :: ops => kept n ops
  | n, .save :: ops => kept n ops
  | n, .revertTo c :: ops => kept (min c.position n) ops

theorem kept_le (n : Nat) (ops : List Op) : kept n ops ≤ n := by
  induction ops generalizing n with
  | nil => exact Nat.le_refl n
  | cons op ops ih =>
    cases op with
    | report _ | save => exact ih n
    | revertTo c => exact Nat.le_trans (ih _) (Nat.min_le_right _ _)

theorem kept_eq_self {n : Nat} {ops : List Op} (h : ∀ op ∈ ops, op.Keeps n) : kept n ops = n := by
  induction ops with
  | nil => rfl
  | cons op ops ih =>
    obtain ⟨hop, hops⟩ := List.forall_mem_cons.1 h
    cases op with
    | report _ | save => exact ih hops
    | revertTo c =>
      rw [kept, Nat.min_eq_right hop]
      exact ih hops

/-- What does not keep all of `n + 1` entries keeps as many of the first `n`. -/
theorem kept_succ {n : Nat} {ops : List Op} (h : ¬ ∀ op ∈ ops, op.Keeps (n + 1)) :
    kept (n + 1) ops = kept n ops := by
  induction ops with
  | nil => exact absurd (by simp) h
  | cons op ops ih =>
    rw [List.forall_mem_cons] at h
    cases op with
    | report _ | save => exact ih fun hops => h ⟨trivial, hops⟩
    | revertTo c =>
      by_cases hc : n + 1 ≤ c.position
      · rw [kept, kept, Nat.min_eq_right hc, Nat.min_eq_right (by omega)]
        exact ih fun hops => h ⟨hc, hops⟩
      · rw [kept, kept, Nat.min_eq_left (by omega), Nat.min_eq_left (by omega)]

/-! ## What survives -/

/-- The reports among the operations that all later operations keep, in order: the one that is
made in a log of `n` entries is entry `n + 1`. -/
def survivors : Log → List Op → List Diagnostic
  | _, [] => []
  | log, .report d :: ops =>
    if ∀ op ∈ ops, op.Keeps (log.length + 1) then d :: survivors (log.report d) ops
    else survivors (log.report d) ops
  | log, .save :: ops => survivors log ops
  | log, .revertTo c :: ops => survivors (log.revertTo c) ops

/-- What a run leaves: the entries that all operations keep, and then the survivors. -/
theorem toList_run (log : Log) (ops : List Op) :
    (log.run ops).toList = log.toList.take (kept log.length ops) ++ survivors log ops := by
  induction ops generalizing log with
  | nil => simp [kept, survivors, length]
  | cons op ops ih =>
    rw [run_cons, ih]
    cases op with
    | report d =>
      have hlist : (log.report d).toList = log.toList ++ [d] := rfl
      rw [apply, length_report, hlist, kept, survivors]
      by_cases h : ∀ op ∈ ops, op.Keeps (log.length + 1)
      · have hlog : kept log.length ops = log.length :=
          kept_eq_self fun op hop => (h op hop).mono (Nat.le_succ _)
        rw [if_pos h, kept_eq_self h, hlog, take_length, ← hlist, ← length_report _ d, take_length,
          hlist, List.append_assoc, List.singleton_append]
      · have hle : kept log.length ops ≤ log.toList.length := kept_le _ _
        rw [if_neg h, kept_succ h, List.take_append_of_le_length hle]
    | save => rfl
    | revertTo c =>
      have hle := kept_le (min c.position log.length) ops
      have hlist : (log.revertTo c).toList = log.toList.take c.position := rfl
      rw [apply, length_revertTo, hlist, kept, survivors, List.take_take,
        Nat.min_eq_left (by omega)]

/-- Operations that keep the whole log add the survivors to it. -/
theorem run_eq_append {log : Log} {ops : List Op} (h : ∀ op ∈ ops, op.Keeps log.length) :
    log.run ops = log.append (survivors log ops) := by
  have hrun := toList_run log ops
  rw [kept_eq_self h, take_length] at hrun
  exact congrArg Log.mk hrun

/-! ## Sandboxes -/

/-- Operations, from a log on, in which only sandboxes go back: each takes a checkpoint first and
goes back to it in the end, and has only such operations in between. -/
inductive Nested : Log → List Op → Prop
  | done (log : Log) : Nested log []
  | report {log : Log} {d : Diagnostic} {ops : List Op} (h : Nested (log.report d) ops) :
      Nested log (.report d :: ops)
  | sandbox {log : Log} {inner ops : List Op} (hinner : Nested log inner)
      (h : Nested ((log.run inner).revertTo log.save) ops) :
      Nested log (.save :: (inner ++ .revertTo log.save :: ops))

theorem Nested.keeps {log : Log} {ops : List Op} (h : Nested log ops) :
    ∀ op ∈ ops, op.Keeps log.length := by
  induction h with
  | done => simp
  | @report log d ops _ ih =>
    refine List.forall_mem_cons.2 ⟨trivial, fun op hop => (ih op hop).mono ?_⟩
    rw [length_report]
    exact Nat.le_succ _
  | @sandbox log inner ops _ _ ihinner ih =>
    have hback : (log.run inner).revertTo log.save = log := by
      rw [run_eq_append ihinner, revertTo_append]
    rw [hback] at ih
    have hlast : (Op.revertTo log.save).Keeps log.length := Nat.le_refl _
    exact List.forall_mem_cons.2 ⟨trivial,
      List.forall_mem_append.2 ⟨ihinner, List.forall_mem_cons.2 ⟨hlast, ih⟩⟩⟩

/-! ## The checkpoint -/

theorem forall_keeps_iff {n : Nat} {ops : List Op} :
    (∀ op ∈ ops, op.Keeps n) ↔ ∀ c, .revertTo c ∈ ops → n ≤ c.position := by
  constructor
  · exact fun h c hc => h _ hc
  · intro h op hop
    cases op with
    | report _ | save => trivial
    | revertTo c => exact h c hop

/-- **A checkpoint gives the log back.** Take a checkpoint of a log, and then let anything happen
to it, as long as nothing goes back to a checkpoint before this one. Then what was reported since
is what survived, in order, and going back gives the log as it was; all the while the log begins
with its entries from then. Sandboxes inside one another are such operations. -/
theorem revertTo_restores (log : Log) :
    (∀ ops, (∀ c, .revertTo c ∈ ops → log.save.position ≤ c.position) →
      (log.run ops).since log.save = survivors log ops ∧
        (log.run ops).revertTo log.save = log ∧
        ∀ k, log.toList <+: (log.run (ops.take k)).toList) ∧
      ∀ ops, Nested log ops → ∀ c, .revertTo c ∈ ops → log.save.position ≤ c.position := by
  refine ⟨fun ops h => ?_, fun ops h => forall_keeps_iff.1 h.keeps⟩
  have hkeeps : ∀ op ∈ ops, op.Keeps log.length := forall_keeps_iff.2 h
  have hrun := run_eq_append hkeeps
  refine ⟨?_, ?_, fun k => ?_⟩
  · rw [hrun, since_append]
  · rw [hrun, revertTo_append]
  · rw [run_eq_append fun op hop => hkeeps op (List.mem_of_mem_take hop)]
    exact List.prefix_append _ _

/-- The report of an unbound name. -/
def unboundName (name : String) : Diagnostic := .nameError .synthetic name

/-- Two reports, and a sandbox with a third one between them. -/
def sandboxOps : List Op :=
  [.report (unboundName "B"), .save, .report (unboundName "C"), .revertTo ⟨2⟩,
    .report (unboundName "D")]

theorem sandboxOps_nested : Nested ⟨[unboundName "A"]⟩ sandboxOps := by
  show Nested _ (.report _ ::
    .save :: ([.report (unboundName "C")] ++ .revertTo ⟨2⟩ :: [.report (unboundName "D")]))
  exact .report (.sandbox (.report (.done _)) (.report (.done _)))

/-- What is reported around a sandbox survives, and the entry from before is never touched. -/
theorem revertTo_restores_of_sandbox :
    Nested ⟨[unboundName "A"]⟩ sandboxOps ∧
      (∀ c, .revertTo c ∈ sandboxOps → 1 ≤ c.position) ∧
      (run ⟨[unboundName "A"]⟩ sandboxOps).since ⟨1⟩ = [unboundName "B", unboundName "D"] ∧
      (run ⟨[unboundName "A"]⟩ sandboxOps).revertTo ⟨1⟩ = ⟨[unboundName "A"]⟩ ∧
      ∀ k, [unboundName "A"] <+: (run ⟨[unboundName "A"]⟩ (sandboxOps.take k)).toList := by
  obtain ⟨hrestores, hnested⟩ := revertTo_restores ⟨[unboundName "A"]⟩
  have hops := hnested sandboxOps sandboxOps_nested
  obtain ⟨hsince, hrevert, hprefix⟩ := hrestores sandboxOps hops
  have hsurvivors : survivors ⟨[unboundName "A"]⟩ sandboxOps =
      [unboundName "B", unboundName "D"] := by decide
  exact ⟨sandboxOps_nested, hops, hsince.trans hsurvivors, hrevert, hprefix⟩

end TypeHints.Log
