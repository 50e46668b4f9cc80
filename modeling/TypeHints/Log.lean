import TypeHints.Diagnostic

/-!
# The diagnostics log

Diagnostics in the order they were reported. A checkpoint is the length of the log when it was
taken; going back to it drops exactly what was reported since (`since_append`,
`revertTo_append`).
-/

namespace TypeHints

/-- The diagnostics reported so far, oldest first. -/
structure Log where
  toList : List Diagnostic
deriving DecidableEq, Repr, Inhabited

/-- A length the log had. -/
structure Checkpoint where
  position : Nat
deriving DecidableEq, Repr, Inhabited

namespace Log

def empty : Log := ⟨[]⟩

instance : EmptyCollection Log := ⟨empty⟩

def length (log : Log) : Nat := log.toList.length

/-- The diagnostics `ds` after those of the log. -/
def append (log : Log) (ds : List Diagnostic) : Log := ⟨log.toList ++ ds⟩

def report (log : Log) (d : Diagnostic) : Log := log.append [d]

/-- The present length, to come back to. -/
def save (log : Log) : Checkpoint := ⟨log.length⟩

/-- What was reported after a checkpoint. -/
def since (log : Log) (c : Checkpoint) : List Diagnostic := log.toList.drop c.position

/-- The log without what was reported after a checkpoint. -/
def revertTo (log : Log) (c : Checkpoint) : Log := ⟨log.toList.take c.position⟩

@[simp] theorem toList_append (log : Log) (ds : List Diagnostic) :
    (log.append ds).toList = log.toList ++ ds := rfl

@[simp] theorem append_nil (log : Log) : log.append [] = log := by simp [append]

@[simp] theorem append_append (log : Log) (ds es : List Diagnostic) :
    (log.append ds).append es = log.append (ds ++ es) := by simp [append]

@[simp] theorem since_append (log : Log) (ds : List Diagnostic) :
    (log.append ds).since log.save = ds := by simp [since, save, length]

@[simp] theorem revertTo_append (log : Log) (ds : List Diagnostic) :
    (log.append ds).revertTo log.save = log := by simp [revertTo, save, length, append]

end Log

/-! ## Reporting -/

/-- Computations that may report diagnostics. -/
abbrev Reporting := StateM Log

def report (d : Diagnostic) : Reporting Unit := modify (·.report d)

end TypeHints
