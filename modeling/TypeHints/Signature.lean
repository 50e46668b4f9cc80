import TypeHints.Diagnostic
import TypeHints.Scope
import TypeHints.Text.Quoted

/-!
# Signatures

The resolved annotations of a function, by name, and the late ones, which wait until the names of
the module are final. Late annotations form a queue in which every name stands once: one more of
the same name takes the place of the earlier one.
-/

namespace TypeHints

/-- The name under which a signature keeps the return type. -/
def returnName : String := "return"

/-- The name of the argument list of a function type comment, which annotates several
parameters at once. -/
def argumentsName : String := "$multi_arg"

/-- An annotation to be resolved later. -/
structure LateHint where
  value : Value
  name : String
  location : Location

namespace LateHint

def ofText (text name : String) (location : Location) : LateHint :=
  ⟨.str text, name, location⟩

/-- Whether this is the argument list of a function type comment. -/
def isArguments (l : LateHint) : Bool := l.name == argumentsName

/-- The late annotation as it is printed, its text in quotes. -/
def text (l : LateHint) : String :=
  l.name ++ " (" ++ ((l.value.str?).map Text.quoted).getD l.value.text ++ " at " ++
    l.location.text ++ ")"

/-- `new` in place of the first member of its name, or at the end. -/
def enqueue (new : LateHint) : List LateHint → List LateHint
  | [] => [new]
  | old :: rest => if old.name = new.name then new :: rest else old :: enqueue new rest

theorem names_enqueue (new : LateHint) (queue : List LateHint) :
    (enqueue new queue).map (·.name) = addNew (· == ·) (queue.map (·.name)) new.name := by
  induction queue with
  | nil => rfl
  | cons old rest ih =>
    by_cases h : old.name = new.name
    · simp [enqueue, addNew, h]
    · have h' : (old.name == new.name) = false := by simpa using h
      simp only [enqueue, h, if_false, List.map_cons, ih, addNew, List.any_cons, h', Bool.false_or]
      split <;> rfl

/-- A new name goes to the end. -/
theorem enqueue_of_forall_ne {new : LateHint} {queue : List LateHint}
    (h : ∀ l ∈ queue, l.name ≠ new.name) : enqueue new queue = queue ++ [new] := by
  induction queue with
  | nil => rfl
  | cons old rest ih =>
    rw [enqueue, if_neg (h old List.mem_cons_self), ih fun l hl => h l (List.mem_cons_of_mem _ hl),
      List.cons_append]

end LateHint

/-- The annotations of a function. -/
structure Signature where
  /-- The types that are resolved, by name. -/
  annotations : SortedMap String Ty := ∅
  /-- What is still to be resolved, in order. -/
  late : List LateHint := []

namespace Signature

instance : EmptyCollection Signature := ⟨{}⟩

def set (s : Signature) (name : String) (t : Ty) : Signature :=
  { s with annotations := s.annotations.insert name t }

def addLate (s : Signature) (l : LateHint) : Signature := { s with late := l.enqueue s.late }

/-- Empty the queue of late annotations. -/
def clearLate (s : Signature) : Signature := { s with late := [] }

def get? (s : Signature) (name : String) : Option Ty := s.annotations.get? name

def hasReturn (s : Signature) : Bool := s.annotations.contains returnName

end Signature

end TypeHints
