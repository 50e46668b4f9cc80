import TypeHints.Signature

/-!
# Functions

What annotation resolution reads of a function: where it stands, its parameters, and its
signature so far.

A comment on a method usually leaves out its receiver. `Receivers.reconcile` matches the number
of arguments in a comment with the parameters of the function: if they differ and the first
parameter is named like a receiver, it is left out.
-/

namespace TypeHints

/-- A function under analysis. -/
structure Function where
  name : String
  file : String
  /-- The line of the definition. -/
  line : UInt32
  /-- The number of positional parameters. -/
  positional : Nat
  /-- The number of keyword-only parameters. -/
  keywordOnly : Nat
  hasVarArgs : Bool
  hasKeywordArgs : Bool
  /-- The parameters in order, then other local names. -/
  varnames : List String
  signature : Signature := ∅

namespace Function

/-- The number of parameters of all sorts. -/
def argCount (f : Function) : Nat :=
  f.positional + f.keywordOnly + f.hasVarArgs.toNat + f.hasKeywordArgs.toNat

def location (f : Function) : Location := ⟨f.file, f.line⟩

/-- The function with another signature. -/
def mapSignature (f : Function) (g : Signature → Signature) : Function :=
  { f with signature := g f.signature }

end Function

/-! ## Receivers -/

/-- The names that a receiver may have. -/
structure Receivers where
  names : List String
deriving DecidableEq, Repr

/-- A number of arguments that does not fit the parameters. -/
structure ArityMismatch where
  expected : Nat
  given : Nat
deriving DecidableEq, Repr

def ArityMismatch.message (e : ArityMismatch) : String :=
  "Expected " ++ toString e.expected ++ " args, " ++ toString e.given ++ " given"

namespace Receivers

/-- The customary receivers. -/
def standard : Receivers := ⟨["self", "cls"]⟩

def none : Receivers := ⟨[]⟩

instance : Inhabited Receivers := ⟨standard⟩

/-- Whether a receiver may have this name. -/
def isReceiver (r : Receivers) (name : String) : Bool := r.names.contains name

/-- The parameters without a receiver at their front. -/
def skipReceiver (r : Receivers) : List String → Option (List String)
  | [] => .none
  | first :: rest => if r.isReceiver first then some rest else .none

/-- The parameters, out of the first `expected`, that `given` arguments belong to. -/
def reconcile (r : Receivers) (formals : List String) (expected given : Nat) :
    Except ArityMismatch (List String) :=
  let names := formals.take expected
  if expected = given then .ok names
  else
    match r.skipReceiver names with
    | some rest => if expected - 1 = given then .ok rest else .error ⟨expected - 1, given⟩
    | .none => .error ⟨expected, given⟩

theorem reconcile_self (r : Receivers) (formals : List String) (n : Nat) :
    r.reconcile formals n n = .ok (formals.take n) := by simp [reconcile]

example : standard.reconcile ["self", "x"] 2 1 = .ok ["x"] := by rfl

example : none.reconcile ["self", "x"] 2 1 = .error ⟨2, 1⟩ := by rfl

end Receivers

end TypeHints
