import TypeHints.Value.Same
import TypeHints.Value.Text

/-!
# Bindings

The values an expression may have, in the order they were first bound. A binding made at a point
is visible there and later (`Bindings.visible`).
-/

namespace TypeHints

/-- Why a value could not be read as the one constant that was expected. -/
inductive ConversionError where
  | notSingle (count : Nat)
  | notConstant (expected : Builtin) (found : String)
deriving DecidableEq, Repr

namespace ConversionError

def message : ConversionError → String
  | notSingle count => "Cannot get atomic value: " ++ toString count ++ " options"
  | notConstant expected found =>
    "Expected a " ++ expected.name ++ " constant, got " ++ found

end ConversionError

namespace Bindings

def empty : Bindings := ⟨[]⟩

instance : EmptyCollection Bindings := ⟨empty⟩
instance : Inhabited Bindings := ⟨∅⟩

@[ext] theorem ext {b c : Bindings} (h : b.toList = c.toList) : b = c := by
  cases b
  cases c
  exact congrArg mk h

/-- The values, wherever they were bound. -/
def values (b : Bindings) : List Value := b.toList.map (·.value)

def size (b : Bindings) : Nat := b.toList.length

def isEmpty (b : Bindings) : Bool := b.toList.isEmpty

/-- One more binding, unless an equal value is there already. -/
def addBinding (b : Bindings) (new : Binding) : Bindings :=
  ⟨addNew (fun x y => x.value == y.value) b.toList new⟩

/-- A value bound at `p`, unless an equal one is there already. -/
def add (b : Bindings) (p : Point) (v : Value) : Bindings := b.addBinding ⟨v, p⟩

/-- The bindings of `c` added to those of `b`. -/
def extend (b c : Bindings) : Bindings :=
  ⟨addAllNew (fun x y => x.value == y.value) b.toList c.toList⟩

/-- Each of `vs` bound at `p`. -/
def ofValues (p : Point) (vs : List Value) : Bindings := vs.foldl (·.add p ·) ∅

/-- The one value `v`, bound at `p`. -/
def ofValue (p : Point) (v : Value) : Bindings := ⟨[⟨v, p⟩]⟩

def visible (b : Bindings) (p : Point) : List Value :=
  (b.toList.filter (·.origin ≤ p)).map (·.value)

def single (b : Bindings) : Except ConversionError Value :=
  match b.toList with
  | [binding] => .ok binding.value
  | bindings => .error (.notSingle bindings.length)

theorem extend_eq_foldl (b c : Bindings) : b.extend c = c.toList.foldl addBinding b := by
  suffices ∀ (bs : List Binding) (b : Bindings),
      (⟨addAllNew (fun x y => x.value == y.value) b.toList bs⟩ : Bindings) =
        bs.foldl addBinding b from this c.toList b
  intro bs
  induction bs with
  | nil => rintro ⟨_⟩; rfl
  | cons new bs ih => intro b; exact ih (b.addBinding new)

@[simp] theorem extend_empty (b : Bindings) : b.extend ∅ = b := by
  cases b
  rfl

end Bindings

end TypeHints
