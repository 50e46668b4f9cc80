/-!
# JSON values

A JSON text as it was written: the entries of an object stand in their order, and a key may stand
more than once. Numbers without sign, fraction and exponent are told from all others.

Some texts are well-formed and yet have no value: a number too large for any double, a string or
a key with half of a surrogate pair, and what is nested too deeply. They are `unreadable`; only
what does not look at a value accepts one.
-/

namespace TypeHints

inductive Json where
  | null
  | bool (b : Bool)
  /-- A number written by its digits alone. -/
  | nat (n : Nat)
  /-- Any other number, as it was written. -/
  | number (literal : String)
  | string (s : String)
  | array (items : List Json)
  | object (entries : List (String × Json))
  | unreadable

namespace Json

instance : Inhabited Json := ⟨null⟩

mutual

/-- Whether no part of a value is unreadable. -/
def isReadable : Json → Bool
  | array items => allReadable items
  | object entries => allEntriesReadable entries
  | unreadable => false
  | _ => true

/-- Whether no part of several values is unreadable. -/
def allReadable : List Json → Bool
  | [] => true
  | j :: js => j.isReadable && allReadable js

/-- Whether no part of several entries is unreadable. -/
def allEntriesReadable : List (String × Json) → Bool
  | [] => true
  | (_, j) :: es => j.isReadable && allEntriesReadable es

end

end Json

end TypeHints
