import TypeHints.Json
import TypeHints.SortedMap

/-!
# Records in JSON

A record is an object with an entry for every field, in any order. Entries of other names are
passed over, but a field may stand only once. An array of the fields in their order does as well,
and may leave out the last ones.
-/

namespace TypeHints

/-- What an object without such an entry, and an array that is too short, give for a field. -/
abbrev Field := Option Json

namespace Json

/-- The only entry under a key: none, that entry, or a failure if there are several. -/
def fieldOf? (key : String) (entries : List (String × Json)) : Option Field :=
  match entries.filter (·.1 == key) with
  | [] => some none
  | [(_, j)] => some (some j)
  | _ => none

/-- The fields of a record, in the order of their names. -/
def fields? (names : List String) : Json → Option (List Field)
  | object entries => names.mapM (fieldOf? · entries)
  | array items =>
    if items.length ≤ names.length then some (names.mapIdx fun i _ => items[i]?) else none
  | _ => none

def toString? : Json → Option String
  | string s => some s
  | _ => none

/-- A number of 32 bits, written by its digits alone. -/
def toUInt32? : Json → Option UInt32
  | nat n => if n < UInt32.size then some (.ofNat n) else none
  | _ => none

def toList? {α : Type} (item : Json → Option α) : Json → Option (List α)
  | array items => items.mapM item
  | _ => none

/-- The map with the entries of an object. Of entries with equal keys the last one counts. -/
def toMap? {κ α : Type} [Ord κ] [Std.TransOrd κ] (key : String → Option κ)
    (value : Json → Option α) : Json → Option (SortedMap κ α)
  | object entries => do
    return .ofList (← entries.mapM fun (k, j) => return (← key k, ← value j))
  | _ => none

def ofMap {κ α : Type} [Ord κ] (key : κ → String) (value : α → Json) (m : SortedMap κ α) : Json :=
  object (m.toList.map fun (k, x) => (key k, value x))

def ofList {α : Type} (item : α → Json) (xs : List α) : Json := array (xs.map item)

def ofStrings : List String → Json := ofList string

def toStrings? : Json → Option (List String) := toList? toString?

def ofUInt32 (n : UInt32) : Json := nat n.toNat

/-- The entry of a field that is left out if it has no value. -/
def optionalEntry {α : Type} (key : String) (value : α → Json) (x : Option α) :
    List (String × Json) :=
  (x.map fun x => (key, value x)).toList

/-- The number that a text writes without sign and without zeros in front. -/
def uint32OfKey? (s : String) : Option UInt32 := do
  let n ← s.toNat?
  if toString n = s ∧ n < UInt32.size then some (.ofNat n) else none

def keyOfUInt32 (n : UInt32) : String := toString n.toNat

end Json

namespace Field

/-- A field that must be there. -/
def required {α : Type} (value : Json → Option α) (f : Field) : Option α := f.bind value

/-- A field that is `default` if it is not there. -/
def withDefault {α : Type} (default : α) (value : Json → Option α) : Field → Option α
  | none => some default
  | some j => value j

/-- A field that may be left out or null. -/
def optional {α : Type} (value : Json → Option α) : Field → Option (Option α)
  | none | some .null => some none
  | some j => (value j).map some

end Field

end TypeHints
