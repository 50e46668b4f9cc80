import TypeHints.Json
import TypeHints.Text

/-!
# Reading JSON

Strict JSON: no comments, no trailing commas, nothing after the value. A number is unreadable if
the nearest double would be infinite, an array or object if it is nested deeper than `maxDepth`.
-/

namespace TypeHints.Json

open Text (Reader readChar readDigits ofDigits skipSpace)

/-- How deeply arrays and objects may be nested. -/
def maxDepth : Nat := 127

/-! ## Strings -/

def hexDigit? (c : Char) : Option Nat :=
  if c.isDigit then some (c.toNat - '0'.toNat)
  else if 'a' ≤ c ∧ c ≤ 'f' then some (c.toNat - 'a'.toNat + 10)
  else if 'A' ≤ c ∧ c ≤ 'F' then some (c.toNat - 'A'.toNat + 10)
  else none

def ofHexDigits? (cs : List Char) : Option Nat :=
  cs.foldlM (fun n c => return 16 * n + (← hexDigit? c)) 0

/-- What a character stands for after a backslash. -/
def escape? : Char → Option Nat
  | '"' => some 0x22
  | '\\' => some 0x5c
  | '/' => some 0x2f
  | 'b' => some 0x8
  | 'f' => some 0xc
  | 'n' => some 0xa
  | 'r' => some 0xd
  | 't' => some 0x9
  | _ => none

/-- The code points and surrogates of a string, up to the closing quote. -/
def readUnits : Reader (List Nat)
  | [] => none
  | '"' :: rest => some ([], rest)
  | '\\' :: 'u' :: a :: b :: c :: d :: rest => do
    let unit ← ofHexDigits? [a, b, c, d]
    let (units, rest) ← readUnits rest
    return (unit :: units, rest)
  | '\\' :: c :: rest => do
    let unit ← escape? c
    let (units, rest) ← readUnits rest
    return (unit :: units, rest)
  | c :: rest =>
    if c = '\\' ∨ c.toNat < 0x20 then none
    else do
      let (units, rest) ← readUnits rest
      return (c.toNat :: units, rest)

/-- Whether a unit is the first half of a surrogate pair. -/
def isHigh (u : Nat) : Bool := 0xd800 ≤ u && u < 0xdc00

/-- Whether a unit is the second half of a surrogate pair. -/
def isLow (u : Nat) : Bool := 0xdc00 ≤ u && u < 0xe000

/-- The characters that units stand for, if no half of a surrogate pair is alone. -/
def ofUnits? : List Nat → Option (List Char)
  | [] => some []
  | [u] => if isHigh u || isLow u then none else some [Char.ofNat u]
  | u :: v :: rest =>
    if isHigh u && isLow v then
      (ofUnits? rest).map (Char.ofNat (0x10000 + (u - 0xd800) * 0x400 + (v - 0xdc00)) :: ·)
    else if isHigh u || isLow u then none
    else (ofUnits? (v :: rest)).map (Char.ofNat u :: ·)

/-- The rest of a string after its opening quote, with no text if it is unreadable. -/
def readText : Reader (Option String) := fun cs => do
  let (units, rest) ← readUnits cs
  return ((ofUnits? units).map String.ofList, rest)

/-! ## Numbers -/

/-- The least number that rounds to no finite double. -/
def doubleLimit : Nat := Nat.pow 2 1024 - Nat.pow 2 970

/-- Whether `m * 10 ^ e` rounds to a finite double. -/
def isFinite (m : Nat) (e : Int) : Bool :=
  if m = 0 then true
  else if 309 ≤ e then false
  else if 0 ≤ e then m * Nat.pow 10 e.toNat < doubleLimit
  else if (toString m).length ≤ 308 + (-e).toNat then true
  else m < doubleLimit * Nat.pow 10 (-e).toNat

/-- The digits of a whole number: no zero in front of others. -/
def readWhole : Reader (List Char)
  | '0' :: rest => some (['0'], rest)
  | cs => readDigits cs

/-- A point and digits, or nothing. -/
def readFraction : Reader (List Char)
  | '.' :: rest => readDigits rest
  | cs => some ([], cs)

/-- An exponent, or nothing. -/
def readExponent : Reader (Option Int)
  | c :: rest =>
    if c = 'e' ∨ c = 'E' then
      match rest with
      | '-' :: rest => (readDigits rest).map fun (ds, rest) => (some (-ofDigits ds), rest)
      | '+' :: rest => (readDigits rest).map fun (ds, rest) => (some (ofDigits ds), rest)
      | rest => (readDigits rest).map fun (ds, rest) => (some (ofDigits ds), rest)
    else some (none, c :: rest)
  | [] => some (none, [])

def readNumber : Reader Json := fun cs => do
  let (negative, digits) :=
    match cs with
    | '-' :: rest => (true, rest)
    | cs => (false, cs)
  let (whole, rest) ← readWhole digits
  let (fraction, rest) ← readFraction rest
  let (exponent, rest) ← readExponent rest
  let value :=
    if !isFinite (ofDigits (whole ++ fraction)) (exponent.getD 0 - fraction.length) then unreadable
    else if !negative && fraction.isEmpty && exponent.isNone then nat (ofDigits whole)
    else number (String.ofList (cs.take (cs.length - rest.length)))
  return (value, rest)

/-! ## Values -/

def readWord (word : String) (value : Json) : Reader Json := fun cs =>
  (word.toList.isPrefixOf? cs).map (value, ·)

/-- An object of these entries, unreadable if one of the keys is. -/
def ofEntries (entries : List (Option String × Json)) : Json :=
  match entries.mapM fun (key, j) => key.map (·, j) with
  | some entries => object entries
  | none => unreadable

/-- A value that may nest `depth` more arrays and objects, or else is unreadable. -/
def atDepth : (depth : Nat) → Json → Json
  | 0, _ => unreadable
  | _ + 1, j => j

mutual

/-- A value, after space. -/
def readValue (depth : Nat) : (fuel : Nat) → Reader Json
  | 0 => fun _ => none
  | fuel + 1 => fun cs =>
    match skipSpace cs with
    | '"' :: rest => (readText rest).map fun (s, rest) => ((s.map string).getD unreadable, rest)
    | '[' :: rest => do
      let (items, rest) ← readItems (depth - 1) fuel rest
      return (atDepth depth (array items), rest)
    | '{' :: rest => do
      let (entries, rest) ← readEntries (depth - 1) fuel rest
      return (atDepth depth (ofEntries entries), rest)
    | 'n' :: rest => readWord "ull" null rest
    | 't' :: rest => readWord "rue" (bool true) rest
    | 'f' :: rest => readWord "alse" (bool false) rest
    | cs => readNumber cs

/-- The items of an array after its opening bracket. -/
def readItems (depth : Nat) : (fuel : Nat) → Reader (List Json)
  | 0 => fun _ => none
  | fuel + 1 => fun cs =>
    match readChar ']' cs with
    | some ((), rest) => some ([], rest)
    | none => do
      let (item, rest) ← readValue depth fuel cs
      let (items, rest) ← readMoreItems depth fuel rest
      return (item :: items, rest)

/-- The items of an array after one of them. -/
def readMoreItems (depth : Nat) : (fuel : Nat) → Reader (List Json)
  | 0 => fun _ => none
  | fuel + 1 => fun cs =>
    match readChar ']' cs with
    | some ((), rest) => some ([], rest)
    | none => do
      let ((), rest) ← readChar ',' cs
      let (item, rest) ← readValue depth fuel rest
      let (items, rest) ← readMoreItems depth fuel rest
      return (item :: items, rest)

/-- The entries of an object after its opening brace. -/
def readEntries (depth : Nat) : (fuel : Nat) → Reader (List (Option String × Json))
  | 0 => fun _ => none
  | fuel + 1 => fun cs =>
    match readChar '}' cs with
    | some ((), rest) => some ([], rest)
    | none => do
      let (entry, rest) ← readEntry depth fuel cs
      let (entries, rest) ← readMoreEntries depth fuel rest
      return (entry :: entries, rest)

/-- The entries of an object after one of them. -/
def readMoreEntries (depth : Nat) : (fuel : Nat) → Reader (List (Option String × Json))
  | 0 => fun _ => none
  | fuel + 1 => fun cs =>
    match readChar '}' cs with
    | some ((), rest) => some ([], rest)
    | none => do
      let ((), rest) ← readChar ',' cs
      let (entry, rest) ← readEntry depth fuel rest
      let (entries, rest) ← readMoreEntries depth fuel rest
      return (entry :: entries, rest)

def readEntry (depth : Nat) : (fuel : Nat) → Reader (Option String × Json)
  | 0 => fun _ => none
  | fuel + 1 => fun cs => do
    let ((), rest) ← readChar '"' cs
    let (key, rest) ← readText rest
    let ((), rest) ← readChar ':' rest
    let (value, rest) ← readValue depth fuel rest
    return ((key, value), rest)

end

/-- The value of a JSON text. Every step of the reader takes at most three calls and at least one
character. -/
def parse? (text : String) : Option Json :=
  let cs := text.toList
  match readValue maxDepth (3 * cs.length + 1) cs with
  | some (j, rest) => if (skipSpace rest).isEmpty then some j else none
  | none => none

end TypeHints.Json
