/-!
# Texts

Characters given by ranges of code points, blanks and how they are cut off, lines, and readers,
which take a value off the front of a text and leave the rest.
-/

namespace TypeHints.Text

/-! ## Ranges of code points -/

/-- Whether the code point of `c` lies in one of the inclusive ranges. -/
def inRanges (ranges : List (Nat × Nat)) (c : Char) : Bool :=
  ranges.any fun (first, last) => first ≤ c.toNat && c.toNat ≤ last

theorem inRanges_iff {ranges : List (Nat × Nat)} {c : Char} :
    inRanges ranges c = true ↔ ∃ r ∈ ranges, r.1 ≤ c.toNat ∧ c.toNat ≤ r.2 := by
  simp [inRanges]

/-! ## Blanks -/

/-- The ranges of the `White_Space` property. -/
def blankRanges : List (Nat × Nat) :=
  [(0x9, 0xd), (0x20, 0x20), (0x85, 0x85), (0xa0, 0xa0), (0x1680, 0x1680), (0x2000, 0x200a),
    (0x2028, 0x2029), (0x202f, 0x202f), (0x205f, 0x205f), (0x3000, 0x3000)]

/-- Whether a character is white space. -/
def isBlank : Char → Bool := inRanges blankRanges

/-- A text without the blanks at its two ends. -/
def trimChars (cs : List Char) : List Char :=
  ((cs.dropWhile isBlank).reverse.dropWhile isBlank).reverse

def trim (s : String) : String := String.ofList (trimChars s.toList)

@[simp] theorem toList_trim (s : String) : (trim s).toList = trimChars s.toList :=
  String.toList_ofList

example : trim "\t a b\u00a0\n" = "a b" := by decide

/-! ## Lines -/

/-- The lines of a text, without what ends them. A newline, alone or after a return, ends a line;
what follows the last newline is a line of its own unless it is empty. -/
def lineChars : List Char → List (List Char)
  | [] => []
  | '\n' :: cs => [] :: lineChars cs
  | '\r' :: '\n' :: cs => [] :: lineChars cs
  | c :: cs =>
    match lineChars cs with
    | [] => [[c]]
    | line :: lines => (c :: line) :: lines

def lines (s : String) : List String := (lineChars s.toList).map String.ofList

example : lines "one\ntwo\r\n\nthree\n" = ["one", "two", "", "three"] := by decide

/-! ## Readers -/

abbrev Reader (α : Type) := List Char → Option (α × List Char)

/-- Space, tab, return and newline, which stand between the tokens of a text. -/
def isSpace (c : Char) : Bool := c = ' ' || c = '\t' || c = '\r' || c = '\n'

/-- The text after the space at its front. -/
def skipSpace (cs : List Char) : List Char := cs.dropWhile isSpace

/-- The character `c`, after space. -/
def readChar (c : Char) : Reader Unit := fun cs =>
  match skipSpace cs with
  | c' :: rest => if c' = c then some ((), rest) else none
  | [] => none

/-- The number written by decimal digits. -/
def ofDigits (digits : List Char) : Nat :=
  digits.foldl (fun n c => 10 * n + (c.toNat - '0'.toNat)) 0

/-- Decimal digits, at least one, as many as there are. -/
def readDigits : Reader (List Char) := fun cs =>
  match cs.takeWhile Char.isDigit with
  | [] => none
  | digits => some (digits, cs.dropWhile Char.isDigit)

/-- Read on with `step` as often as it succeeds, at most `n` times. -/
def iterate {α : Type} (step : α → Reader α) : Nat → α → List Char → α × List Char
  | 0, a, cs => (a, cs)
  | n + 1, a, cs =>
    match step a cs with
    | some (a', rest) => iterate step n a' rest
    | none => (a, cs)

end TypeHints.Text
