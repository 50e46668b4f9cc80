import TypeHints.Expr
import TypeHints.Text
import TypeHints.Text.Alphanumeric

/-!
# Reading annotation expressions

```text
expr := item ("," item)* [","]
item := atom ("[" expr "]")*
atom := string | integer | name | "(" [expr] ")"
```

Space, tab and line ends may stand between tokens. A comma makes a tuple, `()` is the empty one.
A reader takes what it can off the front of a text and leaves the rest; `parse` wants nothing
left. `readExpr` counts how many brackets it may still open inside one another; a text opens no
more than it has characters, which is the room that `read` gives.
-/

namespace TypeHints

/-- Why a text is no annotation expression. -/
inductive CompileError where
  | empty
  | tooNested
  /-- Reading stopped at a byte offset of the text. -/
  | invalid (text : String) (offset : Nat)
  /-- Statements were asked for. -/
  | statements
deriving DecidableEq, Repr

namespace CompileError

def message : CompileError → String
  | empty => "empty expression"
  | tooNested => "too many nested brackets"
  | invalid text offset => "invalid syntax in '" ++ text ++ "' at offset " ++ toString offset
  | statements => "only single expressions can be compiled"

end CompileError

namespace Expr

open Text (Reader iterate readChar readDigits ofDigits skipSpace)

/-! ## Tokens -/

/-- Whether a name may begin with the character. -/
def isNameStart (c : Char) : Bool := Text.isAlphabetic c || c = '_'

/-- Whether a name may go on with the character. -/
def isNameChar (c : Char) : Bool := Text.isAlphanumeric c || c = '_' || c = '.'

/-- A name, as long as it goes on. -/
def readName : Reader String
  | [] => none
  | c :: cs =>
    if isNameStart c then
      some (String.ofList (c :: cs.takeWhile isNameChar), cs.dropWhile isNameChar)
    else none

/-- An integer of 64 bits with this value, if there is one. -/
def toInt64? (i : Int) : Option Int64 :=
  if Int64.minValue.toInt ≤ i ∧ i ≤ Int64.maxValue.toInt then some (.ofInt i) else none

/-- An integer, with a minus sign or without. One that needs more than 64 bits is none. -/
def readInt : Reader Int64
  | '-' :: cs => do
    let (digits, rest) ← readDigits cs
    return (← toInt64? (-ofDigits digits), rest)
  | cs => do
    let (digits, rest) ← readDigits cs
    return (← toInt64? (ofDigits digits), rest)

/-- What stands before the next quote `q`. -/
def readUntil (q : Char) : Reader String := fun cs =>
  match cs.dropWhile (· != q) with
  | [] => none
  | _ :: rest => some (String.ofList (cs.takeWhile (· != q)), rest)

/-- A string in either quotes, without escapes. -/
def readString : Reader String
  | [] => none
  | c :: cs => if c = '"' ∨ c = '\'' then readUntil c cs else none

/-! ## Expressions -/

/-- What follows an opening parenthesis: an expression or nothing, and the closing one. -/
def readGroup (expr : Reader Expr) : Reader Expr := fun cs => do
  let cs := skipSpace cs
  let (e, rest) := (expr cs).getD (.tuple [], cs)
  let ((), rest) ← readChar ')' rest
  return (e, rest)

/-- A string, an integer or a name. -/
def readLiteral : Reader Expr := fun cs =>
  ((readString cs).map fun (s, rest) => (.str s, rest)) <|>
    ((readInt cs).map fun (i, rest) => (.int i, rest)) <|>
    ((readName cs).map fun (n, rest) => (.name n, rest))

/-- An atom, after space. In `inner?` is what reads inside of brackets, if they may be opened. -/
def readAtom (inner? : Option (Reader Expr)) : Reader Expr := fun cs =>
  match inner?, skipSpace cs with
  | some inner, '(' :: rest => readGroup inner rest
  | _, cs => readLiteral cs

/-- A subscript of `value`, after space. -/
def readIndex (inner? : Option (Reader Expr)) (value : Expr) : Reader Expr := fun cs => do
  let inner ← inner?
  let ((), rest) ← readChar '[' cs
  let (index, rest) ← inner (skipSpace rest)
  let ((), rest) ← readChar ']' rest
  return (.subscript value index, rest)

/-- An atom and its subscripts, of which there are at most `steps`. -/
def readItem (steps : Nat) (inner? : Option (Reader Expr)) : Reader Expr := fun cs => do
  let (atom, rest) ← readAtom inner? cs
  return iterate (readIndex inner?) steps atom rest

/-- A comma, after space, and one more item in front of the `items` before it. -/
def readNextItem (steps : Nat) (inner? : Option (Reader Expr)) (items : List Expr) :
    Reader (List Expr) := fun cs => do
  let ((), rest) ← readChar ',' cs
  let (item, rest) ← readItem steps inner? rest
  return (item :: items, rest)

/-- Items between commas, a last comma, and the expression they make: without a comma the one
item, else a tuple. -/
def readItems (steps : Nat) (inner? : Option (Reader Expr)) : Reader Expr := fun cs => do
  let (first, rest) ← readItem steps inner? cs
  let (items, rest) := iterate (readNextItem steps inner?) steps [first] rest
  match readChar ',' rest, items with
  | some ((), rest), _ => return (.tuple items.reverse, rest)
  | none, [_] => return (first, rest)
  | none, _ => return (.tuple items.reverse, rest)

/-- An expression that opens at most `room` brackets inside one another. No item has more than
`steps` subscripts, and no tuple more than that many commas. -/
def readExpr (steps : Nat) : (room : Nat) → Reader Expr
  | 0 => readItems steps none
  | room + 1 => readItems steps (some (readExpr steps room))

/-- An expression without a limit: a text has no more brackets and commas than characters. -/
def read : Reader Expr := fun cs => readExpr cs.length cs.length cs

/-! ## Texts -/

/-- The number of bytes that a text takes. -/
def byteLength : List Char → Nat
  | [] => 0
  | c :: cs => c.utf8Size + byteLength cs

/-- The whole of a text without blanks at its ends, as an expression. Where it is none, the
offset is that of the first character that could not be read on, or 0 if there is no item at
the front. -/
def parseChars (cs : List Char) : Except CompileError Expr :=
  if cs.isEmpty then .error .empty
  else if maxNesting < nestingDepth cs then .error .tooNested
  else
    match read cs with
    | none => .error (.invalid (String.ofList cs) 0)
    | some (e, rest) =>
      match skipSpace rest with
      | [] => .ok e
      | rest => .error (.invalid (String.ofList cs) (byteLength cs - byteLength rest))

/-- The expression that a text stands for. -/
def parse (source : String) : Except CompileError Expr := parseChars (Text.trimChars source.toList)

end Expr

/-- What a text is compiled as. -/
inductive CompileMode where
  | expression
  | statements
deriving DecidableEq, Repr

/-- The expression that a text stands for, when expressions are asked for. -/
def compile (source : String) : CompileMode → Except CompileError Expr
  | .expression => Expr.parse source
  | .statements => .error .statements

end TypeHints
