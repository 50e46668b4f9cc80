import TypeHints.Text

/-!
# Annotation expressions

The small part of the analysed language in which annotations are written, and how deeply a text
nests brackets, which is read off its characters before it is parsed. A subscript that follows
another (`a[1][2]`) counts as one more level, until a comma or the enclosing bracket ends the chain;
what stands in quotes does not count.
-/

namespace TypeHints

inductive Expr where
  /-- A name, possibly dotted. -/
  | name (n : String)
  | str (s : String)
  | int (i : Int64)
  | tuple (items : List Expr)
  /-- `value[index]`; an index with commas is a tuple. -/
  | subscript (value index : Expr)

namespace Expr

/-! ## Equality -/

mutual

/-- Whether two expressions are equal. -/
def same : Expr → Expr → Bool
  | name n, name n' => n == n'
  | str s, str s' => s == s'
  | int i, int i' => i == i'
  | tuple es, tuple es' => sameAll es es'
  | subscript v i, subscript v' i' => v.same v' && i.same i'
  | _, _ => false
termination_by structural e => e

/-- Whether two lists of expressions are equal member by member. -/
def sameAll : List Expr → List Expr → Bool
  | [], [] => true
  | e :: es, e' :: es' => e.same e' && sameAll es es'
  | _, _ => false
termination_by structural es => es

end

mutual

theorem same_iff : ∀ e e' : Expr, e.same e' = true ↔ e = e'
  | name n, e' => by cases e' <;> simp [same]
  | str s, e' => by cases e' <;> simp [same]
  | int i, e' => by cases e' <;> simp [same]
  | tuple es, e' => by cases e' <;> simp [same, sameAll_iff es]
  | subscript v i, e' => by cases e' <;> simp [same, same_iff v, same_iff i]
termination_by structural e => e

theorem sameAll_iff : ∀ es es' : List Expr, sameAll es es' = true ↔ es = es'
  | [], es' => by cases es' <;> simp [sameAll]
  | e :: es, es' => by cases es' <;> simp [sameAll, same_iff e, sameAll_iff es]
termination_by structural es => es

end

-- Not derived, for no handler takes a type that stands inside its own lists.
instance : DecidableEq Expr := fun e e' => decidable_of_iff _ (same_iff e e')

/-! ## Nesting -/

/-- How deeply brackets and chained subscripts may nest. -/
def maxNesting : Nat := 32

/-- The state of a scan for nesting. -/
structure Nesting where
  /-- Subscripts chained so far, for every open bracket, the innermost first, and for the text
  outside all brackets. -/
  chains : List Nat := [0]
  /-- The sum of `chains`. -/
  chained : Nat := 0
  /-- The number of open brackets, one less than the length of `chains`. -/
  depth : Nat := 0
  deepest : Nat := 0
  /-- The quote that ends the string the scan is in. -/
  quote : Option Char := none
  /-- The character before, blanks and strings left out. -/
  prev : Char := ' '

namespace Nesting

/-- The innermost chain made one longer. -/
def chain (n : Nesting) : Nesting :=
  match n.chains with
  | [] => n
  | level :: outer => { n with chains := (level + 1) :: outer, chained := n.chained + 1 }

/-- The scan after an opening bracket. -/
def «open» (n : Nesting) (c : Char) : Nesting :=
  let n := if c = '[' ∧ n.prev = ']' then n.chain else n
  { n with
    chains := 0 :: n.chains
    depth := n.depth + 1
    deepest := max n.deepest (n.depth + 1 + n.chained) }

/-- The scan after a closing bracket; one that closes nothing changes nothing. -/
def close (n : Nesting) : Nesting :=
  match n.chains with
  | level :: next :: outer =>
    { n with chains := next :: outer, chained := n.chained - level, depth := n.depth - 1 }
  | _ => n

/-- The scan after a comma, which ends the innermost chain. -/
def comma (n : Nesting) : Nesting :=
  match n.chains with
  | [] => n
  | level :: outer => { n with chains := 0 :: outer, chained := n.chained - level }

/-- The scan after a character outside of strings, apart from `prev`. -/
def plain (n : Nesting) (c : Char) : Nesting :=
  if c = '\'' ∨ c = '"' then { n with quote := some c }
  else if c = '(' ∨ c = '[' then n.open c
  else if c = ')' ∨ c = ']' then n.close
  else if c = ',' then n.comma
  else n

/-- The scan after one more character. -/
def step (n : Nesting) (c : Char) : Nesting :=
  match n.quote with
  | some q => if c = q then { n with quote := none, prev := c } else n
  | none =>
    let n := n.plain c
    if Text.isBlank c then n else { n with prev := c }

def scan (cs : List Char) : Nesting := cs.foldl step {}

theorem scan_append (cs ds : List Char) : scan (cs ++ ds) = ds.foldl step (scan cs) :=
  List.foldl_append

end Nesting

/-- The deepest nesting of brackets in a text. -/
def nestingDepth (cs : List Char) : Nat := (Nesting.scan cs).deepest

example : nestingDepth "a[b, c['[[['][0]]".toList = 3 ∧ nestingDepth "]](".toList = 1 := by decide

end Expr

end TypeHints
