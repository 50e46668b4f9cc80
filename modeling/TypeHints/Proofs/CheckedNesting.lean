import Mathlib.Algebra.GroupWithZero.Nat
import Mathlib.Data.Nat.PSub
import TypeHints.Proofs.Nesting

/-!
# Counting without falling below zero

The scan for nesting takes numbers off its counters whenever a bracket closes or a comma ends a
chain, in whatever order a text has them. Natural numbers stop at zero, so a subtraction of too
much would not show. A second scan makes it show: it fails as soon as one of its subtractions
would (`Nesting.scan?`). It never does, because the counters are what the chains add up to
(`Nesting.scan_never_underflows`).
-/

namespace TypeHints.Expr.Nesting

/-! ## A scan that may fail -/

/-- One more bracket is open. How many there are is counted from the chains, of which one stands
outside of all brackets. -/
def push? (n : Nesting) : Option Nesting := do
  let chains := 0 :: n.chains
  let depth ← chains.length.psub 1
  return { n with
    chains := chains
    depth := depth
    deepest := max n.deepest (depth + n.chained) }

/-- `open`, unless a counter falls below zero. -/
def open? (n : Nesting) (c : Char) : Option Nesting :=
  push? (if c = '[' ∧ n.prev = ']' then n.chain else n)

/-- `close`, unless a counter falls below zero. -/
def close? (n : Nesting) : Option Nesting :=
  match n.chains with
  | level :: next :: outer => do
    return { n with
      chains := next :: outer
      chained := ← n.chained.psub level
      depth := ← n.depth.psub 1 }
  | _ => some n

/-- `comma`, unless a counter falls below zero. -/
def comma? (n : Nesting) : Option Nesting :=
  match n.chains with
  | [] => some n
  | level :: outer => return { n with chains := 0 :: outer, chained := ← n.chained.psub level }

example : comma? { chains := [1] } = none := rfl

/-- `plain`, unless a counter falls below zero. -/
def plain? (n : Nesting) (c : Char) : Option Nesting :=
  if c = '\'' ∨ c = '"' then some { n with quote := some c }
  else if c = '(' ∨ c = '[' then n.open? c
  else if c = ')' ∨ c = ']' then n.close?
  else if c = ',' then n.comma?
  else some n

/-- `step`, unless a counter falls below zero. -/
def step? (n : Nesting) (c : Char) : Option Nesting :=
  match n.quote with
  | some q => some (if c = q then { n with quote := none, prev := c } else n)
  | none => do
    let n ← n.plain? c
    return if Text.isBlank c then n else { n with prev := c }

/-- `scan`, unless a counter falls below zero on the way. -/
def scan? (cs : List Char) : Option Nesting := cs.foldlM step? {}

/-! ## It never fails -/

section Steps

variable {n : Nesting}

theorem WellFormed.push?_eq (h : n.WellFormed) :
    n.push? = some { n with
      chains := 0 :: n.chains
      depth := n.depth + 1
      deepest := max n.deepest (n.depth + 1 + n.chained) } := by
  have hdepth : (0 :: n.chains).length.psub 1 = some (n.depth + 1) := by
    rw [List.length_cons, ← h.depth]
    rfl
  simp only [push?, hdepth]
  rfl

theorem WellFormed.open?_eq (h : n.WellFormed) (c : Char) : n.open? c = some (n.open c) := by
  unfold open? Nesting.open
  split
  · exact h.chain.push?_eq
  · exact h.push?_eq

theorem WellFormed.close?_eq (h : n.WellFormed) : n.close? = some n.close := by
  obtain ⟨level, outer, hchains, hchained, hdepth⟩ := h.exists_chains
  unfold close? close
  rw [hchains]
  cases outer with
  | nil => rfl
  | cons next outer =>
    rw [List.length_cons] at hdepth
    have hlevel : n.chained.psub level = some (n.chained - level) :=
      Nat.psub_eq_sub (by omega)
    have hone : n.depth.psub 1 = some (n.depth - 1) := Nat.psub_eq_sub (by omega)
    simp only [hlevel, hone]
    rfl

theorem WellFormed.comma?_eq (h : n.WellFormed) : n.comma? = some n.comma := by
  obtain ⟨level, outer, hchains, hchained, -⟩ := h.exists_chains
  have hlevel : n.chained.psub level = some (n.chained - level) := Nat.psub_eq_sub (by omega)
  unfold comma? comma
  rw [hchains]
  simp only [hlevel]
  rfl

theorem WellFormed.plain?_eq (h : n.WellFormed) (c : Char) : n.plain? c = some (n.plain c) := by
  unfold plain? plain
  rw [h.open?_eq, h.close?_eq, h.comma?_eq]
  repeat' split
  all_goals rfl

theorem WellFormed.step?_eq (h : n.WellFormed) (c : Char) : n.step? c = some (n.step c) := by
  unfold step? step
  rw [h.plain?_eq]
  cases n.quote <;> rfl

end Steps

/-- From where the counters fit the chains, no text makes the scan fail. -/
theorem WellFormed.foldlM_step? {n : Nesting} (h : n.WellFormed) (cs : List Char) :
    cs.foldlM step? n = some (cs.foldl step n) := by
  induction cs generalizing n with
  | nil => rfl
  | cons c cs ih =>
    rw [List.foldlM_cons, h.step?_eq]
    exact ih (h.step c)

/-- **The scan never falls below zero.** Whatever the text, wherever the scan is in it there is a
chain, and the counter is the sum of the chains; so the scan that fails when a subtraction falls
below zero ends as the scan does. And a text that goes on nests no less deeply. -/
theorem scan_never_underflows (cs : List Char) :
    (∀ k, (scan (cs.take k)).chains ≠ [] ∧
        (scan (cs.take k)).chained = (scan (cs.take k)).chains.sum) ∧
      scan? cs = some (scan cs) ∧
      ∀ ds, nestingDepth cs ≤ nestingDepth (cs ++ ds) := by
  have hstart : WellFormed {} := ⟨rfl, rfl⟩
  refine ⟨fun k => ?_, hstart.foldlM_step? cs, nestingDepth_le_append cs⟩
  have hwell := WellFormed.scan (cs.take k)
  obtain ⟨level, outer, hchains, -, -⟩ := hwell.exists_chains
  exact ⟨by simp [hchains], hwell.chained⟩

end TypeHints.Expr.Nesting
