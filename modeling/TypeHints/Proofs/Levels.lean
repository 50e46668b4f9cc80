import TypeHints.Proofs.Nesting
import TypeHints.Proofs.Reading

/-!
# How deeply parsed expressions nest

The guard of the parser counts open brackets and the subscripts chained to one another, but it
forgets a chain when its bracket is closed. What is parsed can therefore nest deeper than the
guard allows, up to the triangular number of its limit (`parse_level_le`): a subscript that stands
behind a parenthesis begins a new chain (`parse_level_of_indexed_group`), and an index is not
counted with the subscripts behind it. Where neither happens the limit of the guard is that of
the expression.
-/

namespace TypeHints.Expr

open Text
open Nesting (Balanced)

/-! ## Levels -/

mutual

/-- How deeply subscripts nest, be it in the value or in the index. -/
def level : Expr → Nat
  | .name _ | .str _ | .int _ => 0
  | .tuple es => levelAll es
  | .subscript value index => max value.level index.level + 1

/-- The deepest level of several expressions. -/
def levelAll : List Expr → Nat
  | [] => 0
  | e :: es => max e.level (levelAll es)

end

theorem levelAll_le_iff {es : List Expr} {k : Nat} : levelAll es ≤ k ↔ ∀ e ∈ es, e.level ≤ k := by
  induction es with
  | nil => simp [levelAll]
  | cons e es ih => rw [levelAll, Nat.max_le, ih, List.forall_mem_cons]

/-- The index of a subscript nests no deeper than the value. -/
def IndexFits : Expr → Prop
  | .subscript value index => index.level ≤ value.level
  | _ => True

mutual

/-- Of the indexes in a chain of subscripts, only the last one nests deeper than its value. -/
def Tapered : Expr → Prop
  | .name _ | .str _ | .int _ => True
  | .tuple es => TaperedAll es
  | .subscript value index => value.Tapered ∧ value.IndexFits ∧ index.Tapered

/-- All of several expressions are tapered. -/
def TaperedAll : List Expr → Prop
  | [] => True
  | e :: es => e.Tapered ∧ TaperedAll es

end

theorem taperedAll_iff {es : List Expr} : TaperedAll es ↔ ∀ e ∈ es, e.Tapered := by
  induction es with
  | nil => simp [TaperedAll]
  | cons e es ih => rw [TaperedAll, ih, List.forall_mem_cons]

/-! ## Triangular numbers -/

/-- The sum of the numbers up to `n`. -/
def triangle (n : Nat) : Nat := n * (n + 1) / 2

theorem triangle_succ (n : Nat) : triangle (n + 1) = triangle n + (n + 1) := by
  have hmul : (n + 1) * (n + 1 + 1) = n * (n + 1) + (n + 1) * 2 := by
    simp only [Nat.mul_add, Nat.add_mul]
    omega
  unfold triangle
  rw [hmul, Nat.add_mul_div_right _ _ (by decide)]

theorem triangle_mono {m n : Nat} (h : m ≤ n) : triangle m ≤ triangle n :=
  Nat.div_le_div_right (Nat.mul_le_mul h (Nat.add_le_add_right h 1))

theorem triangle_pred_add_le {m n : Nat} (h : m ≤ n) : triangle (n - 1) + m ≤ triangle n := by
  cases n with
  | zero =>
    obtain rfl := Nat.le_zero.1 h
    exact le_rfl
  | succ n =>
    rw [triangle_succ, Nat.add_sub_cancel]
    omega

/-! ## Where an item begins and ends -/

namespace Nesting

/-- The levels that are open: brackets, and subscripts chained to one another. -/
def load (n : Nesting) : Nat := n.depth + n.chained

/-- `n'` has the outer chains of `n`, and its innermost chain is that of an item with `m`
subscripts that has just ended. -/
structure Behind (n : Nesting) (m : Nat) (n' : Nesting) : Prop where
  wellFormed : n'.WellFormed
  quote : n'.quote = none
  chains : n'.chains = (m - 1) :: n.chains.tail
  prev : n'.prev = ']' ↔ 0 < m

/-- An item may begin here: nothing is chained in the innermost bracket. -/
def Fresh (n : Nesting) : Prop := Behind n 0 n

section Scan

variable {n n' : Nesting} {m : Nat}

theorem Behind.depth (h : Behind n m n') (hn : n.Fresh) : n'.depth = n.depth := by
  obtain ⟨level, outer, hchains, -, hdepth⟩ := h.wellFormed.exists_chains
  obtain ⟨level', outer', hchains', -, hdepth'⟩ := hn.wellFormed.exists_chains
  have houter : outer = outer' := by
    have htail := (List.cons.inj (hchains.symm.trans h.chains)).2
    rw [hchains', List.tail_cons] at htail
    exact htail
  rw [hdepth, hdepth', houter]

theorem Behind.chained (h : Behind n m n') (hn : n.Fresh) :
    n'.chained = n.chained + (m - 1) := by
  rw [h.wellFormed.chained, hn.wellFormed.chained, h.chains, hn.chains, List.tail_cons,
    List.foldr_cons, List.foldr_cons]
  omega

theorem Behind.trans {k : Nat} {n'' : Nesting} (h : Behind n m n') (h' : Behind n' k n'') :
    Behind n k n'' where
  wellFormed := h'.wellFormed
  quote := h'.quote
  chains := by rw [h'.chains, h.chains, List.tail_cons]
  prev := h'.prev

/-- Where nothing is chained, the next item begins as the one before. -/
theorem Behind.fresh (hn : n.Fresh) (h : Behind n 0 n') : n'.Fresh ∧ n'.load = n.load := by
  refine ⟨⟨h.wellFormed, h.quote, ?_, h.prev⟩, ?_⟩
  · rw [h.chains, List.tail_cons]
  · unfold load
    rw [h.depth hn, h.chained hn]
    rfl

/-- Behind an opening bracket an item may begin, one level further in. -/
theorem fresh_of_open {o : Char} (hn : n.WellFormed) (hquote : n.quote = none)
    (ho : o = '(' ∨ o = '[') :
    (n.step o).Fresh ∧ (n.step o).load = n.load + n.link o + 1 ∧
      (n.step o).load ≤ (n.step o).deepest := by
  obtain ⟨level, outer, hchains, -, -⟩ := hn.exists_chains
  have hwell := hn.step o
  have hstep := step_of_open hquote ho hchains
  refine ⟨⟨hwell, ?_, ?_, ?_⟩, ?_, ?_⟩
  · rw [hstep]
  · rw [hstep]
    rfl
  · rw [hstep]
    rcases ho with rfl | rfl <;> simp
  · rw [hstep]
    simp only [load]
    omega
  · rw [hstep]
    simp only [load]
    omega

/-- A group is an item without subscripts. -/
theorem Behind.group (hn : n.Fresh) {os body cs : List Char} (ho : Mark '(' os)
    (hbody : Balanced body) (hc : Mark ')' cs) :
    Behind n 0 ((os ++ body ++ cs).foldl step n) ∧
      ((os ++ body ++ cs).foldl step n).prev = ')' := by
  have hlink : n.link '(' = 0 := by simp [link]
  obtain ⟨hquote, hchains, hprev⟩ := foldl_brackets hn.wellFormed hn.quote (.inl rfl) (.inl rfl) ho
    hbody hc hn.chains
  rw [hlink] at hchains
  refine ⟨⟨hn.wellFormed.foldl _, hquote, hchains, ?_⟩, hprev⟩
  rw [hprev]
  decide

/-- From the second subscript on, a subscript makes the chain one longer. -/
theorem Behind.link (h : Behind n m n') : m - 1 + n'.link '[' = m := by
  simp only [Nesting.link, h.prev, true_and]
  split <;> omega

theorem Behind.subscript (h : Behind n m n') {os body cs : List Char} (ho : Mark '[' os)
    (hbody : Balanced body) (hc : Mark ']' cs) :
    Behind n (m + 1) ((os ++ body ++ cs).foldl step n') := by
  obtain ⟨hquote, hchains, hprev⟩ := foldl_brackets h.wellFormed h.quote (.inr rfl) (.inr rfl) ho
    hbody hc h.chains
  rw [h.link] at hchains
  refine ⟨h.wellFormed.foldl _, hquote, hchains, ?_⟩
  rw [hprev]
  simp

/-- An index is one level further in than the chain in front of it. -/
theorem Behind.load_index (hn : n.Fresh) (h : Behind n m n') :
    (n'.step '[').Fresh ∧ (n'.step '[').load = n.load + m + 1 ∧
      n.load + m + 1 ≤ (n'.step '[').deepest := by
  obtain ⟨hfresh, hload, hdeep⟩ := fresh_of_open h.wellFormed h.quote (.inr rfl : '[' = '(' ∨ _)
  have hlink := h.link
  have heq : (n'.step '[').load = n.load + m + 1 := by
    rw [hload]
    unfold load
    rw [h.depth hn, h.chained hn]
    omega
  exact ⟨hfresh, heq, heq ▸ hdeep⟩

/-- A comma ends the chain. -/
theorem Behind.comma (h : Behind n m n') {cs : List Char} (hcs : Mark ',' cs) :
    Behind n 0 (cs.foldl step n') := by
  have hwell := h.wellFormed.step ','
  rw [foldl_mark h.quote hcs]
  rw [step_of_comma h.quote h.chains] at hwell ⊢
  exact ⟨hwell, h.quote, rfl, by simp⟩

/-- A text that the scan looks at nothing of ends no subscript. -/
theorem Behind.of_not_watched (hn : n.Fresh) {cs : List Char} (hcs : ∀ c ∈ cs, c ∉ watched) :
    Behind n 0 (cs.foldl step n) := by
  have hkeep : ∀ {n' : Nesting}, Behind n 0 n' → Behind n 0 (cs.foldl step n') := by
    induction cs with
    | nil => exact fun h => h
    | cons c cs ih =>
      obtain ⟨hc, hcs⟩ := List.forall_mem_cons.1 hcs
      intro n' h
      refine ih hcs ?_
      have hwell := h.wellFormed.step c
      rw [step_of_outside h.quote, plain_of_not_watched hc] at hwell ⊢
      refine ⟨hwell, h.quote, h.chains, ?_⟩
      dsimp only
      split
      · exact h.prev
      · have hne : c ≠ ']' := by
          rintro rfl
          exact hc (by decide)
        simp [hne]
  exact hkeep hn

end Scan

end Nesting

theorem IsLiteral.behind {cs : List Char} {e : Expr} (h : IsLiteral cs e) {n : Nesting}
    (hn : n.Fresh) : Nesting.Behind n 0 (cs.foldl Nesting.step n) := by
  obtain ⟨q, body, hq, hbody, rfl⟩ | hcs := h.string_or_not_watched
  · have hne : q ≠ ']' := by rcases hq with rfl | rfl <;> decide
    have hwell := hn.wellFormed.foldl (q :: (body ++ [q]))
    rw [Nesting.foldl_string hn.quote hq hbody] at hwell ⊢
    exact ⟨hwell, rfl, hn.chains, by simp [hne]⟩
  · exact .of_not_watched hn hcs

theorem IsLiteral.level_eq {cs : List Char} {e : Expr} (h : IsLiteral cs e) : e.level = 0 := by
  cases h <;> rfl

/-! ## Subscripts of parentheses -/

/-- In a text that is scanned from `n`, no subscript stands right behind a parenthesis. -/
def Nesting.Direct (n : Nesting) : List Char → Prop
  | [] => True
  | c :: cs => (c = '[' → n.quote = none → n.prev ≠ ')') ∧ (n.step c).Direct cs

instance Nesting.decidableDirect : ∀ (n : Nesting) (cs : List Char), Decidable (n.Direct cs)
  | _, [] => isTrue trivial
  | n, c :: cs =>
    have := decidableDirect (n.step c) cs
    inferInstanceAs (Decidable ((c = '[' → n.quote = none → n.prev ≠ ')') ∧ (n.step c).Direct cs))

theorem Nesting.direct_append {n : Nesting} {cs ds : List Char} :
    n.Direct (cs ++ ds) ↔ n.Direct cs ∧ (cs.foldl step n).Direct ds := by
  induction cs generalizing n with
  | nil => simp [Direct]
  | cons c cs ih => rw [List.cons_append, Direct, Direct, ih, List.foldl_cons, and_assoc]

/-! ## Bounds along the grammar -/

open Nesting (Behind)

/-- What an expression that is scanned from `n` nests if the scan reaches the depth `limit`. -/
structure Bounded (n : Nesting) (limit : Nat) (cs : List Char) (e : Expr) : Prop where
  level_le : e.level ≤ triangle (limit - n.load)
  level_le_of_direct : n.Direct cs → e.Tapered → e.level ≤ limit - n.load

/-- The same of an item with `m` subscripts: its chain is counted as a whole. -/
structure BoundedItem (n : Nesting) (limit m : Nat) (cs : List Char) (e : Expr) : Prop where
  behind : Behind n m (cs.foldl Nesting.step n)
  le : m ≤ limit - n.load
  level_le : e.level ≤ triangle (limit - n.load - 1) + m
  level_le_of_direct : n.Direct cs → e.Tapered → e.level ≤ limit - n.load
  level_le_of_fits : n.Direct cs → e.Tapered → e.IndexFits →
    (cs.foldl Nesting.step n).prev ≠ ')' → e.level ≤ m

section Bounded

variable {n : Nesting} {limit m : Nat} {cs : List Char} {e : Expr}

theorem BoundedItem.bounded (h : BoundedItem n limit m cs e) : Bounded n limit cs e where
  level_le := h.level_le.trans (triangle_pred_add_le h.le)
  level_le_of_direct := h.level_le_of_direct

theorem BoundedItem.of_isLiteral {ws : List Char} (hn : n.Fresh) (hws : IsSpaces ws)
    (h : IsLiteral cs e) : BoundedItem n limit 0 (ws ++ cs) e := by
  have hlevel := h.level_eq
  refine ⟨?_, Nat.zero_le _, by omega, fun _ _ => by omega, fun _ _ _ _ => by omega⟩
  rw [List.foldl_append, Nesting.foldl_step_of_isSpaces hn.quote hws]
  exact h.behind hn

/-- Parentheses take a level, and the scan forgets the chain of what stands inside. -/
theorem BoundedItem.of_group {os body : List Char} (hn : n.Fresh) (ho : Mark '(' os)
    (hbody : Balanced body) (hc : Mark ')' cs)
    (hlimit : ((os ++ body ++ cs).foldl Nesting.step n).deepest ≤ limit)
    (hbound : ∀ n : Nesting, n.Fresh → (body.foldl Nesting.step n).deepest ≤ limit →
      Bounded n limit body e) :
    BoundedItem n limit 0 (os ++ body ++ cs) e := by
  obtain ⟨hbehind, hprev⟩ := Behind.group hn ho hbody hc
  obtain ⟨hfresh, hload, -⟩ :=
    Nesting.fresh_of_open hn.wellFormed hn.quote (.inl rfl : '(' = '(' ∨ _)
  have hlink : n.link '(' = 0 := by simp [Nesting.link]
  have hopen := Nesting.foldl_mark hn.quote ho
  rw [List.foldl_append, List.foldl_append, hopen] at hlimit
  have hinside := hbound _ hfresh ((Nesting.deepest_le_foldl _ _).trans hlimit)
  have hlevel := hinside.level_le
  rw [hload, hlink] at hlevel
  refine ⟨hbehind, Nat.zero_le _, hlevel, ?_, fun _ _ _ hne => absurd hprev hne⟩
  intro hdirect htapered
  have hdirect' := (Nesting.direct_append.1 (Nesting.direct_append.1 hdirect).1).2
  rw [hopen] at hdirect'
  have := hinside.level_le_of_direct hdirect' htapered
  omega

/-- A subscript makes the chain longer, and its index is one level further in than the chain. -/
theorem BoundedItem.of_subscript {os body ds : List Char} {index : Expr} (hn : n.Fresh)
    (h : BoundedItem n limit m cs e) (ho : Mark '[' os) (hbody : Balanced body) (hc : Mark ']' ds)
    (hlimit : ((cs ++ (os ++ body ++ ds)).foldl Nesting.step n).deepest ≤ limit)
    (hbound : ∀ n : Nesting, n.Fresh → (body.foldl Nesting.step n).deepest ≤ limit →
      Bounded n limit body index) :
    BoundedItem n limit (m + 1) (cs ++ (os ++ body ++ ds)) (.subscript e index) := by
  obtain ⟨hfresh, hload, hdeep⟩ := Behind.load_index hn h.behind
  have hopen := Nesting.foldl_mark h.behind.quote ho
  rw [List.foldl_append, List.foldl_append, List.foldl_append, hopen] at hlimit
  have hlimit' := (Nesting.deepest_le_foldl _ _).trans hlimit
  have hle : n.load + m + 1 ≤ limit := hdeep.trans ((Nesting.deepest_le_foldl _ _).trans hlimit')
  have hindex := hbound _ hfresh hlimit'
  have hlevel : (Expr.subscript e index).level = max e.level index.level + 1 := rfl
  have hvalue : n.Direct (cs ++ (os ++ body ++ ds)) → (Expr.subscript e index).Tapered →
      e.level ≤ m := by
    rintro hdirect ⟨htapered, hfits, -⟩
    obtain ⟨hdirect', hbrackets⟩ := Nesting.direct_append.1 hdirect
    -- the bracket stands behind what the value ends with
    obtain ⟨ws, hws, rfl⟩ := ho
    have hopen := (Nesting.direct_append.1 (Nesting.direct_append.1
      (Nesting.direct_append.1 hbrackets).1).1).2
    rw [Nesting.foldl_step_of_isSpaces h.behind.quote hws] at hopen
    exact h.level_le_of_fits hdirect' htapered hfits (hopen.1 rfl h.behind.quote)
  refine ⟨?_, by omega, ?_, ?_, ?_⟩
  · rw [List.foldl_append]
    exact h.behind.subscript ho hbody hc
  · have hvalue := h.level_le
    have hlevelIndex := hindex.level_le
    have hmono : triangle (limit - (n.load + m + 1)) ≤ triangle (limit - n.load - 1) :=
      triangle_mono (by omega)
    rw [hload] at hlevelIndex
    omega
  · intro hdirect htapered
    have hdirect' := (Nesting.direct_append.1
      (Nesting.direct_append.1 (Nesting.direct_append.1 hdirect).2).1).2
    rw [hopen] at hdirect'
    have := hvalue hdirect htapered
    have := hindex.level_le_of_direct hdirect' htapered.2.2
    omega
  · intro hdirect htapered hfits _
    have := hvalue hdirect htapered
    have hfits' : index.level ≤ e.level := hfits
    omega

theorem Bounded.tuple_singleton (h : Bounded n limit cs e) : Bounded n limit cs (.tuple [e]) where
  level_le := levelAll_le_iff.2 (by simpa using h.level_le)
  level_le_of_direct hdirect htapered :=
    levelAll_le_iff.2 (by simpa using h.level_le_of_direct hdirect htapered.1)

/-- The elements of a tuple do not nest in one another. -/
theorem Bounded.tuple_snoc {comma ds : List Char} {es : List Expr}
    (hes : Bounded n limit cs (.tuple es))
    (hload : (comma.foldl Nesting.step (cs.foldl Nesting.step n)).load = n.load)
    (he : Bounded (comma.foldl Nesting.step (cs.foldl Nesting.step n)) limit ds e) :
    Bounded n limit (cs ++ (comma ++ ds)) (.tuple (es ++ [e])) where
  level_le := by
    have hlevel := he.level_le
    rw [hload] at hlevel
    exact levelAll_le_iff.2 (List.forall_mem_append.2
      ⟨levelAll_le_iff.1 hes.level_le, by simpa using hlevel⟩)
  level_le_of_direct hdirect htapered := by
    obtain ⟨htapered, hlast⟩ := List.forall_mem_append.1 (taperedAll_iff.1 htapered)
    obtain ⟨hdirect, hdirect'⟩ := Nesting.direct_append.1 hdirect
    have hlevel := he.level_le_of_direct (Nesting.direct_append.1 hdirect').2
      (hlast e (List.mem_singleton_self e))
    rw [hload] at hlevel
    have hlevels := hes.level_le_of_direct hdirect (taperedAll_iff.2 htapered)
    exact levelAll_le_iff.2 (List.forall_mem_append.2
      ⟨levelAll_le_iff.1 hlevels, by simpa using hlevel⟩)

end Bounded

mutual

theorem IsAtom.bounded : ∀ {cs : List Char} {e : Expr}, IsAtom cs e → ∀ {n : Nesting}
    {limit : Nat}, n.Fresh → (cs.foldl Nesting.step n).deepest ≤ limit →
      BoundedItem n limit 0 cs e
  | _, _, .literal hws h, _, _, hn, _ => .of_isLiteral hn hws h
  | _, _, .unit ho hc, n, limit, hn, hlimit => by
    have hnil : ∀ n : Nesting, Bounded n limit [] (.tuple []) := fun n =>
      ⟨Nat.zero_le _, fun _ _ => Nat.zero_le _⟩
    have hbalanced : Balanced [] := .nil
    have h := BoundedItem.of_group hn ho hbalanced hc (by rwa [List.append_nil])
      fun n _ _ => hnil n
    rwa [List.append_nil] at h
  | _, _, .group ho h hc, _, _, hn, hlimit =>
    .of_group hn ho h.balanced hc hlimit fun _ => h.bounded

theorem IsItem.bounded : ∀ {cs : List Char} {e : Expr}, IsItem cs e → ∀ {n : Nesting}
    {limit : Nat}, n.Fresh → (cs.foldl Nesting.step n).deepest ≤ limit →
      ∃ m, BoundedItem n limit m cs e
  | _, _, .atom h, _, _, hn, hlimit => ⟨0, h.bounded hn hlimit⟩
  | _, _, .subscript h ho hindex hc, _, _, hn, hlimit => by
    have hleft := hlimit
    rw [List.foldl_append] at hleft
    obtain ⟨m, hm⟩ := h.bounded hn ((Nesting.deepest_le_foldl _ _).trans hleft)
    exact ⟨m + 1, hm.of_subscript hn ho hindex.balanced hc hlimit fun _ => hindex.bounded⟩

theorem IsItems.bounded : ∀ {cs : List Char} {es : List Expr}, IsItems cs es → ∀ {n : Nesting}
    {limit : Nat}, n.Fresh → (cs.foldl Nesting.step n).deepest ≤ limit →
      (∃ m, Behind n m (cs.foldl Nesting.step n)) ∧ Bounded n limit cs (.tuple es)
  | _, _, .single h, _, _, hn, hlimit => by
    obtain ⟨m, hm⟩ := h.bounded hn hlimit
    exact ⟨⟨m, hm.behind⟩, hm.bounded.tuple_singleton⟩
  | _, _, .snoc h hcomma he, n, limit, hn, hlimit => by
    rw [List.foldl_append, List.foldl_append] at hlimit
    obtain ⟨⟨m, hm⟩, hes⟩ := h.bounded hn ((Nesting.deepest_le_foldl _ _).trans
      ((Nesting.deepest_le_foldl _ _).trans hlimit))
    have hbehind := hm.comma hcomma
    obtain ⟨hfresh, hload⟩ := hbehind.fresh hn
    obtain ⟨m', hm'⟩ := he.bounded hfresh hlimit
    refine ⟨⟨m', ?_⟩, hes.tuple_snoc hload hm'.bounded⟩
    rw [List.foldl_append, List.foldl_append]
    exact hbehind.trans hm'.behind

theorem IsExpr.bounded : ∀ {cs : List Char} {e : Expr}, IsExpr cs e → ∀ {n : Nesting}
    {limit : Nat}, n.Fresh → (cs.foldl Nesting.step n).deepest ≤ limit → Bounded n limit cs e
  | _, _, .item h, _, _, hn, hlimit => by
    obtain ⟨m, hm⟩ := h.bounded hn hlimit
    exact hm.bounded
  | _, _, .tuple h _, _, _, hn, hlimit => (h.bounded hn hlimit).2
  | _, _, .trailing h hcomma, _, _, hn, hlimit => by
    rw [List.foldl_append] at hlimit
    have hes := (h.bounded hn ((Nesting.deepest_le_foldl _ _).trans hlimit)).2
    exact ⟨hes.level_le, fun hdirect =>
      hes.level_le_of_direct (Nesting.direct_append.1 hdirect).1⟩

end

/-! ## Texts -/

theorem IsExpr.bounded_of_nestingDepth {cs : List Char} {e : Expr} (h : IsExpr cs e) :
    Bounded {} (nestingDepth cs) cs e :=
  h.bounded ⟨⟨rfl, rfl⟩, rfl, rfl, by decide⟩ le_rfl

/-- **How deeply a parsed expression nests.** It is at most the triangular number of the limit
of the guard. If no subscript stands behind a parenthesis and, in every chain of subscripts, only
the last index nests deeper than its value, it is at most the limit. -/
theorem parse_level_le {source : String} {e : Expr} (h : parse source = .ok e) :
    e.level ≤ maxNesting * (maxNesting + 1) / 2 ∧
      (Nesting.Direct {} (trimChars source.toList) → e.Tapered → e.level ≤ maxNesting) := by
  obtain ⟨-, hdepth, hexpr⟩ :=
    (parseChars_eq_ok_iff (not_isBlank_of_getLast?_trimChars _)).1 h
  have hbound := hexpr.bounded_of_nestingDepth
  exact ⟨hbound.level_le.trans (triangle_mono hdepth),
    fun hdirect htapered => (hbound.level_le_of_direct hdirect htapered).trans hdepth⟩

/-- Two levels of subscripts, one inside of the other. -/
theorem parse_level_le_of_dict :
    parse "Dict[str, List[int]]" = .ok (.subscript (.name "Dict")
        (.tuple [.name "str", .subscript (.name "List") (.name "int")])) ∧
      Nesting.Direct {} (trimChars "Dict[str, List[int]]".toList) ∧
      (Expr.subscript (.name "Dict")
        (.tuple [.name "str", .subscript (.name "List") (.name "int")])).Tapered ∧
      (Expr.subscript (.name "Dict")
        (.tuple [.name "str", .subscript (.name "List") (.name "int")])).level ≤ maxNesting := by
  have hparse : parse "Dict[str, List[int]]" = .ok (.subscript (.name "Dict")
      (.tuple [.name "str", .subscript (.name "List") (.name "int")])) := by decide +kernel
  have hdirect : Nesting.Direct {} (trimChars "Dict[str, List[int]]".toList) := by decide
  have htapered : (Expr.subscript (.name "Dict")
      (.tuple [.name "str", .subscript (.name "List") (.name "int")])).Tapered := by
    simp [Tapered, TaperedAll, IndexFits]
  exact ⟨hparse, hdirect, htapered, (parse_level_le hparse).2 hdirect htapered⟩

/-- `e` with `k` subscripts. -/
def subscripts (e : Expr) : Nat → Expr
  | 0 => e
  | k + 1 => .subscript (e.subscripts k) (.int 0)

theorem level_subscripts (e : Expr) (k : Nat) : (e.subscripts k).level = e.level + k := by
  induction k with
  | zero => rfl
  | succ k ih =>
    rw [subscripts, level, ih, level, Nat.max_zero]
    rfl

/-- A text with `k` subscripts behind it. -/
def subscriptsText (text : String) : Nat → String
  | 0 => text
  | k + 1 => subscriptsText text k ++ "[0]"

/-- A subscript in parentheses and 32 behind them pass the guard and nest 33 levels deep; without
the parentheses the same subscripts are too nested. -/
theorem parse_level_of_indexed_group :
    parse (subscriptsText "(a[0])" 32) = .ok ((Expr.name "a").subscripts 33) ∧
      maxNesting < ((Expr.name "a").subscripts 33).level ∧
      parse (subscriptsText "a" 33) = .error .tooNested := by
  refine ⟨by decide +kernel, ?_, by decide +kernel⟩
  rw [level_subscripts]
  decide

end TypeHints.Expr
