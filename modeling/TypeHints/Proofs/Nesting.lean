import TypeHints.Proofs.Grammar

/-!
# The scan for nesting

The scan keeps the sum of its chains and the number of open brackets (`Nesting.WellFormed`). An
expression is `Balanced`: whatever the state, the scan comes out of it at the same depth with the
outer chains as they were (`IsExpr.balanced`). A comma outside all brackets therefore starts the
scan afresh, and the parts of a text between such commas nest on their own
(`nestingDepth_append_comma`).
-/

namespace TypeHints.Expr

open Text

namespace Nesting

/-! ## Bookkeeping -/

/-- The counts of the scan fit its chains. -/
structure WellFormed (n : Nesting) : Prop where
  chained : n.chained = n.chains.foldr (· + ·) 0
  depth : n.depth + 1 = n.chains.length

namespace WellFormed

variable {n : Nesting}

theorem of_chains {level : Nat} {outer : List Nat} (hchains : n.chains = level :: outer)
    (hchained : n.chained = level + outer.foldr (· + ·) 0) (hdepth : n.depth = outer.length) :
    n.WellFormed where
  chained := by rw [hchained, hchains, List.foldr_cons]
  depth := by rw [hdepth, hchains, List.length_cons]

/-- There is an innermost chain, and the others make up for the rest of the counts. -/
theorem exists_chains (h : n.WellFormed) : ∃ level outer, n.chains = level :: outer ∧
    n.chained = level + outer.foldr (· + ·) 0 ∧ n.depth = outer.length := by
  have hchained := h.chained
  have hdepth := h.depth
  cases hn : n.chains with
  | nil => simp [hn] at hdepth
  | cons level outer =>
    rw [hn, List.foldr_cons] at hchained
    rw [hn, List.length_cons] at hdepth
    exact ⟨level, outer, rfl, hchained, by omega⟩

protected theorem chain (h : n.WellFormed) : n.chain.WellFormed := by
  obtain ⟨level, outer, hchains, hchained, hdepth⟩ := h.exists_chains
  unfold Nesting.chain
  rw [hchains]
  refine of_chains rfl ?_ hdepth
  dsimp only
  omega

protected theorem «open» (h : n.WellFormed) (c : Char) : (n.open c).WellFormed := by
  have hpush : ∀ {m : Nesting}, m.WellFormed → ∀ deepest,
      WellFormed { m with chains := 0 :: m.chains, depth := m.depth + 1, deepest := deepest } :=
    fun hm deepest => of_chains rfl (by rw [Nat.zero_add]; exact hm.chained) hm.depth
  unfold Nesting.open
  split
  · exact hpush h.chain _
  · exact hpush h _

protected theorem close (h : n.WellFormed) : n.close.WellFormed := by
  obtain ⟨level, outer, hchains, hchained, hdepth⟩ := h.exists_chains
  unfold Nesting.close
  rw [hchains]
  cases outer with
  | nil => exact h
  | cons next outer =>
    rw [List.foldr_cons] at hchained
    rw [List.length_cons] at hdepth
    refine of_chains rfl ?_ ?_
    · dsimp only
      omega
    · dsimp only
      omega

protected theorem comma (h : n.WellFormed) : n.comma.WellFormed := by
  obtain ⟨level, outer, hchains, hchained, hdepth⟩ := h.exists_chains
  unfold Nesting.comma
  rw [hchains]
  refine of_chains rfl ?_ hdepth
  dsimp only
  omega

protected theorem plain (h : n.WellFormed) (c : Char) : (n.plain c).WellFormed := by
  unfold Nesting.plain
  split
  · exact ⟨h.chained, h.depth⟩
  split
  · exact h.open c
  split
  · exact h.close
  split
  · exact h.comma
  · exact h

protected theorem step (h : n.WellFormed) (c : Char) : (n.step c).WellFormed := by
  unfold Nesting.step
  split
  · split
    · exact ⟨h.chained, h.depth⟩
    · exact h
  · have hplain := h.plain c
    split
    · exact hplain
    · exact ⟨hplain.chained, hplain.depth⟩

theorem foldl (h : n.WellFormed) (cs : List Char) : (cs.foldl Nesting.step n).WellFormed := by
  induction cs generalizing n with
  | nil => exact h
  | cons c cs ih => exact ih (h.step c)

theorem scan (cs : List Char) : (Nesting.scan cs).WellFormed := foldl ⟨rfl, rfl⟩ cs

end WellFormed

/-! ## Steps -/

/-- Outside of strings. -/
theorem step_of_outside {n : Nesting} (h : n.quote = none) (c : Char) :
    n.step c = { n.plain c with prev := if isBlank c then (n.plain c).prev else c } := by
  unfold step
  rw [h]
  dsimp only
  split <;> rfl

/-- Inside of a string. -/
theorem foldl_step_of_inside {n : Nesting} {q : Char} (h : n.quote = some q) {body : List Char}
    (hbody : q ∉ body) : body.foldl step n = n := by
  induction body with
  | nil => rfl
  | cons c body ih =>
    obtain ⟨hc, hbody⟩ := not_or.1 (mt List.mem_cons.2 hbody)
    have hstep : n.step c = n := by
      unfold step
      rw [h]
      dsimp only
      rw [if_neg (Ne.symm hc)]
    rw [List.foldl_cons, hstep, ih hbody]

/-- The characters that the scan looks at. -/
def watched : List Char := '\'' :: '"' :: marks

theorem plain_of_not_watched {c : Char} (h : c ∉ watched) (n : Nesting) : n.plain c = n := by
  simp only [watched, marks, List.mem_cons, not_or] at h
  simp [plain, h]

theorem plain_of_quote {q : Char} (hq : q = '"' ∨ q = '\'') (n : Nesting) :
    n.plain q = { n with quote := some q } := by
  rcases hq with rfl | rfl <;> rfl

theorem plain_of_open {o : Char} (ho : o = '(' ∨ o = '[') (n : Nesting) : n.plain o = n.open o := by
  rcases ho with rfl | rfl <;> rfl

theorem plain_of_close {c : Char} (hc : c = ')' ∨ c = ']') (n : Nesting) : n.plain c = n.close := by
  rcases hc with rfl | rfl <;> rfl

theorem not_watched_of_isSpace {c : Char} (h : isSpace c = true) : c ∉ watched := by
  simp only [isSpace, Bool.or_eq_true, decide_eq_true_eq] at h
  rcases h with ((rfl | rfl) | rfl) | rfl <;> decide

/-- Spaces are not seen. -/
theorem foldl_step_of_isSpaces {n : Nesting} (hquote : n.quote = none) {ws : List Char}
    (hws : IsSpaces ws) : ws.foldl step n = n := by
  induction ws with
  | nil => rfl
  | cons c ws ih =>
    obtain ⟨hc, hws⟩ := List.forall_mem_cons.1 hws
    have hstep : n.step c = n := by
      rw [step_of_outside hquote, plain_of_not_watched (not_watched_of_isSpace hc),
        if_pos (isBlank_of_isSpace hc)]
    rw [List.foldl_cons, hstep, ih hws]

theorem foldl_mark {n : Nesting} (hquote : n.quote = none) {c : Char} {cs : List Char}
    (h : Mark c cs) : cs.foldl step n = n.step c := by
  obtain ⟨ws, hws, rfl⟩ := h
  rw [List.foldl_append, foldl_step_of_isSpaces hquote hws, List.foldl_cons, List.foldl_nil]

/-! ## The depth reached -/

/-- Nothing that was counted is forgotten. -/
theorem deepest_le_plain (n : Nesting) (c : Char) : n.deepest ≤ (n.plain c).deepest := by
  have hchain : n.chain.deepest = n.deepest := by
    unfold chain
    split <;> rfl
  unfold plain
  split
  · exact le_rfl
  split
  · unfold Nesting.open
    split
    · exact hchain.ge.trans (le_max_left _ _)
    · exact le_max_left _ _
  split
  · unfold close
    split <;> exact le_rfl
  split
  · unfold comma
    split <;> exact le_rfl
  · exact le_rfl

theorem deepest_le_step (n : Nesting) (c : Char) : n.deepest ≤ (n.step c).deepest := by
  unfold step
  split
  · split <;> exact le_rfl
  · have hplain := deepest_le_plain n c
    dsimp only
    split <;> exact hplain

theorem deepest_le_foldl (n : Nesting) (cs : List Char) :
    n.deepest ≤ (cs.foldl step n).deepest := by
  induction cs generalizing n with
  | nil => exact le_rfl
  | cons c cs ih => exact (deepest_le_step n c).trans (ih _)

/-- How much longer the character `o` makes the innermost chain when it opens a bracket. -/
def link (n : Nesting) (o : Char) : Nat := if o = '[' ∧ n.prev = ']' then 1 else 0

/-- A bracket that is opened is counted together with those that are open and all chains. -/
theorem step_of_open {n : Nesting} {o : Char} {level : Nat} {outer : List Nat}
    (hquote : n.quote = none) (ho : o = '(' ∨ o = '[') (hchains : n.chains = level :: outer) :
    n.step o =
      { chains := 0 :: (level + n.link o) :: outer
        chained := n.chained + n.link o
        depth := n.depth + 1
        deepest := max n.deepest (n.depth + 1 + (n.chained + n.link o))
        quote := none
        prev := o } := by
  have hblank : isBlank o = false := by rcases ho with rfl | rfl <;> decide
  rw [step_of_outside hquote, plain_of_open ho, hblank, ← hquote]
  unfold Nesting.open Nesting.chain link
  rw [hchains]
  split
  · rfl
  · dsimp only
    rw [hchains]
    rfl

theorem step_of_close {n : Nesting} {c : Char} {level next : Nat} {outer : List Nat}
    (hquote : n.quote = none) (hc : c = ')' ∨ c = ']')
    (hchains : n.chains = level :: next :: outer) :
    n.step c =
      { n with
        chains := next :: outer
        chained := n.chained - level
        depth := n.depth - 1
        prev := c } := by
  have hblank : isBlank c = false := by rcases hc with rfl | rfl <;> decide
  rw [step_of_outside hquote, plain_of_close hc, hblank, Nesting.close, hchains]
  rfl

theorem step_of_comma {n : Nesting} {level : Nat} {outer : List Nat} (hquote : n.quote = none)
    (hchains : n.chains = level :: outer) :
    n.step ',' = { n with chains := 0 :: outer, chained := n.chained - level, prev := ',' } := by
  have hblank : isBlank ',' = false := by decide
  have hplain : n.plain ',' = n.comma := rfl
  rw [step_of_outside hquote, hplain, hblank, Nesting.comma, hchains]
  rfl

/-! ## Balanced texts -/

/-- The scan comes out of `cs` outside of strings, with the outer chains as they were. -/
def Balanced (cs : List Char) : Prop :=
  ∀ n : Nesting, n.WellFormed → n.quote = none →
    (cs.foldl step n).quote = none ∧ (cs.foldl step n).chains.tail = n.chains.tail

/-- Of a string the scan keeps that it ended. -/
theorem foldl_string {n : Nesting} {q : Char} (hquote : n.quote = none) (hq : q = '"' ∨ q = '\'')
    {body : List Char} (hbody : q ∉ body) :
    (q :: (body ++ [q])).foldl step n = { n with quote := none, prev := q } := by
  have hopen : n.step q = { n with quote := some q, prev := q } := by
    have hblank : isBlank q = false := by rcases hq with rfl | rfl <;> decide
    rw [step_of_outside hquote, plain_of_quote hq, hblank]
    rfl
  rw [List.foldl_cons, List.foldl_append, hopen, foldl_step_of_inside rfl hbody, List.foldl_cons,
    List.foldl_nil]
  unfold step
  exact if_pos rfl

/-- Behind the bracket that closes it, the chain is longer by what opening it added. -/
theorem foldl_brackets {n : Nesting} {o c : Char} (hn : n.WellFormed) (hquote : n.quote = none)
    (ho : o = '(' ∨ o = '[') (hc : c = ')' ∨ c = ']') {os body cs : List Char} (hos : Mark o os)
    (hbody : Balanced body) (hcs : Mark c cs) {level : Nat} {outer : List Nat}
    (hchains : n.chains = level :: outer) :
    ((os ++ body ++ cs).foldl step n).quote = none ∧
      ((os ++ body ++ cs).foldl step n).chains = (level + n.link o) :: outer ∧
      ((os ++ body ++ cs).foldl step n).prev = c := by
  have hstep := step_of_open hquote ho hchains
  have hopen : (n.step o).quote = none ∧
      (n.step o).chains = 0 :: (level + n.link o) :: outer := by
    rw [hstep]
    exact ⟨rfl, rfl⟩
  obtain ⟨hquote', htail⟩ := hbody _ (hn.step o) hopen.1
  obtain ⟨inner, rest, hcons, -, -⟩ := ((hn.step o).foldl body).exists_chains
  rw [hcons, hopen.2, List.tail_cons, List.tail_cons] at htail
  rw [htail] at hcons
  rw [List.foldl_append, List.foldl_append, foldl_mark hquote hos, foldl_mark hquote' hcs,
    step_of_close hquote' hc hcons]
  exact ⟨hquote', rfl, rfl⟩

namespace Balanced

protected theorem nil : Balanced [] := fun _ _ hquote => ⟨hquote, rfl⟩

protected theorem append {cs ds : List Char} (h : Balanced cs) (h' : Balanced ds) :
    Balanced (cs ++ ds) := by
  intro n hn hquote
  obtain ⟨hquote', htail⟩ := h n hn hquote
  obtain ⟨hquote'', htail'⟩ := h' _ (hn.foldl cs) hquote'
  rw [List.foldl_append]
  exact ⟨hquote'', htail'.trans htail⟩

theorem of_not_watched {cs : List Char} (h : ∀ c ∈ cs, c ∉ watched) : Balanced cs := by
  induction cs with
  | nil => exact .nil
  | cons c cs ih =>
    have hc : Balanced [c] := by
      intro n _ hquote
      rw [List.foldl_cons, List.foldl_nil, step_of_outside hquote,
        plain_of_not_watched (h c List.mem_cons_self)]
      exact ⟨hquote, rfl⟩
    exact hc.append (ih fun d hd => h d (List.mem_cons_of_mem _ hd))

theorem of_isSpaces {ws : List Char} (h : IsSpaces ws) : Balanced ws :=
  of_not_watched fun c hc => not_watched_of_isSpace (h c hc)

theorem comma : Balanced [','] := by
  intro n hn hquote
  obtain ⟨level, outer, hcons, -, -⟩ := hn.exists_chains
  rw [List.foldl_cons, List.foldl_nil, step_of_comma hquote hcons, hcons]
  exact ⟨hquote, rfl⟩

theorem string {q : Char} (hq : q = '"' ∨ q = '\'') {body : List Char} (hbody : q ∉ body) :
    Balanced (q :: (body ++ [q])) := by
  intro n _ hquote
  rw [foldl_string hquote hq hbody]
  exact ⟨rfl, rfl⟩

/-- Space, and then one more character of the text. -/
theorem mark {c : Char} {cs : List Char} (h : Mark c cs) (hc : Balanced [c]) : Balanced cs := by
  intro n hn hquote
  rw [foldl_mark hquote h]
  exact hc n hn hquote

theorem brackets {o c : Char} (ho : o = '(' ∨ o = '[') (hc : c = ')' ∨ c = ']')
    {os body cs : List Char} (hos : Mark o os) (h : Balanced body) (hcs : Mark c cs) :
    Balanced (os ++ body ++ cs) := by
  intro n hn hquote
  obtain ⟨level, outer, hcons, -, -⟩ := hn.exists_chains
  obtain ⟨hquote', hchains, -⟩ := foldl_brackets hn hquote ho hc hos h hcs hcons
  rw [hchains, hcons]
  exact ⟨hquote', rfl⟩

end Balanced

end Nesting

/-- A text that goes on nests no less deeply. -/
theorem nestingDepth_le_append (cs ds : List Char) : nestingDepth cs ≤ nestingDepth (cs ++ ds) := by
  rw [nestingDepth, nestingDepth, Nesting.scan_append]
  exact Nesting.deepest_le_foldl _ ds

/-! ## Expressions are balanced -/

open Nesting (Balanced)

theorem not_watched_of_isNameChar {c : Char} (h : isNameChar c = true) : c ∉ Nesting.watched := by
  intro hc
  have hall : Nesting.watched.all (!isNameChar ·) = true := by decide
  have hnot := List.all_eq_true.1 hall c hc
  simp [h] at hnot

/-- The scan looks at nothing of a literal that is no string. -/
theorem IsLiteral.string_or_not_watched {cs : List Char} {e : Expr} (h : IsLiteral cs e) :
    (∃ q body, (q = '"' ∨ q = '\'') ∧ q ∉ body ∧ cs = q :: (body ++ [q])) ∨
      ∀ c ∈ cs, c ∉ Nesting.watched := by
  cases h with
  | str h =>
    obtain ⟨q, body, hq, hbody, rfl, -⟩ := h
    exact .inl ⟨q, body, hq, hbody, rfl⟩
  | int h =>
    obtain ⟨digits, -, hdigits, hcs⟩ := h
    have hnot : ∀ d ∈ digits, d ∉ Nesting.watched := fun d hd =>
      not_watched_of_isNameChar (isNameChar_of_isDigit (hdigits d hd))
    rcases hcs with ⟨rfl, -⟩ | ⟨rfl, -⟩
    · exact .inr hnot
    · exact .inr (List.forall_mem_cons.2 ⟨by decide, hnot⟩)
  | name h =>
    obtain ⟨c, tail, hc, htail, rfl, -⟩ := h
    exact .inr (List.forall_mem_cons.2
      ⟨not_watched_of_isNameChar (isNameChar_of_isNameStart hc),
        fun d hd => not_watched_of_isNameChar (htail d hd)⟩)

theorem IsLiteral.balanced {cs : List Char} {e : Expr} (h : IsLiteral cs e) : Balanced cs := by
  obtain ⟨q, body, hq, hbody, rfl⟩ | hcs := h.string_or_not_watched
  · exact .string hq hbody
  · exact .of_not_watched hcs

/-- Every rule of the grammar makes a balanced text of balanced ones. -/
theorem closed_balanced : Closed (fun cs _ => Balanced cs) (fun cs _ => Balanced cs)
    (fun cs _ => Balanced cs) (fun cs _ => Balanced cs) where
  literal hws h := (Balanced.of_isSpaces hws).append h.balanced
  unit ho hc := by
    have h := Balanced.brackets (.inl rfl) (.inl rfl) ho .nil hc
    rwa [List.append_nil] at h
  group ho h hc := .brackets (.inl rfl) (.inl rfl) ho h hc
  atom h := h
  subscript h ho hindex hc := h.append (.brackets (.inr rfl) (.inr rfl) ho hindex hc)
  single h := h
  snoc h hcomma he := h.append ((Balanced.mark hcomma .comma).append he)
  item h := h
  tuple h _ := h
  trailing h hcomma := h.append (.mark hcomma .comma)

theorem IsItem.balanced {cs : List Char} {e : Expr} (h : IsItem cs e) : Balanced cs :=
  closed_balanced.of_isItem h

theorem IsExpr.balanced {cs : List Char} {e : Expr} (h : IsExpr cs e) : Balanced cs :=
  closed_balanced.of_isExpr h

/-! ## Texts between commas -/

namespace Nesting

/-- `n` is `m`, but for a depth reached before and for what was read last. -/
structure Resumes (before : Nat) (n m : Nesting) : Prop where
  chains : n.chains = m.chains
  chained : n.chained = m.chained
  depth : n.depth = m.depth
  deepest : n.deepest = max before m.deepest
  quote : n.quote = m.quote
  prev : n.prev = ']' ↔ m.prev = ']'

namespace Resumes

variable {before : Nat} {n m : Nesting}

protected theorem chain (h : Resumes before n m) : Resumes before n.chain m.chain := by
  unfold Nesting.chain
  rw [h.chains]
  split
  · exact h
  · exact ⟨rfl, congrArg (· + 1) h.chained, h.depth, h.deepest, h.quote, h.prev⟩

protected theorem «open» (h : Resumes before n m) (c : Char) :
    Resumes before (n.open c) (m.open c) := by
  have hpush : ∀ {n m : Nesting}, Resumes before n m → Resumes before
      { n with
        chains := 0 :: n.chains
        depth := n.depth + 1
        deepest := max n.deepest (n.depth + 1 + n.chained) }
      { m with
        chains := 0 :: m.chains
        depth := m.depth + 1
        deepest := max m.deepest (m.depth + 1 + m.chained) } := by
    intro n m h
    refine ⟨congrArg (0 :: ·) h.chains, h.chained, congrArg (· + 1) h.depth, ?_, h.quote, h.prev⟩
    rw [h.deepest, h.depth, h.chained, Nat.max_assoc]
  unfold Nesting.open
  simp only [h.prev]
  split
  · exact hpush h.chain
  · exact hpush h

protected theorem close (h : Resumes before n m) : Resumes before n.close m.close := by
  unfold Nesting.close
  rw [h.chains]
  split
  · exact ⟨rfl, congrArg (· - _) h.chained, congrArg (· - 1) h.depth, h.deepest, h.quote, h.prev⟩
  · exact h

protected theorem comma (h : Resumes before n m) : Resumes before n.comma m.comma := by
  unfold Nesting.comma
  rw [h.chains]
  split
  · exact h
  · exact ⟨rfl, congrArg (· - _) h.chained, h.depth, h.deepest, h.quote, h.prev⟩

protected theorem plain (h : Resumes before n m) (c : Char) :
    Resumes before (n.plain c) (m.plain c) := by
  unfold Nesting.plain
  split
  · exact ⟨h.chains, h.chained, h.depth, h.deepest, rfl, h.prev⟩
  split
  · exact h.open c
  split
  · exact h.close
  split
  · exact h.comma
  · exact h

protected theorem step (h : Resumes before n m) (c : Char) :
    Resumes before (n.step c) (m.step c) := by
  unfold Nesting.step
  rw [h.quote]
  split
  · split
    · exact ⟨h.chains, h.chained, h.depth, h.deepest, rfl, Iff.rfl⟩
    · exact h
  · have hplain := h.plain c
    split
    · exact hplain
    · exact ⟨hplain.chains, hplain.chained, hplain.depth, hplain.deepest, hplain.quote, Iff.rfl⟩

theorem foldl (h : Resumes before n m) (cs : List Char) :
    Resumes before (cs.foldl Nesting.step n) (cs.foldl Nesting.step m) := by
  induction cs generalizing n m with
  | nil => exact h
  | cons c cs ih => exact ih (h.step c)

end Resumes

/-- After a balanced text and a comma the scan starts again. -/
theorem resumes_after_comma {cs : List Char} (h : Balanced cs) :
    Resumes (scan cs).deepest (scan (cs ++ [','])) {} := by
  have hbalanced : (scan cs).quote = none ∧ (scan cs).chains.tail = [] := h {} ⟨rfl, rfl⟩ rfl
  obtain ⟨hquote, houter⟩ := hbalanced
  obtain ⟨level, outer, hcons, hchained, hdepth⟩ := (WellFormed.scan cs).exists_chains
  rw [hcons, List.tail_cons] at houter
  subst houter
  rw [scan_append, List.foldl_cons, List.foldl_nil, step_of_comma hquote hcons]
  refine ⟨rfl, ?_, hdepth, (Nat.max_zero _).symm, hquote, by simp⟩
  rw [hchained]
  exact Nat.sub_self level

end Nesting

/-- A text nests as deeply as its parts between commas. -/
theorem nestingDepth_append_comma {cs : List Char} (h : Balanced cs) (ds : List Char) :
    nestingDepth (cs ++ ',' :: ds) = max (nestingDepth cs) (nestingDepth ds) := by
  have hresumes := (Nesting.resumes_after_comma h).foldl ds
  rw [← Nesting.scan_append, List.append_assoc, List.singleton_append] at hresumes
  exact hresumes.deepest

end TypeHints.Expr
