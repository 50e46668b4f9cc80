import TypeHints.Proofs.Nesting
import TypeHints.Proofs.Reading

/-!
# Brackets opened while reading

The scan for nesting knows nothing of the grammar, and a reader knows nothing of the scan, but
wherever a reader comes, what it has behind it is balanced. So the scan has counted every bracket
that the reader has open, also on attempts that it gives up later. A text that nests no deeper
than `limit` is therefore read in the same way whatever happens where `limit` brackets are open
(`readWithin_eq_read`), and the guard of the parser limits how deeply reading recurs
(`parse_of_limited`).
-/

namespace TypeHints.Expr

open Text
open Nesting (Balanced)

/-! ## Readers with a limit -/

/-- An expression, read as by `readExpr`; where no room is left, `deeper?` reads what stands
inside of further brackets, and without it these are not opened. -/
def readWithin (steps : Nat) (deeper? : Option (Reader Expr)) : (room : Nat) → Reader Expr
  | 0 => readItems steps deeper?
  | room + 1 => readItems steps (some (readWithin steps deeper? room))

theorem readWithin_readExpr (steps more room : Nat) :
    readWithin steps (some (readExpr steps more)) room = readExpr steps (more + room + 1) := by
  induction room with
  | zero => rfl
  | succ room ih =>
    rw [readWithin, ih]
    rfl

/-! ## Where a reader comes -/

/-- `P depth rest` says something of a place in a text with `depth` brackets open and `rest`
ahead. It is kept along balanced texts and by opening a bracket. -/
structure Tracked (P : Nat → List Char → Prop) : Prop where
  skip : ∀ {depth used rest}, Balanced used → P depth (used ++ rest) → P depth rest
  «open» : ∀ {depth o rest}, o = '(' ∨ o = '[' → P depth (o :: rest) → P (depth + 1) rest

/-- The scan has come to a place with `depth` brackets open, and none of what is ahead nests
deeper than `limit`. -/
def Ahead (limit depth : Nat) (rest : List Char) : Prop :=
  depth ≤ limit ∧ ∃ n : Nesting, n.WellFormed ∧ n.quote = none ∧ n.depth = depth ∧
    (rest.foldl Nesting.step n).deepest ≤ limit

theorem tracked_ahead (limit : Nat) : Tracked (Ahead limit) where
  skip := by
    rintro depth used rest hused ⟨hle, n, hn, hquote, hdepth, hdeepest⟩
    obtain ⟨hquote', htail⟩ := hused n hn hquote
    refine ⟨hle, _, hn.foldl used, hquote', ?_, by rwa [← List.foldl_append]⟩
    -- as many chains as before, so as many open brackets
    obtain ⟨level, outer, hchains, -, houter⟩ := hn.exists_chains
    obtain ⟨level', outer', hchains', -, houter'⟩ := (hn.foldl used).exists_chains
    rw [hchains, hchains', List.tail_cons, List.tail_cons] at htail
    rw [← hdepth, houter, houter', htail]
  «open» := by
    rintro depth o rest ho ⟨-, n, hn, hquote, rfl, hdeepest⟩
    obtain ⟨level, outer, hchains, -, -⟩ := hn.exists_chains
    have hstep := Nesting.step_of_open hquote ho hchains
    have hopen : n.depth + 1 ≤ (n.step o).deepest := by
      rw [hstep]
      exact (Nat.le_add_right _ _).trans (le_max_right _ _)
    refine ⟨hopen.trans ((Nesting.deepest_le_foldl _ rest).trans hdeepest), n.step o, hn.step o,
      ?_, ?_, hdeepest⟩
    · rw [hstep]
    · rw [hstep]

/-- Every open bracket has taken a character of the text. -/
theorem tracked_length (limit : Nat) : Tracked fun depth rest => depth + rest.length ≤ limit where
  skip := by
    intro depth used rest _ h
    rw [List.length_append] at h
    omega
  «open» := by
    intro depth o rest _ h
    rw [List.length_cons] at h
    omega

/-! ## Readers that agree -/

/-- Where one more bracket can be opened, both readers are there and read the same inside. -/
def Agree (P : Nat → List Char → Prop) (depth : Nat) (a? b? : Option (Reader Expr)) : Prop :=
  ∀ rest, P (depth + 1) rest → ∃ a b, a? = some a ∧ b? = some b ∧ a rest = b rest

theorem iterate_congr {α : Type} {step step' : α → Reader α} {P : List Char → Prop}
    (hstep : ∀ a {cs}, P cs → step a cs = step' a cs)
    (hkeep : ∀ {a cs a' rest}, P cs → step a cs = some (a', rest) → P rest) (k : Nat) (a : α)
    {cs : List Char} (h : P cs) : iterate step k a cs = iterate step' k a cs := by
  induction k generalizing a cs with
  | zero => rfl
  | succ k ih =>
    rw [iterate, iterate, ← hstep a h]
    cases hread : step a cs with
    | none => rfl
    | some x => exact ih x.1 (hkeep h hread)

section Agree

variable {P : Nat → List Char → Prop} {depth : Nat} {a? b? : Option (Reader Expr)}
  {cs : List Char}

theorem Tracked.skipSpace (hP : Tracked P) (h : P depth cs) : P depth (skipSpace cs) := by
  obtain ⟨ws, hws, hcs⟩ := exists_skipSpace cs
  rw [hcs] at h
  exact hP.skip (.of_isSpaces hws) h

/-- Behind an opening bracket the readers agree. -/
theorem Agree.inside (hP : Tracked P) (h : Agree P depth a? b?) {o : Char} {os rest : List Char}
    (ho : o = '(' ∨ o = '[') (hos : Mark o os) (hcs : P depth (os ++ rest)) :
    ∃ a b, a? = some a ∧ b? = some b ∧ a (Text.skipSpace rest) = b (Text.skipSpace rest) := by
  obtain ⟨ws, hws, rfl⟩ := hos
  rw [List.append_assoc] at hcs
  exact h _ (hP.skipSpace (hP.open ho (hP.skip (.of_isSpaces hws) hcs)))

theorem readAtom_congr (hP : Tracked P) (h : Agree P depth a? b?) (hcs : P depth cs) :
    readAtom a? cs = readAtom b? cs := by
  by_cases hopen : ∃ os rest, cs = os ++ rest ∧ Mark '(' os
  · obtain ⟨os, rest, rfl, hos⟩ := hopen
    obtain ⟨a, b, rfl, rfl, hab⟩ := h.inside hP (.inl rfl) hos hcs
    rw [readAtom_of_open hos, readAtom_of_open hos]
    simp only [readGroup, hab]
  · have hnot : ∀ c ∈ (Text.skipSpace cs).head?, c ≠ '(' := by
      rintro c hc rfl
      obtain ⟨rest, hrest⟩ := List.head?_eq_some_iff.1 hc
      obtain ⟨ws, hws, heq⟩ := exists_skipSpace cs
      exact hopen ⟨ws ++ ['('], rest, by rw [heq, hrest]; simp, ws, hws, rfl⟩
    rw [readAtom_of_not_open hnot, readAtom_of_not_open hnot]

theorem readIndex_congr (hP : Tracked P) (h : Agree P depth a? b?) (value : Expr)
    (hcs : P depth cs) : readIndex a? value cs = readIndex b? value cs := by
  cases hread : readChar '[' cs with
  | none =>
    have hnone : ∀ inner? : Option (Reader Expr), readIndex inner? value cs = none := by
      intro inner?
      unfold readIndex
      rw [hread]
      cases inner? <;> rfl
    rw [hnone, hnone]
  | some x =>
    obtain ⟨⟨⟩, rest⟩ := x
    obtain ⟨os, rfl, hos⟩ := readChar_sound hread
    obtain ⟨a, b, rfl, rfl, hab⟩ := h.inside hP (.inr rfl) hos hcs
    simp only [readIndex, hread, Option.bind_eq_bind, Option.bind_some, hab]

/-- A subscript that is read leaves a place with as many open brackets. -/
theorem Tracked.readIndex (hP : Tracked P) (hsound : ∀ inner ∈ a?, Sound inner)
    {value value' : Expr} {rest : List Char} (hcs : P depth cs)
    (hread : Expr.readIndex a? value cs = some (value', rest)) : P depth rest := by
  obtain ⟨os, body, ds, index, rfl, -, hos, hbody, hds⟩ := readIndex_sound hsound hread
  exact hP.skip (.brackets (.inr rfl) (.inr rfl) hos hbody.balanced hds) hcs

theorem readItem_congr (hP : Tracked P) (h : Agree P depth a? b?)
    (hsound : ∀ inner ∈ a?, Sound inner) (steps : Nat) (hcs : P depth cs) :
    readItem steps a? cs = readItem steps b? cs := by
  unfold readItem
  rw [← readAtom_congr hP h hcs]
  cases hatom : readAtom a? cs with
  | none => rfl
  | some x =>
    obtain ⟨atom, rest⟩ := x
    have hrest : P depth rest := by
      obtain ⟨used, rfl, hused⟩ := readAtom_sound hsound hatom
      exact hP.skip (IsItem.atom hused).balanced hcs
    have hiterate : iterate (readIndex a?) steps atom rest =
        iterate (readIndex b?) steps atom rest :=
      iterate_congr (P := P depth) (fun value _ hcs => readIndex_congr hP h value hcs)
        (hP.readIndex hsound) steps atom hrest
    simp only [Option.bind_eq_bind, Option.bind_some, hiterate]

theorem readNextItem_congr (hP : Tracked P) (h : Agree P depth a? b?)
    (hsound : ∀ inner ∈ a?, Sound inner) (steps : Nat) (items : List Expr) (hcs : P depth cs) :
    readNextItem steps a? items cs = readNextItem steps b? items cs := by
  unfold readNextItem
  cases hread : readChar ',' cs with
  | none => rfl
  | some x =>
    obtain ⟨⟨⟩, rest⟩ := x
    obtain ⟨comma, rfl, hcomma⟩ := readChar_sound hread
    have hrest : P depth rest := hP.skip (.mark hcomma .comma) hcs
    simp only [Option.bind_eq_bind, Option.bind_some, readItem_congr hP h hsound steps hrest]

/-- One more item that is read leaves a place with as many open brackets. -/
theorem Tracked.readNextItem (hP : Tracked P) (hsound : ∀ inner ∈ a?, Sound inner) {steps : Nat}
    {items items' : List Expr} {rest : List Char} (hcs : P depth cs)
    (hread : Expr.readNextItem steps a? items cs = some (items', rest)) : P depth rest := by
  obtain ⟨comma, ds, rfl, hcomma, item, hitem, -⟩ := readNextItem_sound hsound hread
  exact hP.skip ((Balanced.mark hcomma .comma).append hitem.balanced) hcs

theorem readItems_congr (hP : Tracked P) (h : Agree P depth a? b?)
    (hsound : ∀ inner ∈ a?, Sound inner) (steps : Nat) (hcs : P depth cs) :
    readItems steps a? cs = readItems steps b? cs := by
  unfold readItems
  rw [← readItem_congr hP h hsound steps hcs]
  cases hfirst : readItem steps a? cs with
  | none => rfl
  | some x =>
    obtain ⟨first, rest⟩ := x
    have hrest : P depth rest := by
      obtain ⟨used, rfl, hused⟩ := readItem_sound hsound hfirst
      exact hP.skip hused.balanced hcs
    have hiterate : iterate (readNextItem steps a?) steps [first] rest =
        iterate (readNextItem steps b?) steps [first] rest :=
      iterate_congr (P := P depth)
        (fun items _ hcs => readNextItem_congr hP h hsound steps items hcs)
        (hP.readNextItem hsound) steps [first] hrest
    simp only [Option.bind_eq_bind, Option.bind_some, hiterate]

/-- If no more than `limit` brackets can be open, what is read beyond them does not matter. -/
theorem readWithin_eq_readExpr (hP : Tracked P) {limit : Nat}
    (hlimit : ∀ {depth cs}, P depth cs → depth ≤ limit) (steps : Nat)
    (deeper? : Option (Reader Expr)) (room : Nat) (hroom : depth + room = limit)
    (hcs : P depth cs) : readWithin steps deeper? room cs = readExpr steps room cs := by
  induction room generalizing depth cs with
  | zero =>
    have hagree : Agree P depth none deeper? := by
      intro rest hrest
      have := hlimit hrest
      omega
    exact (readItems_congr hP hagree (by simp) steps hcs).symm
  | succ room ih =>
    have hagree : Agree P depth (some (readExpr steps room))
        (some (readWithin steps deeper? room)) := by
      intro rest hrest
      exact ⟨_, _, rfl, rfl, (ih (by omega) hrest).symm⟩
    refine (readItems_congr hP hagree (fun inner hinner => ?_) steps hcs).symm
    obtain rfl := Option.some.inj hinner
    exact readExpr_sound steps room

end Agree

/-! ## Texts -/

/-- What a text comes to if `r` reads it: an expression, or an error at the offset of the first
character that could not be read on. -/
def readText (r : Reader Expr) (cs : List Char) : Except CompileError Expr :=
  match r cs with
  | none => .error (.invalid (String.ofList cs) 0)
  | some (e, rest) =>
    match skipSpace rest with
    | [] => .ok e
    | rest => .error (.invalid (String.ofList cs) (byteLength cs - byteLength rest))

theorem readText_congr {r r' : Reader Expr} {cs : List Char} (h : r cs = r' cs) :
    readText r cs = readText r' cs := by
  unfold readText
  rw [h]

/-- A text that passes the guard is read. -/
theorem parseChars_eq_readText {cs : List Char} (hne : cs ≠ []) (h : nestingDepth cs ≤ maxNesting) :
    parseChars cs = readText read cs := by
  unfold parseChars
  rw [if_neg (by simpa using hne), if_neg (Nat.not_lt.2 h)]
  rfl

/-- A text is read in the same way with room for as many brackets as it nests as with room for
all its characters. -/
theorem readExpr_eq_read {limit : Nat} {cs : List Char} (h : nestingDepth cs ≤ limit) :
    readExpr cs.length limit cs = read cs := by
  unfold read
  rcases Nat.lt_trichotomy limit cs.length with hlt | rfl | hlt
  · obtain ⟨more, hmore⟩ := Nat.exists_eq_add_of_lt hlt
    have hahead : Ahead limit 0 cs := ⟨Nat.zero_le _, {}, ⟨rfl, rfl⟩, rfl, rfl, h⟩
    have hread := readWithin_eq_readExpr (tracked_ahead limit) (fun h => h.1) cs.length
      (some (readExpr cs.length more)) limit (Nat.zero_add _) hahead
    rw [readWithin_readExpr, Nat.add_comm more, ← hmore] at hread
    exact hread.symm
  · rfl
  · obtain ⟨more, hmore⟩ := Nat.exists_eq_add_of_lt hlt
    have hread := readWithin_eq_readExpr (tracked_length cs.length) (by intro depth cs h; omega)
      cs.length (some (readExpr cs.length more)) cs.length (Nat.zero_add _) (Nat.zero_add _).le
    rw [readWithin_readExpr, Nat.add_comm more, ← hmore] at hread
    exact hread

/-- What is read where `limit` brackets are open does not matter to a text that nests no deeper:
no attempt to read it, be it given up or not, opens more than `limit` brackets at once. -/
theorem readWithin_eq_read {limit : Nat} {cs : List Char} (h : nestingDepth cs ≤ limit)
    (deeper? : Option (Reader Expr)) : readWithin cs.length deeper? limit cs = read cs := by
  have hahead : Ahead limit 0 cs := ⟨Nat.zero_le _, {}, ⟨rfl, rfl⟩, rfl, rfl, h⟩
  rw [← readExpr_eq_read h]
  exact readWithin_eq_readExpr (tracked_ahead limit) (fun h => h.1) cs.length deeper? limit
    (Nat.zero_add _) hahead

/-- **The guard limits how deeply reading recurs.** Let a text pass the guard. A reader that opens
no bracket where `maxNesting` are open already gives the same expression as the reader without a
limit, or the same error at the same offset, and so does a reader that goes on in any other way
there. -/
theorem parse_of_limited (source : String)
    (h : nestingDepth (trimChars source.toList) ≤ maxNesting) :
    let cs := trimChars source.toList
    readText (readExpr cs.length maxNesting) cs = readText read cs ∧
      (∀ deeper?, readWithin cs.length deeper? maxNesting cs = read cs) ∧
      (cs ≠ [] → parse source = readText (readExpr cs.length maxNesting) cs) := by
  intro cs
  have hlimited : readText (readExpr cs.length maxNesting) cs = readText read cs :=
    readText_congr (readExpr_eq_read h)
  refine ⟨hlimited, readWithin_eq_read h, fun hne => ?_⟩
  rw [hlimited]
  exact parseChars_eq_readText hne h

/-- A text with a bracket that is not closed. -/
theorem parse_of_limited_of_unclosed :
    nestingDepth (trimChars "a[(b)] [d".toList) ≤ maxNesting ∧
      parse "a[(b)] [d" = .error (.invalid "a[(b)] [d" 7) ∧
      readText (readExpr 9 maxNesting) "a[(b)] [d".toList =
        .error (.invalid "a[(b)] [d" 7) := by
  have hdepth : nestingDepth (trimChars "a[(b)] [d".toList) ≤ maxNesting := by decide
  have hparse : parse "a[(b)] [d" = .error (.invalid "a[(b)] [d" 7) := by decide +kernel
  have hlimited := (parse_of_limited "a[(b)] [d" hdepth).2.2 (by decide)
  have htrim : trimChars "a[(b)] [d".toList = "a[(b)] [d".toList := by decide
  rw [hparse, htrim] at hlimited
  exact ⟨hdepth, hparse, hlimited.symm⟩

end TypeHints.Expr
