import TypeHints.Proofs.Blank
import TypeHints.Proofs.Grammar

/-!
# Reading all of an expression

Whatever the grammar derives, the readers take, and they take all of it: where a text goes on
with a mark that the expression does not, no reader stops early or goes too far
(`readExpr_complete`). So a text is parsed exactly when the grammar derives it
(`parse_eq_ok_iff`).
-/

namespace TypeHints.Expr

open Text

/-! ## What may follow -/

/-- Nothing but space follows, or one of `ms` after it. -/
def Follows (ms : List Char) (cs : List Char) : Prop := ∀ c ∈ (skipSpace cs).head?, c ∈ ms

/-- The marks that may end an expression. -/
def closers : List Char := [')', ']']

theorem Follows.mono {ms ms' cs : List Char} (h : Follows ms cs) (hsub : ms ⊆ ms') :
    Follows ms' cs := fun c hc => hsub (h c hc)

theorem Follows.of_mark {ms ds : List Char} {c : Char} (hmem : c ∈ ms) (hspace : isSpace c = false)
    (h : Mark c ds) (rest : List Char) : Follows ms (ds ++ rest) := by
  obtain ⟨ws, hws, rfl⟩ := h
  intro d hd
  rw [List.append_assoc, hws.skipSpace_append, List.singleton_append,
    skipSpace_cons_of_not hspace] at hd
  obtain rfl := Option.some.inj hd
  exact hmem

/-- A name does not go on before a mark. -/
theorem Follows.not_isNameChar {ms cs : List Char} (h : Follows ms cs) (hms : ms ⊆ marks) :
    ∀ c ∈ cs.head?, isNameChar c = false := by
  cases cs with
  | nil => simp
  | cons d cs =>
    rintro c hc
    obtain rfl := Option.some.inj hc
    by_cases hd : isSpace d = true
    · exact isNameChar_of_isSpace hd
    · refine isNameChar_of_mem_marks (hms (h d ?_))
      rw [skipSpace_cons_of_not (by simpa using hd)]
      rfl

theorem Follows.readChar_eq_none {ms cs : List Char} {c : Char} (h : Follows ms cs) (hc : c ∉ ms) :
    readChar c cs = none := by
  unfold readChar
  split
  · rename_i d rest hskip
    have hd : d ∈ ms := h d (by rw [hskip]; rfl)
    rw [if_neg]
    rintro rfl
    exact hc hd
  · rfl

/-! ## Readers take whole derivations -/

/-- `r` takes all of an expression of at most `n` characters, and nothing where none begins. -/
structure Complete (r : Reader Expr) (n : Nat) : Prop where
  skip : ∀ cs, r (skipSpace cs) = r cs
  complete : ∀ {used rest e}, IsExpr used e → used.length ≤ n → Follows closers rest →
    r (used ++ rest) = some (e, rest)
  none : ∀ {cs}, Follows closers cs → r cs = none

/-- What reads inside of brackets reads all that fits into `n` characters with them. -/
structure Inside (inner? : Option (Reader Expr)) (n : Nat) : Prop where
  isSome : 0 < n → inner?.isSome
  complete : ∀ inner ∈ inner?, Complete inner (n - 1)

section Complete

variable {inner? : Option (Reader Expr)} {n : Nat} {used rest : List Char} {e : Expr}

theorem Inside.exists (h : Inside inner? n) (hn : 0 < n) :
    ∃ inner, inner? = some inner ∧ Complete inner (n - 1) := by
  obtain ⟨inner, hinner⟩ := Option.isSome_iff_exists.1 (h.isSome hn)
  exact ⟨inner, hinner, h.complete inner hinner⟩

theorem readAtom_of_not_open {cs : List Char} (h : ∀ c ∈ (skipSpace cs).head?, c ≠ '(') :
    readAtom inner? cs = readLiteral (skipSpace cs) := by
  unfold readAtom
  split
  · rename_i hskip
    exact absurd rfl (h '(' (by rw [hskip]; rfl))
  · rfl

theorem readAtom_of_open {inner : Reader Expr} {os : List Char} (h : Mark '(' os)
    (rest : List Char) : readAtom (some inner) (os ++ rest) = readGroup inner rest := by
  obtain ⟨ws, hws, rfl⟩ := h
  unfold readAtom
  rw [List.append_assoc, hws.skipSpace_append, List.singleton_append,
    skipSpace_cons_of_not (by decide)]
  rfl

theorem readAtom_complete (hin : Inside inner? n) (h : IsAtom used e) (hlen : used.length ≤ n)
    (hrest : Follows ['[', ',', ')', ']'] rest) :
    readAtom inner? (used ++ rest) = some (e, rest) := by
  cases h with
  | @literal ws cs _ hws h =>
    have hskip : skipSpace (ws ++ cs ++ rest) = cs ++ rest := by
      rw [List.append_assoc, hws.skipSpace_append]
      exact skipSpace_of_head fun c hc => (h.head rest c hc).1
    rw [readAtom_of_not_open, hskip]
    · exact readLiteral_complete h (hrest.not_isNameChar (by decide))
    · rintro c hc rfl
      rw [hskip] at hc
      exact (h.head rest _ hc).2 (by decide)
  | @unit os cs ho hc =>
    have hpos := ho.length_pos
    rw [List.length_append] at hlen
    obtain ⟨inner, rfl, hinner⟩ := hin.exists (by omega)
    have hnone : inner (cs ++ rest) = .none :=
      hinner.none (Follows.of_mark (by decide) (by decide) hc rest)
    rw [List.append_assoc, readAtom_of_open ho, readGroup_eq hinner.skip, hnone,
      readChar_complete (by decide) hc]
    rfl
  | @group os body cs _ ho h hc =>
    have hpos := ho.length_pos
    have hpos' := hc.length_pos
    simp only [List.length_append] at hlen
    obtain ⟨inner, rfl, hinner⟩ := hin.exists (by omega)
    have hbody : inner (body ++ (cs ++ rest)) = some (e, cs ++ rest) :=
      hinner.complete h (by omega) (Follows.of_mark (by decide) (by decide) hc rest)
    rw [List.append_assoc, List.append_assoc, readAtom_of_open ho, readGroup_eq hinner.skip, hbody]
    dsimp only
    rw [readChar_complete (by decide) hc]
    rfl

theorem readIndex_complete (hin : Inside inner? n) {os body ds : List Char} {value index : Expr}
    (ho : Mark '[' os) (h : IsExpr body index) (hc : Mark ']' ds) (hlen : body.length < n) :
    readIndex inner? value (os ++ body ++ ds ++ rest) = some (.subscript value index, rest) := by
  obtain ⟨inner, rfl, hinner⟩ := hin.exists (by omega)
  have hbody : inner (body ++ (ds ++ rest)) = some (index, ds ++ rest) :=
    hinner.complete h (by omega) (Follows.of_mark (by decide) (by decide) hc rest)
  simp only [readIndex, List.append_assoc, Option.bind_eq_bind, Option.bind_some,
    readChar_complete (by decide : isSpace '[' = false) ho, hinner.skip, hbody,
    readChar_complete (by decide : isSpace ']' = false) hc]
  rfl

theorem readIndex_eq_none {value : Expr} {cs : List Char} {ms : List Char} (h : Follows ms cs)
    (hms : '[' ∉ ms) : readIndex inner? value cs = none := by
  unfold readIndex
  rw [h.readChar_eq_none hms]
  cases inner? <;> rfl

theorem iterate_of_none {α : Type} {step : α → Reader α} {a : α} {cs : List Char}
    (h : step a cs = none) (k : Nat) : iterate step k a cs = (a, cs) := by
  cases k with
  | zero => rfl
  | succ k => rw [iterate, h]

/-- The atom at the front of an item is read, and then its subscripts one by one. -/
theorem IsItem.iterate_eq (hin : Inside inner? n) {used rest : List Char} {e : Expr}
    (h : IsItem used e) (hlen : used.length ≤ n) (hrest : Follows ['[', ',', ')', ']'] rest) :
    ∃ k ≤ used.length, ∃ atom tail, readAtom inner? (used ++ rest) = some (atom, tail) ∧
      ∀ j, iterate (readIndex inner?) (k + j) atom tail = iterate (readIndex inner?) j e rest := by
  induction h using IsItem.leftRec generalizing rest with
  | @atom cs e h =>
    refine ⟨0, Nat.zero_le _, e, rest, readAtom_complete hin h hlen hrest, fun j => ?_⟩
    rw [Nat.zero_add]
  | @subscript cs os body ds value index h ho hindex hc ih =>
    have hpos := ho.length_pos
    simp only [List.length_append] at hlen
    have hfollow : Follows ['[', ',', ')', ']'] (os ++ body ++ ds ++ rest) := by
      rw [List.append_assoc, List.append_assoc]
      exact .of_mark (by decide) (by decide) ho _
    obtain ⟨k, hk, atom, tail, hatom, hiterate⟩ := ih (by omega) hfollow
    refine ⟨k + 1, by simp only [List.length_append]; omega, atom, tail, ?_, fun j => ?_⟩
    · rwa [List.append_assoc]
    · have hindex : readIndex inner? value (os ++ body ++ ds ++ rest) =
          some (.subscript value index, rest) := readIndex_complete hin ho hindex hc (by omega)
      rw [Nat.add_assoc, Nat.add_comm 1, hiterate, iterate, hindex]

theorem readItem_complete (hin : Inside inner? n) {steps : Nat} (hsteps : n ≤ steps)
    (h : IsItem used e) (hlen : used.length ≤ n) (hrest : Follows [',', ')', ']'] rest) :
    readItem steps inner? (used ++ rest) = some (e, rest) := by
  obtain ⟨k, hk, atom, tail, hatom, hiterate⟩ :=
    h.iterate_eq hin hlen (hrest.mono (List.subset_cons_self _ _))
  obtain ⟨j, rfl⟩ := Nat.exists_eq_add_of_le (hk.trans (hlen.trans hsteps))
  simp only [readItem, hatom, Option.bind_eq_bind, Option.bind_some, hiterate,
    iterate_of_none (readIndex_eq_none hrest (by decide))]
  rfl

theorem readItem_eq_none {steps : Nat} {cs : List Char} (h : Follows closers cs) :
    readItem steps inner? cs = none := by
  have hatom : readAtom inner? cs = none := by
    rw [readAtom_of_not_open]
    · exact readLiteral_eq_none fun c hc => (by decide : closers ⊆ marks) (h c hc)
    · rintro c hc rfl
      exact absurd (h _ hc) (by decide)
  rw [readItem, hatom]
  rfl

/-- The first item is read, and then the others one by one. -/
theorem IsItems.iterate_eq (hin : Inside inner? n) {steps : Nat} (hsteps : n ≤ steps)
    {used rest : List Char} {es : List Expr} (h : IsItems used es) (hlen : used.length ≤ n)
    (hrest : Follows [',', ')', ']'] rest) :
    ∃ k ≤ used.length, ∃ first tail, readItem steps inner? (used ++ rest) = some (first, tail) ∧
      es.head? = some first ∧
      ∀ j, iterate (readNextItem steps inner?) (k + j) [first] tail =
        iterate (readNextItem steps inner?) j es.reverse rest := by
  induction h using IsItems.leftRec generalizing rest with
  | @single cs e h =>
    refine ⟨0, Nat.zero_le _, e, rest, readItem_complete hin hsteps h hlen hrest, rfl, fun j => ?_⟩
    rw [Nat.zero_add]
    rfl
  | @snoc cs comma ds es e h hcomma he ih =>
    have hpos := hcomma.length_pos
    simp only [List.length_append] at hlen
    have hfollow : Follows [',', ')', ']'] (comma ++ ds ++ rest) := by
      rw [List.append_assoc]
      exact .of_mark (by decide) (by decide) hcomma _
    obtain ⟨k, hk, first, tail, hfirst, hhead, hiterate⟩ := ih (by omega) hfollow
    refine ⟨k + 1, by simp only [List.length_append]; omega, first, tail, ?_, ?_, fun j => ?_⟩
    · rwa [List.append_assoc]
    · rw [List.head?_append, hhead]
      rfl
    · have hnext : readNextItem steps inner? es.reverse (comma ++ ds ++ rest) =
          some (e :: es.reverse, rest) := by
        simp only [readNextItem, List.append_assoc, Option.bind_eq_bind, Option.bind_some,
          readChar_complete (by decide : isSpace ',' = false) hcomma,
          readItem_complete hin hsteps he (by omega) hrest]
        rfl
      rw [Nat.add_assoc, Nat.add_comm 1, hiterate, iterate, hnext, List.reverse_append]
      rfl

/-- What is made of the items depends on whether a comma follows the last one. -/
theorem readItems_of_items (hin : Inside inner? n) {steps : Nat} (hsteps : n ≤ steps)
    {es : List Expr} (h : IsItems used es) (hlen : used.length ≤ n)
    (hrest : Follows [',', ')', ']'] rest)
    (hstop : ∀ items, readNextItem steps inner? items rest = none) :
    readItems steps inner? (used ++ rest) =
      match readChar ',' rest, es with
      | some ((), rest), _ => some (.tuple es, rest)
      | none, [e] => some (e, rest)
      | none, _ => some (.tuple es, rest) := by
  obtain ⟨k, hk, first, tail, hfirst, hhead, hiterate⟩ := h.iterate_eq hin hsteps hlen hrest
  obtain ⟨j, rfl⟩ := Nat.exists_eq_add_of_le (hk.trans (hlen.trans hsteps))
  simp only [readItems, hfirst, Option.bind_eq_bind, Option.bind_some, hiterate,
    iterate_of_none (hstop _), List.reverse_reverse]
  cases readChar ',' rest with
  | some x => rfl
  | none =>
    match es, hhead with
    | [e], hhead =>
      obtain rfl := Option.some.inj hhead
      rfl
    | e :: e' :: es, _ =>
      have hne : ∀ x, (e :: e' :: es).reverse ≠ [x] := fun x hx => by
        simpa using congrArg List.length hx
      split
      · contradiction
      · rename_i hx
        exact absurd hx (hne _)
      · rfl

theorem readItems_complete (hin : Inside inner? n) {steps : Nat} (hsteps : n ≤ steps)
    (h : IsExpr used e) (hlen : used.length ≤ n) (hrest : Follows closers rest) :
    readItems steps inner? (used ++ rest) = some (e, rest) := by
  have hrest' : Follows [',', ')', ']'] rest := hrest.mono (by decide)
  have hcomma : readChar ',' rest = none := hrest.readChar_eq_none (by decide)
  have hstop : ∀ items, readNextItem steps inner? items rest = none := fun items => by
    rw [readNextItem, hcomma]
    rfl
  cases h with
  | item h => rw [readItems_of_items hin hsteps (.single h) hlen hrest' hstop, hcomma]
  | @tuple _ es h hes =>
    rw [readItems_of_items hin hsteps h hlen hrest' hstop, hcomma]
    match es, hes with
    | _ :: _ :: _, _ => rfl
  | @trailing cs comma es h hmark =>
    have hread : readChar ',' (comma ++ rest) = some ((), rest) :=
      readChar_complete (by decide) hmark rest
    have hstop' : ∀ items, readNextItem steps inner? items (comma ++ rest) = none := fun items => by
      simp only [readNextItem, hread, Option.bind_eq_bind, Option.bind_some,
        readItem_eq_none hrest, Option.bind_none]
    rw [List.length_append] at hlen
    rw [List.append_assoc, readItems_of_items hin hsteps h (by omega)
      (.of_mark (by decide) (by decide) hmark rest) hstop', hread]

end Complete

theorem readExpr_complete {steps room : Nat} (h : room ≤ steps) :
    Complete (readExpr steps room) room := by
  have hnone : ∀ {inner?} {cs : List Char}, Follows closers cs →
      readItems steps inner? cs = none := fun hcs => by
    rw [readItems, readItem_eq_none hcs]
    rfl
  induction room with
  | zero => exact ⟨readItems_skipSpace _ _, readItems_complete ⟨by simp, by simp⟩ h, hnone⟩
  | succ room ih =>
    have hin : Inside (some (readExpr steps room)) (room + 1) := by
      refine ⟨fun _ => rfl, fun inner hinner => ?_⟩
      obtain rfl := Option.some.inj hinner
      exact ih (by omega)
    exact ⟨readItems_skipSpace _ _, readItems_complete hin h, hnone⟩

/-! ## Texts -/

/-- A text is read to its end exactly when the grammar derives it. -/
theorem read_eq_some_nil_iff {cs : List Char} {e : Expr} :
    (∃ rest, read cs = some (e, rest) ∧ skipSpace rest = []) ↔
      ∃ used ws, cs = used ++ ws ∧ IsSpaces ws ∧ IsExpr used e := by
  unfold read
  constructor
  · rintro ⟨rest, hread, hrest⟩
    obtain ⟨used, hused, h⟩ := (readExpr_sound _ _).sound hread
    obtain ⟨ws, hws, heq⟩ := exists_skipSpace rest
    rw [hrest, List.append_nil] at heq
    exact ⟨used, rest, hused, heq ▸ hws, h⟩
  · rintro ⟨used, ws, hcs, hws, h⟩
    have hskip : skipSpace ws = [] := by
      have := hws.skipSpace_append []
      rwa [List.append_nil] at this
    have hfollow : Follows closers ws := fun c hc => by
      rw [hskip] at hc
      cases hc
    have hlen : used.length ≤ cs.length := by
      rw [hcs, List.length_append]
      omega
    refine ⟨ws, ?_, hskip⟩
    have := (readExpr_complete (Nat.le_refl cs.length)).complete h hlen hfollow
    rwa [← hcs] at this

/-- Space at the end of a text that ends with no blank is no space at all. -/
theorem eq_nil_of_isSpaces {cs ws : List Char} (h : ∀ c ∈ (cs ++ ws).getLast?, isBlank c = false)
    (hws : IsSpaces ws) : ws = [] := by
  by_contra hne
  have hlast : ws.getLast hne ∈ (cs ++ ws).getLast? := by
    rw [List.getLast?_append, List.getLast?_eq_some_getLast hne]
    rfl
  have hblank := isBlank_of_isSpace (hws _ (List.getLast_mem hne))
  rw [h _ hlast] at hblank
  cases hblank

theorem parseChars_eq_ok_iff {cs : List Char} {e : Expr}
    (hend : ∀ c ∈ cs.getLast?, isBlank c = false) :
    parseChars cs = .ok e ↔ cs ≠ [] ∧ nestingDepth cs ≤ maxNesting ∧ IsExpr cs e := by
  have hread : (∃ rest, read cs = some (e, rest) ∧ skipSpace rest = []) ↔ IsExpr cs e := by
    rw [read_eq_some_nil_iff]
    constructor
    · rintro ⟨used, ws, rfl, hws, h⟩
      obtain rfl := eq_nil_of_isSpaces hend hws
      rwa [List.append_nil]
    · exact fun h => ⟨cs, [], (List.append_nil cs).symm, by simp [IsSpaces], h⟩
  rw [← hread, parseChars]
  by_cases hempty : cs = []
  · simp [hempty]
  rw [if_neg (by simpa using hempty)]
  by_cases hdeep : maxNesting < nestingDepth cs
  · rw [if_pos hdeep]
    simp [Nat.not_le.2 hdeep]
  rw [if_neg hdeep]
  simp only [ne_eq, hempty, not_false_eq_true, Nat.not_lt.1 hdeep, true_and]
  cases read cs with
  | none => simp
  | some x =>
    obtain ⟨e', rest⟩ := x
    cases hrest : skipSpace rest with
    | nil =>
      simp only [hrest, Except.ok.injEq, Option.some.injEq, Prod.mk.injEq]
      constructor
      · rintro rfl
        exact ⟨rest, ⟨rfl, rfl⟩, hrest⟩
      · rintro ⟨_, ⟨rfl, -⟩, -⟩
        rfl
    | cons c rest' => simp [hrest]

/-- **The parser accepts exactly its grammar.** A text is the expression `e` when, without the
blanks at its ends, it is not empty, nests no deeper than allowed and derives `e`. -/
theorem parse_eq_ok_iff (source : String) (e : Expr) :
    parse source = .ok e ↔ trimChars source.toList ≠ [] ∧
      nestingDepth (trimChars source.toList) ≤ maxNesting ∧
      IsExpr (trimChars source.toList) e :=
  parseChars_eq_ok_iff (not_isBlank_of_getLast?_trimChars _)

end TypeHints.Expr
