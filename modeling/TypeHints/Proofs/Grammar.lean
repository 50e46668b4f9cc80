import TypeHints.Proofs.Tokens

/-!
# The grammar

```text
expr := item ("," item)* [","]
item := atom ("[" expr "]")*
atom := string | integer | name | "(" [expr] ")"
```

The grammar as a relation between texts and the expressions they write (`IsExpr`), with space in
front of every token. It says nothing of how a text is read: what a reader takes is written in
the grammar (`readItems_sound`).
-/

namespace TypeHints.Expr

open Text

/-! ## Derivations -/

mutual

/-- An atom, after space. -/
inductive IsAtom : List Char → Expr → Prop
  | literal {ws cs : List Char} {e : Expr} (hws : IsSpaces ws) (h : IsLiteral cs e) :
      IsAtom (ws ++ cs) e
  | unit {os cs : List Char} (ho : Mark '(' os) (hc : Mark ')' cs) : IsAtom (os ++ cs) (.tuple [])
  | group {os body cs : List Char} {e : Expr} (ho : Mark '(' os) (h : IsExpr body e)
      (hc : Mark ')' cs) : IsAtom (os ++ body ++ cs) e

/-- An atom and its subscripts, from left to right. -/
inductive IsItem : List Char → Expr → Prop
  | atom {cs : List Char} {e : Expr} (h : IsAtom cs e) : IsItem cs e
  | subscript {cs os body ds : List Char} {e index : Expr} (h : IsItem cs e) (ho : Mark '[' os)
      (hindex : IsExpr body index) (hc : Mark ']' ds) :
      IsItem (cs ++ (os ++ body ++ ds)) (.subscript e index)

/-- Items with commas between them. -/
inductive IsItems : List Char → List Expr → Prop
  | single {cs : List Char} {e : Expr} (h : IsItem cs e) : IsItems cs [e]
  | snoc {cs comma ds : List Char} {es : List Expr} {e : Expr} (h : IsItems cs es)
      (hcomma : Mark ',' comma) (he : IsItem ds e) : IsItems (cs ++ (comma ++ ds)) (es ++ [e])

/-- One item alone, or a tuple: several items, or items and a last comma. -/
inductive IsExpr : List Char → Expr → Prop
  | item {cs : List Char} {e : Expr} (h : IsItem cs e) : IsExpr cs e
  | tuple {cs : List Char} {es : List Expr} (h : IsItems cs es) (hlen : 2 ≤ es.length) :
      IsExpr cs (.tuple es)
  | trailing {cs comma : List Char} {es : List Expr} (h : IsItems cs es)
      (hcomma : Mark ',' comma) : IsExpr (cs ++ comma) (.tuple es)

end

/-! ## Induction -/

/-- Properties of atoms, items, rows of items and expressions that every rule keeps. -/
structure Closed (A I : List Char → Expr → Prop) (L : List Char → List Expr → Prop)
    (E : List Char → Expr → Prop) : Prop where
  literal : ∀ {ws cs e}, IsSpaces ws → IsLiteral cs e → A (ws ++ cs) e
  unit : ∀ {os cs}, Mark '(' os → Mark ')' cs → A (os ++ cs) (.tuple [])
  group : ∀ {os body cs e}, Mark '(' os → E body e → Mark ')' cs → A (os ++ body ++ cs) e
  atom : ∀ {cs e}, A cs e → I cs e
  subscript : ∀ {cs os body ds e index}, I cs e → Mark '[' os → E body index → Mark ']' ds →
    I (cs ++ (os ++ body ++ ds)) (.subscript e index)
  single : ∀ {cs e}, I cs e → L cs [e]
  snoc : ∀ {cs comma ds es e}, L cs es → Mark ',' comma → I ds e →
    L (cs ++ (comma ++ ds)) (es ++ [e])
  item : ∀ {cs e}, I cs e → E cs e
  tuple : ∀ {cs es}, L cs es → 2 ≤ es.length → E cs (.tuple es)
  trailing : ∀ {cs comma es}, L cs es → Mark ',' comma → E (cs ++ comma) (.tuple es)

section Induction

variable {A I E : List Char → Expr → Prop} {L : List Char → List Expr → Prop}

mutual

theorem Closed.of_isAtom (h : Closed A I L E) : ∀ {cs e}, IsAtom cs e → A cs e
  | _, _, .literal hws hcs => h.literal hws hcs
  | _, _, .unit ho hc => h.unit ho hc
  | _, _, .group ho hbody hc => h.group ho (h.of_isExpr hbody) hc

theorem Closed.of_isItem (h : Closed A I L E) : ∀ {cs e}, IsItem cs e → I cs e
  | _, _, .atom hcs => h.atom (h.of_isAtom hcs)
  | _, _, .subscript hcs ho hindex hc => h.subscript (h.of_isItem hcs) ho (h.of_isExpr hindex) hc

theorem Closed.of_isItems (h : Closed A I L E) : ∀ {cs es}, IsItems cs es → L cs es
  | _, _, .single hcs => h.single (h.of_isItem hcs)
  | _, _, .snoc hcs hcomma he => h.snoc (h.of_isItems hcs) hcomma (h.of_isItem he)

theorem Closed.of_isExpr (h : Closed A I L E) : ∀ {cs e}, IsExpr cs e → E cs e
  | _, _, .item hcs => h.item (h.of_isItem hcs)
  | _, _, .tuple hcs hlen => h.tuple (h.of_isItems hcs) hlen
  | _, _, .trailing hcs hcomma => h.trailing (h.of_isItems hcs) hcomma

end

/-- Induction on the subscripts of an item alone. -/
@[elab_as_elim]
theorem IsItem.leftRec {motive : ∀ cs e, IsItem cs e → Prop}
    (atom : ∀ {cs e} (h : IsAtom cs e), motive cs e (.atom h))
    (subscript : ∀ {cs os body ds e index} (h : IsItem cs e) (ho : Mark '[' os)
      (hindex : IsExpr body index) (hc : Mark ']' ds), motive cs e h →
        motive _ _ (.subscript h ho hindex hc))
    {cs : List Char} {e : Expr} (h : IsItem cs e) : motive cs e h :=
  @IsItem.rec (fun _ _ _ => True) motive (fun _ _ _ => True) (fun _ _ _ => True)
    (fun _ _ => trivial) (fun _ _ => trivial) (fun _ _ _ _ => trivial) (fun h _ => atom h)
    (fun h ho hindex hc ih _ => subscript h ho hindex hc ih) (fun _ _ => trivial)
    (fun _ _ _ _ _ => trivial) (fun _ _ => trivial) (fun _ _ _ => trivial)
    (fun _ _ _ => trivial) cs e h

/-- Induction on a row of items alone. -/
@[elab_as_elim]
theorem IsItems.leftRec {motive : ∀ cs es, IsItems cs es → Prop}
    (single : ∀ {cs e} (h : IsItem cs e), motive cs [e] (.single h))
    (snoc : ∀ {cs comma ds es e} (h : IsItems cs es) (hcomma : Mark ',' comma) (he : IsItem ds e),
      motive cs es h → motive _ _ (.snoc h hcomma he))
    {cs : List Char} {es : List Expr} (h : IsItems cs es) : motive cs es h :=
  @IsItems.rec (fun _ _ _ => True) (fun _ _ _ => True) motive (fun _ _ _ => True)
    (fun _ _ => trivial) (fun _ _ => trivial) (fun _ _ _ _ => trivial) (fun _ _ => trivial)
    (fun _ _ _ _ _ _ => trivial) (fun h _ => single h)
    (fun h hcomma he ih _ => snoc h hcomma he ih) (fun _ _ => trivial) (fun _ _ _ => trivial)
    (fun _ _ _ => trivial) cs es h

end Induction

/-! ## Readers take derivations -/

/-- What `r` takes is in the grammar, and space in front does not matter. -/
structure Sound (r : Reader Expr) : Prop where
  skip : ∀ cs, r (skipSpace cs) = r cs
  sound : ∀ {cs rest e}, r cs = some (e, rest) → ∃ used, cs = used ++ rest ∧ IsExpr used e

theorem readChar_skipSpace (c : Char) (cs : List Char) :
    readChar c (skipSpace cs) = readChar c cs := by
  unfold readChar
  rw [skipSpace_skipSpace]

theorem iterate_sound {α : Type} {step : α → Reader α} {P : List Char → α → Prop}
    (hstep : ∀ {used a cs a' rest}, P used a → step a cs = some (a', rest) →
      ∃ more, cs = more ++ rest ∧ P (used ++ more) a')
    (n : Nat) {a : α} {used : List Char} (cs : List Char) (h : P used a) :
    ∃ more, cs = more ++ (iterate step n a cs).2 ∧ P (used ++ more) (iterate step n a cs).1 := by
  induction n generalizing a used cs with
  | zero => exact ⟨[], rfl, by rwa [List.append_nil]⟩
  | succ n ih =>
    rw [iterate]
    cases hread : step a cs with
    | none => exact ⟨[], rfl, by rwa [List.append_nil]⟩
    | some x =>
      obtain ⟨a', rest⟩ := x
      obtain ⟨more, rfl, h'⟩ := hstep h hread
      obtain ⟨more', hrest, h''⟩ := ih rest h'
      refine ⟨more ++ more', ?_, by rwa [← List.append_assoc]⟩
      rw [List.append_assoc, ← hrest]

section Sound

variable {inner? : Option (Reader Expr)} {cs rest : List Char} {e : Expr}

theorem readGroup_eq {expr : Reader Expr} (hskip : ∀ cs, expr (skipSpace cs) = expr cs)
    (cs : List Char) : readGroup expr cs =
      match expr cs with
      | some (e, rest) => (readChar ')' rest).map fun ((), rest) => (e, rest)
      | none => (readChar ')' cs).map fun ((), rest) => (.tuple [], rest) := by
  unfold readGroup
  simp only [hskip]
  cases expr cs with
  | some x =>
    simp only [Option.getD_some]
    cases readChar ')' x.2 <;> rfl
  | none =>
    simp only [Option.getD_none, readChar_skipSpace]
    cases readChar ')' cs <;> rfl

theorem readGroup_sound {expr : Reader Expr} (hexpr : Sound expr)
    (h : readGroup expr cs = some (e, rest)) :
    (∃ close, cs = close ++ rest ∧ Mark ')' close ∧ e = .tuple []) ∨
    ∃ body close, cs = body ++ close ++ rest ∧ IsExpr body e ∧ Mark ')' close := by
  rw [readGroup_eq hexpr.skip] at h
  split at h
  · rename_i e' rest' hread
    obtain ⟨⟨⟨⟩, rest''⟩, hclose, h⟩ := Option.map_eq_some_iff.1 h
    obtain ⟨rfl, rfl⟩ := Prod.mk.inj h
    obtain ⟨body, rfl, hbody⟩ := hexpr.sound hread
    obtain ⟨close, rfl, hmark⟩ := readChar_sound hclose
    exact .inr ⟨body, close, (List.append_assoc _ _ _).symm, hbody, hmark⟩
  · obtain ⟨⟨⟨⟩, rest''⟩, hclose, h⟩ := Option.map_eq_some_iff.1 h
    obtain ⟨rfl, rfl⟩ := Prod.mk.inj h
    obtain ⟨close, rfl, hmark⟩ := readChar_sound hclose
    exact .inl ⟨close, rfl, hmark, rfl⟩

theorem readAtom_sound (hinner : ∀ inner ∈ inner?, Sound inner)
    (h : readAtom inner? cs = some (e, rest)) : ∃ used, cs = used ++ rest ∧ IsAtom used e := by
  obtain ⟨ws, hws, hcs⟩ := exists_skipSpace cs
  unfold readAtom at h
  split at h
  · rename_i inner tail hskip
    have hopen : Mark '(' (ws ++ ['(']) := ⟨ws, hws, rfl⟩
    rw [hskip] at hcs
    obtain ⟨close, rfl, hclose, rfl⟩ | ⟨body, close, rfl, hbody, hclose⟩ :=
      readGroup_sound (hinner inner rfl) h
    · exact ⟨_, by simp [hcs], .unit hopen hclose⟩
    · exact ⟨_, by simp [hcs], .group hopen hbody hclose⟩
  · obtain ⟨used, hused, hliteral⟩ := readLiteral_sound h
    exact ⟨_, by rw [hcs, hused, List.append_assoc], .literal hws hliteral⟩

theorem readIndex_sound (hinner : ∀ inner ∈ inner?, Sound inner) {value : Expr}
    (h : readIndex inner? value cs = some (e, rest)) :
    ∃ os body ds index, cs = os ++ body ++ ds ++ rest ∧ e = .subscript value index ∧
      Mark '[' os ∧ IsExpr body index ∧ Mark ']' ds := by
  unfold readIndex at h
  obtain ⟨inner, hsome, h⟩ := Option.bind_eq_some_iff.1 h
  obtain ⟨⟨⟨⟩, rest₁⟩, hopen, h⟩ := Option.bind_eq_some_iff.1 h
  obtain ⟨⟨index, rest₂⟩, hindex, h⟩ := Option.bind_eq_some_iff.1 h
  obtain ⟨⟨⟨⟩, rest₃⟩, hclose, h⟩ := Option.bind_eq_some_iff.1 h
  obtain ⟨rfl, rfl⟩ := Prod.mk.inj (Option.some.inj h)
  have hread := hinner inner hsome
  rw [hread.skip] at hindex
  obtain ⟨os, rfl, hos⟩ := readChar_sound hopen
  obtain ⟨body, rfl, hbody⟩ := hread.sound hindex
  obtain ⟨ds, rfl, hds⟩ := readChar_sound hclose
  exact ⟨os, body, ds, index, by simp, rfl, hos, hbody, hds⟩

theorem readItem_sound (hinner : ∀ inner ∈ inner?, Sound inner) {steps : Nat}
    (h : readItem steps inner? cs = some (e, rest)) :
    ∃ used, cs = used ++ rest ∧ IsItem used e := by
  obtain ⟨⟨atom, rest'⟩, hatom, hrest⟩ := Option.bind_eq_some_iff.1 h
  obtain ⟨used, rfl, hused⟩ := readAtom_sound hinner hatom
  have hstep : ∀ {used value cs value' rest}, IsItem used value →
      readIndex inner? value cs = some (value', rest) →
      ∃ more, cs = more ++ rest ∧ IsItem (used ++ more) value' := by
    intro used value cs value' rest hitem hread
    obtain ⟨os, body, ds, index, rfl, rfl, hos, hbody, hds⟩ := readIndex_sound hinner hread
    exact ⟨_, rfl, .subscript hitem hos hbody hds⟩
  obtain ⟨more, hmore, hitem⟩ :=
    iterate_sound (P := IsItem) hstep steps rest' (.atom hused)
  have heq : iterate (readIndex inner?) steps atom rest' = (e, rest) := Option.some.inj hrest
  rw [heq] at hmore hitem
  exact ⟨used ++ more, by rw [hmore, List.append_assoc], hitem⟩

theorem readNextItem_sound (hinner : ∀ inner ∈ inner?, Sound inner) {steps : Nat}
    {items items' : List Expr} (h : readNextItem steps inner? items cs = some (items', rest)) :
    ∃ comma ds, cs = comma ++ ds ++ rest ∧ Mark ',' comma ∧
      ∃ item, IsItem ds item ∧ items' = item :: items := by
  obtain ⟨⟨⟨⟩, rest₁⟩, hcomma, h⟩ := Option.bind_eq_some_iff.1 h
  obtain ⟨⟨item, rest₂⟩, hitem, h⟩ := Option.bind_eq_some_iff.1 h
  obtain ⟨rfl, rfl⟩ := Prod.mk.inj (Option.some.inj h)
  obtain ⟨comma, rfl, hmark⟩ := readChar_sound hcomma
  obtain ⟨ds, rfl, hds⟩ := readItem_sound hinner hitem
  exact ⟨comma, ds, (List.append_assoc _ _ _).symm, hmark, item, hds, rfl⟩

theorem IsItems.length_pos {cs : List Char} {es : List Expr} (h : IsItems cs es) :
    0 < es.length := by
  cases h <;> simp

theorem IsItems.of_singleton {cs : List Char} {e : Expr} (h : IsItems cs [e]) : IsItem cs e := by
  generalize hes : [e] = es at h
  cases h with
  | single h => cases hes; exact h
  | snoc h =>
    have hlen := congrArg List.length hes
    have hpos := h.length_pos
    simp only [List.length_append, List.length_singleton] at hlen
    omega

/-- Items in a row and a last comma or none make an expression. -/
theorem readItems_sound (hinner : ∀ inner ∈ inner?, Sound inner) {steps : Nat}
    (h : readItems steps inner? cs = some (e, rest)) :
    ∃ used, cs = used ++ rest ∧ IsExpr used e := by
  obtain ⟨⟨first, rest₁⟩, hfirst, hread⟩ := Option.bind_eq_some_iff.1 h
  obtain ⟨used, rfl, hused⟩ := readItem_sound hinner hfirst
  -- the items so far are read from the right, and the first one stays at the end
  let P : List Char → List Expr → Prop := fun cs items =>
    IsItems cs items.reverse ∧ items.getLast? = some first
  have hstep : ∀ {used items cs items' rest}, P used items →
      readNextItem steps inner? items cs = some (items', rest) →
      ∃ more, cs = more ++ rest ∧ P (used ++ more) items' := by
    rintro used items cs items' rest ⟨hitems, hlast⟩ hread
    obtain ⟨comma, ds, rfl, hcomma, item, hitem, rfl⟩ := readNextItem_sound hinner hread
    refine ⟨_, rfl, ?_, by rw [List.getLast?_cons, hlast]; rfl⟩
    rw [List.reverse_cons]
    exact .snoc hitems hcomma hitem
  have hone : P used [first] := ⟨.single hused, rfl⟩
  obtain ⟨more, hmore, hitems, hlast⟩ := iterate_sound (P := P) hstep steps rest₁ hone
  dsimp only at hread
  generalize iterate (readNextItem steps inner?) steps [first] rest₁ = reached
    at hread hmore hitems hlast
  obtain ⟨items, rest₂⟩ := reached
  dsimp only at hread hmore hitems hlast
  split at hread
  · rename_i hcomma
    obtain ⟨rfl, rfl⟩ := Prod.mk.inj (Option.some.inj hread)
    obtain ⟨comma, rfl, hmark⟩ := readChar_sound hcomma
    exact ⟨used ++ more ++ comma, by simp [hmore], .trailing hitems hmark⟩
  · obtain ⟨rfl, rfl⟩ := Prod.mk.inj (Option.some.inj hread)
    obtain rfl := Option.some.inj hlast
    exact ⟨used ++ more, by simp [hmore], .item hitems.of_singleton⟩
  · rename_i items _ _ _ hne
    obtain ⟨rfl, rfl⟩ := Prod.mk.inj (Option.some.inj hread)
    have hpos := hitems.length_pos
    have hlen : items.length ≠ 1 := fun h => by
      obtain ⟨x, hx⟩ := List.length_eq_one_iff.1 h
      exact hne x hx
    refine ⟨used ++ more, by simp [hmore], .tuple hitems ?_⟩
    rw [List.length_reverse] at hpos ⊢
    omega

end Sound

theorem readAtom_skipSpace (inner? : Option (Reader Expr)) (cs : List Char) :
    readAtom inner? (skipSpace cs) = readAtom inner? cs := by
  unfold readAtom
  rw [skipSpace_skipSpace]

theorem readItems_skipSpace (steps : Nat) (inner? : Option (Reader Expr)) (cs : List Char) :
    readItems steps inner? (skipSpace cs) = readItems steps inner? cs := by
  unfold readItems readItem
  rw [readAtom_skipSpace]

theorem readExpr_sound (steps room : Nat) : Sound (readExpr steps room) := by
  induction room with
  | zero => exact ⟨readItems_skipSpace steps none, readItems_sound (by simp)⟩
  | succ room ih =>
    exact ⟨readItems_skipSpace steps _, readItems_sound fun inner hinner => by
      obtain rfl := Option.some.inj hinner
      exact ih⟩

end TypeHints.Expr
