import TypeHints.Proofs.Bindings

/-!
# The first binding of a value counts

Bindings are built by binding values at points and by merging (`Building`); the calls that bind a
value stand in one order, whatever was merged in between. Of several equal values the one that
was bound first stays, together with its point (`Building.toList_bindings`), so where a value is
visible depends on its first call alone.

A call at an earlier point that comes later is lost: merging hides a value where only the second
of the two bindings made it visible (`visible_extend_of_later`). As long as no value is bound
again at a point before its first one, a value is visible wherever a call made it so, and merging
shows what either of the two shows (`Building.shows_by_first`).
-/

namespace TypeHints

/-- Adding members to a list keeps what a search finds, if it takes same members for one another. -/
theorem find?_addAllNew {α : Type} {same : α → α → Bool} {p : α → Bool}
    (hp : ∀ x y, same x y = true → p x = p y) (xs ys : List α) :
    (addAllNew same xs ys).find? p = (xs ++ ys).find? p := by
  induction ys generalizing xs with
  | nil => rw [addAllNew_nil, List.append_nil]
  | cons y ys ih =>
    rw [addAllNew_cons, ih, addNew]
    split
    · rename_i hany
      obtain ⟨x, hx, hsame⟩ := List.any_eq_true.1 hany
      rw [List.find?_append, List.find?_append, List.find?_cons]
      cases hy : p y with
      | false => rfl
      | true =>
        -- the member that is the same is found before `y` is reached
        have hfound : (xs.find? p).isSome = true :=
          List.find?_isSome.2 ⟨x, hx, (hp x y hsame).trans hy⟩
        obtain ⟨z, hz⟩ := Option.isSome_iff_exists.1 hfound
        rw [hz]
        rfl
    · rw [List.append_assoc, List.singleton_append]

/-- A search in a list without repetition finds the one member it asks for. -/
theorem Distinct.find?_eq_some_iff {α : Type} {same : α → α → Bool} {p : α → Bool} {xs : List α}
    (h : Distinct same xs) (hp : ∀ x y, p x = true → p y = true → same x y = true) {x : α} :
    xs.find? p = some x ↔ x ∈ xs ∧ p x = true := by
  refine ⟨fun hx => ⟨List.mem_of_find?_eq_some hx, List.find?_some hx⟩, fun ⟨hx, hpx⟩ => ?_⟩
  obtain ⟨y, hy⟩ := Option.isSome_iff_exists.1 (List.find?_isSome.2 ⟨x, hx, hpx⟩)
  have hpy : p y = true := List.find?_some hy
  obtain ⟨before, after, rfl, hbefore⟩ := (List.find?_eq_some_iff_append.1 hy).2
  rcases List.mem_append.1 hx with hx | hx
  · have hnot := hbefore x hx
    rw [hpx] at hnot
    cases hnot
  rcases List.mem_cons.1 hx with rfl | hx
  · exact hy
  · have hne := (List.pairwise_cons.1 (List.pairwise_append.1 h).2.1).1 x hx
    rw [hp y x hpy hpx] at hne
    cases hne

/-! ## Building bindings -/

/-- A way to build bindings. -/
inductive Building where
  | empty
  | ofValue (p : Point) (v : Value)
  | ofValues (p : Point) (vs : List Value)
  | add (b : Building) (p : Point) (v : Value)
  | extend (b c : Building)

namespace Building

/-- What is built. -/
def bindings : Building → Bindings
  | empty => ∅
  | ofValue p v => .ofValue p v
  | ofValues p vs => .ofValues p vs
  | add b p v => b.bindings.add p v
  | extend b c => b.bindings.extend c.bindings

/-- All that is bound on the way, in order: each value as often as it is bound, and with the point
it is bound at. -/
def calls : Building → List Binding
  | empty => []
  | ofValue p v => [⟨v, p⟩]
  | ofValues p vs => vs.map (⟨·, p⟩)
  | add b p v => b.calls ++ [⟨v, p⟩]
  | extend b c => b.calls ++ c.calls

end Building

theorem Bindings.toList_ofValues (p : Point) (vs : List Value) :
    (Bindings.ofValues p vs).toList = addAllNew Binding.sameValue [] (vs.map (⟨·, p⟩)) := by
  suffices ∀ b : Bindings, (vs.foldl (·.add p ·) b).toList =
      addAllNew Binding.sameValue b.toList (vs.map (⟨·, p⟩)) from this ∅
  induction vs with
  | nil => exact fun _ => rfl
  | cons v vs ih => exact fun b => ih (b.add p v)

/-- The first call of every value stays, and no other. -/
theorem Building.toList_bindings (b : Building) :
    b.bindings.toList = addAllNew Binding.sameValue [] b.calls := by
  induction b with
  | empty => rfl
  | ofValue p v => rfl
  | ofValues p vs => exact Bindings.toList_ofValues p vs
  | add b p v ih =>
    show addNew Binding.sameValue b.bindings.toList ⟨v, p⟩ = _
    rw [ih, calls, addAllNew_append]
    rfl
  | extend b c ihb ihc =>
    show addAllNew Binding.sameValue b.bindings.toList c.bindings.toList = _
    rw [ihb, ihc, calls, addAllNew_append, addAllNew_addAllNew Binding.sameValue_iff]

/-- No value is built twice. -/
theorem Building.distinct (b : Building) : Distinct Binding.sameValue b.bindings.toList := by
  rw [b.toList_bindings]
  exact Distinct.addAllNew _ .nil _

/-! ## Where a value shows -/

/-- An equal value is visible at `p`. -/
def Bindings.Shows (b : Bindings) (p : Point) (v : Value) : Prop :=
  ∃ w ∈ b.visible p, (w == v) = true

/-- An equal value is there, wherever it was bound. -/
def Bindings.Holds (b : Bindings) (v : Value) : Prop := ∃ w ∈ b.values, (w == v) = true

theorem Bindings.shows_iff {b : Bindings} {p : Point} {v : Value} :
    b.Shows p v ↔ ∃ x ∈ b.toList, (x.value == v) = true ∧ x.origin ≤ p := by
  unfold Bindings.Shows Bindings.visible
  constructor
  · rintro ⟨w, hw, hwv⟩
    obtain ⟨x, hx, rfl⟩ := List.mem_map.1 hw
    obtain ⟨hx, hp⟩ := List.mem_filter.1 hx
    exact ⟨x, hx, hwv, of_decide_eq_true hp⟩
  · rintro ⟨x, hx, hxv, hp⟩
    exact ⟨x.value, List.mem_map_of_mem (List.mem_filter.2 ⟨hx, decide_eq_true hp⟩), hxv⟩

theorem Bindings.holds_iff {b : Bindings} {v : Value} :
    b.Holds v ↔ ∃ x ∈ b.toList, (x.value == v) = true := by
  simp [Bindings.Holds, Bindings.values]

/-! ## Calls in order -/

/-- No value is bound again at a point before its first one. -/
def InOrder (calls : List Binding) : Prop :=
  ∀ y ∈ calls, ∀ x, calls.find? (·.value == y.value) = some x → x.origin ≤ y.origin

namespace Building

variable (b c : Building) (p : Point) (v : Value)

theorem find?_bindings :
    b.bindings.toList.find? (·.value == v) = b.calls.find? (·.value == v) := by
  rw [b.toList_bindings, find?_addAllNew fun x y hsame => BEq.congr_left hsame, List.nil_append]

theorem find?_bindings_eq_some_iff {x : Binding} :
    b.bindings.toList.find? (·.value == v) = some x ↔
      x ∈ b.bindings.toList ∧ (x.value == v) = true :=
  b.distinct.find?_eq_some_iff fun _ _ hx hy => BEq.trans hx (BEq.symm hy)

/-- The first call of a value decides where it shows. -/
theorem shows_iff_find? :
    b.bindings.Shows p v ↔ ∃ x, b.calls.find? (·.value == v) = some x ∧ x.origin ≤ p := by
  rw [Bindings.shows_iff, ← find?_bindings]
  simp only [find?_bindings_eq_some_iff, and_assoc]

theorem holds_iff_find? : b.bindings.Holds v ↔ ∃ x, b.calls.find? (·.value == v) = some x := by
  rw [Bindings.holds_iff, ← find?_bindings]
  simp only [find?_bindings_eq_some_iff]

/-- Merging adds what was not there before. -/
theorem shows_extend :
    (b.extend c).bindings.Shows p v ↔
      b.bindings.Shows p v ∨ (c.bindings.Shows p v ∧ ¬ b.bindings.Holds v) := by
  rw [shows_iff_find?, shows_iff_find?, shows_iff_find?, holds_iff_find?, calls, List.find?_append]
  cases b.calls.find? (·.value == v) with
  | some x => simp
  | none => simp

/-- Every call counts exactly if the calls of each value are in order. -/
theorem shows_iff_call_iff :
    (∀ p v, b.bindings.Shows p v ↔ ∃ x ∈ b.calls, (x.value == v) = true ∧ x.origin ≤ p) ↔
      InOrder b.calls := by
  constructor
  · intro h y hy x hx
    obtain ⟨z, hz, hle⟩ := (b.shows_iff_find? y.origin y.value).1
      ((h y.origin y.value).2 ⟨y, hy, BEq.rfl, Point.le_refl _⟩)
    obtain rfl : z = x := Option.some.inj (hz.symm.trans hx)
    exact hle
  · intro h p v
    rw [b.shows_iff_find?]
    constructor
    · rintro ⟨x, hx, hle⟩
      exact ⟨x, List.mem_of_find?_eq_some hx, by simpa using List.find?_some hx, hle⟩
    · rintro ⟨y, hy, hyv, hle⟩
      obtain ⟨x, hx⟩ : ∃ x, b.calls.find? (·.value == v) = some x :=
        Option.isSome_iff_exists.1 (List.find?_isSome.2 ⟨y, hy, hyv⟩)
      have hsame : (fun z : Binding => z.value == y.value) = fun z => z.value == v :=
        funext fun z => BEq.congr_right hyv
      exact ⟨x, hx, Point.le_trans (h y hy x (by rw [hsame, hx])) hle⟩

/-- Merging shows what either shows exactly if no common value was bound later in the first. -/
theorem shows_extend_iff :
    (∀ p v, (b.extend c).bindings.Shows p v ↔ b.bindings.Shows p v ∨ c.bindings.Shows p v) ↔
      ∀ x ∈ b.bindings.toList, ∀ y ∈ c.bindings.toList, (x.value == y.value) = true →
        x.origin ≤ y.origin := by
  constructor
  · intro h x hx y hy hxy
    have hshow : (b.extend c).bindings.Shows y.origin y.value :=
      (h y.origin y.value).2 (.inr (Bindings.shows_iff.2 ⟨y, hy, BEq.rfl, Point.le_refl _⟩))
    have hholds : b.bindings.Holds y.value := Bindings.holds_iff.2 ⟨x, hx, hxy⟩
    -- it shows through the binding that was there before, which is `x`
    have hbefore := ((b.shows_extend c _ _).1 hshow).resolve_right fun hnew => hnew.2 hholds
    obtain ⟨z, hz, hzy, hle⟩ := Bindings.shows_iff.1 hbefore
    have hfind := (b.find?_bindings_eq_some_iff y.value).2 ⟨hz, hzy⟩
    obtain rfl : z = x := Option.some.inj
      (hfind.symm.trans ((b.find?_bindings_eq_some_iff y.value).2 ⟨hx, hxy⟩))
    exact hle
  · intro h p v
    rw [b.shows_extend]
    refine ⟨Or.imp_right And.left, fun hshow => ?_⟩
    by_cases hholds : b.bindings.Holds v
    · refine .inl (hshow.elim id fun hc => ?_)
      obtain ⟨x, hx, hxv⟩ := Bindings.holds_iff.1 hholds
      obtain ⟨y, hy, hyv, hle⟩ := Bindings.shows_iff.1 hc
      exact Bindings.shows_iff.2
        ⟨x, hx, hxv, Point.le_trans (h x hx y hy (BEq.trans hxv (BEq.symm hyv))) hle⟩
    · exact hshow.imp_right fun hc => ⟨hc, hholds⟩

end Building

/-- **The first binding counts.** In bindings that are built in any way, a value is visible at `p`
exactly if the first call that binds an equal one does so at `p` or before; merging `c` into `b`
shows what `b` shows, and what `c` shows of the values that `b` does not hold. So a value is
visible exactly where some call made it so if and only if no value is bound again at a point
before its first one, and merging shows exactly what either of the two shows if and only if `b`
did not bind a common value later than `c`. -/
theorem Building.shows_by_first (b c : Building) :
    (∀ p v, b.bindings.Shows p v ↔
      ∃ x, b.calls.find? (·.value == v) = some x ∧ x.origin ≤ p) ∧
    (∀ p v, (b.bindings.extend c.bindings).Shows p v ↔
      b.bindings.Shows p v ∨ (c.bindings.Shows p v ∧ ¬ b.bindings.Holds v)) ∧
    ((∀ p v, b.bindings.Shows p v ↔ ∃ x ∈ b.calls, (x.value == v) = true ∧ x.origin ≤ p) ↔
      InOrder b.calls) ∧
    ((∀ p v, (b.bindings.extend c.bindings).Shows p v ↔
        b.bindings.Shows p v ∨ c.bindings.Shows p v) ↔
      ∀ x ∈ b.bindings.toList, ∀ y ∈ c.bindings.toList, (x.value == y.value) = true →
        x.origin ≤ y.origin) :=
  ⟨b.shows_iff_find?, b.shows_extend c, b.shows_iff_call_iff, b.shows_extend_iff c⟩

/-- The class `int`, bound at 2, is visible at 3; it no longer is once it is merged into bindings
that have it from 5, and it is not if it was bound at 5 before. -/
theorem visible_extend_of_later :
    (Bindings.ofValue ⟨2⟩ (.cls Builtin.int.cls)).visible ⟨3⟩ = [.cls Builtin.int.cls] ∧
      ((Bindings.ofValue ⟨5⟩ (.cls Builtin.int.cls)).extend
        (.ofValue ⟨2⟩ (.cls Builtin.int.cls))).visible ⟨3⟩ = [] ∧
      (((∅ : Bindings).add ⟨5⟩ (.cls Builtin.int.cls)).add ⟨2⟩ (.cls Builtin.int.cls)).visible ⟨3⟩ =
        [] := by
  refine ⟨rfl, ?_⟩
  decide

end TypeHints
