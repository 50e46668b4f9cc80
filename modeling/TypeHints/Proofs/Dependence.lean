import Mathlib.Data.Set.Insert
import TypeHints.Proofs.Invariant.Resolution
import TypeHints.Proofs.UnboundNames

/-!
# What an annotation depends on

The strings inside an annotation are evaluated, the values they come to may hold strings again,
and so on. A set of names is closed for an annotation if it contains every name in the strings that
are reached in this way through names of the set (`Value.ClosedIn`). Two scopes that agree on
such a set make the same of the annotation, its reports included (`Value.resolve_eq_of_closedIn`).
-/

namespace TypeHints

/-! ## Strings inside values -/

/-- The string constant `s` stands somewhere inside the value. -/
inductive Value.Quotes (s : String) : Value → Prop
  | text (t : Ty) : Value.Quotes s (.object t (some (.str s)))
  | item (t : Ty) {items : List Bindings} {b : Bindings} {v : Value} (hb : b ∈ items)
      (hv : v ∈ b.values) (h : v.Quotes s) : Value.Quotes s (.object t (some (.tuple items)))
  | param (base : Class) (keys : ParamKeys) {params : List (String × Value)} {p : String × Value}
      (hp : p ∈ params) (h : p.2.Quotes s) : Value.Quotes s (.generic base keys params)
  | option {options : List Value} {v : Value} (hv : v ∈ options) (h : v.Quotes s) :
      Value.Quotes s (.union options)

/-- A string that is reached from `v`: inside it, inside a string that is reached, or inside what
a name of `N` stands for. -/
inductive Value.Reaches (globals : Scope) (N : Set String) (v : Value) : String → Prop
  | quoted {s : String} (h : v.Quotes s) : v.Reaches globals N s
  | literal {s s' : String} {e : Expr} (hs : v.Reaches globals N s) (he : Expr.parse s = .ok e)
      (h : .str s' ∈ e.atoms) : v.Reaches globals N s'
  | bound {n : String} {b : Bindings} {w : Value} {s : String} (hn : n ∈ N)
      (hb : globals.get? n = some b) (hw : w ∈ b.values) (h : w.Quotes s) : v.Reaches globals N s

/-- All names in strings that are reached from `v` are in `N`. -/
def Value.ClosedIn (v : Value) (globals : Scope) (N : Set String) : Prop :=
  ∀ s e n, v.Reaches globals N s → Expr.parse s = .ok e → n ∈ e.names → n ∈ N

/-- Evaluation takes the strings of its result from those that satisfy `T`. -/
def Invariant.quoting (T : String → Prop) : Invariant where
  value v := ∀ s, v.Quotes s → T s
  type _ := True
  text := T
  builtin := Builtin.of_resolve (P := fun v => ∀ s, v.Quotes s → T s) (fun _ _ h => by cases h)
    (fun _ _ h => by cases h) (fun _ _ h => by cases h) (fun _ h => by cases h)
    (fun _ h => by cases h) (fun _ _ h => by cases h)
  int _ _ h := by cases h
  str hs _ h := by
    cases h
    exact hs
  text_of_str? hv h := by
    obtain ⟨t, rfl⟩ := Value.eq_object_of_str? h
    exact hv _ (.text t)
  tuple hitems s h := by
    cases h with
    | item _ hb hv h => exact hitems _ hb _ hv s h
  items_of_tuple? hv h b hb w hw s hs := by
    obtain ⟨t, rfl⟩ := Value.eq_object_of_tuple? h
    exact hv s (.item t hb hw hs)
  unknown _ _ h := by cases h
  merged hb := hb.merged (fun _ h => by cases h) fun _ s h => by
    cases h with
    | option hv h => exact hb _ hv s h
  parameterize _ hargs := Class.parameterize_yields (fun _ _ hps s h => by
      cases h with
      | param _ _ hp h => exact hargs _ (hps _ hp) s h) fun _ h => by cases h
  unionOf hvs _ s h := by
    cases h with
    | option hv h =>
      refine Value.forall_flattenAll (P := fun v => ∀ s, v.Quotes s → T s)
        (fun hunion v hv s h => hunion s (.option hv h)) hvs (fun _ hw => ?_) _ hv s h
      cases hw
  type_cls _ := True.intro
  type_none := True.intro
  type_typeVar _ := True.intro
  type_unknown _ := True.intro
  params hv p hp s h := hv s (.param _ _ hp h)
  type_generic _ _ _ := True.intro
  options hv v hmem s h := hv s (.option hmem h)
  type_union _ _ _ := True.intro
  declaredVar _ _ _ h := by cases h
  declaredClass _ _ _ h := by cases h

/-! ## Expressions -/

section Expr

variable {p : Point} {g g' : Scope} {locals : Scope}

theorem Frame.load_congr {n : String} (h : g.get? n = g'.get? n) :
    Frame.load ⟨p, g⟩ locals n = Frame.load ⟨p, g'⟩ locals n := by
  unfold Frame.load
  rw [h]

mutual

/-- An expression reads nothing of the globals but its names. -/
theorem Expr.eval_congr : ∀ {e : Expr}, (∀ n ∈ e.names, g.get? n = g'.get? n) →
    e.eval ⟨p, g⟩ locals = e.eval ⟨p, g'⟩ locals
  | .name n, h => Frame.load_congr (h n List.mem_cons_self)
  | .str _, _ | .int _, _ => rfl
  | .tuple items, h => by
    rw [Expr.eval, Expr.eval, Expr.evalAll_congr h]
  | .subscript value index, h => by
    rw [Expr.names_subscript] at h
    obtain ⟨hvalue, hindex⟩ := List.forall_mem_append.1 h
    have hargs : index.evalArgs ⟨p, g⟩ locals = index.evalArgs ⟨p, g'⟩ locals := by
      unfold Expr.evalArgs
      split
      · exact Expr.evalAll_congr hindex
      · rw [Expr.eval_congr hindex]
    rw [Expr.eval_subscript, Expr.eval_subscript, Expr.eval_congr hvalue, hargs]

theorem Expr.evalAll_congr : ∀ {es : List Expr}, (∀ n ∈ Expr.namesAll es, g.get? n = g'.get? n) →
    Expr.evalAll ⟨p, g⟩ locals es = Expr.evalAll ⟨p, g'⟩ locals es
  | [], _ => rfl
  | e :: es, h => by
    obtain ⟨he, hes⟩ := List.forall_mem_append.1 (Expr.namesAll_cons e es ▸ h)
    rw [Expr.evalAll, Expr.evalAll, Expr.eval_congr he, Expr.evalAll_congr hes]

end

end Expr

/-- So two frames that agree on the names of a text make the same of it. -/
theorem runText_congr {p : Point} {g g' : Scope} {text : String}
    (h : ∀ e, Expr.parse text = .ok e → ∀ n ∈ e.names, g.get? n = g'.get? n) :
    runText ⟨p, g⟩ text = runText ⟨p, g'⟩ text := by
  unfold runText
  split
  · rfl
  · rename_i e he
    rw [Expr.eval_congr (h e he)]

/-! ## Resolution -/

namespace Invariant

variable {I : Invariant}

section Structure

variable {onText onText' : Value → Resolving Ty} {site : Site}

mutual

theorem resolveBy_congr (h : ∀ v, I.value v → onText v = onText' v) : ∀ {v : Value}, I.value v →
    v.resolveBy onText site = v.resolveBy onText' site
  | .cls _, _ | .container _, _ | .typeVar _, _ | .unknown _, _ => rfl
  | .form .union, _ | .form .optional, _ => rfl
  | .generic _ _ params, hv => by
    rw [Value.resolveBy, Value.resolveBy, resolveParamsBy_congr h (I.params hv)]
  | .union options, hv => by
    rw [Value.resolveBy, Value.resolveBy, resolveAllBy_congr h (I.options hv)]
  | .object t constant, hv => by
    rw [Value.resolveBy, Value.resolveBy, h _ hv]
termination_by structural v => v

theorem resolveAllBy_congr (h : ∀ v, I.value v → onText v = onText' v) :
    ∀ {vs : List Value}, (∀ v ∈ vs, I.value v) →
      Value.resolveAllBy onText site vs = Value.resolveAllBy onText' site vs
  | [], _ => rfl
  | v :: vs, hvs => by
    obtain ⟨hv, hvs⟩ := List.forall_mem_cons.1 hvs
    rw [Value.resolveAllBy, Value.resolveAllBy, resolveBy_congr h hv, resolveAllBy_congr h hvs]
termination_by structural vs => vs

theorem resolveParamsBy_congr (h : ∀ v, I.value v → onText v = onText' v) :
    ∀ {ps : List (String × Value)}, (∀ p ∈ ps, I.value p.2) →
      Value.resolveParamsBy onText site ps = Value.resolveParamsBy onText' site ps
  | [], _ => rfl
  | (key, v) :: ps, hps => by
    obtain ⟨hv, hps⟩ := List.forall_mem_cons.1 hps
    rw [Value.resolveParamsBy, Value.resolveParamsBy, resolveBy_congr h hv,
      resolveParamsBy_congr h hps]
termination_by structural ps => ps

end

end Structure

section Frame

variable {frame frame' : Frame} (hframe : I.Evaluates frame)
  (hsame : ∀ text, I.text text → TypeHints.runText frame text = TypeHints.runText frame' text)
  (site : Site) {v : Value}

include hsame

theorem readText_congr (hv : I.value v) : site.readText frame v = site.readText frame' v := by
  unfold Site.readText
  split
  · rfl
  · rename_i text htext
    unfold TypeHints.evalText
    rw [hsame text (I.text_of_str? hv htext)]

include hframe

/-- Two frames that evaluate the texts of an invariant alike resolve alike what satisfies it. -/
theorem resolveIn_congr (levels : Nat) (hv : I.value v) :
    v.resolveIn frame site levels = v.resolveIn frame' site levels := by
  induction levels generalizing v with
  | zero => rfl
  | succ levels ih =>
    refine resolveBy_congr (fun w hw => ?_) hv
    rw [← readText_congr hsame site hw]
    exact (hframe.readText site hw).bind_congr fun u hu => ih hu

theorem resolve_congr (hv : I.value v) :
    v.resolve site (some frame) = v.resolve site (some frame') := by
  rw [Value.resolve_eq, Value.resolve_eq]
  dsimp only
  rw [resolveIn_congr hframe hsame site maxTextNesting hv]

end Frame

end Invariant

/-! ## Closed sets of names -/

section Closed

variable {v : Value} {p : Point} {g g' : Scope} {N : Set String} (hN : v.ClosedIn g N)

include hN

theorem Value.ClosedIn.runText_eq (hg : ∀ n ∈ N, g.get? n = g'.get? n) {text : String}
    (ht : v.Reaches g N text) : runText ⟨p, g⟩ text = runText ⟨p, g'⟩ text :=
  runText_congr fun e he n hn => hg n (hN text e n ht he hn)

/-- Texts that are reached have values that hold only strings that are reached. -/
theorem Value.ClosedIn.evaluates : (Invariant.quoting (v.Reaches g N)).Evaluates ⟨p, g⟩ := by
  -- the names outside of `N` may hold any strings, but they are not read
  obtain ⟨h, hsame, honly⟩ := g.exists_restriction (· ∈ N)
  have hglobals : (Invariant.quoting (v.Reaches g N)).Scope h := fun n b hb w hw s hs =>
    .bound (honly n b hb) (hsame n (honly n b hb) ▸ hb) hw hs
  have hE : (Invariant.quoting (v.Reaches g N)).Evaluable ⟨p, h⟩
      fun e => ∀ s, .str s ∈ e.atoms → v.Reaches g N s :=
    { str := fun hs => hs _ List.mem_cons_self
      items := fun hitems e he s hs => hitems s (Expr.mem_atomsAll_iff.2 ⟨e, he, hs⟩)
      value := fun h s hs => h s (List.mem_append_left _ hs)
      index := fun h s hs => h s (List.mem_append_right _ hs)
      emptyIndex := fun _ _ _ s hs => by
        cases hs with
        | option hv _ => cases hv }
  intro text ht
  rw [hN.runText_eq (fun n hn => (hsame n hn).symm) ht]
  exact Invariant.evaluates_of_evaluable hglobals hE (fun _ ht _ he _ => .literal ht he) text ht

/-- **An annotation depends only on the names it can reach.** If all names in strings that are
reached from an annotation are in `N`, and two scopes agree on `N`, then the annotation has the same
outcome and adds the same reports to every log, whichever of the scopes its strings are evaluated
in. In particular other names may be bound, or bound to something else. -/
theorem Value.resolve_eq_of_closedIn (site : Site) :
    (∀ g' : Scope, (∀ n ∈ N, g.get? n = g'.get? n) → ∃ outcome ds, ∀ log,
      (v.resolve site (some ⟨p, g⟩)).run log = (outcome, log.append ds) ∧
      (v.resolve site (some ⟨p, g'⟩)).run log = (outcome, log.append ds)) ∧
    ∀ n, n ∉ N → ∀ b,
      v.resolve site (some ⟨p, g.insert n b⟩) = v.resolve site (some ⟨p, g⟩) := by
  have hsame (g' : Scope) (hg : ∀ n ∈ N, g.get? n = g'.get? n) :
      v.resolve site (some ⟨p, g⟩) = v.resolve site (some ⟨p, g'⟩) :=
    Invariant.resolve_congr hN.evaluates (fun _ ht => hN.runText_eq hg ht) site fun _ => .quoted
  constructor
  · intro g' hg
    obtain ⟨r, ds, h, -⟩ := v.exists_resolve site (some ⟨p, g⟩)
    exact ⟨_, ds, fun log => ⟨h log, hsame g' hg ▸ h log⟩⟩
  · intro n hn b
    refine (hsame _ fun m hm => ?_).symm
    have hne : m ≠ n := ne_of_mem_of_not_mem hm hn
    rw [SortedMap.get?_insert_of_ne _ _ hne]

end Closed

/-- `Alias` stands for a string, which names `Number`. -/
def aliasScope : Scope :=
  ((∅ : Scope).insert "Alias" (.ofValue .root (.str "Number"))).insert "Number"
    (.ofValue .root (.cls Builtin.int.cls))

theorem parse_listOfAlias :
    Expr.parse "List[Alias]" = .ok (.subscript (.name "List") (.name "Alias")) := by decide +kernel

theorem parse_number : Expr.parse "Number" = .ok (.name "Number") := by decide +kernel

theorem eq_of_aliasScope_reaches {s : String}
    (h : (Value.str "List[Alias]").Reaches aliasScope {"List", "Alias", "Number"} s) :
    s = "List[Alias]" ∨ s = "Number" := by
  induction h with
  | quoted h =>
    cases h
    exact .inl rfl
  | literal _ he hmem ih =>
    rcases ih with rfl | rfl
    · obtain rfl := Except.ok.inj (parse_listOfAlias.symm.trans he)
      simp [Expr.atoms] at hmem
    · obtain rfl := Except.ok.inj (parse_number.symm.trans he)
      simp [Expr.atoms] at hmem
  | bound hn hb hw h =>
    have hlist : aliasScope.get? "List" = none := rfl
    have halias : aliasScope.get? "Alias" = some (.ofValue .root (.str "Number")) := rfl
    have hnumber : aliasScope.get? "Number" = some (.ofValue .root (.cls Builtin.int.cls)) := rfl
    rcases hn with rfl | rfl | rfl
    · rw [hlist] at hb
      cases hb
    · obtain rfl := Option.some.inj (halias.symm.trans hb)
      obtain rfl := List.mem_singleton.1 hw
      cases h
      exact .inr rfl
    · obtain rfl := Option.some.inj (hnumber.symm.trans hb)
      obtain rfl := List.mem_singleton.1 hw
      cases h

theorem aliasScope_closedIn :
    (Value.str "List[Alias]").ClosedIn aliasScope {"List", "Alias", "Number"} := by
  intro s e n hs he hn
  rcases eq_of_aliasScope_reaches hs with rfl | rfl
  · obtain rfl := Except.ok.inj (parse_listOfAlias.symm.trans he)
    rcases List.mem_pair.1 hn with rfl | rfl <;> simp
  · obtain rfl := Except.ok.inj (parse_number.symm.trans he)
    obtain rfl := List.mem_singleton.1 hn
    simp

/-- `"List[Alias]"` reads the names of its text and, through `Alias`, one more. What another name
stands for does not matter. -/
theorem resolve_alias_eq :
    (Value.str "List[Alias]").ClosedIn aliasScope {"List", "Alias", "Number"} ∧
    (Value.str "List[Alias]").resolve ⟨"x", .synthetic⟩
        (some ⟨.root, aliasScope.insert "Other" (.ofValue .root .null)⟩) =
      (Value.str "List[Alias]").resolve ⟨"x", .synthetic⟩ (some ⟨.root, aliasScope⟩) :=
  ⟨aliasScope_closedIn,
    (Value.resolve_eq_of_closedIn aliasScope_closedIn ⟨"x", .synthetic⟩).2 "Other" (by simp) _⟩

end TypeHints
