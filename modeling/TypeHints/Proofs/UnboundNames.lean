import TypeHints.Proofs.Evaluation

/-!
# Names that are bound nowhere

A name is bound nowhere if neither the locals nor the globals bind it and it is no builtin name,
with or without `typing.` in front (`Frame.Unbound`). Evaluating an expression comes to each of
its names once, from left to right, however many values the names before have and whatever else
is reported. So its name errors are the occurrences of unbound names in the order in which they
are written (`Expr.eval_reports_unbound`).
-/

namespace TypeHints

/-! ## The names of an expression -/

mutual

/-- The names, strings and numbers that an expression is made of, from left to right. -/
def Expr.atoms : Expr → List Expr
  | .name n => [.name n]
  | .str s => [.str s]
  | .int i => [.int i]
  | .tuple items => Expr.atomsAll items
  | .subscript value index => value.atoms ++ index.atoms

/-- The names, strings and numbers of several expressions. -/
def Expr.atomsAll : List Expr → List Expr
  | [] => []
  | e :: es => e.atoms ++ Expr.atomsAll es

end

/-- The name, if the expression is one. -/
def Expr.name? : Expr → Option String
  | .name n => some n
  | _ => none

/-- The names in an expression, from left to right, each as often as it occurs. -/
def Expr.names (e : Expr) : List String := e.atoms.filterMap Expr.name?

/-- The names in several expressions. -/
def Expr.namesAll (es : List Expr) : List String := (Expr.atomsAll es).filterMap Expr.name?

namespace Expr

@[simp] theorem names_name (n : String) : (name n).names = [n] := rfl

@[simp] theorem names_str (s : String) : (str s).names = [] := rfl

@[simp] theorem names_int (i : Int64) : (int i).names = [] := rfl

@[simp] theorem names_tuple (items : List Expr) : (tuple items).names = namesAll items := rfl

@[simp] theorem names_subscript (value index : Expr) :
    (subscript value index).names = value.names ++ index.names := List.filterMap_append

@[simp] theorem namesAll_nil : namesAll [] = [] := rfl

@[simp] theorem namesAll_cons (e : Expr) (es : List Expr) :
    namesAll (e :: es) = e.names ++ namesAll es := List.filterMap_append

theorem mem_atomsAll_iff {a : Expr} {es : List Expr} :
    a ∈ atomsAll es ↔ ∃ e ∈ es, a ∈ e.atoms := by
  induction es with
  | nil => simp [atomsAll]
  | cons e es ih => simp [atomsAll, ih]

example : (subscript (name "Dict") (tuple [name "A", subscript (name "A") (name "B")])).names =
    ["Dict", "A", "A", "B"] := by decide

end Expr

/-! ## Unbound names -/

/-- The names that are there from the start, without `typing.`. -/
def Builtin.names : List String :=
  Builtin.all.map (·.name) ++ containers.map (·.1) ++ otherNames.map (·.1)

/-- No scope binds the name, and it is neither a builtin name nor one after `typing.`. -/
structure Frame.Unbound (frame : Frame) (locals : Scope) (name : String) : Prop where
  locals : locals.get? name = none
  globals : frame.globals.get? name = none
  builtin : ∀ b ∈ Builtin.names, name ≠ b ∧ name ≠ "typing." ++ b

instance (frame : Frame) (locals : Scope) (name : String) :
    Decidable (frame.Unbound locals name) :=
  decidable_of_iff ((locals.get? name).isNone ∧ (frame.globals.get? name).isNone ∧
      ∀ b ∈ Builtin.names, name ≠ b ∧ name ≠ "typing." ++ b) <| by
    simp only [Option.isNone_iff_eq_none]
    exact ⟨fun ⟨h, h', h''⟩ => ⟨h, h', h''⟩, fun h => ⟨h.locals, h.globals, h.builtin⟩⟩

theorem Builtin.lookup_eq_none_iff {name : String} : lookup name = none ↔ name ∉ names := by
  have hclass : ofName? name = none ↔ name ∉ Builtin.all.map (·.name) := by
    simp only [ofName?, List.find?_eq_none, List.mem_map, beq_iff_eq, not_exists, not_and]
  have hlookup {α : Type} (entries : List (String × α)) :
      entries.lookup name = none ↔ name ∉ entries.map (·.1) := by
    simp only [List.lookup_eq_none_iff, List.mem_map, not_exists, not_and, bne_iff_ne, ne_comm]
  simp only [lookup, names, Option.orElse_eq_orElse, Option.orElse_eq_or, Option.or_eq_none_iff,
    Option.map_eq_none_iff, List.mem_append, not_or, hclass, hlookup, and_assoc]

theorem Builtin.isPrefixOf?_typing {name : String} {rest : List Char} :
    "typing.".toList.isPrefixOf? name.toList = some rest ↔
      name = "typing." ++ String.ofList rest := by
  rw [List.isPrefixOf?_eq_some_iff_append_eq, eq_comm, ← String.toList_inj]
  simp only [String.toList_append, String.toList_ofList]

/-- No builtin name begins with `typing.` itself. -/
theorem Builtin.ne_typing_append {b : String} (h : b ∈ names) (rest : List Char) :
    b ≠ "typing." ++ String.ofList rest := by
  have hnone : ∀ b ∈ names, "typing.".toList.isPrefixOf? b.toList = none := by decide
  intro heq
  have hsome := isPrefixOf?_typing.2 heq
  rw [hnone b h] at hsome
  cases hsome

/-- Builtin names are reached as they are and after one `typing.`. -/
theorem Builtin.resolve_eq_none_iff {name : String} :
    resolve name = none ↔ ∀ b ∈ names, name ≠ b ∧ name ≠ "typing." ++ b := by
  unfold resolve
  rw [lookup_eq_none_iff]
  cases h : "typing.".toList.isPrefixOf? name.toList with
  | none =>
    refine ⟨fun hname b hb => ⟨fun heq => hname (heq ▸ hb), ?_⟩, fun hall hname => ?_⟩
    · intro heq
      have hsome : "typing.".toList.isPrefixOf? name.toList = some b.toList :=
        isPrefixOf?_typing.2 (by rw [heq, String.ofList_toList])
      rw [h] at hsome
      cases hsome
    · exact (hall name hname).1 rfl
  | some rest =>
    obtain rfl := isPrefixOf?_typing.1 h
    show String.ofList rest ∉ names ↔ _
    refine ⟨fun hrest b hb => ⟨(ne_typing_append hb rest).symm, fun heq => ?_⟩,
      fun hall hrest => (hall _ hrest).2 rfl⟩
    rw [String.append_right_inj] at heq
    exact hrest (heq ▸ hb)

/-! ## Reports of names -/

/-- Whatever the log, `m` reports these unbound names, each as one name error in this order, and
nothing else of that kind. Nothing that it reports has a place. -/
def ReportsNames {α : Type} (m : Reporting α) (names : List String) : Prop :=
  ∃ a ds, Gives m a ds ∧
    ds.filter (·.kind = .nameError) = names.map (.nameError .synthetic) ∧
    ∀ d ∈ ds, d.location = .synthetic

namespace ReportsNames

variable {α β : Type} {m : Reporting α} {k : α → Reporting β} {ns ns' : List String}

protected theorem pure (a : α) : ReportsNames (pure a) [] :=
  ⟨a, [], .pure a, rfl, fun _ hd => absurd hd List.not_mem_nil⟩

protected theorem bind (h : ReportsNames m ns) (hk : ∀ a, ReportsNames (k a) ns') :
    ReportsNames (m >>= k) (ns ++ ns') := by
  obtain ⟨a, ds, hm, hds, hplace⟩ := h
  obtain ⟨b, es, hka, hes, hplace'⟩ := hk a
  refine ⟨b, ds ++ es, hm.bind hka, ?_, List.forall_mem_append.2 ⟨hplace, hplace'⟩⟩
  rw [List.filter_append, hds, hes, List.map_append]

/-- What reports no names may follow. -/
theorem bind_none (h : ReportsNames m ns) (hk : ∀ a, ReportsNames (k a) []) :
    ReportsNames (m >>= k) ns := by
  have := h.bind hk
  rwa [List.append_nil] at this

theorem nameError (name : String) : ReportsNames (report (.nameError .synthetic name)) [name] :=
  ⟨(), _, .report _, rfl, fun _ hd => List.mem_singleton.1 hd ▸ rfl⟩

/-- Reports of another kind are no names. -/
theorem other {d : Diagnostic} (hkind : d.kind ≠ .nameError) (hplace : d.location = .synthetic) :
    ReportsNames (report d) [] := by
  refine ⟨(), _, .report d, ?_, fun _ hd => List.mem_singleton.1 hd ▸ hplace⟩
  rw [List.filter_singleton, decide_eq_false hkind]
  rfl

theorem mapM {f : α → Reporting β} (xs : List α) (h : ∀ x, ReportsNames (f x) []) :
    ReportsNames (xs.mapM f) [] := by
  induction xs with
  | nil => exact .pure []
  | cons x xs ih =>
    rw [List.mapM_cons]
    exact (h x).bind_none fun _ => ih.bind_none fun _ => .pure _

end ReportsNames

/-! ## Evaluation -/

theorem rejectSubscript_reportsNames (base details : String) :
    ReportsNames (rejectSubscript base details) [] :=
  (ReportsNames.other (fun h => by cases h) rfl).bind_none fun _ => .pure _

theorem Class.parameterize_reportsNames (c : Class) (args : List Value) :
    ReportsNames (c.parameterize args) [] := by
  unfold Class.parameterize
  split
  · exact .pure _
  · split
    · exact .pure _
    · exact rejectSubscript_reportsNames _ _

/-- Subscripting a value comes to no name. -/
theorem Value.subscript_reportsNames (base : Value) (args : List Value) :
    ReportsNames (base.subscript args) [] := by
  have hnot : ReportsNames (Value.subscript.notSubscriptable base) [] :=
    (ReportsNames.other (fun h => by cases h) rfl).bind_none fun _ => .pure _
  unfold Value.subscript
  split
  · exact Class.parameterize_reportsNames _ _
  · exact .pure _
  · exact .pure _
  · exact rejectSubscript_reportsNames _ _
  · exact .pure _
  · split
    · exact hnot
    · exact Class.parameterize_reportsNames _ _
  all_goals exact hnot

section Expr

variable (frame : Frame) (locals : Scope)

/-- The names of a list that are bound nowhere. -/
def Frame.unbound (names : List String) : List String := names.filter (frame.Unbound locals)

theorem Frame.load_reportsNames (name : String) :
    ReportsNames (frame.load locals name) (frame.unbound locals [name]) := by
  have hbound (h : ¬ frame.Unbound locals name) : frame.unbound locals [name] = [] := by
    rw [Frame.unbound, List.filter_singleton, decide_eq_false h]
    rfl
  unfold Frame.load
  split
  · rename_i b hb
    rw [hbound fun h => by simp [h.locals, h.globals] at hb]
    exact .pure _
  · rename_i hnone
    rw [Option.orElse_eq_orElse, Option.orElse_eq_or, Option.or_eq_none_iff] at hnone
    split
    · rename_i v hv
      rw [hbound fun h => by simp [Builtin.resolve_eq_none_iff.2 h.builtin] at hv]
      exact .pure _
    · rename_i hv
      have hunbound : frame.Unbound locals name :=
        ⟨hnone.1, hnone.2, Builtin.resolve_eq_none_iff.1 hv⟩
      rw [Frame.unbound, List.filter_singleton, decide_eq_true hunbound]
      exact (ReportsNames.nameError name).bind_none fun _ => .pure _

mutual

theorem Expr.eval_reportsNames :
    ∀ e : Expr, ReportsNames (e.eval frame locals) (frame.unbound locals e.names)
  | .name n => frame.load_reportsNames locals n
  | .str _ | .int _ => .pure _
  | .tuple items => (Expr.evalAll_reportsNames items).bind_none fun _ => .pure _
  | .subscript value index => by
    have hargs : ReportsNames (index.evalArgs frame locals) (frame.unbound locals index.names) := by
      unfold Expr.evalArgs
      split
      · exact Expr.evalAll_reportsNames _
      · exact (Expr.eval_reportsNames index).bind_none fun _ => .pure _
    rw [Expr.eval_subscript, Expr.names_subscript, Frame.unbound, List.filter_append]
    refine (Expr.eval_reportsNames value).bind fun base => hargs.bind_none fun args => ?_
    exact (ReportsNames.mapM _ fun v => v.subscript_reportsNames _).bind_none fun _ => .pure _

theorem Expr.evalAll_reportsNames :
    ∀ es : List Expr,
      ReportsNames (Expr.evalAll frame locals es) (frame.unbound locals (Expr.namesAll es))
  | [] => .pure _
  | e :: es => by
    rw [Expr.namesAll_cons, Frame.unbound, List.filter_append]
    exact (Expr.eval_reportsNames e).bind fun _ =>
      (Expr.evalAll_reportsNames es).bind_none fun _ => .pure _

end

/-- **Every unbound name is reported once, in order.** Evaluating an expression adds the same
reports to every log. Those that are name errors are, in order, one for each occurrence of a name
that is bound nowhere, read from left to right; and nothing that is reported has a place. -/
theorem Expr.eval_reports_unbound (e : Expr) :
    ∃ b ds, (∀ log, (e.eval frame locals).run log = (b, log.append ds)) ∧
      ds.filter (·.kind = .nameError) =
        (e.names.filter (frame.Unbound locals)).map (.nameError .synthetic) ∧
      ∀ d ∈ ds, d.location = .synthetic :=
  e.eval_reportsNames frame locals

end Expr

end TypeHints
