import TypeHints.Proofs.Bindings
import TypeHints.Proofs.Joining
import TypeHints.Proofs.LateQueue
import TypeHints.Proofs.Signature

/-!
# Argument lists and forward references

A function type comment that lists the annotations of all parameters comes to the same as these
annotations written as forward references, one for each parameter
(`Function.resolveArguments_of_references`). The one exception is a single parameter whose text
evaluates to a tuple constant, which is taken for the whole list
(`resolveArguments_of_tuple_constant`).
-/

namespace TypeHints

open TypeHints.Expr (IsItem ItemText)

/-! ## What a string is resolved to -/

/-- Written at some place, `v` is resolved to `t` in `frame`. -/
def Value.ResolvesTo (frame : Frame) (v : Value) (t : Ty) : Prop :=
  ∃ site log log', (v.resolve site (some frame)).run log = (.resolved t, log')

/-- The text evaluates to one value. -/
def EvaluatesTo (frame : Frame) (text : String) (v : Value) : Prop :=
  ∃ b, Gives (evalText frame text).run (.ok b) [] ∧ b.single = .ok v

section Resolves

variable {frame : Frame} {v : Value} {t : Ty}

theorem Value.resolveIn_of_resolves {site : Site}
    (h : Gives (v.resolve site (some frame)) (.resolved t) []) :
    Gives (v.resolveIn frame site maxTextNesting).run (.ok t) [] := by
  obtain ⟨r, ds, hr, -⟩ := v.resolveIn_endsAt frame site maxTextNesting
  obtain ⟨heq, rfl⟩ := h.unique (Value.resolve_some_gives hr)
  match r, heq with
  | .ok t', heq =>
    obtain rfl := Outcome.resolved.inj heq
    exact hr
  | .error .late, heq => cases heq
  | .error .failed, heq => cases heq

/-- Where the annotation is written and what was reported before do not matter. -/
theorem Value.ResolvesTo.gives (h : v.ResolvesTo frame t) (site : Site) :
    Gives (v.resolveIn frame site maxTextNesting).run (.ok t) [] := by
  obtain ⟨site', log, log', hrun⟩ := h
  have hresolve : Gives (v.resolve site' (some frame)) (.resolved t) [] := by
    obtain ⟨t', ht'⟩ | ⟨d, -, -, hd⟩ := v.resolve_some_cases site' frame
    · obtain rfl := Outcome.resolved.inj (congrArg Prod.fst ((ht' log).symm.trans hrun))
      exact ht'
    · cases congrArg Prod.fst ((hd log).symm.trans hrun)
  exact Value.resolveIn_of_le site le_rfl (Value.resolveIn_of_resolves hresolve)

/-- A string is resolved as the value of its text is, one level further out. -/
theorem Value.ResolvesTo.exists_value {text : String} (h : (Value.str text).ResolvesTo frame t)
    (site : Site) : ∃ w, EvaluatesTo frame text w ∧
      ∀ site', Gives (w.resolve site' (some frame)) (.resolved t) [] := by
  have hstr : Gives ((site.readText frame (.str text) >>= fun w =>
      w.resolveIn frame site (maxTextNesting - 1)) : Resolving Ty).run (.ok t) [] := h.gives site
  obtain ⟨text', b, w, htext, hb, hw, hread⟩ | ⟨d, -, -, hread⟩ :=
    site.readText_cases frame (.str text)
  · obtain rfl := Option.some.inj htext
    obtain ⟨r, ds, hr, -⟩ := w.resolveIn_endsAt frame site (maxTextNesting - 1)
    obtain ⟨rfl, rfl⟩ := hstr.unique (hread.bind_ok_silent hr)
    exact ⟨w, ⟨b, hb, hw⟩, fun site' => Value.resolve_some_gives
      (Value.resolveIn_of_le site' (Nat.sub_le _ _) hr)⟩
  · cases (hstr.unique hread.bind_error).1

end Resolves

/-! ## Arguments -/

/-- A text that is one item, what it evaluates to in `frame`, and the type of that. -/
structure Argument (frame : Frame) extends ItemText where
  bindings : Bindings
  value : Value
  type : Ty
  evaluated : Gives (expr.eval frame ∅) bindings []
  single : bindings.single = .ok value
  resolved : ∀ site, Gives (value.resolve site (some frame)) (.resolved type) []

namespace Argument

variable {frame : Frame}

theorem evaluatesTo (a : Argument frame) : EvaluatesTo frame a.text a.value :=
  ⟨a.bindings, evalText_ok_iff.2 ⟨a.expr, a.parsed, a.evaluated⟩, a.single⟩

theorem exists_of_resolvesTo {text : String} {t : Ty} (htrim : Text.trim text = text)
    (hitem : ∃ e, IsItem text.toList e) (h : (Value.str text).ResolvesTo frame t) :
    ∃ a : Argument frame, a.text = text ∧ a.type = t := by
  obtain ⟨e, hitem⟩ := hitem
  obtain ⟨w, ⟨b, hb, hw⟩, hresolved⟩ := h.exists_value ⟨"", ⟨"", 0⟩⟩
  obtain ⟨e', hparse, heval⟩ := evalText_ok_iff.1 hb
  -- the item and what was parsed are the same, since the grammar decides what is parsed
  obtain ⟨hne, hdepth, -⟩ := (Expr.parse_trimmed_iff htrim).1 hparse
  have hparse' := (Expr.parse_trimmed_iff htrim).2 ⟨hne, hdepth, .item hitem⟩
  obtain rfl : e = e' := Except.ok.inj (hparse'.symm.trans hparse)
  exact ⟨⟨⟨text, e, htrim, hitem, hparse⟩, b, w, t, heval, hw, hresolved⟩, rfl, rfl⟩

theorem exists_of_forall₂ {texts : List String} {types : List Ty}
    (htexts : ∀ text ∈ texts, Text.trim text = text ∧ ∃ e, IsItem text.toList e)
    (h : List.Forall₂ (fun text t => (Value.str text).ResolvesTo frame t) texts types) :
    ∃ args : List (Argument frame), args.map (·.text) = texts ∧ args.map (·.type) = types := by
  induction h with
  | nil => exact ⟨[], rfl, rfl⟩
  | cons h _ ih =>
    obtain ⟨⟨htrim, hitem⟩, hrest⟩ := List.forall_mem_cons.1 htexts
    obtain ⟨a, rfl, rfl⟩ := exists_of_resolvesTo htrim hitem h
    obtain ⟨args, rfl, rfl⟩ := ih hrest
    exact ⟨a :: args, rfl, rfl⟩

/-- The arguments evaluate together as they do one by one. -/
theorem evalText_joined {args : List (Argument frame)} (h : 2 ≤ args.length) :
    Gives (evalText frame (ItemText.joined (args.map (·.toItemText)))).run
      (.ok (.ofValue frame.point (.tuple (args.map (·.bindings))))) [] := by
  have hall : List.Forall₂ (fun (e : Expr) b => Gives (e.eval frame ∅) b [])
      ((args.map (·.toItemText)).map (·.expr)) (args.map (·.bindings)) := by
    rw [List.map_map, List.forall₂_map_left_iff, List.forall₂_map_right_iff, List.forall₂_same]
    exact fun a _ => a.evaluated
  refine evalText_ok_iff.2 ⟨_, ItemText.parse_joined (by rwa [List.length_map]), ?_⟩
  exact (Expr.evalAll_gives hall).bind_silent (.pure _)

theorem mapM_single (args : List (Argument frame)) :
    (args.map (·.bindings)).mapM Bindings.single = .ok (args.map (·.value)) := by
  rw [mapM_eq_ok_iff, List.forall₂_map_left_iff, List.forall₂_map_right_iff, List.forall₂_same]
  exact fun a _ => a.single

end Argument

/-! ## Reading the list -/

section Tuple

variable {frame : Frame} {text : String} {v : Value}

theorem evalTextAsTuple_of_tuple {items : List Bindings} {vs : List Value}
    (hne : text.isEmpty = false) (h : EvaluatesTo frame text v) (hv : v.tuple? = some items)
    (hvs : items.mapM Bindings.single = .ok vs) :
    Gives (evalTextAsTuple frame text).run (.ok vs) [] := by
  obtain ⟨b, hb, hsingle⟩ := h
  unfold evalTextAsTuple
  rw [hne]
  refine (hb.adapt TextError.evaluation).bind_ok_silent ?_
  simp only [hsingle]
  refine (Gives.liftExcept _).bind_ok_silent ?_
  simp only [hv, hvs]
  exact .liftExcept _

theorem evalTextAsTuple_of_value (hne : text.isEmpty = false) (h : EvaluatesTo frame text v)
    (hv : v.tuple? = none) : Gives (evalTextAsTuple frame text).run (.ok [v]) [] := by
  obtain ⟨b, hb, hsingle⟩ := h
  unfold evalTextAsTuple
  rw [hne]
  refine (hb.adapt TextError.evaluation).bind_ok_silent ?_
  simp only [hsingle]
  refine (Gives.liftExcept _).bind_ok_silent ?_
  simp only [hv]
  exact .ok _

end Tuple

/-- The joined text lists the values of the arguments, unless there is only one and it is a
tuple constant. -/
theorem Argument.evalTextAsTuple_joined {frame : Frame} {args : List (Argument frame)}
    (hne : args ≠ []) (hone : ∀ a, args = [a] → a.value.tuple? = none) :
    Gives (evalTextAsTuple frame (ItemText.joined (args.map (·.toItemText)))).run
      (.ok (args.map (·.value))) [] := by
  have hempty : (ItemText.joined (args.map (·.toItemText))).isEmpty = false := by
    rw [← Bool.not_eq_true, String.isEmpty_iff]
    intro heq
    refine (ItemText.trimChars_joined (args.map (·.toItemText)) (by simpa using hne)).2 ?_
    rw [heq]
    rfl
  match args, hne, hone with
  | [a], _, hone =>
    have htext : ItemText.joined ([a].map (·.toItemText)) = a.text := by simp [ItemText.joined]
    rw [htext] at hempty ⊢
    exact evalTextAsTuple_of_value hempty a.evaluatesTo (hone a rfl)
  | a :: a' :: args, _, _ =>
    exact evalTextAsTuple_of_tuple hempty ⟨_, Argument.evalText_joined (by simp), rfl⟩ rfl
      (Argument.mapM_single _)

/-! ## Setting the types -/

theorem Function.resolveName_of_resolves {f : Function} {frame : Frame} {location : Location}
    {name : String} {v : Value} {t : Ty}
    (h : Gives (v.resolve ⟨name, location⟩ (some frame)) (.resolved t) []) :
    Gives (f.resolveName frame location name v) (f.mapSignature (·.set name t)) [] := by
  unfold Function.resolveName
  exact h.bind_silent (.pure _)

/-- Parameters are set to the types of their arguments. -/
theorem Argument.foldlM_resolveName {frame : Frame} (location : Location) :
    ∀ (names : List String) (args : List (Argument frame)) (f : Function),
      Gives ((names.zip (args.map (·.value))).foldlM
          (fun f (name, v) => f.resolveName frame location name v) f)
        (f.setAll (names.zip (args.map (·.type)))) []
  | [], _, f => by
    simp only [List.zip_nil_left]
    exact .pure f
  | _ :: _, [], f => by
    simp only [List.map_nil, List.zip_nil_right]
    exact .pure f
  | name :: names, a :: args, f => by
    rw [List.map_cons, List.map_cons, List.zip_cons_cons, List.zip_cons_cons, Function.setAll_cons]
    have hset : Gives (f.resolveName frame location name a.value)
        (f.mapSignature (·.set name a.type)) [] := Function.resolveName_of_resolves (a.resolved _)
    exact Gives.foldlM_cons (x := (name, a.value)) hset (foldlM_resolveName location names args _)

theorem Function.setAll_retyped (f : Function) (types : List (String × Ty)) :
    f.Retyped (types.map (·.1)) (f.setAll types) := by
  induction types generalizing f with
  | nil => exact .refl _ f
  | cons entry types ih =>
    rw [Function.setAll_cons, List.map_cons]
    exact ((Retyped.set f entry.1 entry.2).mono (by simp)).trans
      ((ih _).mono (List.subset_cons_self _ _))

/-- **An argument list agrees with forward references.** If each of `texts` is one item without
blanks at its ends and as a string is resolved to its type, then the texts joined by commas set
the parameters `xs` to these types and report nothing. A single text must not evaluate to a tuple
constant. -/
theorem Function.resolveArguments_of_references (receivers : Receivers) {frame : Frame}
    {f : Function} {l : LateHint} {xs texts : List String} {types : List Ty}
    (htext : l.value.str? = some (", ".intercalate texts)) (hne : texts ≠ [])
    (hxs : f.varnames.take f.argCount = xs) (hnodup : xs.Nodup) (hcount : f.argCount = xs.length)
    (hlen : xs.length = texts.length)
    (htexts : ∀ text ∈ texts, Text.trim text = text ∧ ∃ e, IsItem text.toList e)
    (htypes : List.Forall₂ (fun text t => (Value.str text).ResolvesTo frame t) texts types)
    (hone : ∀ text v, texts = [text] → EvaluatesTo frame text v → v.tuple? = none) :
    ∃ g, (∀ log, (f.resolveArguments receivers frame l).run.run log = (.ok g, log)) ∧
      (∀ x t, (x, t) ∈ xs.zip types → g.signature.get? x = some t) ∧ f.Retyped xs g := by
  obtain ⟨args, rfl, rfl⟩ := Argument.exists_of_forall₂ htexts htypes
  have hargs : Gives (evalTextAsTuple frame (", ".intercalate (args.map (·.text)))).run
      (.ok (args.map (·.value))) [] := by
    have hone' : ∀ a, args = [a] → a.value.tuple? = none := fun a ha =>
      hone a.text a.value (by rw [ha]; rfl) a.evaluatesTo
    have h := Argument.evalTextAsTuple_joined (by simpa using hne) hone'
    rwa [ItemText.joined, List.map_map] at h
  have hreconcile : receivers.reconcile f.varnames f.argCount (args.map (·.value)).length =
      .ok xs := by
    rw [← hxs, List.length_map, ← (List.length_map _ : (args.map (·.text)).length = _), ← hlen,
      ← hcount]
    exact receivers.reconcile_self _ _
  have hkeys : (xs.zip (args.map (·.type))).map (·.1) = xs :=
    List.map_fst_zip (by rw [hlen, List.length_map, List.length_map])
  refine ⟨f.setAll (xs.zip (args.map (·.type))), fun log => ?_, fun x t hmem => ?_, ?_⟩
  · have h : Gives (f.resolveArguments receivers frame l).run
        (.ok (f.setAll (xs.zip (args.map (·.type))))) [] :=
      Function.resolveArguments_of_names htext hargs hreconcile
        (Argument.foldlM_resolveName l.location xs args f)
    rw [h log, Log.append_nil]
  · have hlookup := SortedMap.lookup_of_nodup (by rwa [hkeys]) hmem
    have hget : (f.setAll (xs.zip (args.map (·.type)))).signature.get? x = _ :=
      Signature.get?_setAll f.signature (by rwa [hkeys]) x
    rw [hget, hlookup]
    rfl
  · have h := f.setAll_retyped (xs.zip (args.map (·.type)))
    rwa [hkeys] at h

/-! ## A name and its value -/

/-- A frame in which `X` is bound to `v` and nothing else is. -/
def Frame.binding (v : Value) : Frame := ⟨.root, (∅ : Scope).insert "X" (.ofValue .root v)⟩

theorem evaluatesTo_binding (v : Value) : EvaluatesTo (.binding v) "X" v := by
  have hload : (Frame.binding v).load ∅ "X" = pure (.ofValue .root v) := by
    rw [Frame.load, SortedMap.get?_empty, Frame.binding, SortedMap.get?_insert_self]
    rfl
  have heval : Gives ((Expr.name "X").eval (.binding v) ∅) (.ofValue .root v) [] := by
    rw [Expr.eval, hload]
    exact .pure _
  exact ⟨_, evalText_ok_iff.2 ⟨.name "X", rfl, heval⟩, rfl⟩

theorem isItem_binding : IsItem "X".toList (.name "X") := by
  have hspaces : Text.IsSpaces [] := by simp [Text.IsSpaces]
  exact .atom (.literal hspaces (.name ⟨'X', [], rfl, by simp, rfl, rfl⟩))

theorem Value.resolvesTo_binding {v : Value} {t : Ty}
    (h : Gives (v.resolveIn (.binding v) ⟨"x", ⟨"m.py", 1⟩⟩ (maxTextNesting - 1)).run (.ok t) []) :
    (Value.str "X").ResolvesTo (.binding v) t := by
  obtain ⟨b, hb, hsingle⟩ := evaluatesTo_binding v
  have hread : Gives (Site.readText ⟨"x", ⟨"m.py", 1⟩⟩ (.binding v) (.str "X")).run (.ok v) [] :=
    Site.readText_of_single rfl hb hsingle
  have hresolve : Gives ((Value.str "X").resolveIn (.binding v) ⟨"x", ⟨"m.py", 1⟩⟩
      maxTextNesting).run (.ok t) [] := hread.bind_ok_silent h
  exact ⟨_, ∅, _, Value.resolve_some_gives hresolve ∅⟩

/-- Two parameters, both annotated by the name of a class. -/
theorem resolveArguments_of_class_names :
    ∃ g, (∀ log, (Function.resolveArguments .standard
          ⟨"f", "m.py", 1, 2, 0, false, false, ["x", "y"], ∅⟩ (.binding (.cls Builtin.int.cls))
          (.ofText "X, X" argumentsName ⟨"m.py", 1⟩)).run.run log = (.ok g, log)) ∧
      (∀ x t, (x, t) ∈ [("x", Ty.cls Builtin.int.cls), ("y", .cls Builtin.int.cls)] →
        g.signature.get? x = some t) ∧
      Function.Retyped ["x", "y"] ⟨"f", "m.py", 1, 2, 0, false, false, ["x", "y"], ∅⟩ g := by
  have hresolves : (Value.str "X").ResolvesTo (.binding (.cls Builtin.int.cls))
      (.cls Builtin.int.cls) := Value.resolvesTo_binding (.ok _)
  have htexts : ∀ text ∈ ["X", "X"], Text.trim text = text ∧ ∃ e, IsItem text.toList e := by
    intro text htext
    obtain rfl : text = "X" := by simpa using htext
    exact ⟨by decide, _, isItem_binding⟩
  exact @Function.resolveArguments_of_references .standard _ _
    (.ofText "X, X" argumentsName ⟨"m.py", 1⟩) ["x", "y"] ["X", "X"] _ rfl (by simp) rfl (by decide)
    rfl rfl htexts (.cons hresolves (.cons hresolves .nil)) (by simp)

/-- One parameter, annotated by a name that stands for `None` with a tuple constant: written as a
string it is resolved, but as an argument list it is refused. -/
theorem resolveArguments_of_tuple_constant :
    (["x"].take (Function.argCount ⟨"f", "m.py", 1, 1, 0, false, false, ["x"], ∅⟩) = ["x"] ∧
      Text.trim "X" = "X" ∧ IsItem "X".toList (.name "X") ∧
      (Value.str "X").ResolvesTo
        (.binding (.object (.cls Builtin.noneType.cls) (some (.tuple []))))
        (.cls Builtin.noneType.cls)) ∧
      ∀ log, (Function.resolveArguments .standard
        ⟨"f", "m.py", 1, 1, 0, false, false, ["x"], ∅⟩
        (.binding (.object (.cls Builtin.noneType.cls) (some (.tuple []))))
        (.ofText "X" argumentsName ⟨"m.py", 1⟩)).run.run log = (.error (.arity ⟨1, 0⟩), log) := by
  refine ⟨⟨rfl, by decide, isItem_binding, Value.resolvesTo_binding (.ok _)⟩, fun log => ?_⟩
  have hargs : Gives (evalTextAsTuple
      (.binding (.object (.cls Builtin.noneType.cls) (some (.tuple [])))) "X").run (.ok []) [] :=
    evalTextAsTuple_of_tuple rfl (evaluatesTo_binding _) rfl rfl
  have hnames : Receivers.standard.reconcile ["x"] 1 0 = .error ⟨1, 0⟩ := rfl
  have h := Function.resolveArguments_of_mismatch
    (f := ⟨"f", "m.py", 1, 1, 0, false, false, ["x"], ∅⟩)
    (l := .ofText "X" argumentsName ⟨"m.py", 1⟩) rfl hargs hnames log
  rwa [Log.append_nil] at h

end TypeHints
