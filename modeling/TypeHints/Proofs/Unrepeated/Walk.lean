import TypeHints.Proofs.Invariant.Walk
import TypeHints.Proofs.Reached
import TypeHints.Proofs.Unrepeated.Substitution

/-!
# Unions are ordered sets

Evaluation leaves out options that are the same as values, before it is known which types they
denote, and nothing compares options again afterwards. So `Union[None, NoneType]` goes into a
signature with one type twice, and `Union[T, int]` is specialised to `Union[int, int]`
(`signature_of_none_twice`). These are the only ways: if all texts of a module tell the options of
their unions apart, no union in a signature repeats an option, at any depth, and specialising the
signature repeats none as long as the options of its types stay apart
(`Walk.Reached.unions_unrepeated`).
-/

namespace TypeHints

/-! ## What a module reads -/

/-- The texts of `m`: those of its bounds, annotations, function type comments and assigned values,
the type comments that apply to its assignments, and those of its call sites. -/
inductive Module.Reads (m : Module) : String → Prop
  | definition {d : Definition} {text : String} (hd : d ∈ m.definitions) (h : d.Spells text) :
      m.Reads text
  | comment {line : UInt32} {text : String}
      (h : m.lineComments.commentAt? m.file line = some text) : m.Reads text
  | site {d : SpecializeDef} {site : SortedMap String (List String)}
      {entry : String × List String} {text : String} (hd : .specialize d ∈ m.definitions)
      (hsite : site ∈ d.maps) (hentry : entry ∈ site.toList) (h : text ∈ entry.2) : m.Reads text

/-- Wherever the walk evaluates a text of `m`, the values tell their options apart, there and
wherever the walk comes later. -/
def Module.TellsApart (m : Module) : Prop :=
  ∀ (text : String) (w v : Walk) (b : Bindings) (ds : List Diagnostic), m.Reads text →
    w.Reached m → v.Reached m → w.point ≤ v.point →
      Gives (runText w.advance.frame text).run (.ok b) ds →
        b.All (Value.TellsApart v.advance.frame)

/-- From `p` on the value is clear, wherever the walk through `m` comes. -/
def Value.ClearFrom (m : Module) (p : Point) (v : Value) : Prop :=
  ∀ w : Walk, w.Reached m → p ≤ w.point → v.Clear w.advance.frame

/-- The globals are unrepeated, and so are the types in all signatures; what waits is clear from
here on. -/
structure Walk.Unrepeated (m : Module) (w : Walk) : Prop where
  globals : w.globals.Unrepeated
  functions : ∀ f ∈ w.functions, f.signature.Holds Ty.Unrepeated (Value.ClearFrom m w.point)

section Walk

variable {m : Module}

theorem Value.ClearFrom.mono {p q : Point} {v : Value} (h : v.ClearFrom m p) (hpq : p ≤ q) :
    v.ClearFrom m q :=
  fun w hw hle => h w hw (Point.le_trans hpq hle)

/-- A value that is clear from here on has an unrepeated type by its structure. -/
theorem Value.ClearFrom.offers {w : Walk} (hw : w.Reached m) (hglobals : w.globals.Unrepeated)
    {v : Value} (h : v.ClearFrom m w.point) :
    v.Offers Ty.Unrepeated (Value.ClearFrom m w.point) where
  late := h
  type _ ht :=
    have hframe : w.advance.frame.globals.Unrepeated := hglobals
    (h w hw (Point.le_refl _)).toTy? hframe ht

variable (hm : m.TellsApart)

include hm

namespace Module.TellsApart

theorem runText {w : Walk} (hw : w.Reached m) (hglobals : w.globals.Unrepeated) {text : String}
    (htext : m.Reads text) :
    Returns (fun b => b.Unrepeated ∧ b.All (Value.ClearFrom m w.point))
      (TypeHints.runText w.advance.frame text) := by
  refine (Returns.of_appendOnly (runText_appendOnly _ _)).mono fun b ⟨ds, h⟩ => ?_
  have hb : b.Unrepeated := (runText_unrepeated hglobals text).of_gives h
  exact ⟨hb, fun v hv w' hw' hle => ⟨hb.all v hv, hm text w w' b ds htext hw hw' hle h v hv⟩⟩

theorem str {text : String} (htext : m.Reads text) (p : Point) :
    (Value.str text).ClearFrom m p := by
  refine fun w hw _ => ⟨Value.object_unrepeated (.str text), fun options h => ?_⟩
  cases h with
  | text hparse heval hone h =>
    have hvalues := hm text w w _ _ htext hw hw (Point.le_refl _) (runText_of_parse hparse heval)
    exact hvalues _ (by simp [hone]) options h

/-- Every definition of the module keeps the walk unrepeated. -/
theorem define {w : Walk} (hw : w.Reached m) (h : w.Unrepeated m) {d : Definition}
    (hd : d ∈ m.definitions) : Returns (Walk.Unrepeated m) (w.advance.define m d) := by
  have hoffers : ∀ text, m.Reads text →
      Returns (Bindings.All (Value.Offers Ty.Unrepeated (Value.ClearFrom m w.point)))
        (TypeHints.runText w.advance.frame text) :=
    fun text htext => (hm.runText hw h.globals htext).mono fun _ hb v hv =>
      (hb.2 v hv).offers hw h.globals
  have hlater : ∀ {s : Signature}, s.Holds Ty.Unrepeated (Value.ClearFrom m w.point) →
      s.Holds Ty.Unrepeated (Value.ClearFrom m w.advance.point) :=
    fun hs => hs.mono fun _ hv => hv.mono (Point.le_succ _)
  have hbefore : ∀ f ∈ w.functions, f.signature.Holds Ty.Unrepeated _ :=
    fun f hf => hlater (h.functions f hf)
  cases d with
  | typeVar d =>
    have hbound := TypeVarDef.define_holds (T := Ty.Unrepeated) fun text htext =>
      (hoffers text (.definition hd (.bound htext))).mono fun _ hb v hv => (hb v hv).type
    exact hbound.bind fun ⟨_, _⟩ hv =>
      .pure ⟨h.globals.insert _ (.ofValue (.typeVar (.mk hv))), hbefore⟩
  | cls d =>
    have htemplate : ∀ v ∈ (d.define w.globals).template, v.Unrepeated :=
      d.template_holds (fun _ => .mk fun _ ht => by cases ht) fun name b hb v hv => by
        cases (h.globals name b hb).all _ hv with
        | typeVar hv => exact hv
    exact .pure ⟨h.globals.insert _ (.ofValue (.cls (.mk htemplate))), hbefore⟩
  | function d =>
    have hdefine := FunctionDef.define_holds m.file
      (fun entry hentry => hoffers _ (.definition hd (.hint hentry)))
      fun comment args result hcomment hsplit =>
        ⟨hm.str (.definition hd (.arguments hcomment hsplit)) _,
          hm.str (.definition hd (.result hcomment hsplit)) _⟩
    refine hdefine.bind fun f hf => .pure ⟨h.globals, ?_⟩
    exact List.forall_mem_append.2 ⟨hbefore, List.forall_mem_singleton.2 (hlater hf)⟩
  | assign d =>
    have hvalue := (hm.runText hw h.globals (.definition hd (.value d))).mono fun _ hb => hb.1
    have hcomment : ∀ comment, m.lineComments.commentAt? m.file d.line = some comment →
        Returns Bindings.Unrepeated (evalTypeComment w.advance.frame comment) := by
      refine fun comment hcomment => (evalTypeComment_returns _ comment).mono ?_
      rintro _ ⟨t, ⟨b, v, hb, hv, ht⟩, rfl⟩
      obtain ⟨e, hparse, heval⟩ := evalText_ok_iff.1 hb
      have hvalues := (hoffers comment (.comment hcomment)).of_gives (runText_of_parse hparse heval)
      exact ((hvalues.single hv).type t ht).instantiate _
    exact (AssignDef.define_holds hvalue hcomment).bind fun b hb =>
      .pure ⟨h.globals.insert _ hb, hbefore⟩
  | specialize d => exact .pure ⟨h.globals, hbefore⟩

end Module.TellsApart

theorem Walk.Reached.unrepeated {w : Walk} (hw : w.Reached m) : w.Unrepeated m := by
  refine hw.induct (P := Walk.Unrepeated m) ⟨.empty, fun _ hf => absurd hf List.not_mem_nil⟩ ?_
  intro w v d rs hw _ hd hdefine hbefore
  exact (hm.define hw hbefore hd).of_gives hdefine

end Walk

/-- **Unions are ordered sets.** If the texts of a module tell the options of their unions apart,
no union in the signature of a function repeats an option, at any depth: neither when the function
is defined nor when its late annotations are resolved. Specialised to call sites of the module, a
type of this signature still repeats no option, provided that its options stay apart. -/
theorem Walk.Reached.unions_unrepeated {m : Module} (hm : m.TellsApart) {w : Walk}
    (hw : w.Reached m) {f : Function} (hf : f ∈ w.functions) :
    (∀ name t, f.signature.get? name = some t → t.Unrepeated) ∧
    ∀ receivers g ds, Gives (f.resolveLate receivers w.advance.frame) g ds →
      ∀ name t, g.signature.get? name = some t → t.Unrepeated ∧
        ∀ d, .specialize d ∈ m.definitions → ∀ maps es,
          Gives (d.maps.mapM (d.substitution w.advance.frame)).run (.ok maps) es →
            t.StaysApart w.advance.point maps → (t.substitute w.advance.point maps).Unrepeated := by
  have hwalk := hw.unrepeated hm
  have hglobals : w.advance.frame.globals.Unrepeated := hwalk.globals
  have hsignature := hwalk.functions f hf
  refine ⟨hsignature.types, fun receivers g ds hg name t ht => ?_⟩
  have hresolved := Function.resolveLate_unrepeated hglobals hg
    (fun l hl => hsignature.late l hl w hw (Point.le_refl _)) hsignature.types
  refine ⟨hresolved name t ht, fun d hd maps es hmaps hapart => ?_⟩
  have hsites : Returns (fun maps : List Substitution => maps.length = d.maps.length ∧
      ∀ map ∈ maps, map.All Bindings.Unrepeated) (d.maps.mapM (d.substitution w.advance.frame)) :=
    Returns.mapM d.maps fun site hsite =>
      d.substitution_unrepeated hglobals fun entry hentry text htext =>
        (hm.runText hw hwalk.globals (.site hd hsite hentry htext)).mono fun _ hb v hv =>
          hb.2 v hv w hw (Point.le_refl _)
  exact (hresolved name t ht).substitute (hsites.of_gives hmaps).2 hapart

/-! ## A generic function -/

/-- A function of one parameter, annotated by a union of `T` and a class. -/
def genericDef : FunctionDef where
  name := "f"
  line := 2
  params := ["x"]
  annotations := (∅ : SortedMap String String).insert "x" "Union[T, str]"

/-- The call site that gives `T` a class. -/
def intSite : SortedMap String (List String) :=
  (∅ : SortedMap String (List String)).insert "T" ["int"]

/-- The module that declares `T` and the function and specialises it. -/
def genericModule : Module :=
  ⟨"m.py", ∅, [.typeVar ⟨"T", none⟩, .function genericDef, .specialize ⟨"f", [intSite]⟩]⟩

/-- The globals behind the declaration of `T` at `p`. -/
def genericScope (p : Point) : Scope := (∅ : Scope).insert "T" (.ofValue p (.typeVar ⟨"T", none⟩))

/-- The type of the parameter. -/
def genericType : Ty := .union [.typeVar ⟨"T", none⟩, .cls Builtin.str.cls]

/-- The function once its annotation is collected. -/
def genericFunction : Function :=
  (genericDef.bare "m.py").mapSignature fun _ =>
    ⟨(∅ : SortedMap String Ty).insert "x" genericType, []⟩

/-- The walk behind the function. -/
def genericWalk : Walk where
  point := ⟨2⟩
  globals := genericScope ⟨1⟩
  functions := [genericFunction]

/-- The map of the call site. -/
def intMap : Substitution :=
  (∅ : Substitution).insert "T" (.ofValue ⟨3⟩ (.object (.cls Builtin.int.cls) none))

theorem parse_genericHint : Expr.parse "Union[T, str]" =
    .ok (.subscript (.name "Union") (.tuple [.name "T", .name "str"])) := by
  decide +kernel

theorem parse_int : Expr.parse "int" = .ok (.name "int") := by
  decide +kernel

theorem runText_genericHint (p q : Point) :
    Gives (runText ⟨q, genericScope p⟩ "Union[T, str]").run
      (.ok (.ofValue q (.union [.typeVar ⟨"T", none⟩, .cls Builtin.str.cls]))) [] := by
  refine runText_of_parse parse_genericHint (.of_unchanged fun _ => ?_)
  with_unfolding_all rfl

/-- Before `T` is declared it is reported and could be anything. -/
theorem runText_genericHint_empty (q : Point) :
    Gives (runText ⟨q, ∅⟩ "Union[T, str]").run
      (.ok (.ofValue q (.union [.unknown .any, .cls Builtin.str.cls])))
      [.nameError .synthetic "T"] := by
  refine runText_of_parse parse_genericHint fun _ => ?_
  with_unfolding_all rfl

theorem runText_int {scope : Scope} (h : scope.get? "int" = none) (q : Point) :
    Gives (runText ⟨q, scope⟩ "int").run (.ok (.ofValue q (.cls Builtin.int.cls))) [] := by
  refine runText_of_parse parse_int ?_
  show Gives (Frame.load ⟨q, scope⟩ ∅ "int") _ []
  unfold Frame.load
  rw [show (⟨q, scope⟩ : Frame).globals.get? "int" = none from h]
  exact .pure _

theorem genericDef_defined :
    Gives (genericDef.define ⟨⟨2⟩, genericScope ⟨1⟩⟩ "m.py").run (.ok genericFunction) [] := by
  have hvalues : Gives (genericDef.evalHints ⟨⟨2⟩, genericScope ⟨1⟩⟩).run (.ok [_]) [] :=
    ((runText_genericHint ⟨1⟩ ⟨2⟩).adapt _).bind_ok_silent (.ok _)
  rw [FunctionDef.define_eq]
  exact hvalues.bind_ok_silent (Gives.bind_ok_silent (Gives.pure _).lift (Gives.pure _).lift)

theorem genericWalk_reached : genericWalk.Reached genericModule := by
  refine ⟨[.typeVar ⟨"T", none⟩, .function genericDef], [], ⟨_, rfl⟩, ?_⟩
  refine Gives.bind_ok_silent (.ok ((Walk.advance {}).bind "T" _)) ?_
  refine Gives.bind_ok_silent ?_ (.ok genericWalk)
  exact genericDef_defined.bind_ok_silent (.ok _)

theorem genericModule_globals {w : Walk} (hw : w.Reached genericModule) :
    w.globals = ∅ ∨ ∃ p, w.globals = genericScope p := by
  refine hw.induct (P := fun w => w.globals = ∅ ∨ ∃ p, w.globals = genericScope p) (.inl rfl) ?_
  intro w v d rs _ _ hd hdefine hglobals
  have hkeep : Returns (fun v : Walk => v.globals = ∅ ∨ ∃ p, v.globals = genericScope p)
      (w.advance.define genericModule d) := by
    simp only [genericModule, List.mem_cons, List.not_mem_nil, or_false] at hd
    rcases hd with rfl | rfl | rfl
    · refine .pure (.inr ⟨w.point.succ, ?_⟩)
      show w.globals.insert "T" _ = _
      rcases hglobals with h | ⟨p, h⟩
      · rw [h]
        rfl
      · rw [h]
        with_unfolding_all rfl
    · exact (Returns.trivial _).bind fun _ _ => .pure hglobals
    · exact .pure hglobals
  exact hkeep.of_gives hdefine

theorem eq_of_genericModule_reads {text : String} (h : genericModule.Reads text) :
    text = "Union[T, str]" ∨ text = "int" := by
  cases h with
  | definition hd h =>
    simp only [genericModule, List.mem_cons, List.not_mem_nil, or_false] at hd
    rcases hd with rfl | rfl | rfl
    · cases h with
      | bound h => cases h
    · cases h with
      | hint h => exact .inl (congrArg Prod.snd (List.mem_singleton.1 h))
      | arguments h _ => cases h
      | result h _ => cases h
    · cases h
  | comment h => cases h
  | site hd hsite hentry h =>
    simp only [genericModule, List.mem_cons, List.not_mem_nil, or_false, reduceCtorEq, false_or,
      Definition.specialize.injEq] at hd
    subst hd
    obtain rfl := List.mem_singleton.1 hsite
    obtain rfl := List.mem_singleton.1 hentry
    exact .inr (List.mem_singleton.1 h)

theorem genericModule_tellsApart : genericModule.TellsApart := by
  intro text w v b ds htext hw _ _ hb
  have hplain : b.All Value.Plain := by
    obtain ⟨p, globals, functions, vars, requests⟩ := w
    obtain rfl | rfl := eq_of_genericModule_reads htext
    · obtain rfl | ⟨q, rfl⟩ := genericModule_globals hw
      · obtain rfl := Except.ok.inj (hb.unique (runText_genericHint_empty p.succ)).1
        exact .ofValue (.union (List.forall_mem_cons.2 ⟨.unknown _,
          List.forall_mem_singleton.2 (.cls _)⟩))
      · obtain rfl := Except.ok.inj (hb.unique (runText_genericHint q p.succ)).1
        exact .ofValue (.union (List.forall_mem_cons.2 ⟨.typeVar _,
          List.forall_mem_singleton.2 (.cls _)⟩))
    · have hint : globals.get? "int" = none := by
        obtain rfl | ⟨q, rfl⟩ := genericModule_globals hw
        · rfl
        · rfl
      obtain rfl := Except.ok.inj (hb.unique (runText_int hint p.succ)).1
      exact .ofValue (.cls _)
  exact fun x hx => (hplain x hx).tellsApart _

theorem intSite_substitution :
    Gives (List.mapM (SpecializeDef.substitution ⟨"f", [intSite]⟩ genericWalk.advance.frame)
      [intSite]).run (.ok [intMap]) [] := by
  have hint : Gives (runText ⟨⟨3⟩, genericScope ⟨1⟩⟩ "int").run _ [] := runText_int rfl ⟨3⟩
  have hvalues : Gives (SpecializeDef.valuesOf ⟨"f", [intSite]⟩ genericWalk.advance.frame
      ["int"]).run (.ok (.ofValue ⟨3⟩ (.object (.cls Builtin.int.cls) none))) [] :=
    Gives.bind_ok_silent ((hint.adapt _).bind_ok_silent (.ok _)) (.ok _)
  have hmap : Gives (SpecializeDef.substitution ⟨"f", [intSite]⟩ genericWalk.advance.frame
      intSite).run (.ok intMap) [] :=
    Gives.bind_ok_silent (hvalues.bind_ok_silent (.ok _)) (.ok _)
  rw [List.mapM_cons, List.mapM_nil]
  exact hmap.bind_ok_silent (.ok _)

theorem genericType_staysApart : genericType.StaysApart ⟨3⟩ [intMap] := by
  refine .union (fun t ht hopen u hu hsame => ?_) (List.forall_mem_cons.2
    ⟨.typeVar _, List.forall_mem_singleton.2 (.cls _)⟩)
  rcases List.mem_pair.1 ht with rfl | rfl
  · rcases List.mem_pair.1 hu with rfl | rfl
    · rfl
    · -- `T` becomes `int` here
      exact absurd hsame (by decide +kernel)
  · exact absurd rfl hopen

/-- Neither the annotation `Union[T, str]` nor what becomes of it with `int` for `T` repeats an
option. -/
theorem unions_unrepeated_of_generic :
    genericModule.TellsApart ∧ genericWalk.Reached genericModule ∧
      genericFunction ∈ genericWalk.functions ∧
      Gives (genericFunction.resolveLate .standard genericWalk.advance.frame) genericFunction [] ∧
      genericFunction.signature.get? "x" = some genericType ∧ genericType.Unrepeated ∧
      Gives (List.mapM (SpecializeDef.substitution ⟨"f", [intSite]⟩ genericWalk.advance.frame)
        [intSite]).run (.ok [intMap]) [] ∧
      genericType.StaysApart genericWalk.advance.point [intMap] ∧
      genericType.substitute genericWalk.advance.point [intMap] =
        .union [.cls Builtin.int.cls, .cls Builtin.str.cls] ∧
      (genericType.substitute genericWalk.advance.point [intMap]).Unrepeated := by
  have hmem : genericFunction ∈ genericWalk.functions := List.mem_singleton_self _
  have hlate : Gives (genericFunction.resolveLate .standard genericWalk.advance.frame)
      genericFunction [] := Function.resolveLate_of_late_eq_nil _ _ rfl
  have hmain := (Walk.Reached.unions_unrepeated genericModule_tellsApart genericWalk_reached
    hmem).2 .standard genericFunction [] hlate "x" genericType rfl
  obtain ⟨hunrepeated, hsites⟩ := hmain
  refine ⟨genericModule_tellsApart, genericWalk_reached, hmem, hlate, rfl, hunrepeated,
    intSite_substitution, genericType_staysApart, ?_, ?_⟩
  · with_unfolding_all rfl
  · exact hsites ⟨"f", [intSite]⟩ (by simp [genericModule]) [intMap] [] intSite_substitution
      genericType_staysApart

/-! ## Options that become the same -/

/-- A function whose parameter is annotated by a class, `None` and the class of `None`. -/
def noneTwiceDef : FunctionDef where
  name := "f"
  line := 1
  params := ["x"]
  annotations := (∅ : SortedMap String String).insert "x" "Union[int, None, NoneType]"

/-- A function whose parameter is annotated by `T` and two classes. -/
def varOrIntDef : FunctionDef where
  name := "g"
  line := 3
  params := ["x"]
  annotations := (∅ : SortedMap String String).insert "x" "Union[T, int, str]"

/-- The module of these functions, the second specialised to `int` for `T`. -/
def repeatedModule : Module :=
  ⟨"m.py", ∅, [.function noneTwiceDef, .typeVar ⟨"T", none⟩, .function varOrIntDef,
    .specialize ⟨"g", [intSite]⟩]⟩

/-- The type of the first parameter. -/
def noneTwice : Ty :=
  .union [.cls Builtin.int.cls, .cls Builtin.noneType.cls, .cls Builtin.noneType.cls]

/-- The first function once its annotation is collected. -/
def noneTwiceFunction : Function :=
  (noneTwiceDef.bare "m.py").mapSignature fun _ =>
    ⟨(∅ : SortedMap String Ty).insert "x" noneTwice, []⟩

theorem noneTwiceDef_defined :
    Gives (noneTwiceDef.define ⟨⟨1⟩, ∅⟩ "m.py").run (.ok noneTwiceFunction) [] := by
  have hvalue : Gives (runText ⟨⟨1⟩, ∅⟩ "Union[int, None, NoneType]").run (.ok (.ofValue ⟨1⟩
      (.union [.cls Builtin.int.cls, .null, .cls Builtin.noneType.cls]))) [] := by
    refine runText_of_parse (e := .subscript (.name "Union") (.tuple [.name "int", .name "None",
      .name "NoneType"])) (by decide +kernel) (.of_unchanged fun _ => ?_)
    with_unfolding_all rfl
  have hvalues : Gives (noneTwiceDef.evalHints ⟨⟨1⟩, ∅⟩).run (.ok [_]) [] :=
    (hvalue.adapt _).bind_ok_silent (.ok _)
  rw [FunctionDef.define_eq]
  exact hvalues.bind_ok_silent (Gives.bind_ok_silent (Gives.pure _).lift (Gives.pure _).lift)

/-- The options of a union become the same when they are resolved and when they are specialised,
and nothing is reported. -/
theorem signature_of_none_twice :
    (∃ w : Walk, w.Reached repeatedModule ∧ ∃ f ∈ w.functions,
      f.signature.get? "x" = some noneTwice ∧ ¬ noneTwice.Unrepeated) ∧
    analyze .standard repeatedModule = .ok ⟨"ok", "1", "m.py",
      [⟨"f", 1, (∅ : SortedMap String String).insert "x" "Union[int, NoneType, NoneType]"⟩,
        ⟨"g", 3, (∅ : SortedMap String String).insert "x" "Union[T, int, str]"⟩], [],
      [⟨"g", (∅ : SortedMap String String).insert "x" "Union[int, int, str]"⟩], []⟩ := by
  refine ⟨⟨(Walk.advance {}).push noneTwiceFunction,
    .first_function ⟨_, rfl⟩ noneTwiceDef_defined, noneTwiceFunction,
    List.mem_singleton_self _, rfl, fun h => ?_⟩, by decide +kernel⟩
  cases h with
  | union hdistinct _ =>
    obtain ⟨-, hrest⟩ := List.pairwise_cons.1 hdistinct
    exact absurd ((List.pairwise_cons.1 hrest).1 _ (List.mem_singleton_self _)) (by decide +kernel)

end TypeHints
