import TypeHints.Proofs.FunctionDef
import TypeHints.Proofs.Reached
import TypeHints.Proofs.Returns

/-!
# Collecting partitions the payload

A payload that spells the names of its values stands for pairs of a name and its values
(`PairsUp`). Collecting puts each pair in one of three places (`PlacedAt`): among the resolved
annotations, among the late ones, or in the log, with one report. A payload without such pairs is
refused and nothing is reported. The payload that a definition collects always has pairs, one for
each annotation (`FunctionDef.AnnotatedBy`), so the analysis of a module never fails for this reason
(`collectAnnotations_partitions`).
-/

namespace TypeHints

/-! ## The pairs of a payload -/

/-- The values of the payload, each under its name. What has no name, or is only a name, is left
out. -/
inductive PairsUp : List Bindings → List (String × Bindings) → Prop
  | nil : PairsUp [] []
  | named {hints : List Bindings} {last : Bindings} {names : List String}
      (spells : SpellsNames last names) : PairsUp (hints ++ [last]) (names.zip hints)

/-! ## Places -/

/-- Where an annotation ends up. -/
inductive Place where
  | resolved (name : String) (t : Ty)
  | late (l : LateHint)
  | reported (d : Diagnostic)

namespace Place

/-- The resolved annotation at this place. -/
def type? : Place → Option (String × Ty)
  | resolved name t => some (name, t)
  | late _ | reported _ => none

/-- The late annotation at this place. -/
def late? : Place → Option LateHint
  | late l => some l
  | resolved .. | reported _ => none

/-- The report at this place. -/
def report? : Place → Option Diagnostic
  | reported d => some d
  | resolved .. | late _ => none

end Place

/-- What has been collected, and one annotation more. -/
def Collected.put (c : Collected) : Place → Collected
  | .resolved name t => c.set name t
  | .late l => c.defer l
  | .reported _ => c

/-- Where the values that are written for a name belong: if one value is visible at `p`, where its
resolution says, and otherwise in the log. -/
inductive PlacedAt (p : Point) (location : Location) : String × Bindings → Place → Prop
  | resolved {name : String} {hint : Bindings} {v : Value} {t : Ty} (visible : hint.visible p = [v])
      (resolve : Gives (v.resolve ⟨name, location⟩ none) (.resolved t) []) :
      PlacedAt p location (name, hint) (.resolved name t)
  | late {name : String} {hint : Bindings} {v : Value} (visible : hint.visible p = [v])
      (resolve : Gives (v.resolve ⟨name, location⟩ none) .late []) :
      PlacedAt p location (name, hint) (.late ⟨v, name, location⟩)
  | failed {name : String} {hint : Bindings} {v : Value} {d : Diagnostic}
      (visible : hint.visible p = [v])
      (resolve : Gives (v.resolve ⟨name, location⟩ none) .failed [d]) :
      PlacedAt p location (name, hint) (.reported d)
  | notSingle {name : String} {hint : Bindings} (several : (hint.visible p).length ≠ 1) :
      PlacedAt p location (name, hint) (.reported (.invalidHint location
        (mergedVisible (hint.visible p)).text (some "Must be constant") (some name)))

namespace PlacedAt

variable {p : Point} {location : Location} {pair : String × Bindings} {place place' : Place}

theorem exists_place (p : Point) (location : Location) (pair : String × Bindings) :
    ∃ place, PlacedAt p location pair place := by
  obtain ⟨name, hint⟩ := pair
  by_cases hone : (hint.visible p).length = 1
  · obtain ⟨v, hv⟩ := List.length_eq_one_iff.1 hone
    obtain h | ⟨t, h, -⟩ | ⟨d, -, -, h, -⟩ := v.resolve_none_cases ⟨name, location⟩
    · exact ⟨_, .late hv h⟩
    · exact ⟨_, .resolved hv h⟩
    · exact ⟨_, .failed hv h⟩
  · exact ⟨_, .notSingle hone⟩

/-- Collecting an annotation puts it in its place, and reports what belongs there. -/
theorem add (h : PlacedAt p location pair place) (c : Collected) :
    Gives (c.add p location pair.1 pair.2) (c.put place) place.report?.toList := by
  cases h with
  | resolved visible resolve => exact Collected.add_of_visible visible resolve rfl
  | late visible resolve => exact Collected.add_of_visible visible resolve rfl
  | failed visible resolve => exact Collected.add_of_visible visible resolve rfl
  | notSingle several => exact c.add_of_not_visible _ several

theorem report_kind {d : Diagnostic} (h : PlacedAt p location pair (.reported d)) :
    d.kind = .invalidHint ∧ d.location = location := by
  cases h with
  | @failed name hint v d visible resolve =>
    obtain h | ⟨t, h, -⟩ | ⟨d', hkind, hplace, h, -⟩ := v.resolve_none_cases ⟨name, location⟩
    · cases (resolve.unique h).1
    · cases (resolve.unique h).1
    · obtain rfl := List.singleton_inj.1 (resolve.unique h).2
      exact ⟨hkind, hplace⟩
  | notSingle several => exact ⟨rfl, rfl⟩

/-- Only what is resolved has an entry, under the name it was written for. -/
theorem name_eq {entry : String × Ty} (h : PlacedAt p location pair place)
    (hentry : place.type? = some entry) : entry.1 = pair.1 := by
  cases h <;> cases hentry
  rfl

theorem unique (h : PlacedAt p location pair place) (h' : PlacedAt p location pair place') :
    place = place' := by
  cases h <;> cases h' <;> grind [Gives.unique]

end PlacedAt

/-! ## Collecting -/

section Collect

variable {p : Point} {location : Location} {payload : List Bindings}
  {pairs : List (String × Bindings)} {places : List Place}

theorem collectAnnotations_of_pairsUp (h : PairsUp payload pairs) :
    collectAnnotations p payload location =
      liftM (pairs.foldlM (fun c pair => c.add p location pair.1 pair.2) {}) := by
  cases h with
  | nil => rfl
  | named spells => exact collectAnnotations_eq spells

theorem collectAnnotations_of_not_pairsUp (p : Point) (location : Location)
    (h : ∀ pairs, ¬ PairsUp payload pairs) :
    ∃ e, Gives (collectAnnotations p payload location).run (.error e) [] := by
  obtain rfl | ⟨hints, last, rfl⟩ := payload.eq_nil_or_concat'
  · exact absurd .nil (h [])
  · cases hnames : annotationNames last with
    | ok names => exact absurd (.named (annotationNames_eq_ok_iff.1 hnames)) (h _)
    | error e =>
      refine ⟨e, ?_⟩
      unfold collectAnnotations
      rw [List.getLast?_concat]
      simp only [hnames]
      exact (Gives.liftExcept _).bind_error

theorem exists_places (p : Point) (location : Location) (pairs : List (String × Bindings)) :
    ∃ places, List.Forall₂ (PlacedAt p location) pairs places := by
  induction pairs with
  | nil => exact ⟨[], .nil⟩
  | cons pair pairs ih =>
    obtain ⟨place, h⟩ := PlacedAt.exists_place p location pair
    obtain ⟨places, hs⟩ := ih
    exact ⟨place :: places, .cons h hs⟩

/-- All annotations are put in their places, one after the other. -/
theorem foldlM_add (h : List.Forall₂ (PlacedAt p location) pairs places) (c : Collected) :
    Gives (pairs.foldlM (fun c pair => c.add p location pair.1 pair.2) c)
      (places.foldl .put c) (places.filterMap Place.report?) := by
  induction h generalizing c with
  | nil => exact .pure c
  | @cons pair place pairs places hplace _ ih =>
    have hreports : (place :: places).filterMap Place.report? =
        place.report?.toList ++ places.filterMap Place.report? := by
      cases place <;> rfl
    rw [hreports]
    exact Gives.foldlM_cons (hplace.add c) (ih _)

theorem foldl_put (places : List Place) (c : Collected) :
    places.foldl .put c = ⟨c.annotations.insertAll (places.filterMap Place.type?),
      c.late ++ places.filterMap Place.late?⟩ := by
  induction places generalizing c with
  | nil => simp [SortedMap.insertAll]
  | cons place places ih =>
    rw [List.foldl_cons, ih]
    cases place <;> simp [Collected.put, Collected.set, Collected.defer, Place.type?, Place.late?,
      List.filterMap_cons]

theorem names_sublist (h : List.Forall₂ (PlacedAt p location) pairs places) :
    ((places.filterMap Place.type?).map (·.1)).Sublist (pairs.map (·.1)) := by
  induction h with
  | nil => exact .slnil
  | @cons pair place pairs places hplace _ ih =>
    cases htype : place.type? with
    | none =>
      rw [List.filterMap_cons_none htype]
      exact ih.cons _
    | some entry =>
      rw [List.filterMap_cons_some htype, List.map_cons, hplace.name_eq htype]
      exact ih.cons_cons _

theorem reports_kind (h : List.Forall₂ (PlacedAt p location) pairs places) :
    ∀ d ∈ places.filterMap Place.report?, d.kind = .invalidHint ∧ d.location = location := by
  induction h with
  | nil => exact fun d hd => absurd hd List.not_mem_nil
  | @cons pair place pairs places hplace _ ih =>
    cases place with
    | resolved name t => exact ih
    | late l => exact ih
    | reported d => exact List.forall_mem_cons.2 ⟨hplace.report_kind, ih⟩

/-- A payload that is refused does not pair up. -/
theorem not_pairsUp_of_error {e : ConversionError}
    (h : ((collectAnnotations p payload location).run.run ∅).1 = .error e) :
    ¬ PairsUp payload pairs := by
  intro hpairs
  obtain ⟨places, hplaces⟩ := exists_places p location pairs
  rw [collectAnnotations_of_pairsUp hpairs, (foldlM_add hplaces {}).lift ∅] at h
  cases h

end Collect

/-! ## The payload of a definition -/

/-- Each of several entries has one pair, of its name and its own value. -/
theorem forall₂_zip_names {R : String × String → Bindings → Prop}
    {entries : List (String × String)} {values : List Bindings}
    (h : List.Forall₂ R entries values) :
    List.Forall₂ (fun entry pair => pair.1 = entry.1 ∧ R entry pair.2) entries
      ((entries.map (·.1)).zip values) := by
  induction h with
  | nil => exact .nil
  | cons h _ ih => exact .cons ⟨rfl, h⟩ ih

/-- The pairs are the annotations of a definition, whose names differ: for each of them its name,
and the values of its text. -/
def FunctionDef.AnnotatedBy (d : FunctionDef) (frame : Frame) (pairs : List (String × Bindings)) :
    Prop :=
  (pairs.map (·.1)).Nodup ∧
    List.Forall₂ (fun entry pair => pair.1 = entry.1 ∧
      ∃ ds, Gives (runText frame entry.2).run (.ok pair.2) ds) d.annotations.toList pairs

theorem FunctionDef.annotatedBy_of_forall₂ {d : FunctionDef} {frame : Frame}
    {pairs : List (String × Bindings)}
    (h : List.Forall₂ (fun entry pair => pair.1 = entry.1 ∧
      ∃ ds, Gives (runText frame entry.2).run (.ok pair.2) ds) d.annotations.toList pairs) :
    d.AnnotatedBy frame pairs := by
  have hnames : List.Forall₂ (· = ·) (pairs.map (·.1)) (d.annotations.toList.map (·.1)) := by
    rw [List.forall₂_map_left_iff, List.forall₂_map_right_iff]
    exact h.flip.imp fun _ _ h => h.1
  rw [List.forall₂_eq_eq_eq] at hnames
  refine ⟨?_, h⟩
  rw [hnames]
  exact d.annotations.nodup_keys

/-- The payload of a definition pairs up its annotations. -/
theorem FunctionDef.payload_pairsUp (d : FunctionDef) (frame : Frame) :
    Returns (fun payload => ∃ pairs, PairsUp payload pairs ∧ d.AnnotatedBy frame pairs)
      (d.payload frame) := by
  have hvalues : Returns (List.Forall₂ (fun entry b => ∃ ds,
      Gives (runText frame entry.2).run (.ok b) ds) d.annotations.toList) (d.evalHints frame) :=
    Returns.mapM_forall₂ _ fun entry _ =>
      (Returns.of_appendOnly (runText_appendOnly frame entry.2)).adapt _
  rw [payload_eq]
  refine hvalues.map fun values hvalues => ?_
  refine ⟨(d.annotations.toList.map (·.1)).zip values, ?_,
    annotatedBy_of_forall₂ (forall₂_zip_names hvalues)⟩
  cases values with
  | nil =>
    rw [List.zip_nil_right]
    exact .nil
  | cons value values => exact .named (spellsNames_payload frame.point d.annotations.toList)

/-! ## Failures of the analysis -/

/-- The error is not about the payload of a definition. -/
def ModuleError.NotMalformed (e : ModuleError) : Prop :=
  ∀ function cause, e ≠ .malformedAnnotations function cause

section Throws

variable {frame : Frame}

theorem TypeVarDef.define_throws (d : TypeVarDef) :
    Throws ModuleError.NotMalformed (d.define frame) := by
  unfold define
  split
  · exact .pure _
  · exact (Throws.adapt (fun _ => nofun) _).bind fun _ => .pure _

theorem FunctionDef.define_throws (d : FunctionDef) (file : String) :
    Throws ModuleError.NotMalformed (d.define frame file) := by
  rw [define_eq]
  refine Throws.bind (.mapM (fun entry => ?_) _) fun values =>
    (Throws.lift _).bind fun c => .lift _
  exact Throws.adapt (fun _ => nofun) _

theorem AssignDef.define_throws (d : AssignDef) (comments : LineComments) (file : String) :
    Throws ModuleError.NotMalformed (d.define frame comments file) :=
  (Throws.adapt (fun _ => nofun) _).bind fun _ => .lift _

theorem Walk.define_throws (m : Module) (w : Walk) (d : Definition) :
    Throws ModuleError.NotMalformed (w.define m d) := by
  cases d with
  | typeVar d => exact d.define_throws.bind fun _ => .pure _
  | cls d => exact .pure _
  | function d => exact (d.define_throws m.file).bind fun _ => .pure _
  | assign d => exact (d.define_throws m.lineComments m.file).bind fun _ => .pure _
  | specialize d => exact .pure _

theorem SpecializeDef.specialize_throws (d : SpecializeDef) (functions : List Function) :
    Throws ModuleError.NotMalformed (d.specialize frame functions) := by
  have hvalues : ∀ texts, Throws ModuleError.NotMalformed (d.valuesOf frame texts) := by
    intro texts
    refine Throws.foldlM (fun b text => ?_) texts ∅
    exact (Throws.adapt (fun _ => nofun) _).bind fun _ => .pure _
  unfold specialize
  split
  · exact .throw nofun
  · refine Throws.bind (.mapM (fun site => ?_) d.maps) fun _ => .pure _
    refine Throws.foldlM (fun map entry => ?_) site.toList ∅
    obtain ⟨name, texts⟩ := entry
    exact (hvalues texts).bind fun _ => .pure _

theorem Walk.through_throws (m : Module) (w : Walk) (ds : List Definition) :
    Throws ModuleError.NotMalformed (w.through m ds) := by
  unfold through
  exact .foldlM (fun (w : Walk) d => w.advance.define_throws m d) ds w

theorem Walk.run_throws (m : Module) : Throws ModuleError.NotMalformed (Walk.run m) := by
  rw [Walk.run_eq_through]
  exact (Walk.through_throws m {} m.definitions).map _

theorem findings_throws (receivers : Receivers) (m : Module) :
    Throws ModuleError.NotMalformed (findings receivers m) := by
  rw [findings_eq_bind]
  refine (Walk.run_throws m).bind fun w => ?_
  have hresolve : Throws ModuleError.NotMalformed (resolveAll receivers w.frame w.functions) :=
    .mapM (fun f => .lift _) w.functions
  refine hresolve.bind fun functions => ?_
  have hspecialize : Throws ModuleError.NotMalformed
      (specializeAll w.frame functions w.requests) :=
    .mapM (fun d => d.specialize_throws functions) w.requests
  exact hspecialize.bind fun _ => .pure _

end Throws

theorem analyze_ne_malformed (receivers : Receivers) (m : Module) (function : String)
    (cause : ConversionError) :
    analyze receivers m ≠ .error (.malformedAnnotations function cause) := by
  intro h
  unfold analyze at h
  split at h
  · cases h
  · rename_i e log hrun
    have hthrows := findings_throws receivers m ∅
    rw [hrun] at hthrows
    exact hthrows e rfl function cause (Except.error.inj h)

/-! ## The partition -/

/-- **Collecting partitions the payload.** Every annotation has one place. If the payload pairs up,
collecting succeeds: the resolved annotations are those of the pairs that belong there, if the
names differ, and the late ones and the reports are those of the pairs that belong there, in the
order of the payload. If it does not, collecting fails and leaves the log. No analysis fails
because of a payload, since that of a definition pairs up its annotations, whose names differ. It is
this payload that every step of a walk collects when it defines a function, and an analysis that
succeeds takes such a step for each function of the module. -/
theorem collectAnnotations_partitions :
    (∀ p location pair, ∃! place, PlacedAt p location pair place) ∧
    (∀ p location payload pairs, PairsUp payload pairs → ∃ places c ds,
      List.Forall₂ (PlacedAt p location) pairs places ∧
      (∀ log, (collectAnnotations p payload location).run.run log = (.ok c, log.append ds)) ∧
      ((pairs.map (·.1)).Nodup → c.annotations.toList.Perm (places.filterMap Place.type?)) ∧
      c.late = places.filterMap Place.late? ∧ ds = places.filterMap Place.report? ∧
      ∀ d ∈ ds, d.kind = .invalidHint ∧ d.location = location) ∧
    (∀ p location payload, (∀ pairs, ¬ PairsUp payload pairs) →
      ∃ e, ∀ log, (collectAnnotations p payload location).run.run log = (.error e, log)) ∧
    (∀ receivers m function cause,
      analyze receivers m ≠ .error (.malformedAnnotations function cause)) ∧
    (∀ (d : FunctionDef) frame log payload, ((d.payload frame).run.run log).1 = .ok payload →
      ∃ pairs, PairsUp payload pairs ∧ d.AnnotatedBy frame pairs) ∧
    (∀ (m : Module) (w v : Walk) (d : FunctionDef) ds,
      Gives (w.define m (.function d)).run (.ok v) ds →
      ∃ payload pairs c f es fs gs, Gives (d.payload w.frame).run (.ok payload) es ∧
        PairsUp payload pairs ∧ d.AnnotatedBy w.frame pairs ∧
        Gives (collectAnnotations w.point payload (d.bare m.file).location).run (.ok c) fs ∧
        Gives (d.attach ((d.bare m.file).mapSignature c.addTo)) f gs ∧
        v = w.push f ∧ ds = es ++ (fs ++ gs)) ∧
    ∀ receivers m report (d : FunctionDef), analyze receivers m = .ok report →
      .function d ∈ m.definitions → ∃ w v : Walk, ∃ ds, w.Reached m ∧
        Gives (w.advance.define m (.function d)).run (.ok v) ds := by
  refine ⟨fun p location pair => ?unique, fun p location payload pairs hpairs => ?pairs,
    fun p location payload hnot => ?refused, analyze_ne_malformed,
    fun d frame log payload => d.payload_pairsUp frame log payload, fun m w v d ds h => ?define,
    fun _ _ _ _ h hd => Walk.Reached.exists_of_analyze h hd⟩
  case unique =>
    obtain ⟨place, h⟩ := PlacedAt.exists_place p location pair
    exact ⟨place, h, fun place' h' => h'.unique h⟩
  case pairs =>
    obtain ⟨places, hplaces⟩ := exists_places p location pairs
    refine ⟨places, places.foldl .put {}, _, hplaces, ?_, fun hnames => ?_, ?_, rfl,
      reports_kind hplaces⟩
    · rw [collectAnnotations_of_pairsUp hpairs]
      exact (foldlM_add hplaces {}).lift
    · rw [foldl_put]
      exact SortedMap.toList_insertAll_perm (hnames.sublist (names_sublist hplaces))
    · rw [foldl_put]
      rfl
  case refused =>
    obtain ⟨e, he⟩ := collectAnnotations_of_not_pairsUp p location hnot
    refine ⟨e, fun log => ?_⟩
    rw [he log, Log.append_nil]
  case define =>
    have hpush : ∀ g, AppendOnly (pure (w.push g) : Analysing Walk).run := fun _ => .ok _
    rw [Walk.define_function, map_eq_pure_bind] at h
    obtain ⟨f, es, fs, hf, hv, rfl⟩ :=
      (d.define_appendOnly w.frame m.file).exists_of_bind_ok hpush h
    obtain ⟨hok, rfl⟩ := hv.unique (.ok _)
    obtain rfl := Except.ok.inj hok
    obtain ⟨payload, c, es, fs, gs, hpayload, hc, hattach, rfl⟩ :=
      d.exists_payload_of_define w.frame m.file hf
    obtain ⟨pairs, hpairs, hannotated⟩ := (d.payload_pairsUp w.frame).of_gives hpayload
    exact ⟨payload, pairs, c, f, es, fs, gs, hpayload, hpairs, hannotated, hc, hattach, rfl,
      List.append_nil _⟩

/-! ### Three annotations -/

/-- A class, a forward reference and two values. -/
def mixedHints : List (String × Bindings) :=
  [("x", .ofValue .root (.cls Builtin.int.cls)), ("y", .ofValue .root (.str "Foo")),
    ("z", .ofValues .root [.cls Builtin.int.cls, .null])]

/-- The payload they stand in. -/
def mixedPayload : List Bindings :=
  mixedHints.map (·.2) ++ [.ofValue .root (.tuple (mixedHints.map fun (name, _) =>
    .ofValue .root (.str name)))]

theorem mixedPayload_pairsUp : PairsUp mixedPayload mixedHints := by
  have hspells : SpellsNames (.ofValue .root (.tuple (mixedHints.map fun (name, _) =>
      .ofValue .root (.str name)))) ["x", "y", "z"] :=
    ⟨_, _, rfl, rfl, .cons ⟨_, rfl, rfl⟩ (.cons ⟨_, rfl, rfl⟩ (.cons ⟨_, rfl, rfl⟩ .nil))⟩
  exact .named hspells

theorem mixedHints_placed : List.Forall₂ (PlacedAt .root ⟨"m.py", 1⟩) mixedHints
    [.resolved "x" (.cls Builtin.int.cls), .late ⟨.str "Foo", "y", ⟨"m.py", 1⟩⟩,
      .reported (.invalidHint ⟨"m.py", 1⟩ "Union[int, None]" (some "Must be constant")
        (some "z"))] := by
  have htext : (mergedVisible ((Bindings.ofValues .root
      [.cls Builtin.int.cls, .null]).visible .root)).text = "Union[int, None]" := by
    decide +kernel
  refine .cons (.resolved rfl (.of_unchanged fun _ => rfl))
    (.cons (.late rfl (.of_unchanged fun _ => rfl)) (.cons ?_ .nil))
  rw [← htext]
  exact .notSingle (by decide)

/-- A definition with one annotation. -/
def mixedDef : FunctionDef where
  name := "f"
  line := 1
  annotations := (∅ : SortedMap String String).insert "x" "int"

/-- The module of that definition. -/
def mixedModule : Module := ⟨"m.py", ∅, [.function mixedDef]⟩

theorem analyze_mixedModule : analyze .standard mixedModule =
    .ok ⟨"ok", "1", "m.py", [⟨"f", 1, ⟨[("x", "int")], by simp⟩⟩], [], [], []⟩ := by
  decide +kernel

/-- The class is resolved, the forward reference is late, and the two values are reported. Without
the names at its end the payload is refused. That of the definition has one pair, and the analysis
of the module collects it. -/
theorem collectAnnotations_of_mixed :
    (∃ c, (∀ log, (collectAnnotations .root mixedPayload ⟨"m.py", 1⟩).run.run log =
        (.ok c, log.append [.invalidHint ⟨"m.py", 1⟩ "Union[int, None]" (some "Must be constant")
          (some "z")])) ∧
      c.annotations.toList.Perm [("x", .cls Builtin.int.cls)] ∧
      c.late = [⟨.str "Foo", "y", ⟨"m.py", 1⟩⟩]) ∧
    (∃ e, ∀ log, (collectAnnotations .root (mixedHints.map (·.2)) ⟨"m.py", 1⟩).run.run log =
      (.error e, log)) ∧
    (∃ b, PairsUp [.ofValue .root (.cls Builtin.int.cls),
        .ofValue .root (.tuple [.ofValue .root (.str "x")])] [("x", b)]) ∧
    ∃ (w : Walk) (payload : List Bindings) (b : Bindings) (c : Collected) (fs : List Diagnostic),
      w.Reached mixedModule ∧ PairsUp payload [("x", b)] ∧
        Gives (collectAnnotations w.advance.point payload ⟨"m.py", 1⟩).run (.ok c) fs := by
  have herror : ((collectAnnotations .root (mixedHints.map (·.2)) ⟨"m.py", 1⟩).run.run ∅).1 =
      .error (.notSingle 2) := rfl
  have hrefused : ∀ pairs, ¬ PairsUp (mixedHints.map (·.2)) pairs :=
    fun _ => not_pairsUp_of_error herror
  obtain ⟨-, hcollect, hrefuse, -, hpayload, hdefine, hanalysis⟩ := collectAnnotations_partitions
  refine ⟨?_, hrefuse .root ⟨"m.py", 1⟩ _ hrefused, ?_, ?_⟩
  · obtain ⟨places, c, ds, hplaces, hrun, htypes, hlate, rfl, -⟩ :=
      hcollect .root ⟨"m.py", 1⟩ _ _ mixedPayload_pairsUp
    have hunique : Relator.RightUnique (PlacedAt .root ⟨"m.py", 1⟩) :=
      fun _ _ _ h h' => h.unique h'
    obtain rfl := List.right_unique_forall₂' hunique hplaces mixedHints_placed
    exact ⟨c, hrun, htypes (by decide), hlate⟩
  · obtain ⟨pairs, hpairs, -, hentries⟩ := hpayload mixedDef ⟨.root, ∅⟩ ∅ _ rfl
    match pairs, hentries with
    | [(_, b)], .cons ⟨rfl, _⟩ .nil => exact ⟨b, hpairs⟩
  · obtain ⟨w, v, ds, hw, hv⟩ :=
      hanalysis .standard mixedModule _ mixedDef analyze_mixedModule List.mem_cons_self
    obtain ⟨payload, pairs, c, _, _, fs, _, -, hpairs, ⟨-, hentries⟩, hc, -⟩ :=
      hdefine _ _ _ _ _ hv
    match pairs, hentries with
    | [(_, b)], .cons ⟨rfl, _⟩ .nil => exact ⟨w, payload, b, c, fs, hw, hpairs, hc⟩

end TypeHints
