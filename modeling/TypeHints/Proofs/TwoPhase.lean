import TypeHints.Proofs.LateQueue
import TypeHints.Proofs.Payload

/-!
# Two phases and one

The annotations of a definition are collected without a frame, and what is put off is resolved
when the names of the module are final. That comes to the same as resolving each of them once,
at the end (`resolveInTwoPhases_eq_atOnce`): the same types, and the same reports in another
order. What the early phase decides does not depend on the frame, and what it puts off it has
not reported.
-/

namespace TypeHints

/-! ## Both ways to resolve -/

/-- Collect the annotations of `payload` at `p`, and then resolve what is late in `frame`. -/
def resolveInTwoPhases (receivers : Receivers) (p : Point) (location : Location)
    (payload : List Bindings) (frame : Frame) (f : Function) :
    ExceptT ConversionError Reporting Function := do
  let collected ← collectAnnotations p payload location
  (f.mapSignature collected.addTo).resolveLate receivers frame

/-- Set the type of a name whose annotation has one value visible at `p`. -/
def setVisible (p : Point) (location : Location) (frame : Frame) (types : SortedMap String Ty)
    (pair : String × Bindings) : Reporting (SortedMap String Ty) :=
  match pair.2.visible p with
  | [v] => do
    match ← v.resolve ⟨pair.1, location⟩ (some frame) with
    | .resolved t => return types.insert pair.1 t
    | .late | .failed => return types
  | _ => return types

/-- The types of the annotations with one value visible at `p`, resolved in `frame` at once. -/
def resolveAtOnce (p : Point) (location : Location) (frame : Frame)
    (pairs : List (String × Bindings)) : Reporting (SortedMap String Ty) :=
  pairs.foldlM (setVisible p location frame) ∅

/-- The reports of the annotations that do not have exactly one value visible at `p`. -/
def notOneValue (p : Point) (location : Location) (pairs : List (String × Bindings)) :
    List Diagnostic :=
  (pairs.filter fun pair => (pair.2.visible p).length ≠ 1).map fun pair =>
    .invalidHint location (mergedVisible (pair.2.visible p)).text (some "Must be constant")
      (some pair.1)

theorem notOneValue_append (p : Point) (location : Location) (ps qs : List (String × Bindings)) :
    notOneValue p location (ps ++ qs) = notOneValue p location ps ++ notOneValue p location qs := by
  simp [notOneValue]

theorem notOneValue_singleton_of_ne {p : Point} {location : Location} {name : String}
    {hint : Bindings} (hne : (hint.visible p).length ≠ 1) :
    notOneValue p location [(name, hint)] = [.invalidHint location
      (mergedVisible (hint.visible p)).text (some "Must be constant") (some name)] := by
  simp [notOneValue, hne]

theorem notOneValue_singleton_of_eq {p : Point} {location : Location} {name : String}
    {hint : Bindings} {v : Value} (hv : hint.visible p = [v]) :
    notOneValue p location [(name, hint)] = [] := by
  simp [notOneValue, hv]

/-! ## One annotation -/

theorem setVisible_of_visible {p : Point} {location : Location} {frame : Frame}
    {types types' : SortedMap String Ty} {name : String} {hint : Bindings} {v : Value}
    {outcome : Outcome} {ds : List Diagnostic} (hv : hint.visible p = [v])
    (h : Gives (v.resolve ⟨name, location⟩ (some frame)) outcome ds)
    (htypes : types' = match outcome with
      | .resolved t => types.insert name t
      | .late | .failed => types) :
    Gives (setVisible p location frame types (name, hint)) types' ds := by
  unfold setVisible
  rw [hv, htypes]
  refine h.bind_then_silent ?_
  cases outcome <;> exact .pure _

theorem setVisible_of_not_visible {p : Point} {location : Location} {frame : Frame}
    (types : SortedMap String Ty) (name : String) {hint : Bindings}
    (hne : (hint.visible p).length ≠ 1) :
    Gives (setVisible p location frame types (name, hint)) types [] := by
  unfold setVisible
  split
  · rename_i v hv
    exact absurd (congrArg List.length hv) hne
  · exact .pure _

/-- A late annotation of one name is resolved as it would be at once. -/
theorem Function.resolveNext_gives {receivers : Receivers} {frame : Frame} {f g : Function}
    {name : String} {v : Value} {location : Location} {outcome : Outcome} {ds : List Diagnostic}
    (hname : name ≠ argumentsName)
    (h : Gives (v.resolve ⟨name, location⟩ (some frame)) outcome ds)
    (hg : g = match outcome with
      | .resolved t => f.mapSignature (·.set name t)
      | .late | .failed => f) :
    Gives (Function.resolveNext receivers frame f ⟨v, name, location⟩) g ds := by
  have hsingle : (⟨v, name, location⟩ : LateHint).isArguments = false := by
    simpa [LateHint.isArguments] using hname
  unfold Function.resolveNext Function.resolveName
  rw [hsingle, hg]
  refine h.bind_then_silent ?_
  cases outcome <;> exact .pure _

/-! ## The two ways side by side -/

/-- What both ways to resolve some annotations set and report. -/
structure Split where
  /-- Set by the early phase. -/
  early : List (String × Ty) := []
  /-- Put off. -/
  hints : List LateHint := []
  /-- Set by the late phase. -/
  late : List (String × Ty) := []
  /-- Set when all is resolved at once. -/
  types : List (String × Ty) := []
  earlyReports : List Diagnostic := []
  lateReports : List Diagnostic := []
  reports : List Diagnostic := []

instance : Append Split where
  append s t := ⟨s.early ++ t.early, s.hints ++ t.hints, s.late ++ t.late, s.types ++ t.types,
    s.earlyReports ++ t.earlyReports, s.lateReports ++ t.lateReports, s.reports ++ t.reports⟩

/-- Both ways to resolve `pairs` split up as `s` says and come to the same. -/
structure TwoWays (receivers : Receivers) (p : Point) (location : Location) (frame : Frame)
    (pairs : List (String × Bindings)) (s : Split) : Prop where
  collect : ∀ c : Collected,
    Gives (pairs.foldlM (fun c (name, hint) => c.add p location name hint) c)
      ⟨c.annotations.insertAll s.early, c.late ++ s.hints⟩ s.earlyReports
  drain : ∀ f, Gives (s.hints.foldlM (Function.resolveNext receivers frame) f) (f.setAll s.late)
    s.lateReports
  atOnce : ∀ m,
    Gives (pairs.foldlM (setVisible p location frame) m) (m.insertAll s.types) s.reports
  types_perm : (s.early ++ s.late).Perm s.types
  reports_perm :
    (s.earlyReports ++ s.lateReports).Perm (s.reports ++ notOneValue p location pairs)
  types_sublist : (s.types.map (·.1)).Sublist (pairs.map (·.1))
  hints_sublist : (s.hints.map (·.name)).Sublist (pairs.map (·.1))

namespace TwoWays

variable {receivers : Receivers} {p : Point} {location : Location} {frame : Frame}

theorem nil : TwoWays receivers p location frame [] {} where
  collect c := by
    rw [List.append_nil]
    exact .pure c
  drain f := .pure f
  atOnce m := .pure m
  types_perm := .refl _
  reports_perm := .refl _
  types_sublist := .refl _
  hints_sublist := .refl _

theorem perm_interleave {α : Type} (as bs cs ds : List α) :
    ((as ++ bs) ++ (cs ++ ds)).Perm ((as ++ cs) ++ (bs ++ ds)) := by
  rw [List.append_assoc, List.append_assoc, ← List.append_assoc bs, ← List.append_assoc cs]
  exact (List.perm_append_comm.append_right ds).append_left as

theorem append {ps qs : List (String × Bindings)} {s t : Split}
    (w : TwoWays receivers p location frame ps s) (w' : TwoWays receivers p location frame qs t) :
    TwoWays receivers p location frame (ps ++ qs) (s ++ t) where
  collect c := by
    have h := (w.collect c).foldlM_append (w'.collect _)
    rwa [← SortedMap.insertAll_append, List.append_assoc] at h
  drain f := by
    have h := (w.drain f).foldlM_append (w'.drain _)
    rwa [← Function.setAll_append] at h
  atOnce m := by
    have h := (w.atOnce m).foldlM_append (w'.atOnce _)
    rwa [← SortedMap.insertAll_append] at h
  types_perm := (perm_interleave _ _ _ _).trans (w.types_perm.append w'.types_perm)
  reports_perm := by
    rw [notOneValue_append]
    exact ((perm_interleave _ _ _ _).trans (w.reports_perm.append w'.reports_perm)).trans
      (perm_interleave _ _ _ _)
  types_sublist := by
    have h := w.types_sublist.append w'.types_sublist
    rwa [← List.map_append, ← List.map_append] at h
  hints_sublist := by
    have h := w.hints_sublist.append w'.hints_sublist
    rwa [← List.map_append, ← List.map_append] at h

/-! ## One annotation -/

section Single

variable {name : String} {hint : Bindings} {v : Value} {t : Ty} {d : Diagnostic}

/-- Reported early and left out otherwise. -/
theorem ofNotVisible (hne : (hint.visible p).length ≠ 1) :
    TwoWays receivers p location frame [(name, hint)]
      { earlyReports := notOneValue p location [(name, hint)] } where
  collect c := by
    rw [notOneValue_singleton_of_ne hne, List.append_nil]
    exact .foldlM_singleton (c.add_of_not_visible name hne)
  drain f := .pure f
  atOnce m := .foldlM_singleton (setVisible_of_not_visible m name hne)
  types_perm := .refl _
  reports_perm := .of_eq (List.append_nil _)
  types_sublist := List.nil_sublist _
  hints_sublist := List.nil_sublist _

/-- Resolved by both the early phase and at once. -/
theorem ofEarly (hv : hint.visible p = [v])
    (h : Gives (v.resolve ⟨name, location⟩ none) (.resolved t) [])
    (h' : Gives (v.resolve ⟨name, location⟩ (some frame)) (.resolved t) []) :
    TwoWays receivers p location frame [(name, hint)]
      { early := [(name, t)], types := [(name, t)] } where
  collect c := by
    rw [List.append_nil]
    exact .foldlM_singleton (Collected.add_of_visible hv h rfl)
  drain f := .pure f
  atOnce m := .foldlM_singleton (setVisible_of_visible hv h' rfl)
  types_perm := .refl _
  reports_perm := .of_eq (notOneValue_singleton_of_eq hv).symm
  types_sublist := .refl _
  hints_sublist := List.nil_sublist _

/-- Reported by both the early phase and at once. -/
theorem ofEarlyFailed (hv : hint.visible p = [v])
    (h : Gives (v.resolve ⟨name, location⟩ none) .failed [d])
    (h' : Gives (v.resolve ⟨name, location⟩ (some frame)) .failed [d]) :
    TwoWays receivers p location frame [(name, hint)]
      { earlyReports := [d], reports := [d] } where
  collect c := by
    rw [List.append_nil]
    exact .foldlM_singleton (Collected.add_of_visible hv h rfl)
  drain f := .pure f
  atOnce m := .foldlM_singleton (setVisible_of_visible hv h' rfl)
  types_perm := .refl _
  reports_perm := .of_eq (by rw [notOneValue_singleton_of_eq hv])
  types_sublist := List.nil_sublist _
  hints_sublist := List.nil_sublist _

/-- Put off, and resolved by both the late phase and at once. -/
theorem ofLate (hname : name ≠ argumentsName) (hv : hint.visible p = [v])
    (h : Gives (v.resolve ⟨name, location⟩ none) .late [])
    (h' : Gives (v.resolve ⟨name, location⟩ (some frame)) (.resolved t) []) :
    TwoWays receivers p location frame [(name, hint)]
      { hints := [⟨v, name, location⟩], late := [(name, t)], types := [(name, t)] } where
  collect _ := .foldlM_singleton (Collected.add_of_visible hv h rfl)
  drain _ := .foldlM_singleton (Function.resolveNext_gives hname h' rfl)
  atOnce _ := .foldlM_singleton (setVisible_of_visible hv h' rfl)
  types_perm := .refl _
  reports_perm := .of_eq (notOneValue_singleton_of_eq hv).symm
  types_sublist := .refl _
  hints_sublist := .refl _

/-- Put off, and reported by both the late phase and at once. -/
theorem ofLateFailed (hname : name ≠ argumentsName) (hv : hint.visible p = [v])
    (h : Gives (v.resolve ⟨name, location⟩ none) .late [])
    (h' : Gives (v.resolve ⟨name, location⟩ (some frame)) .failed [d]) :
    TwoWays receivers p location frame [(name, hint)]
      { hints := [⟨v, name, location⟩], lateReports := [d], reports := [d] } where
  collect _ := .foldlM_singleton (Collected.add_of_visible hv h rfl)
  drain _ := .foldlM_singleton (Function.resolveNext_gives hname h' rfl)
  atOnce _ := .foldlM_singleton (setVisible_of_visible hv h' rfl)
  types_perm := .refl _
  reports_perm := .of_eq (by rw [notOneValue_singleton_of_eq hv]; rfl)
  types_sublist := List.nil_sublist _
  hints_sublist := .refl _

end Single

theorem exists_singleton (receivers : Receivers) (p : Point) (location : Location)
    (frame : Frame) {pair : String × Bindings} (hname : pair.1 ≠ argumentsName) :
    ∃ s, TwoWays receivers p location frame [pair] s := by
  obtain ⟨name, hint⟩ := pair
  by_cases hne : (hint.visible p).length ≠ 1
  · exact ⟨_, .ofNotVisible hne⟩
  obtain ⟨v, hv⟩ := List.length_eq_one_iff.1 (not_not.1 hne)
  obtain h | ⟨t, h, h'⟩ | ⟨d, -, -, h, h'⟩ := v.resolve_none_cases ⟨name, location⟩
  · obtain ⟨t, h'⟩ | ⟨d, -, -, h'⟩ := v.resolve_some_cases ⟨name, location⟩ frame
    · exact ⟨_, .ofLate hname hv h h'⟩
    · exact ⟨_, .ofLateFailed hname hv h h'⟩
  · exact ⟨_, .ofEarly hv h (h' frame)⟩
  · exact ⟨_, .ofEarlyFailed hv h (h' frame)⟩

theorem exists_split (receivers : Receivers) (p : Point) (location : Location) (frame : Frame)
    {pairs : List (String × Bindings)} (hnames : argumentsName ∉ pairs.map (·.1)) :
    ∃ s, TwoWays receivers p location frame pairs s := by
  induction pairs with
  | nil => exact ⟨_, .nil⟩
  | cons pair pairs ih =>
    obtain ⟨hpair, hpairs⟩ := not_or.1 (mt List.mem_cons.2 hnames)
    obtain ⟨_, w⟩ := exists_singleton receivers p location frame (Ne.symm hpair)
    obtain ⟨_, w'⟩ := ih hpairs
    exact ⟨_, w.append w'⟩

end TwoWays

/-! ## The comparison -/

/-- **Two phases come to the same as one.** Collecting the annotations of a definition without a
frame and then resolving the late ones in `frame` leaves the types that resolving each annotation
in `frame` at once gives, and nothing late. The reports are the same ones in some order, with one
more for every annotation that does not have exactly one visible value. -/
theorem resolveInTwoPhases_eq_atOnce (receivers : Receivers) (p : Point) (location : Location)
    (frame : Frame) {pairs : List (String × Bindings)} {last : Bindings} {f : Function}
    (hlast : SpellsNames last (pairs.map (·.1))) (hnodup : (pairs.map (·.1)).Nodup)
    (hnames : argumentsName ∉ pairs.map (·.1)) (hf : f.signature = ∅) (log : Log) :
    ∃ types new direct,
      (resolveInTwoPhases receivers p location (pairs.map (·.2) ++ [last]) frame f).run.run log =
        (.ok (f.mapSignature fun _ => ⟨types, []⟩), log.append new) ∧
      (resolveAtOnce p location frame pairs).run log = (types, log.append direct) ∧
      new.Perm (direct ++ notOneValue p location pairs) := by
  obtain ⟨s, w⟩ := TwoWays.exists_split receivers p location frame hnames
  have htypes : (s.types.map (·.1)).Nodup := hnodup.sublist w.types_sublist
  have hearly : ((s.early ++ s.late).map (·.1)).Nodup := (w.types_perm.map _).nodup_iff.2 htypes
  let c : Collected := ⟨(∅ : SortedMap String Ty).insertAll s.early, s.hints⟩
  have hcollect : Gives (collectAnnotations p (pairs.map (·.2) ++ [last]) location).run (.ok c)
      s.earlyReports := by
    refine collectAnnotations_gives hlast ?_
    rw [List.zip_map', List.map_id']
    simpa using w.collect {}
  have hadd : f.mapSignature c.addTo = f.mapSignature fun _ => ⟨c.annotations, s.hints⟩ := by
    unfold Function.mapSignature
    rw [hf, c.addTo_empty (hnodup.sublist w.hints_sublist)]
  have hlate : Gives ((f.mapSignature c.addTo).resolveLate receivers frame)
      (f.mapSignature fun _ => ⟨(∅ : SortedMap String Ty).insertAll s.types, []⟩)
      s.lateReports := by
    rw [← SortedMap.insertAll_perm w.types_perm _ hearly, SortedMap.insertAll_append, hadd]
    exact w.drain (f.mapSignature fun _ => ⟨c.annotations, []⟩)
  exact ⟨_, _, _, hcollect.bind_ok hlate.lift log, w.atOnce ∅ log, w.reports_perm⟩

/-- Three parameters annotated by a class, by a forward reference and by two values. -/
theorem resolveInTwoPhases_of_three :
    SpellsNames (.ofValue .root (.tuple [.ofValue .root (.str "x"), .ofValue .root (.str "y"),
        .ofValue .root (.str "z")])) ["x", "y", "z"] ∧
      ["x", "y", "z"].Nodup ∧ argumentsName ∉ ["x", "y", "z"] ∧
      ∃ types new direct,
        (resolveInTwoPhases .standard .root ⟨"m.py", 1⟩
            [.ofValue .root (.cls Builtin.int.cls), .ofValue .root (.str "Foo"),
              .ofValues .root [.cls Builtin.int.cls, .null],
              .ofValue .root (.tuple [.ofValue .root (.str "x"), .ofValue .root (.str "y"),
                .ofValue .root (.str "z")])] ⟨.root, ∅⟩
            ⟨"f", "m.py", 1, 3, 0, false, false, ["x", "y", "z"], ∅⟩).run.run ∅ =
          (.ok ⟨"f", "m.py", 1, 3, 0, false, false, ["x", "y", "z"], ⟨types, []⟩⟩,
            Log.append ∅ new) ∧
        (resolveAtOnce .root ⟨"m.py", 1⟩ ⟨.root, ∅⟩
            [("x", .ofValue .root (.cls Builtin.int.cls)), ("y", .ofValue .root (.str "Foo")),
              ("z", .ofValues .root [.cls Builtin.int.cls, .null])]).run ∅ =
          (types, Log.append ∅ direct) ∧
        new.Perm (direct ++ notOneValue .root ⟨"m.py", 1⟩
          [("x", .ofValue .root (.cls Builtin.int.cls)), ("y", .ofValue .root (.str "Foo")),
            ("z", .ofValues .root [.cls Builtin.int.cls, .null])]) := by
  have hlast : SpellsNames (.ofValue .root (.tuple [.ofValue .root (.str "x"),
      .ofValue .root (.str "y"), .ofValue .root (.str "z")])) ["x", "y", "z"] :=
    ⟨_, _, rfl, rfl, .cons ⟨_, rfl, rfl⟩ (.cons ⟨_, rfl, rfl⟩ (.cons ⟨_, rfl, rfl⟩ .nil))⟩
  refine ⟨hlast, by decide, by decide, ?_⟩
  exact @resolveInTwoPhases_eq_atOnce .standard .root ⟨"m.py", 1⟩ ⟨.root, ∅⟩
    [("x", .ofValue .root (.cls Builtin.int.cls)), ("y", .ofValue .root (.str "Foo")),
      ("z", .ofValues .root [.cls Builtin.int.cls, .null])] _ _ hlast (by decide) (by decide) rfl ∅

end TypeHints
