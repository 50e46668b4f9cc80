import TypeHints.Proofs.Conversion
import TypeHints.Proofs.Sandbox

/-!
# Type comments replace or keep

What a comment means is said of its plain run (`CommentMeans`): a type, if the run reports nothing
and has one value that denotes one, and otherwise what stands in the way. Each comment has a meaning
(`CommentMeans.exists_meaning`) and only one (`CommentMeans.unique`). A line that a comment applies
to gets the objects of its type, or keeps what it computes and is reported once; every other line is
left alone (`applyTypeComment_replaces_or_keeps`).
-/

namespace TypeHints

/-! ## What a comment means -/

/-- The type that running a comment plainly gives, or why it gives none. -/
inductive CommentMeans (frame : Frame) (text : String) : Except TextError Ty → Prop
  | type {b : Bindings} {v : Value} {t : Ty} (run : Gives (runText frame text).run (.ok b) [])
      (single : b.values = [v]) (denotes : v.toTy? = some t) : CommentMeans frame text (.ok t)
  | malformed {e : CompileError} (run : Gives (runText frame text).run (.error e) []) :
      CommentMeans frame text (.error (.evaluation (.compile e)))
  | reported {b : Bindings} {ds : List Diagnostic} (run : Gives (runText frame text).run (.ok b) ds)
      (reports : ds ≠ []) :
      CommentMeans frame text (.error (.evaluation (.diagnostics (ds.map (·.message)))))
  | notSingle {b : Bindings} (run : Gives (runText frame text).run (.ok b) [])
      (several : b.values.length ≠ 1) :
      CommentMeans frame text (.error (.conversion (.notSingle b.values.length)))
  | notAType {b : Bindings} {v : Value} (run : Gives (runText frame text).run (.ok b) [])
      (single : b.values = [v]) (denotes : v.toTy? = none) :
      CommentMeans frame text (.error (.notAType v.text))

theorem Bindings.single_of_length_ne_one {b : Bindings} (h : b.values.length ≠ 1) :
    b.single = .error (.notSingle b.values.length) := by
  obtain ⟨bs⟩ := b
  match bs with
  | [] => rfl
  | [x] => exact absurd rfl h
  | x :: y :: bs => simp [Bindings.single, Bindings.values]

namespace CommentMeans

variable {frame : Frame} {text : String} {r r' : Except TextError Ty}

theorem exists_meaning (frame : Frame) (text : String) : ∃ r, CommentMeans frame text r := by
  cases hparse : Expr.parse text with
  | error e => exact ⟨_, .malformed (runText_of_parse_error hparse)⟩
  | ok e =>
    obtain ⟨b, ds, hb⟩ := e.eval_appendOnly frame ∅
    have hrun := runText_of_parse hparse hb
    by_cases hds : ds = []
    · obtain rfl := hds
      by_cases hone : b.values.length = 1
      · obtain ⟨v, hv⟩ := List.length_eq_one_iff.1 hone
        cases ht : v.toTy? with
        | some t => exact ⟨_, .type hrun hv ht⟩
        | none => exact ⟨_, .notAType hrun hv ht⟩
      · exact ⟨_, .notSingle hrun hone⟩
    · exact ⟨_, .reported hrun hds⟩

theorem unique (h : CommentMeans frame text r) (h' : CommentMeans frame text r') : r = r' := by
  cases h <;> cases h' <;> grind [Gives.unique]

/-- In the sandbox a comment gives the objects of the type it means, or the error. -/
theorem gives (h : CommentMeans frame text r) :
    Gives (evalTypeComment frame text).run (r.map (·.instantiate frame.point)) [] := by
  cases h with
  | type run single denotes =>
    exact AcceptedAs.gives
      ⟨_, _, evalText_of_run run, Bindings.single_eq_ok_iff.2 single, denotes⟩
  | malformed run => exact ((evalText_of_run run).adapt _).bind_error
  | @reported b ds run reports =>
    have heval := evalText_of_run run
    rw [isolated_eq_diagnostics_iff.2 ⟨⟨b, rfl⟩, reports, rfl⟩] at heval
    exact (heval.adapt _).bind_error
  | notSingle run several =>
    unfold evalTypeComment
    refine ((evalText_of_run run).adapt _).bind_ok_silent ?_
    rw [Bindings.single_of_length_ne_one several]
    exact (Gives.liftExcept _).bind_error
  | notAType run single denotes =>
    unfold evalTypeComment
    refine ((evalText_of_run run).adapt _).bind_ok_silent ?_
    rw [Bindings.single_eq_ok_iff.2 single]
    refine (Gives.liftExcept _).bind_ok_silent ?_
    rw [Value.instantiate, denotes]
    exact .error _

end CommentMeans

/-! ## Where a comment applies -/

/-- The comment `text` applies to a line: it stands on that line of that file, after some code. -/
structure LineComments.AppliesTo (c : LineComments) (file : String) (line : UInt32)
    (text : String) : Prop where
  file_eq : file = c.file
  commented : ∃ l, c.lines.get? line = some l ∧ l.comment = text ∧
    ∃ ch ∈ l.code.toList, Text.isBlank ch = false

theorem LineComments.commentAt?_eq_some_iff {c : LineComments} {file : String} {line : UInt32}
    {text : String} : c.commentAt? file line = some text ↔ c.AppliesTo file line text := by
  unfold commentAt?
  constructor
  · intro h
    split at h
    · rename_i hfile
      split at h
      · rename_i l hl
        split at h
        · cases h
        · rename_i hcode
          refine ⟨hfile, l, hl, Option.some.inj h, ?_⟩
          simpa using hcode
      · cases h
    · cases h
  · rintro ⟨hfile, l, hl, rfl, hcode⟩
    have hnot : ¬ l.code.toList.all Text.isBlank := by simpa using hcode
    rw [if_pos hfile, hl]
    exact if_neg hnot

/-! ## Applying comments -/

section Apply

variable {frame : Frame} {comments : LineComments} {file : String} {line : UInt32} {text : String}

theorem applyTypeComment_of_type {t : Ty} (happlies : comments.AppliesTo file line text)
    (hmeans : CommentMeans frame text (.ok t)) (b : Bindings) :
    Gives (applyTypeComment frame comments file line b) (t.instantiate frame.point) [] := by
  unfold applyTypeComment
  rw [LineComments.commentAt?_eq_some_iff.2 happlies]
  exact hmeans.gives.bind_silent (.pure _)

theorem applyTypeComment_of_error {e : TextError} (happlies : comments.AppliesTo file line text)
    (hmeans : CommentMeans frame text (.error e)) (b : Bindings) :
    Gives (applyTypeComment frame comments file line b) b
      [.invalidTypeComment ⟨some file, line⟩ text e.message] := by
  unfold applyTypeComment
  rw [LineComments.commentAt?_eq_some_iff.2 happlies]
  exact hmeans.gives.bind_silent ((Gives.report _).bind_then_silent (.pure b))

theorem applyTypeComment_of_none (hnone : ∀ text, ¬ comments.AppliesTo file line text)
    (frame : Frame) (b : Bindings) : Gives (applyTypeComment frame comments file line b) b [] := by
  have hat : comments.commentAt? file line = none :=
    Option.eq_none_iff_forall_ne_some.2 fun text h =>
      hnone text (LineComments.commentAt?_eq_some_iff.1 h)
  unfold applyTypeComment
  rw [hat]
  exact .pure b

end Apply

/-- **A type comment replaces or keeps.** Each comment means one type or has one reason to mean
none. Where a comment that means `t` applies, the line has the objects of `t` and nothing is
reported. Where a comment without a type applies, the line keeps its values and there is one
report, at the line, with the reason. Where no comment applies nothing happens. -/
theorem applyTypeComment_replaces_or_keeps (frame : Frame) (comments : LineComments)
    (file : String) (line : UInt32) (b : Bindings) :
    (∀ text, ∃! r, CommentMeans frame text r) ∧
    (∀ text t, comments.AppliesTo file line text → CommentMeans frame text (.ok t) →
      ∀ log, (applyTypeComment frame comments file line b).run log =
        (t.instantiate frame.point, log)) ∧
    (∀ text e, comments.AppliesTo file line text → CommentMeans frame text (.error e) →
      ∀ log, (applyTypeComment frame comments file line b).run log =
        (b, log.report (.invalidTypeComment ⟨some file, line⟩ text e.message))) ∧
    ((∀ text, ¬ comments.AppliesTo file line text) →
      ∀ log, (applyTypeComment frame comments file line b).run log = (b, log)) := by
  refine ⟨fun text => ?_, fun text t happlies hmeans log => ?_,
    fun text e happlies hmeans log => applyTypeComment_of_error happlies hmeans b log,
    fun hnone log => ?_⟩
  · obtain ⟨r, hr⟩ := CommentMeans.exists_meaning frame text
    exact ⟨r, hr, fun r' hr' => hr'.unique hr⟩
  · rw [applyTypeComment_of_type happlies hmeans b log, Log.append_nil]
  · rw [applyTypeComment_of_none hnone frame b log, Log.append_nil]

/-! ### A file with comments -/

/-- Three commented lines: a type, a name that is bound nowhere, and no code. -/
def commentedLines : LineComments where
  file := "m.py"
  lines := (((∅ : SortedMap UInt32 LineComment).insert 3 ⟨"x = 1", "str"⟩).insert 4
    ⟨"y = 1", "Missing"⟩).insert 5 ⟨" ", "str"⟩

theorem str_means_str : CommentMeans ⟨.root, ∅⟩ "str" (.ok (.cls Builtin.str.cls)) :=
  .type (b := .ofValue .root (.cls Builtin.str.cls))
    (runText_of_parse (e := .name "str") (by decide +kernel) (.of_unchanged fun _ => rfl)) rfl rfl

theorem missing_means_nothing : CommentMeans ⟨.root, ∅⟩ "Missing"
    (.error (.evaluation (.diagnostics ["Name 'Missing' is not defined"]))) := by
  have hrun : Gives (runText ⟨.root, ∅⟩ "Missing").run
      (.ok (.ofValue .root (.unknown .any))) [.nameError .synthetic "Missing"] :=
    runText_of_parse (e := .name "Missing") (by decide +kernel) fun _ => rfl
  exact .reported hrun (List.cons_ne_nil _ _)

/-- What a line of this file leaves of the value `1`. -/
def afterComment (line : UInt32) : Reporting Bindings :=
  applyTypeComment ⟨.root, ∅⟩ commentedLines "m.py" line (.ofValue .root (.int 1))

/-- The comment on line 3 replaces, the one on line 4 is reported, the one on line 5 applies to
nothing. -/
theorem applyTypeComment_of_commentedLines :
    (∀ log, (afterComment 3).run log =
      (.ofValue .root (.object (.cls Builtin.str.cls) none), log)) ∧
    (∀ log, (afterComment 4).run log = (.ofValue .root (.int 1), log.report
      (.invalidTypeComment ⟨some "m.py", 4⟩ "Missing" "Name 'Missing' is not defined"))) ∧
    ∀ log, (afterComment 5).run log = (.ofValue .root (.int 1), log) := by
  have hthree := applyTypeComment_replaces_or_keeps ⟨.root, ∅⟩ commentedLines "m.py" 3
    (.ofValue .root (.int 1))
  have hfour := applyTypeComment_replaces_or_keeps ⟨.root, ∅⟩ commentedLines "m.py" 4
    (.ofValue .root (.int 1))
  have hfive := applyTypeComment_replaces_or_keeps ⟨.root, ∅⟩ commentedLines "m.py" 5
    (.ofValue .root (.int 1))
  refine ⟨hthree.2.1 "str" _ ⟨rfl, ⟨"x = 1", "str"⟩, by decide, rfl, 'x', by decide⟩ str_means_str,
    hfour.2.2.1 "Missing" _ ⟨rfl, ⟨"y = 1", "Missing"⟩, by decide, rfl, 'y', by decide⟩
      missing_means_nothing, hfive.2.2.2 fun text h => ?_⟩
  obtain ⟨-, l, hl, -, ch, hch, hblank⟩ := h
  have hline : commentedLines.lines.get? 5 = some ⟨" ", "str"⟩ := by decide
  rw [hline] at hl
  obtain rfl := Option.some.inj hl
  obtain rfl : ch = ' ' := by simpa using hch
  exact absurd hblank (by decide)

end TypeHints
