import TypeHints.Proofs.ArgumentList
import TypeHints.Proofs.FunctionDef
import TypeHints.Proofs.TwoPhase

/-!
# Type comments take precedence

The two parts of a function type comment wait in the queue behind the annotations that are written
at the parameters, the return type in the place of an earlier one. Every late annotation sets some
names and leaves the others (`LateHint.Applied`), so for one name only the annotations count that
may set it, and of these the last (`get?_eq_of_filter`, `get?_of_last`). Hence a comment wins
wherever it resolves, and all other parameters keep what they would have without it
(`FunctionDef.comment_takes_precedence`).
-/

namespace TypeHints

/-! ## What a late annotation sets -/

theorem Value.ResolvesTo.unique {frame : Frame} {v : Value} {t t' : Ty}
    (h : v.ResolvesTo frame t) (h' : v.ResolvesTo frame t') : t = t' :=
  Except.ok.inj ((h.gives ⟨"", ⟨"", 0⟩⟩).unique (h'.gives _)).1

theorem Value.resolvesTo_of_gives {frame : Frame} {v : Value} {t : Ty} {site : Site}
    (h : Gives (v.resolve site (some frame)) (.resolved t) []) : v.ResolvesTo frame t :=
  ⟨site, ∅, _, h ∅⟩

/-- What is reported resolves to nothing. -/
theorem Value.not_resolvesTo_of_gives {frame : Frame} {v : Value} {site : Site}
    {ds : List Diagnostic} (h : Gives (v.resolve site (some frame)) .failed ds) (t : Ty) :
    ¬ v.ResolvesTo frame t := by
  intro ht
  cases (h.unique (Value.resolve_some_gives (ht.gives site))).1

/-- The argument list `text`, evaluated in `frame`, gives the parameter `name` of `f` the
annotation `v`. -/
def Function.Binds (receivers : Receivers) (frame : Frame) (f : Function) (text name : String)
    (v : Value) : Prop :=
  ∃ args names, Gives (evalTextAsTuple frame text).run (.ok args) [] ∧
    receivers.reconcile f.varnames f.argCount args.length = .ok names ∧ (name, v) ∈ names.zip args

/-- The late annotation `l` of `f` comes to the type `t` for `name`: on its own, or as an argument
list that binds `name`. -/
inductive LateHint.Sets (receivers : Receivers) (frame : Frame) (f : Function) (l : LateHint)
    (name : String) (t : Ty) : Prop
  | single (hl : l.isArguments = false) (hname : l.name = name)
      (h : l.value.ResolvesTo frame t) : LateHint.Sets receivers frame f l name t
  | listed {text : String} {v : Value} (hl : l.isArguments = true)
      (htext : l.value.str? = some text) (hv : f.Binds receivers frame text name v)
      (h : v.ResolvesTo frame t) : LateHint.Sets receivers frame f l name t

section Sets

variable {receivers : Receivers} {frame : Frame} {f : Function} {name text : String} {v v' : Value}
  {l : LateHint} {t t' : Ty}

theorem Receivers.sublist_of_reconcile {formals names : List String} {expected given : Nat}
    (h : receivers.reconcile formals expected given = .ok names) :
    names.Sublist formals ∧ names.length ≤ given := by
  have htake := List.length_take_le expected formals
  obtain ⟨rfl, rfl⟩ | ⟨-, rfl, first, -, heq⟩ := Receivers.reconcile_cases h
  · exact ⟨List.take_sublist _ _, htake⟩
  · have hcons : (first :: names).Sublist formals := heq ▸ List.take_sublist _ _
    rw [heq, List.length_cons] at htake
    exact ⟨(List.sublist_cons_self _ _).trans hcons, by omega⟩

theorem Function.Binds.mem_varnames (h : f.Binds receivers frame text name v) :
    name ∈ f.varnames := by
  obtain ⟨args, names, -, hnames, hmem⟩ := h
  exact (Receivers.sublist_of_reconcile hnames).1.subset (List.of_mem_zip hmem).1

/-- A list binds a parameter once, if the parameters have different names. -/
theorem Function.Binds.unique (hnodup : f.varnames.Nodup)
    (h : f.Binds receivers frame text name v) (h' : f.Binds receivers frame text name v') :
    v = v' := by
  obtain ⟨args, names, hargs, hnames, hmem⟩ := h
  obtain ⟨args', names', hargs', hnames', hmem'⟩ := h'
  obtain rfl : args = args' := Except.ok.inj (hargs.unique hargs').1
  obtain rfl : names = names' := Except.ok.inj (hnames.symm.trans hnames')
  obtain ⟨hsublist, hlength⟩ := Receivers.sublist_of_reconcile hnames
  have hkeys : ((names.zip args).map (·.1)).Nodup := by
    rw [List.map_fst_zip hlength]
    exact hnodup.sublist hsublist
  have hlookup := SortedMap.lookup_of_nodup hkeys hmem
  rw [SortedMap.lookup_of_nodup hkeys hmem'] at hlookup
  exact (Option.some.inj hlookup).symm

/-- Three dots are no expression, so they bind nothing. -/
theorem Function.not_binds_ellipsis : ¬ f.Binds receivers frame "..." name v := by
  rintro ⟨args, names, hargs, -, -⟩
  obtain ⟨e, he⟩ : ∃ e, Expr.parse "..." = .error e :=
    ⟨.invalid "..." 0, by decide +kernel⟩
  have htext : Gives (evalText frame "...").run (.error (.compile e)) [] :=
    evalText_of_parse_error he
  cases (hargs.unique (htext.adapt TextError.evaluation).bind_error).1

theorem LateHint.sets_mapSignature (k : Signature → Signature) :
    l.Sets receivers frame (f.mapSignature k) name t ↔ l.Sets receivers frame f name t := by
  constructor
  · rintro (⟨hl, hname, ht⟩ | ⟨hl, htext, hv, ht⟩)
    · exact .single hl hname ht
    · exact .listed hl htext hv ht
  · rintro (⟨hl, hname, ht⟩ | ⟨hl, htext, hv, ht⟩)
    · exact .single hl hname ht
    · exact .listed hl htext hv ht

/-- What a late annotation sets is its own name or a parameter. -/
theorem LateHint.Sets.name_eq_or (h : l.Sets receivers frame f name t) :
    l.name = name ∨ l.name = argumentsName ∧ name ∈ f.varnames := by
  cases h with
  | single _ hname => exact .inl hname
  | listed hl _ hv => exact .inr ⟨by simpa [LateHint.isArguments] using hl, hv.mem_varnames⟩

theorem LateHint.Sets.unique (hnodup : f.varnames.Nodup) (h : l.Sets receivers frame f name t)
    (h' : l.Sets receivers frame f name t') : t = t' := by
  cases h with
  | single hl _ ht =>
    cases h' with
    | single _ _ ht' => exact ht.unique ht'
    | listed hl' => simp [hl] at hl'
  | listed hl htext hv ht =>
    cases h' with
    | single hl' => simp [hl] at hl'
    | listed _ htext' hv' ht' =>
      obtain rfl := Option.some.inj (htext.symm.trans htext')
      obtain rfl := hv.unique hnodup hv'
      exact ht.unique ht'

end Sets

/-! ## One late annotation -/

/-- The late annotation `l` of `f` turns the types of `s` into those of `s'`: it sets the names
whose types it comes to and leaves the others. -/
def LateHint.Applied (receivers : Receivers) (frame : Frame) (f : Function) (l : LateHint)
    (s s' : Signature) : Prop :=
  ∀ name, (∃ t, l.Sets receivers frame f name t ∧ s'.get? name = some t) ∨
    (∀ t, ¬ l.Sets receivers frame f name t) ∧ s'.get? name = s.get? name

section Applied

variable {receivers : Receivers} {frame : Frame} {f g : Function} {l : LateHint}

theorem Settled.get?_cases {location : Location} {pair : String × Value} {ds : List Diagnostic}
    (h : Settled frame location f pair g ds) (name : String) :
    (∃ t, pair.1 = name ∧ pair.2.ResolvesTo frame t ∧ g.signature.get? name = some t) ∨
    (∀ t, pair.1 = name → ¬ pair.2.ResolvesTo frame t) ∧
      g.signature.get? name = f.signature.get? name := by
  by_cases hname : pair.1 = name
  · cases h with
    | set ht =>
      subst hname
      exact .inl ⟨_, rfl, Value.resolvesTo_of_gives ht, SortedMap.get?_insert_self _ _ _⟩
    | reported hfailed => exact .inr ⟨fun t _ => Value.not_resolvesTo_of_gives hfailed t, rfl⟩
  · exact .inr ⟨fun _ h => absurd h hname, h.retyped.get?_eq name (by simpa using Ne.symm hname)⟩

/-- Of several annotations that are settled in order the last one that resolves counts. -/
theorem Settled.get?_cases_of_steps {location : Location} {pairs : List (String × Value)}
    {ds : List Diagnostic} (h : Steps (Settled frame location) f pairs g ds) (name : String) :
    (∃ v t, (name, v) ∈ pairs ∧ v.ResolvesTo frame t ∧ g.signature.get? name = some t) ∨
    (∀ v t, (name, v) ∈ pairs → ¬ v.ResolvesTo frame t) ∧
      g.signature.get? name = f.signature.get? name := by
  induction h with
  | nil => exact .inr ⟨fun _ _ hmem => absurd hmem List.not_mem_nil, rfl⟩
  | @cons f f' g pair pairs ds es hpair _ ih =>
    obtain ⟨v, t, hmem, ht, hget⟩ | ⟨hnone, hget⟩ := ih
    · exact .inl ⟨v, t, List.mem_cons_of_mem _ hmem, ht, hget⟩
    · obtain ⟨t, rfl, ht, hget'⟩ | ⟨hnone', hget'⟩ := hpair.get?_cases name
      · exact .inl ⟨pair.2, t, List.mem_cons_self, ht, hget.trans hget'⟩
      · refine .inr ⟨fun v t hmem => ?_, hget.trans hget'⟩
        rcases List.mem_cons.1 hmem with rfl | hmem
        · exact hnone' t rfl
        · exact hnone v t hmem

/-- An argument list that is refused binds nothing. -/
theorem Function.not_binds_of_refused {e : TextError} {text name : String} {v : Value}
    (htext : l.value.str? = some text)
    (h : Gives (f.resolveArguments receivers frame l).run (.error e) []) :
    ¬ f.Binds receivers frame text name v := by
  rintro ⟨args, names, hargs, hnames, -⟩
  obtain ⟨g, ds, hg, -⟩ := Steps.of_foldlM
    (fun f (pair : String × Value) => f.resolveName frame l.location pair.1 pair.2)
    (fun f pair => f.resolveName_settles frame l.location pair.1 pair.2) (names.zip args) f
  cases (h.unique (Function.resolveArguments_of_names htext hargs hnames hg)).1

/-- An annotation of one name sets it or is reported. -/
theorem LateHint.Applied.of_settled {ds : List Diagnostic} (hl : l.isArguments = false)
    (h : Settled frame l.location f (l.name, l.value) g ds) :
    l.Applied receivers frame f f.signature g.signature := by
  intro name
  obtain ⟨t, hname, ht, hget⟩ | ⟨hnone, hget⟩ := h.get?_cases name
  · exact .inl ⟨t, .single hl hname ht, hget⟩
  · refine .inr ⟨fun t ht => ?_, hget⟩
    cases ht with
    | single _ hname ht => exact hnone t hname ht
    | listed hl' => simp [hl] at hl'

/-- An argument list that is refused changes nothing. -/
theorem LateHint.Applied.of_refused {e : TextError} (hl : l.isArguments = true)
    (h : Gives (f.resolveArguments receivers frame l).run (.error e) []) :
    l.Applied receivers frame f f.signature f.signature := by
  refine fun name => .inr ⟨fun t ht => ?_, rfl⟩
  cases ht with
  | single hl' => simp [hl] at hl'
  | listed _ htext hv => exact Function.not_binds_of_refused htext h hv

/-- An argument list that fits sets the parameters whose arguments resolve. -/
theorem LateHint.Applied.of_listed {text : String} {args : List Value} {names : List String}
    {ds : List Diagnostic} (hl : l.isArguments = true) (htext : l.value.str? = some text)
    (hargs : Gives (evalTextAsTuple frame text).run (.ok args) [])
    (hnames : receivers.reconcile f.varnames f.argCount args.length = .ok names)
    (h : Steps (Settled frame l.location) f (names.zip args) g ds) :
    l.Applied receivers frame f f.signature g.signature := by
  intro name
  obtain ⟨v, t, hmem, ht, hget⟩ | ⟨hnone, hget⟩ := Settled.get?_cases_of_steps h name
  · exact .inl ⟨t, .listed hl htext ⟨args, names, hargs, hnames, hmem⟩ ht, hget⟩
  · refine .inr ⟨fun t ht => ?_, hget⟩
    cases ht with
    | single hl' => simp [hl] at hl'
    | listed _ htext' hv ht =>
      obtain rfl := Option.some.inj (htext.symm.trans htext')
      obtain ⟨args', names', hargs', hnames', hmem⟩ := hv
      obtain rfl : args = args' := Except.ok.inj (hargs.unique hargs').1
      obtain rfl : names = names' := Except.ok.inj (hnames.symm.trans hnames')
      exact hnone _ t hmem ht

theorem Function.resolveNext_applied (receivers : Receivers) (frame : Frame) (f : Function)
    (l : LateHint) : ∃ s ds,
      Gives (Function.resolveNext receivers frame f l) (f.mapSignature fun _ => s) ds ∧
        l.Applied receivers frame f f.signature s := by
  unfold Function.resolveNext
  split
  · rename_i hl
    obtain ⟨e, he⟩ | ⟨text, args, names, g, ds, htext, hargs, hnames, hg, hs⟩ :=
      f.resolveArguments_cases receivers frame l
    · exact ⟨_, _, he.bind_silent ((Gives.report _).bind (.pure f)), .of_refused hl he⟩
    · have hretyped : f.Retyped ((names.zip args).map (·.1)) g := by
        refine hs.preserves (P := f.Retyped _) (fun hmem hset hf => ?_) (.refl _ f)
        refine hf.trans (hset.retyped.mono fun name hname => ?_)
        exact List.mem_singleton.1 hname ▸ List.mem_map_of_mem hmem
      refine ⟨g.signature, ds, ?_, .of_listed hl htext hargs hnames hs⟩
      rw [← hretyped.code]
      exact hg.bind_then_silent (.pure g)
  · rename_i hl
    obtain ⟨g, ds, h, hsettled⟩ := f.resolveName_settles frame l.location l.name l.value
    rw [hsettled.retyped.code] at h
    exact ⟨_, ds, h, .of_settled (by simpa using hl) hsettled⟩

end Applied

/-! ## The queue -/

section Queue

variable {receivers : Receivers} {frame : Frame} {f : Function} {name : String}
  {queue : List LateHint} {s s' u u' : Signature} {ds ds' : List Diagnostic}

/-- The late annotations of `f` are applied one after the other. -/
theorem Function.exists_applied (receivers : Receivers) (frame : Frame) (f : Function)
    (queue : List LateHint) (s : Signature) : ∃ u ds,
      Gives (queue.foldlM (Function.resolveNext receivers frame) (f.mapSignature fun _ => s))
        (f.mapSignature fun _ => u) ds ∧
      Steps (fun s l u _ => l.Applied receivers frame f s u) s queue u ds := by
  induction queue generalizing s with
  | nil => exact ⟨s, [], .pure _, .nil s⟩
  | cons l queue ih =>
    obtain ⟨u, ds, hl, happlied⟩ :=
      Function.resolveNext_applied receivers frame (f.mapSignature fun _ => s) l
    simp only [LateHint.Applied, LateHint.sets_mapSignature] at happlied
    obtain ⟨u', es, hqueue, hs⟩ := ih u
    exact ⟨u', _, hl.foldlM_cons hqueue, .cons happlied hs⟩

/-- Late annotations that do not set `name` may be left out. -/
theorem get?_eq_of_filter (hnodup : f.varnames.Nodup) {p : LateHint → Bool}
    (hp : ∀ l ∈ queue, p l = false → ∀ t, ¬ l.Sets receivers frame f name t)
    (hs : s.get? name = s'.get? name)
    (h : Steps (fun s l u _ => l.Applied receivers frame f s u) s queue u ds)
    (h' : Steps (fun s l u _ => l.Applied receivers frame f s u) s' (queue.filter p) u' ds') :
    u.get? name = u'.get? name := by
  induction queue generalizing s s' ds ds' with
  | nil =>
    cases h
    cases h'
    exact hs
  | cons l queue ih =>
    obtain ⟨hl, hqueue⟩ := List.forall_mem_cons.1 hp
    cases h with
    | cons hstep hrest =>
      by_cases hpl : p l
      · rw [List.filter_cons_of_pos hpl] at h'
        cases h' with
        | cons hstep' hrest' =>
          refine ih hqueue ?_ hrest hrest'
          -- both set the name to the same type, or both leave it
          obtain ⟨t, ht, hget⟩ | ⟨hnone, hget⟩ := hstep name
          · obtain ⟨t', ht', hget'⟩ | ⟨hnone', -⟩ := hstep' name
            · rw [hget, hget', ht.unique hnodup ht']
            · exact absurd ht (hnone' t)
          · obtain ⟨t', ht', -⟩ | ⟨-, hget'⟩ := hstep' name
            · exact absurd ht' (hnone t')
            · rw [hget, hget', hs]
      · rw [List.filter_cons_of_neg hpl] at h'
        obtain ⟨t, ht, -⟩ | ⟨-, hget⟩ := hstep name
        · exact absurd ht (hl (by simpa using hpl) t)
        · exact ih hqueue (hget.trans hs) hrest h'

/-- The late annotation that comes last has its way. -/
theorem get?_of_last (hnodup : f.varnames.Nodup) {l : LateHint} {t : Ty}
    (hl : l.Sets receivers frame f name t)
    (h : Steps (fun s l u _ => l.Applied receivers frame f s u) s (queue ++ [l]) u ds) :
    u.get? name = some t := by
  induction queue generalizing s ds with
  | nil =>
    cases h with
    | cons hstep hrest =>
      cases hrest
      obtain ⟨t', ht', hget⟩ | ⟨hnone, -⟩ := hstep name
      · rw [hget, hl.unique hnodup ht']
      · exact absurd hl (hnone t)
  | cons k queue ih =>
    cases h with
    | cons _ hrest => exact ih hrest

end Queue

/-! ## The queue of a definition -/

theorem LateHint.filter_enqueue {p : LateHint → Bool} {new : LateHint} (queue : List LateHint)
    (hnew : p new = false) (hold : ∀ l : LateHint, l.name = new.name → p l = false) :
    (new.enqueue queue).filter p = queue.filter p := by
  induction queue with
  | nil => rw [LateHint.enqueue, List.filter_cons_of_neg (by simp [hnew])]
  | cons old rest ih =>
    rw [LateHint.enqueue]
    split
    · rename_i hname
      rw [List.filter_cons_of_neg (by simp [hnew]),
        List.filter_cons_of_neg (by simp [hold _ hname])]
    · simp only [List.filter_cons, ih]

theorem LateHint.filter_enqueue_self (new : LateHint) {queue : List LateHint}
    (hnodup : (queue.map (·.name)).Nodup) :
    (new.enqueue queue).filter (fun l => l.name = new.name) = [new] := by
  induction queue with
  | nil => simp [LateHint.enqueue]
  | cons old rest ih =>
    obtain ⟨hold, hrest⟩ := List.nodup_cons.1 hnodup
    rw [LateHint.enqueue]
    split
    · rename_i hname
      have hnone : rest.filter (fun l => l.name = new.name) = [] := by
        refine List.filter_eq_nil_iff.2 fun l hl heq => hold (List.mem_map.2 ⟨l, hl, ?_⟩)
        exact (of_decide_eq_true heq).trans hname.symm
      rw [List.filter_cons_of_pos (by simp), hnone]
    · rename_i hname
      rw [List.filter_cons_of_neg (by simpa using hname), ih hrest]

/-- The queue of a function whose type comment has the parts `args` and `result`, if `late` waits
already. -/
def commentQueue (args result : String) (location : Location) (late : List LateHint) :
    List LateHint :=
  (LateHint.ofText result returnName location).enqueue
    (if args = "..." then late else (LateHint.ofText args argumentsName location).enqueue late)

section Comment

variable {receivers : Receivers} {frame : Frame} {f : Function} {args result name : String}
  {location : Location} {late : List LateHint} {s u u' : Signature} {t : Ty}
  {ds ds' : List Diagnostic}

/-- The result of a comment sets the return type only. -/
theorem LateHint.sets_result_iff :
    (LateHint.ofText result returnName location).Sets receivers frame f name t ↔
      name = returnName ∧ (Value.str result).ResolvesTo frame t := by
  constructor
  · rintro (⟨-, rfl, ht⟩ | ⟨hl, -, -, -⟩)
    · exact ⟨rfl, ht⟩
    · cases hl
  · rintro ⟨rfl, ht⟩
    exact .single rfl rfl ht

/-- The arguments of a comment set the parameters they bind. -/
theorem LateHint.sets_arguments_iff :
    (LateHint.ofText args argumentsName location).Sets receivers frame f name t ↔
      ∃ v, f.Binds receivers frame args name v ∧ v.ResolvesTo frame t := by
  constructor
  · rintro (⟨hl, -, -⟩ | ⟨-, htext, hv, ht⟩)
    · cases hl
    · obtain rfl := Option.some.inj htext
      exact ⟨_, hv, ht⟩
  · rintro ⟨v, hv, ht⟩
    exact .listed rfl rfl hv ht

theorem mem_commentQueue {l : LateHint} (h : l ∈ commentQueue args result location late) :
    l = .ofText result returnName location ∨
      l = .ofText args argumentsName location ∨ l ∈ late := by
  unfold commentQueue at h
  rcases LateHint.eq_or_mem_of_mem_enqueue h with h | h
  · exact .inl h
  · split at h
    · exact .inr (.inr h)
    · exact .inr (LateHint.eq_or_mem_of_mem_enqueue h)

/-- The arguments go to the end of a queue that has no others. -/
theorem enqueue_arguments (harguments : argumentsName ∉ late.map (·.name)) :
    (LateHint.ofText args argumentsName location).enqueue late =
      late ++ [.ofText args argumentsName location] := by
  refine LateHint.enqueue_of_forall_ne fun l hl heq => harguments ?_
  exact List.mem_map.2 ⟨l, hl, heq⟩

theorem filter_commentQueue {p : LateHint → Bool}
    (hp : ∀ l : LateHint, l.name = returnName → p l = false)
    (harguments : argumentsName ∉ late.map (·.name)) :
    (commentQueue args result location late).filter p =
      if args = "..." then late.filter p
      else late.filter p ++ [LateHint.ofText args argumentsName location].filter p := by
  unfold commentQueue
  rw [LateHint.filter_enqueue _ (hp _ rfl) hp]
  split
  · rfl
  · rw [enqueue_arguments harguments, List.filter_append]

/-- An argument that resolves decides the type of its parameter. -/
theorem get?_commentQueue_of_binds (hnodup : f.varnames.Nodup) (hreturn : returnName ∉ f.varnames)
    (harguments : argumentsName ∉ late.map (·.name)) {v : Value}
    (hv : f.Binds receivers frame args name v) (ht : v.ResolvesTo frame t)
    (h : Steps (fun s l u _ => l.Applied receivers frame f s u) s
      (commentQueue args result location late) u ds) : u.get? name = some t := by
  have hne : name ≠ returnName := fun heq => hreturn (heq ▸ hv.mem_varnames)
  have hellipsis : args ≠ "..." := by
    rintro rfl
    exact Function.not_binds_ellipsis hv
  -- what is left without the result ends with the arguments
  let p : LateHint → Bool := fun l => l.name ≠ returnName
  have hfilter : (commentQueue args result location late).filter p =
      late.filter p ++ [LateHint.ofText args argumentsName location] := by
    rw [filter_commentQueue (fun l hl => by simp [p, hl]) harguments, if_neg hellipsis]
    rfl
  obtain ⟨u', ds', -, h'⟩ := f.exists_applied receivers frame
    ((commentQueue args result location late).filter p) s
  rw [get?_eq_of_filter hnodup ?_ rfl h h']
  · rw [hfilter] at h'
    exact get?_of_last hnodup (LateHint.sets_arguments_iff.2 ⟨v, hv, ht⟩) h'
  · intro l _ hl t' hset
    have hname : l.name = returnName := by simpa [p] using hl
    rcases hset.name_eq_or with heq | ⟨heq, -⟩
    · exact hne (heq.symm.trans hname)
    · exact absurd (hname.symm.trans heq) (by decide)

/-- A result that resolves decides the return type. -/
theorem get?_commentQueue_returnName (hnodup : f.varnames.Nodup) (hreturn : returnName ∉ f.varnames)
    (hlate : (late.map (·.name)).Nodup) (harguments : argumentsName ∉ late.map (·.name))
    (ht : (Value.str result).ResolvesTo frame t)
    (h : Steps (fun s l u _ => l.Applied receivers frame f s u) s
      (commentQueue args result location late) u ds) : u.get? returnName = some t := by
  have hqueue : ((if args = "..." then late else
      (LateHint.ofText args argumentsName location).enqueue late).map (·.name)).Nodup := by
    split
    · exact hlate
    · rw [enqueue_arguments harguments, List.map_append]
      refine List.nodup_append.2 ⟨hlate, List.nodup_cons.2 ⟨List.not_mem_nil, .nil⟩, ?_⟩
      intro name hname arguments hmem heq
      obtain rfl : arguments = argumentsName := List.mem_singleton.1 hmem
      exact harguments (heq ▸ hname)
  have hfilter : (commentQueue args result location late).filter (fun l => l.name = returnName) =
      [LateHint.ofText result returnName location] :=
    LateHint.filter_enqueue_self (LateHint.ofText result returnName location) hqueue
  obtain ⟨u', ds', -, h'⟩ := f.exists_applied receivers frame
    ((commentQueue args result location late).filter fun l => l.name = returnName) s
  rw [get?_eq_of_filter hnodup ?_ rfl h h']
  · rw [hfilter] at h'
    rw [← List.nil_append [_]] at h'
    exact get?_of_last hnodup (LateHint.sets_result_iff.2 ⟨rfl, ht⟩) h'
  · intro l _ hl t' hset
    rcases hset.name_eq_or with heq | ⟨-, hmem⟩
    · exact of_decide_eq_false hl heq
    · exact hreturn hmem

/-- Other names get what the queue without the comment gives them. -/
theorem get?_commentQueue_of_not_binds (hnodup : f.varnames.Nodup)
    (harguments : argumentsName ∉ late.map (·.name)) (hne : name ≠ returnName)
    (hnone : ∀ v t, f.Binds receivers frame args name v → ¬ v.ResolvesTo frame t)
    (h : Steps (fun s l u _ => l.Applied receivers frame f s u) s
      (commentQueue args result location late) u ds)
    (h' : Steps (fun s l u _ => l.Applied receivers frame f s u) s late u' ds') :
    u.get? name = u'.get? name := by
  let p : LateHint → Bool := fun l => l.name ≠ returnName ∧ l.name ≠ argumentsName
  have hfilter : (commentQueue args result location late).filter p = late.filter p := by
    rw [filter_commentQueue (fun l hl => by simp [p, hl]) harguments]
    split
    · rfl
    · exact List.append_nil _
  have hnamed : ∀ l : LateHint, p l = false → l.name ≠ argumentsName →
      ∀ t, ¬ l.Sets receivers frame f name t := by
    intro l hl hl' t hset
    have hname : l.name = returnName := by simpa [p, hl'] using hl
    rcases hset.name_eq_or with heq | ⟨heq, -⟩
    · exact hne (heq.symm.trans hname)
    · exact hl' heq
  obtain ⟨v, es, -, hv⟩ := f.exists_applied receivers frame (late.filter p) s
  have hleft : u.get? name = v.get? name := by
    rw [← hfilter] at hv
    refine get?_eq_of_filter hnodup (fun l hl hpl t hset => ?_) rfl h hv
    by_cases hl' : l.name = argumentsName
    · rcases mem_commentQueue hl with rfl | rfl | hl
      · exact hne (LateHint.sets_result_iff.1 hset).1
      · obtain ⟨v, hv, ht⟩ := LateHint.sets_arguments_iff.1 hset
        exact hnone v t hv ht
      · exact harguments (hl' ▸ List.mem_map_of_mem hl)
    · exact hnamed l hpl hl' t hset
  have hright : u'.get? name = v.get? name :=
    get?_eq_of_filter hnodup (fun l hl hpl => hnamed l hpl fun hl' =>
      harguments (hl' ▸ List.mem_map_of_mem hl)) rfl h' hv
  rw [hleft, hright]

end Comment

namespace FunctionDef

variable {d : FunctionDef} {frame : Frame} {file : String}

/-- What waits after collecting has names of annotations, each at most once. -/
theorem late_sublist_of_collectHints {values : List Bindings} {c : Collected}
    {ds : List Diagnostic} (hkey : d.annotations.get? argumentsName = none)
    (h : Gives (d.collectHints frame file values) c ds) :
    (c.late.map (·.name)).Sublist (d.annotations.toList.map (·.1)) := by
  have hkeys : (((d.annotations.toList.map (·.1)).zip values).map (·.1)).Sublist
      (d.annotations.toList.map (·.1)) := by
    rw [List.zip_eq_zip_take_min, List.map_fst_zip (by simp)]
    exact List.take_sublist _ _
  have hnames : argumentsName ∉ ((d.annotations.toList.map (·.1)).zip values).map (·.1) := by
    intro hmem
    obtain ⟨⟨name, text⟩, hentry, rfl⟩ := List.mem_map.1 (hkeys.subset hmem)
    rw [SortedMap.get?_eq_some_iff.2 hentry] at hkey
    cases hkey
  obtain ⟨split, w⟩ :=
    TwoWays.exists_split .standard frame.point (d.bare file).location frame hnames
  obtain ⟨rfl, -⟩ := h.unique (w.collect {})
  exact w.hints_sublist.trans hkeys

/-- The definition without its type comment. -/
def withoutComment (d : FunctionDef) : FunctionDef := { d with typeComment := none }

/-- With and without its comment a function has the same types and waits for the same annotations,
apart from the two parts of the comment. -/
theorem exists_commentQueue {f : Function} {ds : List Diagnostic} {comment : String}
    {args result : List Char} (hkey : d.annotations.get? argumentsName = none)
    (hcomment : d.typeComment = some comment)
    (hsplit : Function.splitComment (Text.trimChars comment.toList) = some (args, result))
    (h : Gives (d.define frame file).run (.ok f) ds) :
    ∃ types late es,
      f = (d.bare file).mapSignature (fun _ => ⟨types, commentQueue
        (String.ofList (Text.trimChars args)) (String.ofList (Text.trimChars result))
          f.location late⟩) ∧
      Gives (d.withoutComment.define frame file).run
        (.ok ((d.bare file).mapSignature fun _ => ⟨types, late⟩)) es ∧
      (late.map (·.name)).Nodup ∧ argumentsName ∉ late.map (·.name) := by
  obtain ⟨values, c, es, fs, gs, hvalues, hc, hattach, -⟩ := d.exists_of_define frame file h
  have hsublist := late_sublist_of_collectHints hkey hc
  have hnodup : (c.late.map (·.name)).Nodup := d.annotations.nodup_keys.sublist hsublist
  have hadd : (d.bare file).mapSignature c.addTo =
      (d.bare file).mapSignature fun _ => ⟨c.annotations, c.late⟩ :=
    congrArg (fun s => (d.bare file).mapSignature fun _ => s) (c.addTo_empty hnodup)
  rw [hadd] at hattach
  refine ⟨c.annotations, c.late, es ++ (fs ++ []), ?_, ?_, hnodup, fun hmem => ?_⟩
  · unfold attach Function.attachComment at hattach
    simp only [hcomment, hsplit] at hattach
    obtain ⟨rfl, -⟩ := hattach.unique (.pure _)
    unfold commentQueue
    split <;> rfl
  · rw [define_eq, ← hadd]
    exact Gives.bind_ok hvalues (hc.lift.bind_ok (Gives.pure _).lift)
  · obtain ⟨⟨name, text⟩, hentry, hname⟩ := List.mem_map.1 (hsublist.subset hmem)
    rw [← hname, SortedMap.get?_eq_some_iff.2 hentry] at hkey
    cases hkey

/-- **A type comment takes precedence where it resolves.** Take a definition whose parameters have
different names, none of them that of the return type, with a comment `(args) -> result`, and
resolve its late annotations in `final`. A parameter that the argument list binds to an annotation
of type `t` has type `t` in the end, and the return type is what the comment says if that resolves,
whatever is written at the parameters. Any other name, also one whose argument does not resolve,
ends with what the definition without the comment gives it. -/
theorem comment_takes_precedence (receivers : Receivers) (final : Frame) {f : Function}
    {ds : List Diagnostic} {comment : String} {args result : List Char}
    (hnodup : (d.bare file).varnames.Nodup) (hreturn : returnName ∉ (d.bare file).varnames)
    (hkey : d.annotations.get? argumentsName = none) (hcomment : d.typeComment = some comment)
    (hsplit : Function.splitComment (Text.trimChars comment.toList) = some (args, result))
    (h : Gives (d.define frame file).run (.ok f) ds) :
    ∃ f₀ es g gs g₀ gs₀,
      Gives (d.withoutComment.define frame file).run (.ok f₀) es ∧
      Gives (f.resolveLate receivers final) g gs ∧
      Gives (f₀.resolveLate receivers final) g₀ gs₀ ∧
      (∀ name v t, f.Binds receivers final (String.ofList (Text.trimChars args)) name v →
        v.ResolvesTo final t → g.signature.get? name = some t) ∧
      (∀ t, (Value.str (String.ofList (Text.trimChars result))).ResolvesTo final t →
        g.signature.get? returnName = some t) ∧
      ∀ name, name ≠ returnName →
        (∀ v t, f.Binds receivers final (String.ofList (Text.trimChars args)) name v →
          ¬ v.ResolvesTo final t) →
        g.signature.get? name = g₀.signature.get? name := by
  obtain ⟨types, late, es, hf, hdefine, hlate, harguments⟩ :=
    exists_commentQueue hkey hcomment hsplit h
  generalize String.ofList (Text.trimChars args) = args at hf
  generalize String.ofList (Text.trimChars result) = result at hf
  obtain ⟨u, gs, hg, hu⟩ := (d.bare file).exists_applied receivers final
    (commentQueue args result f.location late) ⟨types, []⟩
  obtain ⟨u₀, gs₀, hg₀, hu₀⟩ := (d.bare file).exists_applied receivers final late ⟨types, []⟩
  have hbinds : ∀ name v, f.Binds receivers final args name v →
      (d.bare file).Binds receivers final args name v := by
    rw [hf]
    exact fun _ _ hv => hv
  refine ⟨_, es, (d.bare file).mapSignature fun _ => u, gs,
    (d.bare file).mapSignature fun _ => u₀, gs₀, hdefine, ?_, hg₀, ?_, ?_, ?_⟩
  · rw [hf]
    exact hg
  · intro name v t hv ht
    exact get?_commentQueue_of_binds hnodup hreturn harguments (hbinds name v hv) ht hu
  · intro t ht
    exact get?_commentQueue_returnName hnodup hreturn hlate harguments ht hu
  · intro name hne hnone
    refine get?_commentQueue_of_not_binds hnodup harguments hne (fun v t hv => ?_) hu hu₀
    refine hnone v t ?_
    rw [hf]
    exact hv

end FunctionDef

/-! ## A comment on three parameters -/

/-- A function with a class and a forward reference at its parameters, and a comment that gives
the types of two of the three. -/
def pairDef : FunctionDef where
  name := "f"
  line := 1
  params := ["x", "y", "z"]
  annotations := ⟨[("x", "int"), ("y", "'Late'")], by decide⟩
  typeComment := some "(str, bytes, Union) -> None"

/-- Where nothing is bound but the builtin names. -/
def bareFrame : Frame := ⟨.root, ∅⟩

/-- The function once its annotations are collected and its comment is attached. -/
def pairFunction : Function :=
  (pairDef.bare "m.py").mapSignature fun _ =>
    ⟨(∅ : SortedMap String Ty).insert "x" (.cls Builtin.int.cls),
      [.ofText "Late" "y" ⟨"m.py", 1⟩, .ofText "str, bytes, Union" argumentsName ⟨"m.py", 1⟩,
        .ofText "None" returnName ⟨"m.py", 1⟩]⟩

theorem pairDef_defined :
    Gives (pairDef.define bareFrame "m.py").run (.ok pairFunction) [] := by
  have hint : Gives (runText bareFrame "int").run
      (.ok (.ofValue .root (.cls Builtin.int.cls))) [] :=
    runText_of_parse (e := .name "int") (by decide +kernel) (.of_unchanged fun _ => rfl)
  have hlate : Gives (runText bareFrame "'Late'").run (.ok (.ofValue .root (.str "Late"))) [] :=
    runText_of_parse (e := .str "Late") (by decide +kernel) (.pure _)
  have hvalues : Gives (pairDef.evalHints bareFrame).run
      (.ok [.ofValue .root (.cls Builtin.int.cls), .ofValue .root (.str "Late")]) [] := by
    show Gives (List.mapM _ [("x", "int"), ("y", "'Late'")] : Analysing (List Bindings)).run _ []
    rw [List.mapM_cons, List.mapM_cons, List.mapM_nil]
    refine (hint.adapt _).bind_ok_silent (Gives.bind_ok_silent ?_ (.ok _))
    exact (hlate.adapt _).bind_ok_silent (.ok _)
  rw [FunctionDef.define_eq]
  exact hvalues.bind_ok_silent (Gives.bind_ok_silent (Gives.pure _).lift (Gives.pure _).lift)

theorem pairFunction_binds {name : String} {v : Value}
    (h : (name, v) ∈ ["x", "y", "z"].zip [.cls Builtin.str.cls, .cls Builtin.bytes.cls,
      .form .union]) : pairFunction.Binds .standard bareFrame "str, bytes, Union" name v := by
  have hparse : Expr.parse "str, bytes, Union" =
      .ok (.tuple [.name "str", .name "bytes", .name "Union"]) := by decide +kernel
  have heval : Gives ((Expr.tuple [.name "str", .name "bytes", .name "Union"]).eval bareFrame ∅)
      (.ofValue .root (.tuple [.ofValue .root (.cls Builtin.str.cls),
        .ofValue .root (.cls Builtin.bytes.cls), .ofValue .root (.form .union)])) [] := by
    refine .of_unchanged fun _ => ?_
    with_unfolding_all rfl
  have hargs : Gives (evalTextAsTuple bareFrame "str, bytes, Union").run
      (.ok [.cls Builtin.str.cls, .cls Builtin.bytes.cls, .form .union]) [] :=
    evalTextAsTuple_of_tuple (by decide) ⟨_, evalText_ok_iff.2 ⟨_, hparse, heval⟩, rfl⟩ rfl rfl
  exact ⟨_, _, hargs, rfl, h⟩

/-- Both parameters get the types in the comment, and so does the result. -/
theorem comment_takes_precedence_of_pair :
    (pairDef.bare "m.py").varnames.Nodup ∧ returnName ∉ (pairDef.bare "m.py").varnames ∧
      pairDef.annotations.get? argumentsName = none ∧
      Gives (pairDef.define bareFrame "m.py").run (.ok pairFunction) [] ∧
      ∃ g gs, Gives (pairFunction.resolveLate .standard bareFrame) g gs ∧
        g.signature.get? "x" = some (.cls Builtin.str.cls) ∧
        g.signature.get? "y" = some (.cls Builtin.bytes.cls) ∧
        g.signature.get? returnName = some (.cls Builtin.noneType.cls) := by
  have hnodup : (pairDef.bare "m.py").varnames.Nodup := by decide
  have hreturn : returnName ∉ (pairDef.bare "m.py").varnames := by decide
  have hresult : (Value.str "None").ResolvesTo bareFrame (.cls Builtin.noneType.cls) := by
    have heval : Gives ((Expr.name "None").eval bareFrame ∅) (.ofValue .root .null) [] :=
      .of_unchanged fun _ => rfl
    have htext : Gives (evalText bareFrame "None").run (.ok (.ofValue .root .null)) [] :=
      evalText_ok_iff.2 ⟨.name "None", by decide +kernel, heval⟩
    have hread : Gives (Site.readText ⟨"", ⟨"", 0⟩⟩ bareFrame (.str "None")).run (.ok .null) [] :=
      Site.readText_of_single rfl htext rfl
    have hresolve : Gives ((Value.str "None").resolveIn bareFrame ⟨"", ⟨"", 0⟩⟩
        maxTextNesting).run (.ok (.cls Builtin.noneType.cls)) [] := hread.bind_ok_silent (.ok _)
    exact Value.resolvesTo_of_gives (Value.resolve_some_gives hresolve)
  have hclass : ∀ b : Builtin, (Value.cls b.cls).ResolvesTo bareFrame (.cls b.cls) :=
    fun b => ⟨⟨"", ⟨"", 0⟩⟩, ∅, _, rfl⟩
  obtain ⟨f₀, es, g, gs, g₀, gs₀, -, hg, -, hbound, hreturned, -⟩ :=
    FunctionDef.comment_takes_precedence .standard bareFrame hnodup hreturn rfl rfl rfl
      pairDef_defined
  exact ⟨hnodup, hreturn, rfl, pairDef_defined, g, gs, hg,
    hbound _ _ _ (pairFunction_binds (by simp)) (hclass .str),
    hbound _ _ _ (pairFunction_binds (by simp)) (hclass .bytes), hreturned _ hresult⟩

end TypeHints
