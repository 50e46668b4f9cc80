import TypeHints.Analysis
import TypeHints.Proofs.Renumbering.Resolution

/-!
# Functions with their points renumbered

Points stand in the late annotations of a function only. Resolving these comes to the same when
its points and those of the frame are moved by an injective map (`Function.resolveLate_renumber`),
and so does defining the function, if the map keeps the order with the point of the definition
(`FunctionDef.define_renumber`).
-/

namespace TypeHints

/-! ## Signatures -/

section Definitions

variable (r : Point → Point)

/-- A late annotation with the points inside it moved by `r`. -/
def LateHint.renumber (l : LateHint) : LateHint := { l with value := l.value.renumber r }

/-- A signature with the points of its late annotations moved. -/
def Signature.renumber (s : Signature) : Signature :=
  { s with late := s.late.map (·.renumber r) }

/-- A function with the points of its late annotations moved. -/
def Function.renumber (f : Function) : Function := f.mapSignature (·.renumber r)

/-- What was collected, with the points of late annotations moved. -/
def Collected.renumber (c : Collected) : Collected := { c with late := c.late.map (·.renumber r) }

end Definitions

section Signature

variable (r : Point → Point)

theorem LateHint.map_enqueue (l : LateHint) (queue : List LateHint) :
    (l.enqueue queue).map (·.renumber r) = (l.renumber r).enqueue (queue.map (·.renumber r)) := by
  induction queue with
  | nil => rfl
  | cons old rest ih =>
    rw [List.map_cons, enqueue, enqueue, ← ih]
    show _ = if old.name = l.name then _ else _
    split <;> rfl

theorem Signature.renumber_addLate (s : Signature) (l : LateHint) :
    (s.addLate l).renumber r = (s.renumber r).addLate (l.renumber r) := by
  unfold Signature.addLate Signature.renumber
  rw [LateHint.map_enqueue]

theorem Collected.addTo_renumber (c : Collected) (s : Signature) :
    (c.renumber r).addTo (s.renumber r) = (c.addTo s).renumber r := by
  have hset : c.annotations.toList.foldl (fun s entry => s.set entry.1 entry.2) (s.renumber r) =
      (c.annotations.toList.foldl (fun s entry => s.set entry.1 entry.2) s).renumber r :=
    List.foldl_hom (Signature.renumber r) fun _ _ => rfl
  have hadd : ∀ s : Signature, (c.late.map (·.renumber r)).foldl Signature.addLate
      (s.renumber r) = (c.late.foldl Signature.addLate s).renumber r := by
    intro s
    rw [List.foldl_map]
    exact List.foldl_hom (Signature.renumber r) fun s l => (s.renumber_addLate r l).symm
  unfold Collected.addTo
  show ((c.late.map (·.renumber r)).foldl Signature.addLate _) = _
  rw [← hadd, ← hset]
  rfl

end Signature

/-! ## Late annotations -/

section Late

variable {r : Point → Point} (hr : r.Injective) (receivers : Receivers) (frame : Frame)

include hr

theorem evalTextAsTuple_renumber (text : String) :
    evalTextAsTuple (frame.renumber r) text =
      List.map (·.renumber r) <$> evalTextAsTuple frame text := by
  unfold evalTextAsTuple
  split
  · rfl
  · rw [evalText_renumber hr, adapt_map, bind_map_left, map_bind]
    refine bind_congr fun bindings => ?_
    rw [Bindings.single_renumber, mapError_map, liftM_exceptMap, bind_map_left, map_bind]
    refine bind_congr fun v => ?_
    rw [Value.tuple?_renumber]
    cases v.tuple? with
    | none => rfl
    | some items =>
      simp only [Option.map_some]
      rw [mapM_map_comm fun b : Bindings => b.single_renumber r, mapError_map, liftM_exceptMap]

theorem Function.resolveName_renumber (f : Function) (location : Location) (name : String)
    (v : Value) : (f.renumber r).resolveName (frame.renumber r) location name (v.renumber r) =
      (·.renumber r) <$> f.resolveName frame location name v := by
  unfold Function.resolveName
  rw [Value.resolve_renumber hr, map_bind]
  refine bind_congr fun outcome => ?_
  cases outcome <;> rfl

theorem Function.resolveArguments_renumber (f : Function) (l : LateHint) :
    (f.renumber r).resolveArguments receivers (frame.renumber r) (l.renumber r) =
      (·.renumber r) <$> f.resolveArguments receivers frame l := by
  have hstr : (l.renumber r).value.str? = l.value.str? := l.value.str?_renumber r
  have htext : (l.renumber r).value.text = l.value.text := l.value.text_renumber r
  unfold Function.resolveArguments
  rw [hstr, htext]
  cases l.value.str? with
  | none => rfl
  | some text =>
    simp only []
    rw [evalTextAsTuple_renumber hr, bind_map_left, map_bind]
    refine bind_congr fun args => ?_
    rw [List.length_map, map_bind]
    refine bind_congr fun names => ?_
    rw [List.zip_map_right]
    refine foldlM_map_comm (names.zip args) (fun g pair _ => ?_) f
    rw [← liftM_map]
    exact congrArg liftM (g.resolveName_renumber hr frame l.location pair.1 pair.2)

theorem Function.resolveNext_renumber (f : Function) (l : LateHint) :
    Function.resolveNext receivers (frame.renumber r) (f.renumber r) (l.renumber r) =
      (·.renumber r) <$> Function.resolveNext receivers frame f l := by
  have hstr : (l.renumber r).value.str? = l.value.str? := l.value.str?_renumber r
  have htext : (l.renumber r).value.text = l.value.text := l.value.text_renumber r
  have harguments : (l.renumber r).isArguments = l.isArguments := rfl
  unfold Function.resolveNext
  rw [harguments]
  split
  · rw [Function.resolveArguments_renumber hr, ExceptT.run_map, bind_map_left, map_bind, hstr,
      htext]
    refine bind_congr fun result => ?_
    cases result <;> rfl
  · exact f.resolveName_renumber hr frame l.location l.name l.value

theorem Function.resolveLate_renumber (f : Function) :
    (f.renumber r).resolveLate receivers (frame.renumber r) =
      (·.renumber r) <$> f.resolveLate receivers frame := by
  unfold Function.resolveLate
  exact foldlM_map_comm f.signature.late
    (fun g l _ => g.resolveNext_renumber hr receivers frame l) (f.mapSignature .clearLate)

end Late

/-! ## Collecting -/

section Collect

variable {r : Point → Point}

theorem annotationName_renumber (r : Point → Point) (item : Bindings) :
    annotationName (item.renumber r) = annotationName item := by
  unfold annotationName
  rw [Bindings.single_renumber, bind_map_left]
  refine bind_congr fun v => ?_
  rw [Value.str?_renumber, Value.text_renumber]

theorem annotationNames_renumber (r : Point → Point) (names : Bindings) :
    annotationNames (names.renumber r) = annotationNames names := by
  unfold annotationNames
  rw [Bindings.single_renumber, bind_map_left]
  refine bind_congr fun v => ?_
  rw [Value.tuple?_renumber, Value.text_renumber]
  cases v.tuple? with
  | none => rfl
  | some items => exact mapM_congr_map (annotationName_renumber r) items

/-- What is collected at `p` moves along if the order with `p` is kept. -/
theorem Collected.add_renumber {p : Point} (hp : KeepsOrder r p) (location : Location)
    (c : Collected) (name : String) (hint : Bindings) :
    (c.renumber r).add (r p) location name (hint.renumber r) =
      (·.renumber r) <$> c.add p location name hint := by
  unfold Collected.add
  rw [Bindings.visible_renumber r hp]
  match hint.visible p with
  | [v] =>
    simp only [List.map_cons, List.map_nil]
    rw [Value.resolve_none_renumber, map_bind]
    refine bind_congr fun outcome => ?_
    cases outcome with
    | resolved t => rfl
    | failed => rfl
    | late =>
      rw [map_pure]
      unfold Collected.defer Collected.renumber
      rw [List.map_append]
      rfl
  | [] =>
    simp only [List.map_nil]
    rw [map_bind]
    rfl
  | v :: w :: vs =>
    have hmerged : mergedVisible ((v :: w :: vs).map (·.renumber r)) =
        (mergedVisible (v :: w :: vs)).renumber r := (Value.renumber_union r _).symm
    simp only [List.map_cons] at hmerged ⊢
    rw [hmerged, Value.text_renumber, map_bind]
    rfl

theorem collectAnnotations_renumber {p : Point} (hp : KeepsOrder r p)
    (payload : List Bindings) (location : Location) :
    collectAnnotations (r p) (payload.map (·.renumber r)) location =
      (·.renumber r) <$> collectAnnotations p payload location := by
  unfold collectAnnotations
  rw [List.getLast?_map]
  cases payload.getLast? with
  | none => rfl
  | some last =>
    simp only [Option.map_some]
    rw [annotationNames_renumber, ← List.map_dropLast, map_bind]
    refine bind_congr fun names => ?_
    rw [List.zip_map_right]
    exact foldlM_map_comm (k := Collected.renumber r) (names.zip payload.dropLast)
      (fun c pair _ => (congrArg liftM (c.add_renumber hp location pair.1 pair.2)).trans
        (liftM_map _ _)) {}

end Collect

/-! ## Definitions -/

theorem Function.attachComment_renumber (r : Point → Point) (f : Function) (comment : String)
    (location : Location) : (f.renumber r).attachComment comment location =
      (·.renumber r) <$> f.attachComment comment location := by
  cases h : Function.splitComment (Text.trimChars comment.toList) with
  | none =>
    simp only [Function.attachComment, h]
    rw [map_bind]
    rfl
  | some parts =>
    simp only [Function.attachComment, h, map_pure]
    refine congrArg pure ?_
    unfold Function.renumber Function.mapSignature
    simp only [Signature.renumber_addLate]
    split
    · rfl
    · rw [Signature.renumber_addLate]
      rfl

section Define

variable {r : Point → Point} (hr : r.Injective) (frame : Frame) (d : FunctionDef)

include hr

theorem FunctionDef.payload_renumber :
    d.payload (frame.renumber r) = List.map (·.renumber r) <$> d.payload frame := by
  have hvalues : (d.annotations.toList.mapM fun entry => (runText (frame.renumber r) entry.2).adapt
      (ModuleError.invalidExpression (.hint entry.1 d.name))) =
        List.map (·.renumber r) <$> d.annotations.toList.mapM fun entry =>
          (runText frame entry.2).adapt
            (ModuleError.invalidExpression (.hint entry.1 d.name)) := by
    refine mapM_comm (fun entry => ?_) d.annotations.toList
    simp only [runText_renumber hr, adapt_map]
  unfold FunctionDef.payload
  rw [hvalues, bind_map_left, map_bind]
  refine bind_congr fun values => ?_
  rw [map_pure, List.isEmpty_map]
  cases values.isEmpty with
  | true => rfl
  | false =>
    have hnames : Value.tuple (d.annotations.toList.map fun entry =>
        Bindings.ofValue (r frame.point) (.str entry.1)) = (Value.tuple (d.annotations.toList.map
          fun entry => Bindings.ofValue frame.point (.str entry.1))).renumber r := by
      show Value.tuple _ = Value.tuple (Bindings.renumberAll r _)
      rw [Bindings.renumberAll_eq_map, List.map_map]
      rfl
    simp only [Bool.false_eq_true, if_false, List.map_append, List.map_cons, List.map_nil,
      Bindings.renumber_ofValue, ← hnames]
    rfl

theorem FunctionDef.define_renumber (hp : KeepsOrder r frame.point) (file : String) :
    d.define (frame.renumber r) file = (·.renumber r) <$> d.define frame file := by
  unfold FunctionDef.define
  rw [FunctionDef.payload_renumber hr, bind_map_left, map_bind]
  refine bind_congr fun payload => ?_
  show ((collectAnnotations (r frame.point) (payload.map (·.renumber r)) _).adapt _ >>= _) = _
  rw [collectAnnotations_renumber hp, adapt_map, bind_map_left, map_bind]
  refine bind_congr fun collected => ?_
  have hadd : (d.bare file).mapSignature (collected.renumber r).addTo =
      ((d.bare file).mapSignature collected.addTo).renumber r :=
    congrArg (fun s => (d.bare file).mapSignature fun _ => s) (collected.addTo_renumber r ∅)
  rw [hadd]
  cases d.typeComment with
  | none => rfl
  | some comment =>
    simp only [Function.attachComment_renumber]
    exact liftM_map _ _

end Define

end TypeHints
