import TypeHints.Proofs.AppendOnly
import TypeHints.Proofs.Payload

/-!
# Defining a function

The annotations of a function are evaluated, collected and followed by its type comment
(`FunctionDef.define_eq`). The payload of a definition is always well formed, so that a
function whose annotations all compile is always defined (`FunctionDef.define_of_compiles`).
-/

namespace TypeHints

/-- The names at the end of the payload of a definition are those of its annotations. -/
theorem spellsNames_payload (p : Point) (entries : List (String × String)) :
    SpellsNames (.ofValue p (.tuple (entries.map fun (name, _) => .ofValue p (.str name))))
      (entries.map (·.1)) := by
  refine ⟨_, _, rfl, rfl, ?_⟩
  induction entries with
  | nil => exact .nil
  | cons entry entries ih => exact .cons ⟨_, rfl, rfl⟩ ih

namespace FunctionDef

section Parts

variable (d : FunctionDef) (frame : Frame) (file : String)

/-- The values of the annotations of a definition. -/
def evalHints : Analysing (List Bindings) :=
  d.annotations.toList.mapM fun (name, text) =>
    (runText frame text).adapt (.invalidExpression (.hint name d.name))

/-- The payload of a definition, given the values of its annotations. -/
def payloadOf (values : List Bindings) : List Bindings :=
  if values.isEmpty then [] else
    values ++ [.ofValue frame.point (.tuple (d.annotations.toList.map fun (name, _) =>
      .ofValue frame.point (.str name)))]

/-- Collect the annotations of a definition, given their values. -/
def collectHints (values : List Bindings) : Reporting Collected :=
  ((d.annotations.toList.map (·.1)).zip values).foldlM
    (fun c (name, hint) => c.add frame.point (d.bare file).location name hint) {}

/-- Attach the type comment of a definition, if it has one. -/
def attach (f : Function) : Reporting Function :=
  match d.typeComment with
  | some comment => f.attachComment comment f.location
  | none => return f

theorem payload_eq : d.payload frame = d.payloadOf frame <$> d.evalHints frame := by
  rw [map_eq_pure_bind]
  rfl

/-- The payload of a definition is well formed, so its annotations are all collected. -/
theorem collectAnnotations_payloadOf (values : List Bindings) :
    collectAnnotations frame.point (d.payloadOf frame values) (d.bare file).location =
      liftM (d.collectHints frame file values) := by
  cases values with
  | nil =>
    -- without annotations there is no tuple of names either
    unfold collectHints
    rw [List.zip_nil_right]
    rfl
  | cons value values =>
    show collectAnnotations frame.point ((value :: values) ++ [_]) _ = _
    rw [collectAnnotations_eq (spellsNames_payload frame.point d.annotations.toList)]
    rfl

/-- A function is defined in three parts. Only the first of them may fail. -/
theorem define_eq : d.define frame file = (do
    let values ← d.evalHints frame
    let c ← liftM (d.collectHints frame file values)
    liftM (d.attach ((d.bare file).mapSignature c.addTo))) := by
  unfold define
  rw [payload_eq, bind_map_left]
  refine bind_congr fun values => ?_
  rw [collectAnnotations_payloadOf]
  refine bind_congr fun c => ?_
  unfold attach
  cases d.typeComment <;> rfl

theorem evalHints_appendOnly : AppendOnly (d.evalHints frame).run := by
  refine AppendOnly.mapMExcept (fun entry => ?_) _
  obtain ⟨name, text⟩ := entry
  exact (runText_appendOnly frame text).adapt _

theorem collectHints_appendOnly (values : List Bindings) :
    AppendOnly (d.collectHints frame file values) :=
  .foldlM (fun c pair => c.add_appendOnly frame.point _ pair.1 pair.2) _ _

/-- The type comment of a definition changes nothing but the signature. -/
theorem exists_attach (f : Function) :
    ∃ change ds, Gives (d.attach f) (f.mapSignature change) ds := by
  unfold attach
  split
  · exact f.exists_attachComment _ _
  · exact ⟨id, [], .pure f⟩

theorem attach_appendOnly (f : Function) : AppendOnly (d.attach f) := by
  obtain ⟨change, ds, h⟩ := d.exists_attach f
  exact h.appendOnly

/-- What a definition that succeeds is made of. -/
theorem exists_of_define {f : Function} {ds : List Diagnostic}
    (h : Gives (d.define frame file).run (.ok f) ds) :
    ∃ values c es fs gs, Gives (d.evalHints frame).run (.ok values) es ∧
      Gives (d.collectHints frame file values) c fs ∧
      Gives (d.attach ((d.bare file).mapSignature c.addTo)) f gs ∧ ds = es ++ (fs ++ gs) := by
  obtain ⟨r, es, hvalues⟩ := d.evalHints_appendOnly frame
  rw [define_eq] at h
  cases r with
  | error e => cases (h.unique hvalues.bind_error).1
  | ok values =>
    obtain ⟨c, fs, hc⟩ := d.collectHints_appendOnly frame file values
    obtain ⟨g, gs, hg⟩ := d.attach_appendOnly ((d.bare file).mapSignature c.addTo)
    obtain ⟨hok, rfl⟩ := h.unique (hvalues.bind_ok (hc.lift.bind_ok hg.lift))
    obtain rfl := Except.ok.inj hok
    exact ⟨values, c, es, fs, gs, hvalues, hc, hg, rfl⟩

/-- A definition that succeeds collects its payload. -/
theorem exists_payload_of_define {f : Function} {ds : List Diagnostic}
    (h : Gives (d.define frame file).run (.ok f) ds) :
    ∃ payload c es fs gs, Gives (d.payload frame).run (.ok payload) es ∧
      Gives (collectAnnotations frame.point payload (d.bare file).location).run (.ok c) fs ∧
      Gives (d.attach ((d.bare file).mapSignature c.addTo)) f gs ∧ ds = es ++ (fs ++ gs) := by
  obtain ⟨values, c, es, fs, gs, hvalues, hc, hattach, rfl⟩ := d.exists_of_define frame file h
  refine ⟨d.payloadOf frame values, c, es, fs, gs, ?_, ?_, hattach, rfl⟩
  · rw [payload_eq, ExceptT.run_map]
    exact hvalues.map _
  · rw [collectAnnotations_payloadOf]
    exact hc.lift

end Parts

/-! ## Definitions that compile -/

/-- The texts of all annotations are expressions. -/
def Compiles (d : FunctionDef) : Prop :=
  ∀ entry ∈ d.annotations.toList, ∃ e, Expr.parse entry.2 = .ok e

/-- A function whose annotations compile is defined under its name, whatever the frame. -/
theorem define_of_compiles {d : FunctionDef} (hd : d.Compiles) (frame : Frame) (file : String) :
    ∃ f ds, Gives (d.define frame file).run (.ok f) ds ∧ f.name = d.name := by
  have hhint : ∀ entry ∈ d.annotations.toList, ∃ b ds, Gives ((runText frame entry.2).adapt
      (ModuleError.invalidExpression (.hint entry.1 d.name))).run (.ok b) ds := by
    intro entry hentry
    obtain ⟨e, he⟩ := hd entry hentry
    obtain ⟨b, ds, hb⟩ := e.eval_appendOnly frame ∅
    exact ⟨b, ds, (runText_of_parse he hb).adapt _⟩
  obtain ⟨values, ds, hvalues⟩ := Gives.exists_mapM_ok _ hhint
  obtain ⟨c, es, hc⟩ := d.collectHints_appendOnly frame file values
  obtain ⟨change, fs, hf⟩ := d.exists_attach ((d.bare file).mapSignature c.addTo)
  rw [define_eq]
  exact ⟨_, _, Gives.bind_ok hvalues (hc.lift.bind_ok hf.lift), rfl⟩

end FunctionDef

end TypeHints
