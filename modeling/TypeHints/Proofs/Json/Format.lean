import TypeHints.Proofs.Json.Records

/-!
# The format of modules and reports

What others may rely on who read or write these records: which name stands for what, which entries
are left out, how keys and kinds are spelled (`Module.Format`, `Report.Format`,
`Diagnostic.Format`). Values are written in this format, and are read back from it
(`json_roundTrip`).
-/

namespace TypeHints

namespace Json

/-- Words of lower-case letters, with `sep` between any two. -/
def InWords (sep s : String) : Prop :=
  ∃ words, words ≠ [] ∧ s = sep.intercalate words ∧
    ∀ word ∈ words, word ≠ "" ∧ ∀ c ∈ word.toList, c.isLower = true

/-- The field is an array with one item for every value, in their order. -/
def Lists {α : Type} (written : α → Json → Prop) (xs : List α) (f : Field) : Prop :=
  ∃ items, f = some (.array items) ∧ List.Forall₂ written xs items

theorem lists_ofList {α : Type} {written : α → Json → Prop} {write : α → Json} {f : Field}
    (h : ∀ x, written x (write x)) {xs : List α} (hf : f = some (.ofList write xs)) :
    Lists written xs f := by
  refine ⟨xs.map write, hf, ?_⟩
  rw [List.forall₂_map_right_iff]
  exact List.forall₂_same.2 fun x _ => h x

end Json

open Json (InWords Lists get?_present lists_ofList)

/-! ## Reports -/

/-- What `j` says about a diagnostic. -/
structure Diagnostic.Format (d : Diagnostic) (j : Json) : Prop where
  kind : j.get? "kind" = some (.string d.kind.name)
  kebab : InWords "-" d.kind.name
  message : j.get? "message" = some (.string d.message)
  /-- No entry if there are no details. -/
  details : j.get? "details" = d.details.map .string
  /-- No entry for the file of a location in no file. -/
  file : (j.get? "location").bind (·.get? "file") = d.location.file.map .string
  line : (j.get? "location").bind (·.get? "line") = some (.ofUInt32 d.location.line)

theorem Diagnostic.Kind.inWords_name (k : Kind) : InWords "-" k.name := by
  cases k with
  | invalidHint => exact ⟨["invalid", "annotation"], by simp, rfl, by simp⟩
  | invalidTypeComment => exact ⟨["invalid", "type", "comment"], by simp, rfl, by simp⟩
  | invalidFunctionTypeComment =>
    exact ⟨["invalid", "function", "type", "comment"], by simp, rfl, by simp⟩
  | nameError => exact ⟨["name", "error"], by simp, rfl, by simp⟩
  | notSubscriptable => exact ⟨["not", "subscriptable"], by simp, rfl, by simp⟩

theorem Diagnostic.format_toJson (d : Diagnostic) : d.Format d.toJson := by
  have hnodup : (d.fields.map (·.1)).Nodup := by simp [fields]
  have hnodup' : (d.location.fields.map (·.1)).Nodup := by simp [Location.fields]
  have hlocation : d.toJson.get? "location" = some d.location.toJson :=
    get?_present d.toJson_eq hnodup (by simp [fields])
  exact {
    kind := get?_present d.toJson_eq hnodup (by simp [fields])
    kebab := d.kind.inWords_name
    message := get?_present d.toJson_eq hnodup (by simp [fields])
    details := get?_present d.toJson_eq hnodup (by simp [fields])
    file := by
      rw [hlocation]
      exact get?_present d.location.toJson_eq hnodup' (by simp [Location.fields])
    line := by
      rw [hlocation]
      exact get?_present d.location.toJson_eq hnodup' (by simp [Location.fields]) }

/-- What `j` says about a report: each variable has its type under the plain word. -/
structure Report.Format (r : Report) (j : Json) : Prop where
  vars : Lists (fun v j => j.get? "type" = some (.string v.type)) r.vars (j.get? "variables")
  diagnostics : Lists Diagnostic.Format r.diagnostics (j.get? "diagnostics")

theorem VariableReport.get?_type_toJson (v : VariableReport) :
    v.toJson.get? "type" = some (.string v.type) :=
  get?_present v.toJson_eq (by simp [fields]) (by simp [fields])

theorem Report.format_toJson (r : Report) : r.Format r.toJson := by
  have hnodup : (r.fields.map (·.1)).Nodup := by simp [fields]
  have hvars : r.toJson.get? "variables" = some (.ofList VariableReport.toJson r.vars) :=
    get?_present r.toJson_eq hnodup (by simp [fields])
  have hdiagnostics :
      r.toJson.get? "diagnostics" = some (.ofList Diagnostic.toJson r.diagnostics) :=
    get?_present r.toJson_eq hnodup (by simp [fields])
  exact ⟨lists_ofList VariableReport.get?_type_toJson hvars,
    lists_ofList Diagnostic.format_toJson hdiagnostics⟩

/-! ## Modules -/

/-- The entries that a definition may do without, each with its text if it has one. -/
def Definition.optionals : Definition → List (String × Option String)
  | typeVar d => [("bound", d.bound)]
  | function d =>
    [("varargs", d.varArgs), ("varkw", d.keywordArgs), ("type_comment", d.typeComment)]
  | _ => []

/-- What `j` says about a definition. -/
structure Definition.Format (d : Definition) (j : Json) : Prop where
  kind : j.get? "kind" = some (.string d.kindName)
  snake : InWords "_" d.kindName
  optionals : ∀ name text, (name, text) ∈ d.optionals → j.get? name = text.map .string

theorem Definition.inWords_kindName (d : Definition) : InWords "_" d.kindName := by
  cases d with
  | typeVar d => exact ⟨["typevar"], by simp, rfl, by simp⟩
  | cls d => exact ⟨["class"], by simp, rfl, by simp⟩
  | function d => exact ⟨["function"], by simp, rfl, by simp⟩
  | assign d => exact ⟨["assign"], by simp, rfl, by simp⟩
  | specialize d => exact ⟨["specialize"], by simp, rfl, by simp⟩

theorem Definition.mem_fields_of_mem_optionals {d : Definition} {name : String}
    {text : Option String} (h : (name, text) ∈ d.optionals) :
    (name, text.map .string) ∈ d.fields := by
  cases d with
  | typeVar d =>
    obtain ⟨rfl, rfl⟩ : name = "bound" ∧ text = d.bound := by simpa [optionals] using h
    simp [fields, TypeVarDef.fields]
  | function d =>
    obtain ⟨rfl, rfl⟩ | ⟨rfl, rfl⟩ | ⟨rfl, rfl⟩ : (name = "varargs" ∧ text = d.varArgs) ∨
        (name = "varkw" ∧ text = d.keywordArgs) ∨
        (name = "type_comment" ∧ text = d.typeComment) := by
      simpa [optionals] using h
    all_goals simp [fields, FunctionDef.fields]
  | cls d => cases h
  | assign d => cases h
  | specialize d => cases h

theorem Definition.format_toJson (d : Definition) : d.Format d.toJson where
  kind := get?_present d.toJson_eq d.nodup_fields List.mem_cons_self
  snake := d.inWords_kindName
  optionals _ _ h :=
    get?_present d.toJson_eq d.nodup_fields
      (List.mem_cons_of_mem _ (mem_fields_of_mem_optionals h))

/-- What `j` says about a module: the lines of the type comments as keys, in decimal digits. -/
structure Module.Format (m : Module) (j : Json) : Prop where
  typeComments : j.get? "type_comments" = some (.object
    (m.typeComments.toList.map fun (line, comment) => (toString line.toNat, .string comment)))
  definitions : Lists Definition.Format m.definitions (j.get? "definitions")

theorem Module.format_toJson (m : Module) : m.Format m.toJson := by
  have hnodup : (m.fields.map (·.1)).Nodup := by simp [fields]
  have hdefinitions :
      m.toJson.get? "definitions" = some (.ofList Definition.toJson m.definitions) :=
    get?_present m.toJson_eq hnodup (by simp [fields])
  exact ⟨get?_present m.toJson_eq hnodup (.tail _ List.mem_cons_self),
    lists_ofList Definition.format_toJson hdefinitions⟩

/-! ## Reading back what was written -/

/-- Every module, every report and every diagnostic is written in its format, and the reader gives
back what was written. -/
theorem json_roundTrip (m : Module) (r : Report) (d : Diagnostic) :
    (Module.ofJson? m.toJson = some m ∧ m.Format m.toJson) ∧
    (Report.ofJson? r.toJson = some r ∧ r.Format r.toJson) ∧
    (Diagnostic.ofJson? d.toJson = some d ∧ d.Format d.toJson) :=
  ⟨⟨m.ofJson?_toJson, m.format_toJson⟩, ⟨r.ofJson?_toJson, r.format_toJson⟩,
    ⟨d.ofJson?_toJson, d.format_toJson⟩⟩

end TypeHints
