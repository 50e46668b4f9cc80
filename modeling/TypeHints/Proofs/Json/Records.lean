import TypeHints.Module.Json
import TypeHints.Proofs.Json.Fields
import TypeHints.Report.Json

/-!
# Records are read back

For every record of a module and of a report: its fields in JSON, a name and a value or none for
each, and that its reader gives back the record these fields are of. The kind of a definition is
one more field, in front of the others; the reader looks for it first and reads the record without
it, which none of the five kinds of definition misses (`Definition.splitKind?_toJson`).
-/

namespace TypeHints

open Json (present fields?_present)

/-! ## Diagnostics -/

namespace Location

/-- The fields of a location. -/
def fields (l : Location) : List (String × Field) :=
  [("file", l.file.map .string), ("line", some (.ofUInt32 l.line))]

theorem toJson_eq (l : Location) : l.toJson = .object (present l.fields) := by
  obtain ⟨_ | file, line⟩ := l <;> rfl

theorem ofJson?_toJson (l : Location) : ofJson? l.toJson = some l := by
  have hfields : l.toJson.fields? ["file", "line"] = some (l.fields.map (·.2)) :=
    fields?_present l.toJson_eq rfl (by decide)
  rw [ofJson?, hfields]
  simp [fields]

end Location

namespace Diagnostic

theorem Kind.ofJson?_string (k : Kind) : ofJson? (.string k.name) = some k := k.ofName?_name

/-- The fields of a diagnostic. -/
def fields (d : Diagnostic) : List (String × Field) :=
  [("kind", some (.string d.kind.name)), ("location", some d.location.toJson),
    ("message", some (.string d.message)), ("details", d.details.map .string)]

theorem toJson_eq (d : Diagnostic) : d.toJson = .object (present d.fields) := by
  obtain ⟨kind, location, message, _ | details⟩ := d <;> rfl

theorem ofJson?_toJson (d : Diagnostic) : ofJson? d.toJson = some d := by
  have hfields : d.toJson.fields? ["kind", "location", "message", "details"] =
      some (d.fields.map (·.2)) :=
    fields?_present d.toJson_eq rfl (by decide)
  rw [ofJson?, hfields]
  simp [fields, Kind.ofJson?_string, Location.ofJson?_toJson]

end Diagnostic

/-! ## Reports -/

/-- A map of texts is read back. -/
theorem toTextMap?_ofMap (m : SortedMap String String) :
    Json.toMap? some Json.toString? (.ofMap id .string m) = some m :=
  Json.toMap?_ofMap (fun _ => rfl) Json.toString?_string m

namespace FunctionReport

/-- The fields of the report on a function. -/
def fields (r : FunctionReport) : List (String × Field) :=
  [("name", some (.string r.name)), ("line", some (.ofUInt32 r.line)),
    ("annotations", some (.ofMap id .string r.annotations))]

theorem toJson_eq (r : FunctionReport) : r.toJson = .object (present r.fields) := rfl

theorem ofJson?_toJson (r : FunctionReport) : ofJson? r.toJson = some r := by
  have hfields : r.toJson.fields? ["name", "line", "annotations"] = some (r.fields.map (·.2)) :=
    fields?_present r.toJson_eq rfl (by decide)
  rw [ofJson?, hfields]
  simp [fields, toTextMap?_ofMap]

end FunctionReport

namespace VariableReport

/-- The fields of the report on a variable. -/
def fields (r : VariableReport) : List (String × Field) :=
  [("name", some (.string r.name)), ("line", some (.ofUInt32 r.line)),
    ("type", some (.string r.type))]

theorem toJson_eq (r : VariableReport) : r.toJson = .object (present r.fields) := rfl

theorem ofJson?_toJson (r : VariableReport) : ofJson? r.toJson = some r := by
  have hfields : r.toJson.fields? ["name", "line", "type"] = some (r.fields.map (·.2)) :=
    fields?_present r.toJson_eq rfl (by decide)
  rw [ofJson?, hfields]
  simp [fields]

end VariableReport

namespace SpecializationReport

/-- The fields of the report on a specialisation. -/
def fields (r : SpecializationReport) : List (String × Field) :=
  [("function", some (.string r.function)),
    ("annotations", some (.ofMap id .string r.annotations))]

theorem toJson_eq (r : SpecializationReport) : r.toJson = .object (present r.fields) := rfl

theorem ofJson?_toJson (r : SpecializationReport) : ofJson? r.toJson = some r := by
  have hfields : r.toJson.fields? ["function", "annotations"] = some (r.fields.map (·.2)) :=
    fields?_present r.toJson_eq rfl (by decide)
  rw [ofJson?, hfields]
  simp [fields, toTextMap?_ofMap]

end SpecializationReport

namespace Report

/-- The fields of a report. -/
def fields (r : Report) : List (String × Field) :=
  [("status", some (.string r.status)), ("schema_version", some (.string r.schemaVersion)),
    ("file", some (.string r.file)),
    ("functions", some (.ofList FunctionReport.toJson r.functions)),
    ("variables", some (.ofList VariableReport.toJson r.vars)),
    ("specializations", some (.ofList SpecializationReport.toJson r.specializations)),
    ("diagnostics", some (.ofList Diagnostic.toJson r.diagnostics))]

theorem toJson_eq (r : Report) : r.toJson = .object (present r.fields) := rfl

theorem ofJson?_toJson (r : Report) : ofJson? r.toJson = some r := by
  have hfields : r.toJson.fields? ["status", "schema_version", "file", "functions", "variables",
      "specializations", "diagnostics"] = some (r.fields.map (·.2)) :=
    fields?_present r.toJson_eq rfl (by decide)
  have hfunctions := Json.toList?_ofList FunctionReport.ofJson?_toJson r.functions
  have hvars := Json.toList?_ofList VariableReport.ofJson?_toJson r.vars
  have hspecializations :=
    Json.toList?_ofList SpecializationReport.ofJson?_toJson r.specializations
  have hdiagnostics := Json.toList?_ofList Diagnostic.ofJson?_toJson r.diagnostics
  rw [ofJson?, hfields]
  simp [fields, hfunctions, hvars, hspecializations, hdiagnostics]

end Report

/-! ## Definitions -/

namespace TypeVarDef

/-- The fields of a type variable, with or without a bound. -/
def fields (d : TypeVarDef) : List (String × Field) :=
  [("name", some (.string d.name)), ("bound", d.bound.map .string)]

theorem entries_eq (d : TypeVarDef) : d.entries = present d.fields := by
  obtain ⟨name, _ | bound⟩ := d <;> rfl

theorem ofJson?_entries (d : TypeVarDef) : ofJson? (.object d.entries) = some d := by
  have hfields : (Json.object d.entries).fields? ["name", "bound"] =
      some (d.fields.map (·.2)) :=
    fields?_present (congrArg _ d.entries_eq) rfl (by decide)
  rw [ofJson?, hfields]
  simp [fields]

end TypeVarDef

namespace ClassDef

/-- The fields of a class. -/
def fields (d : ClassDef) : List (String × Field) :=
  [("name", some (.string d.name)), ("type_params", some (.ofStrings d.typeParams))]

theorem entries_eq (d : ClassDef) : d.entries = present d.fields := rfl

theorem ofJson?_entries (d : ClassDef) : ofJson? (.object d.entries) = some d := by
  have hfields : (Json.object d.entries).fields? ["name", "type_params"] =
      some (d.fields.map (·.2)) :=
    fields?_present (congrArg _ d.entries_eq) rfl (by decide)
  rw [ofJson?, hfields]
  simp [fields]

end ClassDef

namespace FunctionDef

/-- The fields of a function, with those it does without. -/
def fields (d : FunctionDef) : List (String × Field) :=
  [("name", some (.string d.name)), ("line", some (.ofUInt32 d.line)),
    ("params", some (.ofStrings d.params)), ("kwonly_params", some (.ofStrings d.keywordOnly)),
    ("varargs", d.varArgs.map .string), ("varkw", d.keywordArgs.map .string),
    ("annotations", some (.ofMap id .string d.annotations)),
    ("type_comment", d.typeComment.map .string)]

theorem entries_eq (d : FunctionDef) : d.entries = present d.fields := by
  obtain ⟨name, line, params, keywordOnly, _ | varArgs, _ | keywordArgs, annotations,
    _ | typeComment⟩ := d <;> rfl

theorem ofJson?_entries (d : FunctionDef) : ofJson? (.object d.entries) = some d := by
  have hfields : (Json.object d.entries).fields? ["name", "line", "params", "kwonly_params",
      "varargs", "varkw", "annotations", "type_comment"] = some (d.fields.map (·.2)) :=
    fields?_present (congrArg _ d.entries_eq) rfl (by decide)
  rw [ofJson?, hfields]
  simp [fields, toTextMap?_ofMap]

end FunctionDef

namespace AssignDef

/-- The fields of an assignment. -/
def fields (d : AssignDef) : List (String × Field) :=
  [("target", some (.string d.target)), ("line", some (.ofUInt32 d.line)),
    ("value", some (.string d.value))]

theorem entries_eq (d : AssignDef) : d.entries = present d.fields := rfl

theorem ofJson?_entries (d : AssignDef) : ofJson? (.object d.entries) = some d := by
  have hfields : (Json.object d.entries).fields? ["target", "line", "value"] =
      some (d.fields.map (·.2)) :=
    fields?_present (congrArg _ d.entries_eq) rfl (by decide)
  rw [ofJson?, hfields]
  simp [fields]

end AssignDef

namespace SpecializeDef

/-- The fields of a specialisation. -/
def fields (d : SpecializeDef) : List (String × Field) :=
  [("function", some (.string d.function)),
    ("maps", some (.ofList (.ofMap id .ofStrings) d.maps))]

theorem entries_eq (d : SpecializeDef) : d.entries = present d.fields := rfl

theorem ofJson?_entries (d : SpecializeDef) : ofJson? (.object d.entries) = some d := by
  have hfields : (Json.object d.entries).fields? ["function", "maps"] =
      some (d.fields.map (·.2)) :=
    fields?_present (congrArg _ d.entries_eq) rfl (by decide)
  have hmaps : Json.toList? (Json.toMap? some Json.toStrings?)
      (.ofList (.ofMap id .ofStrings) d.maps) = some d.maps :=
    Json.toList?_ofList (Json.toMap?_ofMap (fun _ => rfl) Json.toStrings?_ofStrings) d.maps
  rw [ofJson?, hfields]
  simp [fields, hmaps]

end SpecializeDef

namespace Definition

/-- The fields of a definition besides its kind. -/
def fields : Definition → List (String × Field)
  | typeVar d => d.fields
  | cls d => d.fields
  | function d => d.fields
  | assign d => d.fields
  | specialize d => d.fields

theorem entries_eq (d : Definition) : d.entries = present d.fields := by
  cases d with
  | typeVar d => exact d.entries_eq
  | cls d => exact d.entries_eq
  | function d => exact d.entries_eq
  | assign d => exact d.entries_eq
  | specialize d => exact d.entries_eq

theorem toJson_eq (d : Definition) :
    d.toJson = .object (present (("kind", some (.string d.kindName)) :: d.fields)) := by
  rw [toJson, entries_eq]
  rfl

theorem nodup_fields (d : Definition) : ("kind" :: d.fields.map (·.1)).Nodup := by
  cases d with
  | typeVar d => exact (by decide : ["kind", "name", "bound"].Nodup)
  | cls d => exact (by decide : ["kind", "name", "type_params"].Nodup)
  | function d =>
    exact (by decide : ["kind", "name", "line", "params", "kwonly_params", "varargs", "varkw",
      "annotations", "type_comment"].Nodup)
  | assign d => exact (by decide : ["kind", "target", "line", "value"].Nodup)
  | specialize d => exact (by decide : ["kind", "function", "maps"].Nodup)

/-- The kind of a definition is told from its other fields. -/
theorem splitKind?_toJson (d : Definition) :
    splitKind? d.toJson = some (d.kindName, .object d.entries) := by
  have hkind : Json.fieldOf? "kind" (("kind", .string d.kindName) :: d.entries) =
      some (some (.string d.kindName)) := by
    have hpresent : ("kind", .string d.kindName) :: d.entries =
        present (("kind", some (.string d.kindName)) :: d.fields) := by
      rw [entries_eq]
      rfl
    rw [hpresent]
    exact Json.fieldOf?_present d.nodup_fields List.mem_cons_self
  have hothers : d.entries.filter (·.1 != "kind") = d.entries := by
    refine List.filter_eq_self.2 fun ⟨name, j⟩ hmem => ?_
    rw [entries_eq, Json.mem_present_iff] at hmem
    have hne : name ≠ "kind" := by
      rintro rfl
      exact (List.nodup_cons.1 d.nodup_fields).1 (List.mem_map.2 ⟨_, hmem, rfl⟩)
    simpa using hne
  have hrest : (("kind", Json.string d.kindName) :: d.entries).filter (·.1 != "kind") =
      d.entries := by
    rw [List.filter_cons_of_neg (by simp), hothers]
  simp [splitKind?, toJson, hkind, hrest]

theorem ofKind?_entries (d : Definition) :
    ofKind? d.kindName (.object d.entries) = some d := by
  cases d with
  | typeVar d => simp [ofKind?, kindName, entries, d.ofJson?_entries]
  | cls d => simp [ofKind?, kindName, entries, d.ofJson?_entries]
  | function d => simp [ofKind?, kindName, entries, d.ofJson?_entries]
  | assign d => simp [ofKind?, kindName, entries, d.ofJson?_entries]
  | specialize d => simp [ofKind?, kindName, entries, d.ofJson?_entries]

theorem isReadable_toJson (d : Definition) : d.toJson.isReadable = true := by
  have hfields : ∀ field ∈ d.fields, ∀ j ∈ field.2, j.isReadable = true := by
    cases d with
    | typeVar d => simp [fields, TypeVarDef.fields]
    | cls d => simp [fields, ClassDef.fields]
    | function d => simp [fields, FunctionDef.fields, Json.isReadable_ofMap Json.isReadable_string]
    | assign d => simp [fields, AssignDef.fields]
    | specialize d =>
      simp [fields, SpecializeDef.fields, Json.isReadable_ofList, Json.isReadable_ofMap]
  rw [toJson_eq]
  exact Json.isReadable_present (List.forall_mem_cons.2 ⟨by simp, hfields⟩)

theorem ofJson?_toJson (d : Definition) : ofJson? d.toJson = some d := by
  rw [ofJson?, if_pos d.isReadable_toJson, splitKind?_toJson]
  exact d.ofKind?_entries

end Definition

/-! ## Modules -/

namespace Module

/-- The fields of a module. -/
def fields (m : Module) : List (String × Field) :=
  [("filename", some (.string m.file)),
    ("type_comments", some (.ofMap Json.keyOfUInt32 .string m.typeComments)),
    ("definitions", some (.ofList Definition.toJson m.definitions))]

theorem toJson_eq (m : Module) : m.toJson = .object (present m.fields) := rfl

theorem ofJson?_toJson (m : Module) : ofJson? m.toJson = some m := by
  have hfields : m.toJson.fields? ["filename", "type_comments", "definitions"] =
      some (m.fields.map (·.2)) :=
    fields?_present m.toJson_eq rfl (by decide)
  have hcomments : Json.toMap? Json.uint32OfKey? Json.toString?
      (.ofMap Json.keyOfUInt32 .string m.typeComments) = some m.typeComments :=
    Json.toMap?_ofMap Json.uint32OfKey?_keyOfUInt32 Json.toString?_string m.typeComments
  have hdefinitions := Json.toList?_ofList Definition.ofJson?_toJson m.definitions
  rw [ofJson?, hfields]
  simp [fields, hcomments, hdefinitions]

end Module

end TypeHints
