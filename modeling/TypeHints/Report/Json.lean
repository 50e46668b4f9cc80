import TypeHints.Json.Record
import TypeHints.Report

/-!
# Reports in JSON

Locations, diagnostics, a report and its parts are records. Only locations and diagnostics have
fields that may be left out. The kind of a diagnostic is its name, or an object with the name as its
only key and null under it.
-/

namespace TypeHints

/-! ## Diagnostics -/

namespace Location

def toJson (l : Location) : Json :=
  .object (Json.optionalEntry "file" .string l.file ++ [("line", .ofUInt32 l.line)])

def ofJson? (j : Json) : Option Location := do
  match ← j.fields? ["file", "line"] with
  | [file, line] => return ⟨← file.optional Json.toString?, ← line.required Json.toUInt32?⟩
  | _ => none

end Location

namespace Diagnostic

/-- The kind that a JSON value names. -/
def Kind.ofJson? : Json → Option Kind
  | .string name => ofName? name
  | .object [(name, .null)] => ofName? name
  | _ => none

def toJson (d : Diagnostic) : Json :=
  .object ([("kind", .string d.kind.name), ("location", d.location.toJson),
    ("message", .string d.message)] ++ Json.optionalEntry "details" .string d.details)

def ofJson? (j : Json) : Option Diagnostic := do
  match ← j.fields? ["kind", "location", "message", "details"] with
  | [kind, location, message, details] =>
    return {
      kind := ← kind.required Kind.ofJson?
      location := ← location.required Location.ofJson?
      message := ← message.required Json.toString?
      details := ← details.optional Json.toString? }
  | _ => none

end Diagnostic

/-! ## Reports -/

namespace FunctionReport

def toJson (r : FunctionReport) : Json :=
  .object [("name", .string r.name), ("line", .ofUInt32 r.line),
    ("annotations", .ofMap id .string r.annotations)]

def ofJson? (j : Json) : Option FunctionReport := do
  match ← j.fields? ["name", "line", "annotations"] with
  | [name, line, annotations] =>
    return ⟨← name.required Json.toString?, ← line.required Json.toUInt32?,
      ← annotations.required (Json.toMap? some Json.toString?)⟩
  | _ => none

end FunctionReport

namespace VariableReport

def toJson (r : VariableReport) : Json :=
  .object [("name", .string r.name), ("line", .ofUInt32 r.line), ("type", .string r.type)]

def ofJson? (j : Json) : Option VariableReport := do
  match ← j.fields? ["name", "line", "type"] with
  | [name, line, type] =>
    return ⟨← name.required Json.toString?, ← line.required Json.toUInt32?,
      ← type.required Json.toString?⟩
  | _ => none

end VariableReport

namespace SpecializationReport

def toJson (r : SpecializationReport) : Json :=
  .object [("function", .string r.function), ("annotations", .ofMap id .string r.annotations)]

def ofJson? (j : Json) : Option SpecializationReport := do
  match ← j.fields? ["function", "annotations"] with
  | [function, annotations] =>
    return ⟨← function.required Json.toString?,
      ← annotations.required (Json.toMap? some Json.toString?)⟩
  | _ => none

end SpecializationReport

namespace Report

def toJson (r : Report) : Json :=
  .object [("status", .string r.status), ("schema_version", .string r.schemaVersion),
    ("file", .string r.file), ("functions", .ofList FunctionReport.toJson r.functions),
    ("variables", .ofList VariableReport.toJson r.vars),
    ("specializations", .ofList SpecializationReport.toJson r.specializations),
    ("diagnostics", .ofList Diagnostic.toJson r.diagnostics)]

def ofJson? (j : Json) : Option Report := do
  match ← j.fields? ["status", "schema_version", "file", "functions", "variables",
    "specializations", "diagnostics"] with
  | [status, schemaVersion, file, functions, vars, specializations, diagnostics] =>
    return {
      status := ← status.required Json.toString?
      schemaVersion := ← schemaVersion.required Json.toString?
      file := ← file.required Json.toString?
      functions := ← functions.required (Json.toList? FunctionReport.ofJson?)
      vars := ← vars.required (Json.toList? VariableReport.ofJson?)
      specializations := ← specializations.required (Json.toList? SpecializationReport.ofJson?)
      diagnostics := ← diagnostics.required (Json.toList? Diagnostic.ofJson?) }
  | _ => none

end Report

end TypeHints
