import TypeHints.Json.Record
import TypeHints.Module

/-!
# Modules in JSON

A module and its definitions are records; the kind of a definition is an entry of the record, or
the first item of the array. Inside of a definition nothing may be unreadable, even where it is
passed over.
-/

namespace TypeHints

/-! ## Definitions -/

namespace TypeVarDef

def entries (d : TypeVarDef) : List (String × Json) :=
  ("name", .string d.name) :: Json.optionalEntry "bound" .string d.bound

def ofJson? (j : Json) : Option TypeVarDef := do
  match ← j.fields? ["name", "bound"] with
  | [name, bound] => return ⟨← name.required Json.toString?, ← bound.optional Json.toString?⟩
  | _ => none

end TypeVarDef

namespace ClassDef

def entries (d : ClassDef) : List (String × Json) :=
  [("name", .string d.name), ("type_params", .ofStrings d.typeParams)]

def ofJson? (j : Json) : Option ClassDef := do
  match ← j.fields? ["name", "type_params"] with
  | [name, typeParams] =>
    return ⟨← name.required Json.toString?, ← typeParams.withDefault [] Json.toStrings?⟩
  | _ => none

end ClassDef

namespace FunctionDef

def entries (d : FunctionDef) : List (String × Json) :=
  [("name", .string d.name), ("line", .ofUInt32 d.line), ("params", .ofStrings d.params),
    ("kwonly_params", .ofStrings d.keywordOnly)] ++
  Json.optionalEntry "varargs" .string d.varArgs ++
  Json.optionalEntry "varkw" .string d.keywordArgs ++
  ("annotations", .ofMap id .string d.annotations) ::
  Json.optionalEntry "type_comment" .string d.typeComment

def ofJson? (j : Json) : Option FunctionDef := do
  match ← j.fields? ["name", "line", "params", "kwonly_params", "varargs", "varkw", "annotations",
    "type_comment"] with
  | [name, line, params, keywordOnly, varArgs, keywordArgs, annotations, typeComment] =>
    return {
      name := ← name.required Json.toString?
      line := ← line.required Json.toUInt32?
      params := ← params.withDefault [] Json.toStrings?
      keywordOnly := ← keywordOnly.withDefault [] Json.toStrings?
      varArgs := ← varArgs.optional Json.toString?
      keywordArgs := ← keywordArgs.optional Json.toString?
      annotations := ← annotations.withDefault ∅ (Json.toMap? some Json.toString?)
      typeComment := ← typeComment.optional Json.toString? }
  | _ => none

end FunctionDef

namespace AssignDef

def entries (d : AssignDef) : List (String × Json) :=
  [("target", .string d.target), ("line", .ofUInt32 d.line), ("value", .string d.value)]

def ofJson? (j : Json) : Option AssignDef := do
  match ← j.fields? ["target", "line", "value"] with
  | [target, line, value] =>
    return ⟨← target.required Json.toString?, ← line.required Json.toUInt32?,
      ← value.required Json.toString?⟩
  | _ => none

end AssignDef

namespace SpecializeDef

def entries (d : SpecializeDef) : List (String × Json) :=
  [("function", .string d.function), ("maps", .ofList (.ofMap id .ofStrings) d.maps)]

def ofJson? (j : Json) : Option SpecializeDef := do
  match ← j.fields? ["function", "maps"] with
  | [function, maps] =>
    return ⟨← function.required Json.toString?,
      ← maps.withDefault [] (Json.toList? (Json.toMap? some Json.toStrings?))⟩
  | _ => none

end SpecializeDef

namespace Definition

def kindName : Definition → String
  | typeVar _ => "typevar"
  | cls _ => "class"
  | function _ => "function"
  | assign _ => "assign"
  | specialize _ => "specialize"

/-- The fields of a definition in JSON. -/
def entries : Definition → List (String × Json)
  | typeVar d => d.entries
  | cls d => d.entries
  | function d => d.entries
  | assign d => d.entries
  | specialize d => d.entries

def toJson (d : Definition) : Json := .object (("kind", .string d.kindName) :: d.entries)

/-- The name of a kind, and the record without it. -/
def splitKind? : Json → Option (String × Json)
  | .object entries => do
    let kind ← (← Json.fieldOf? "kind" entries).required Json.toString?
    return (kind, .object (entries.filter (·.1 != "kind")))
  | .array (kind :: fields) => return (← kind.toString?, .array fields)
  | _ => none

/-- The definition of a given kind that a record describes. -/
def ofKind? (kind : String) (j : Json) : Option Definition :=
  if kind = "typevar" then (TypeVarDef.ofJson? j).map typeVar
  else if kind = "class" then (ClassDef.ofJson? j).map cls
  else if kind = "function" then (FunctionDef.ofJson? j).map function
  else if kind = "assign" then (AssignDef.ofJson? j).map assign
  else if kind = "specialize" then (SpecializeDef.ofJson? j).map specialize
  else none

def ofJson? (j : Json) : Option Definition :=
  if j.isReadable then do
    let (kind, fields) ← splitKind? j
    ofKind? kind fields
  else none

end Definition

/-! ## Modules -/

namespace Module

def toJson (m : Module) : Json :=
  .object [("filename", .string m.file),
    ("type_comments", .ofMap Json.keyOfUInt32 .string m.typeComments),
    ("definitions", .ofList Definition.toJson m.definitions)]

def ofJson? (j : Json) : Option Module := do
  match ← j.fields? ["filename", "type_comments", "definitions"] with
  | [file, typeComments, definitions] =>
    return {
      file := ← file.required Json.toString?
      typeComments := ← typeComments.withDefault ∅ (Json.toMap? Json.uint32OfKey? Json.toString?)
      definitions := ← definitions.withDefault [] (Json.toList? Definition.ofJson?) }
  | _ => none

end Module

end TypeHints
