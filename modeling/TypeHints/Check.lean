import TypeHints.Analysis
import TypeHints.Json.Reader
import TypeHints.Module.Json
import TypeHints.Text.Alphanumeric

/-!
# Checking a module

From the text of a file and the receivers that were asked for to a report. A run of the program that
gives no report ends in a failure, which has an exit code and is answered in JSON.
-/

namespace TypeHints

/-! ## Failures -/

/-- Why a file could not be read. -/
inductive ReadError where
  | notFound
  | other (description : String)
deriving DecidableEq, Repr

/-- Why there is no report. -/
inductive Failure where
  | invalidArguments (message : String)
  | fileNotFound (path : String)
  | invalidModule (message : String)
  | internal (message : String)
deriving DecidableEq, Repr

namespace Failure

def message : Failure → String
  | invalidArguments message => "invalid arguments: " ++ message
  | fileNotFound path => "file not found: " ++ path
  | invalidModule message => "invalid module: " ++ message
  | internal message => "internal error: " ++ message

def exitCode : Failure → Nat
  | invalidArguments _ => 2
  | fileNotFound _ => 3
  | invalidModule _ => 3
  | internal _ => 10

def ofReadError (path : String) : ReadError → Failure
  | .notFound => fileNotFound path
  | .other description => internal ("IO error on " ++ path ++ ": " ++ description)

/-- A module that cannot be analysed. -/
def ofModuleError (e : ModuleError) : Failure := invalidModule e.message

/-- A file that describes no module. -/
def notJson : Failure := invalidModule "JSON error"

def toJson (f : Failure) : Json :=
  .object [("status", .string "error"), ("schema_version", .string schemaVersion),
    ("error", .object [("code", .nat f.exitCode), ("message", .string f.message)])]

end Failure

/-! ## Reports -/

/-- Whether a name may be that of a receiver. -/
def isIdentifier (name : String) : Bool :=
  match name.toList with
  | [] => false
  | c :: cs =>
    (c = '_' || Text.isAlphabetic c) && cs.all fun c => c = '_' || Text.isAlphanumeric c

/-- The receivers named by arguments: exactly those that were named, or the customary ones, or
none at all if `noReceivers` says so. -/
def Receivers.ofArguments (names : List String) (noReceivers : Bool) :
    Except Failure Receivers :=
  if noReceivers then
    if names.isEmpty then .ok .none
    else .error (.invalidArguments "--receiver cannot be combined with --no-receivers")
  else if names.isEmpty then .ok .standard
  else
    match names.find? fun name => !isIdentifier name with
    | .some bad => .error (.invalidArguments ("invalid receiver name '" ++ bad ++ "'"))
    | .none => .ok ⟨names⟩

/-- The module that a file describes. -/
def Module.ofText (text : String) : Except Failure Module :=
  match (Json.parse? text).bind Module.ofJson? with
  | some m => .ok m
  | none => .error .notJson

/-- The report on the module that a file describes. -/
def check (receivers : Receivers) (text : String) : Except Failure Report := do
  let m ← Module.ofText text
  (analyze receivers m).mapError .ofModuleError

end TypeHints
