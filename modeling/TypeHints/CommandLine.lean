import TypeHints.Check
import TypeHints.CommandLine.Arguments
import TypeHints.CommandLine.Help
import TypeHints.Json.Writer
import TypeHints.Report
import TypeHints.Report.Json

/-!
# The command line

What a run of the program writes, and its exit code. The one thing that a run needs of the world
is the text of the file it is asked to check.
-/

namespace TypeHints.CommandLine

/-- What a run writes, and its exit code. -/
structure Answer where
  exitCode : Nat
  output : String
deriving DecidableEq, Repr

/-- A JSON document as it is written to the output. -/
def document (j : Json) : String := j.pretty ++ "\n"

def Format.render : Format → Report → String
  | json, r => document r.toJson
  | text, r => r.text

def Answer.ofFailure (f : Failure) : Answer := ⟨f.exitCode, document f.toJson⟩

/-- The answer to a run without options. -/
def Answer.ofStop : Stop → Answer
  | .usage => ⟨2, ""⟩
  | .help topic full => ⟨0, topic.text full⟩
  | .version => ⟨0, versionText⟩

/-- The answer to a run with options, where `file` is the text of the file. -/
def Options.answer (o : Options) (file : Except ReadError String) : Answer :=
  let result := do
    let receivers ← Receivers.ofArguments o.receivers o.noReceivers
    check receivers (← file.mapError (.ofReadError o.path))
  match result with
  | .ok r => ⟨0, o.format.render r⟩
  | .error f => .ofFailure f

/-- The answer to a run. Files are read by `readFile`. -/
def answer {m : Type → Type} [Monad m] (readFile : String → m (Except ReadError String))
    (args : List String) : m Answer :=
  match Options.ofArguments args with
  | .ok o => return o.answer (← readFile o.path)
  | .error stop => return .ofStop stop

end TypeHints.CommandLine
