/-!
# Reading arguments

```text
check <PATH> [--format json|text] [--receiver NAME]... [--no-receivers]
```

The arguments of a run ask for a report, for help, or for the version. `--log-level` may stand on
either side of `check`. Arguments are read one after the other; the first that does not fit, asks
for help or asks for the version decides.
-/

namespace TypeHints.CommandLine

/-! ## What a run is asked for -/

/-- How a report is written. -/
inductive Format where
  | json
  | text
deriving DecidableEq, Repr

/-- What arguments that ask for a report say about it. -/
structure Options where
  path : String
  format : Format
  receivers : List String
  noReceivers : Bool
deriving DecidableEq, Repr

/-- The part of the program that help is asked for. -/
inductive Topic where
  | program
  | check
  | help
deriving DecidableEq, Repr

/-- Why arguments do not ask for a report. -/
inductive Stop where
  | usage
  /-- Help on a topic, in full or in short. -/
  | help (topic : Topic) (full : Bool)
  | version
deriving DecidableEq, Repr

def logLevels : List String := ["trace", "debug", "info", "warn", "error"]

/-! ## The form of an argument -/

/-- An argument by its form. -/
inductive Argument where
  /-- `--`, after which every argument is positional. -/
  | separator
  /-- `--name` or `--name=value`. -/
  | long (name : String) (value : Option String)
  /-- `-` and the letters of flags. -/
  | short (flags : List Char)
  | positional (text : String)
deriving DecidableEq, Repr

def Argument.ofString (s : String) : Argument :=
  match s.toList with
  | ['-', '-'] => separator
  | '-' :: '-' :: rest =>
    match rest.dropWhile (· != '=') with
    | [] => long (String.ofList rest) none
    | _ :: value => long (String.ofList (rest.takeWhile (· != '='))) (some (String.ofList value))
  | '-' :: flag :: flags => short (flag :: flags)
  | _ => positional s

example : Argument.ofString "--format=json" = .long "format" (some "json") ∧
    Argument.ofString "-" = .positional "-" := by decide +kernel

/-! ## Values -/

/-- The value of an option: its own, or else the next argument, unless that looks like an option.
With it the arguments that are left. -/
def takeValue (value : Option String) (rest : List String) : Except Stop (String × List String) :=
  match value, rest with
  | some v, _ => .ok (v, rest)
  | none, next :: rest =>
    match Argument.ofString next with
    | .positional v => .ok (v, rest)
    | _ => .error .usage
  | none, [] => .error .usage

/-- A field that may be set only once. -/
def setOnce {α : Type} (field : Option α) (value : α) : Except Stop (Option α) :=
  if field.isSome then .error .usage else .ok (some value)

def readLogLevel (v : String) : Except Stop String :=
  if logLevels.contains v then .ok v else .error .usage

def readFormat (v : String) : Except Stop Format :=
  if v = "json" then .ok .json else if v = "text" then .ok .text else .error .usage

/-! ## The arguments of `check` -/

/-- What has been read of the arguments of `check`. -/
structure Progress where
  path : Option String := none
  format : Option Format := none
  receivers : List String := []
  noReceivers : Option Unit := none
  logLevel : Option String := none

namespace Progress

/-- A positional argument. There is one, the path, and it is not empty. -/
def addPositional (p : Progress) (text : String) : Except Stop Progress := do
  if text.isEmpty then throw .usage
  return { p with path := ← setOnce p.path text }

/-- The options that the arguments ask for. -/
def finish (p : Progress) : Except Stop Options :=
  match p.path with
  | none => .error .usage
  | some path => .ok ⟨path, p.format.getD .json, p.receivers, p.noReceivers.isSome⟩

end Progress

/-- The option `--name` of `check`, with the arguments that are left after it. -/
def readCheckOption (p : Progress) (name : String) (value : Option String) (rest : List String) :
    Except Stop (Progress × List String) :=
  match name with
  | "help" => .error (if value.isSome then .usage else .help .check true)
  | "no-receivers" => do
    if value.isSome then throw .usage
    return ({ p with noReceivers := ← setOnce p.noReceivers () }, rest)
  | "receiver" => do
    let (v, rest) ← takeValue value rest
    return ({ p with receivers := p.receivers ++ [v] }, rest)
  | "format" => do
    let (v, rest) ← takeValue value rest
    return ({ p with format := ← setOnce p.format (← readFormat v) }, rest)
  | "log-level" => do
    let (v, rest) ← takeValue value rest
    return ({ p with logLevel := ← setOnce p.logLevel (← readLogLevel v) }, rest)
  | _ => .error .usage

/-- The arguments after `check`, of which every step reads at least one. -/
def readCheck : (fuel : Nat) → Progress → List String → Except Stop Options
  | 0, p, _ => p.finish
  | _, p, [] => p.finish
  | fuel + 1, p, arg :: rest =>
    match Argument.ofString arg with
    | .separator => do (← rest.foldlM Progress.addPositional p).finish
    | .long name value => do
      let (p, rest) ← readCheckOption p name value rest
      readCheck fuel p rest
    | .short flags => .error (if flags.head? = some 'h' then .help .check false else .usage)
    | .positional text => do readCheck fuel (← p.addPositional text) rest

/-! ## The arguments of the program -/

/-- The topic after the word `help`. -/
def readHelp : List String → Except Stop Options
  | [] => .error (.help .program true)
  | ["check"] => .error (.help .check true)
  | ["help"] => .error (.help .help true)
  | _ => .error .usage

/-- The arguments of a run, of which every step reads at least one. -/
def readProgram : (fuel : Nat) → (logLevel : Option String) → List String → Except Stop Options
  | 0, _, _ => .error .usage
  | _, _, [] => .error .usage
  | fuel + 1, logLevel, arg :: rest =>
    match Argument.ofString arg with
    | .separator => .error .usage
    | .long "help" none => .error (.help .program true)
    | .long "version" none => .error .version
    | .long "log-level" value => do
      let (v, rest) ← takeValue value rest
      readProgram fuel (← setOnce logLevel (← readLogLevel v)) rest
    | .long _ _ => .error .usage
    | .short flags =>
      .error (if flags.head? = some 'h' then .help .program false
        else if flags.head? = some 'V' then .version else .usage)
    | .positional "check" => readCheck rest.length {} rest
    | .positional "help" => readHelp rest
    | .positional _ => .error .usage

/-- What the arguments of a run ask for. -/
def Options.ofArguments (args : List String) : Except Stop Options :=
  readProgram args.length none args

end TypeHints.CommandLine
