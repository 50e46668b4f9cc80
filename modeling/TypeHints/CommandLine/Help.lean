import TypeHints.CommandLine.Arguments

/-!
# Help

A page of help lists commands, arguments and options. In short, an entry takes one line and the
explanations stand in a column; in full, they stand below what they explain, and the values that
an option may have are explained in turn. A page that has no more to say in full than in short is
always short.
-/

namespace TypeHints.CommandLine

/-! ## Pages -/

/-- Something that a page of help explains. -/
structure Entry where
  /-- How it is written. -/
  form : String
  explanation : String
  standard : Option String := none
  /-- The values it may have, with what they mean if that is explained. -/
  choices : List (String × Option String) := []

structure Page where
  about : String
  /-- What a full page says after that. -/
  details : List String := []
  usage : String
  commands : List Entry := []
  arguments : List Entry := []
  options : List Entry := []

namespace Entry

/-- Whether the values are explained. -/
def explainsChoices (e : Entry) : Bool := e.choices.any (·.2.isSome)

/-- The remarks on the value, in brackets. The values themselves are left out where they are
explained below. -/
def remarks (e : Entry) (full : Bool) : List String :=
  (e.standard.map fun v => "[default: " ++ v ++ "]").toList ++
    if e.choices.isEmpty || (full && e.explainsChoices) then []
    else ["[possible values: " ++ ", ".intercalate (e.choices.map (·.1)) ++ "]"]

/-- The entry on one line, its explanation in the column after `width` characters. -/
def short (width : Nat) (e : Entry) : List String :=
  ["  " ++ e.form ++ "".pushn ' ' (width + 2 - e.form.length) ++
    " ".intercalate (e.explanation :: e.remarks false)]

/-- What stands before the lines below an entry. -/
def indent : String := "".pushn ' ' 10

/-- A value, explained. -/
def choiceLine (width : Nat) : String × Option String → String
  | (name, none) => "- " ++ name
  | (name, some meaning) => "- " ++ name ++ ": " ++ "".pushn ' ' (width - name.length) ++ meaning

/-- The lines on the values that an entry may have. -/
def choiceLines (e : Entry) : List String :=
  let width := (e.choices.map (·.1.length)).foldl max 0
  (indent ++ "Possible values:") :: e.choices.map (indent ++ choiceLine width ·)

/-- The entry with its explanation below it. -/
def full (e : Entry) : List String :=
  ("  " ++ e.form) :: (indent ++ e.explanation) ::
    ((if (e.remarks true).isEmpty then [] else "" :: e.remarks true).map (indent ++ ·) ++
      if e.explainsChoices then "" :: e.choiceLines else [])

end Entry

namespace Page

/-- Whether there is more to say in full. -/
def hasMore (p : Page) : Bool :=
  !p.details.isEmpty || (p.arguments ++ p.options).any Entry.explainsChoices

/-- The entry that explains how to get help on the page itself. -/
def helpEntry (p : Page) (full : Bool) : Entry where
  form := "-h, --help"
  explanation :=
    if !p.hasMore then "Print help"
    else if full then "Print help (see a summary with '-h')"
    else "Print help (see more with '--help')"

/-- A part of a page, empty if it lists nothing. -/
def part (title : String) (full : Bool) (entries : List Entry) : List (List String) :=
  if entries.isEmpty then []
  else
    let width := (entries.map (·.form.length)).foldl max 0
    let listed :=
      if full then ([""] : List String).intercalate (entries.map Entry.full)
      else entries.flatMap (Entry.short width)
    [(title ++ ":") :: listed]

def text (p : Page) (full : Bool) : String :=
  let full := full && p.hasMore
  let about := if full && !p.details.isEmpty then (p.about ++ ".") :: p.details else [p.about]
  let parts := about.map ([·]) ++ [["Usage: " ++ p.usage]] ++ part "Commands" false p.commands ++
    part "Arguments" full p.arguments ++ part "Options" full p.options
  "\n".intercalate (([""] : List String).intercalate parts) ++ "\n"

end Page

/-! ## The pages of the program -/

/-- The name and the version of the program. -/
def versionText : String := "tyannot 0.1.0\n"

def logLevelEntry : Entry where
  form := "    --log-level <LOG_LEVEL>"
  explanation := "Log level for tracing output"
  standard := some "warn"
  choices := logLevels.map (·, none)

/-- The command that prints help. -/
def helpCommand : Entry where
  form := "help"
  explanation := "Print this message or the help of the given subcommand(s)"

/-- The command that reports on a module. -/
def checkCommand : Entry where
  form := "check"
  explanation := "Resolve the annotations of a module description"

def programPage (full : Bool) : Page :=
  let page : Page := {
    about := "Resolve Python type annotations"
    details := ["Reads a JSON description of a module, resolves its annotations, type comments " ++
      "and generic specializations, and reports the result as JSON."]
    usage := "tyannot [OPTIONS] <COMMAND>"
    commands := [checkCommand, helpCommand]
    options := [logLevelEntry] }
  { page with options := page.options ++
      [page.helpEntry full, { form := "-V, --version", explanation := "Print version" }] }

def checkPage (full : Bool) : Page :=
  let page : Page := {
    about := checkCommand.explanation
    usage := "tyannot check [OPTIONS] <PATH>"
    arguments := [{ form := "<PATH>", explanation := "Path to the module description (JSON)" }]
    options := [
      { form := "    --format <FORMAT>", explanation := "Output format", standard := some "json"
        choices := [("json", some "JSON report"), ("text", some "Human-readable summary")] },
      logLevelEntry,
      { form := "    --receiver <NAME>"
        explanation :=
          "Name of an implicit method receiver (repeatable; default: self, cls)" },
      { form := "    --no-receivers"
        explanation := "Never skip a leading receiver when matching function type comments" }] }
  { page with options := page.options ++ [page.helpEntry full] }

def helpPage : Page where
  about := helpCommand.explanation
  usage := "tyannot help [COMMAND]..."
  arguments := [{ form := "[COMMAND]...", explanation := "Print help for the subcommand(s)" }]

def Topic.text (full : Bool) : Topic → String
  | program => (programPage full).text full
  | check => (checkPage full).text full
  | help => helpPage.text full

end TypeHints.CommandLine
