import TypeHints.Json

/-!
# Writing JSON

Either on one line, or one item to a line, indented by two spaces. Quotes, backslashes and
controls are escaped, all other characters stand for themselves.
-/

namespace TypeHints.Json

/-- A control character by four hexadecimal digits. -/
def controlEscape (c : Char) : List Char :=
  let digits := Nat.toDigits 16 c.toNat
  ['\\', 'u'] ++ List.replicate (4 - digits.length) '0' ++ digits

/-- How a character is written in a string. -/
def escapeChar (c : Char) : List Char :=
  match c with
  | '"' => ['\\', '"']
  | '\\' => ['\\', '\\']
  | '\n' => ['\\', 'n']
  | '\r' => ['\\', 'r']
  | '\t' => ['\\', 't']
  | c =>
    if c.toNat = 0x8 then ['\\', 'b']
    else if c.toNat = 0xc then ['\\', 'f']
    else if c.toNat < 0x20 then controlEscape c
    else [c]

def writeString (s : String) : String := String.ofList ('"' :: s.toList.flatMap escapeChar ++ ['"'])

/-- The items between two brackets on one line. -/
def inlineItems (first last : String) (items : List String) : String :=
  first ++ ",".intercalate items ++ last

/-- The items between two brackets, one to a line after `indent`. -/
def indentedItems (first last indent : String) (items : List String) : String :=
  if items.isEmpty then first ++ last
  else
    let newline := "\n" ++ indent
    first ++ newline ++ "  " ++ ("," ++ newline ++ "  ").intercalate items ++ newline ++ last

mutual

/-- A value on one line. -/
def compact : Json → String
  | null | unreadable => "null"
  | bool true => "true"
  | bool false => "false"
  | nat n => toString n
  | number literal => literal
  | string s => writeString s
  | array items => inlineItems "[" "]" (compactAll items)
  | object entries => inlineItems "\x7b" "\x7d" (compactEntries entries)

def compactAll : List Json → List String
  | [] => []
  | j :: js => j.compact :: compactAll js

def compactEntries : List (String × Json) → List String
  | [] => []
  | (key, j) :: es => (writeString key ++ ":" ++ j.compact) :: compactEntries es

end

mutual

/-- A value over several lines, of which all but the first stand after `indent`. -/
def prettyAt (indent : String) : Json → String
  | array items => indentedItems "[" "]" indent (prettyAll (indent ++ "  ") items)
  | object entries =>
    indentedItems "\x7b" "\x7d" indent (prettyEntries (indent ++ "  ") entries)
  | j => j.compact

def prettyAll (indent : String) : List Json → List String
  | [] => []
  | j :: js => j.prettyAt indent :: prettyAll indent js

def prettyEntries (indent : String) : List (String × Json) → List String
  | [] => []
  | (key, j) :: es => (writeString key ++ ": " ++ j.prettyAt indent) :: prettyEntries indent es

end

/-- A value over several lines. -/
def pretty (j : Json) : String := j.prettyAt ""

example : pretty (object [("a", array [nat 1, null]), ("b", object [])]) =
    "\x7b\n  \"a\": [\n    1,\n    null\n  ],\n  \"b\": \x7b\x7d\n\x7d" := by rfl

end TypeHints.Json
