import TypeHints.Function
import TypeHints.Log
import TypeHints.Text

/-!
# Function type comments

A comment `(args) -> return` gives the types of all parameters and of the result. It is split at
the last closing parenthesis that an arrow follows, and its two parts become late annotations.
-/

namespace TypeHints.Function

/-! ## Splitting -/

/-- The result in what follows the closing parenthesis: blanks, an arrow, blanks, and then all
up to the end, which must be one line. -/
def commentResult (cs : List Char) : Option (List Char) :=
  match cs.dropWhile Text.isBlank with
  | '-' :: '>' :: rest =>
    let result := rest.dropWhile Text.isBlank
    if '\n' ∈ result then none else some result
  | _ => none

/-- The arguments and the result in what follows the opening parenthesis. The arguments are one
line and as long as possible. -/
def splitArguments : List Char → Option (List Char × List Char)
  | [] => none
  | c :: cs =>
    if c = '\n' then none
    else
      match splitArguments cs with
      | some (args, result) => some (c :: args, result)
      | none => if c = ')' then (commentResult cs).map ([], ·) else none

/-- The arguments are one line, and a result follows the parenthesis after them. -/
theorem eq_append_of_splitArguments {cs args result : List Char}
    (h : splitArguments cs = some (args, result)) :
    ∃ rest, cs = args ++ ')' :: rest ∧ commentResult rest = some result ∧ '\n' ∉ args := by
  induction cs generalizing args with
  | nil => cases h
  | cons c cs ih =>
    rw [splitArguments] at h
    split at h
    · cases h
    · rename_i hc
      split at h
      · rename_i args' result' h'
        cases h
        obtain ⟨rest, rfl, hr, hn⟩ := ih h'
        exact ⟨rest, rfl, hr, by simpa [Ne.symm hc] using hn⟩
      · split at h
        · rename_i hc'
          obtain ⟨r, hr, h⟩ := Option.map_eq_some_iff.1 h
          cases h
          exact ⟨cs, by rw [hc']; rfl, hr, by simp⟩
        · cases h

/-- The arguments and the result in a comment of the form `(args) -> return`. -/
def splitComment : List Char → Option (List Char × List Char)
  | '(' :: cs => splitArguments cs
  | _ => none

example : splitComment "(a(b) -> c) -> d".toList = some ("a(b) -> c".toList, "d".toList) := by
  decide

/-! ## Attaching -/

/-- Queue the two parts of a type comment. The argument list `...` says nothing about the
parameters; a comment of another form is reported. -/
def attachComment (f : Function) (comment : String) (location : Location) : Reporting Function :=
  let cs := Text.trimChars comment.toList
  match splitComment cs with
  | none => do
    report (.invalidFunctionTypeComment location (String.ofList cs)
      (some "Expected a comment of the form '(args) -> return'"))
    return f
  | some (args, result) =>
    let args := String.ofList (Text.trimChars args)
    let result := String.ofList (Text.trimChars result)
    return f.mapSignature fun s =>
      (if args = "..." then s else s.addLate (.ofText args argumentsName location)).addLate
        (.ofText result returnName location)

end TypeHints.Function
