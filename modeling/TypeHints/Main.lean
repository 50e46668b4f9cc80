import TypeHints.CommandLine

/-!
# The program

Reads the file that the arguments name and writes the answer.
-/

open TypeHints

/-- The text of a file, or why it cannot be read. -/
def readTextFile (path : String) : IO (Except ReadError String) := do
  try
    return .ok (← IO.FS.readFile path)
  catch
    | .noFileOrDirectory .. => return .error .notFound
    | e => return .error (.other (toString e))

def main (args : List String) : IO UInt32 := do
  let answer ← CommandLine.answer readTextFile args
  let out ← IO.getStdout
  out.putStr answer.output
  out.flush
  return answer.exitCode.toUInt32
