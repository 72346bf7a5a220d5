import DocIndex.CommandLine.Run

/-!
# The program

Reads the arguments and the surroundings, and the one file that the command needs, and writes what
`CommandLine.run` gives.
-/

namespace DocIndex.CommandLine

/-- What the system says about a file that cannot be read. -/
def readError (e : IO.Error) : ReadError :=
  match e with
  | .noFileOrDirectory .. => .notFound
  | .inappropriateType _ 21 _ => .isDirectory
  | .inappropriateType _ _ "not a directory" => .notDirectory
  | .invalidArgument _ _ "name too long" => .nameTooLong
  | e => .other (toString e)

/-- The bytes of a file. -/
def readFile (path : String) : IO (Except ReadError (List UInt8)) := do
  try
    return .ok (← IO.FS.readBinFile path).toList
  catch e =>
    return .error (readError e)

/-- The directory for the data of the user. -/
def userData : IO String := do
  match ← IO.getEnv "XDG_DATA_HOME" with
  | some path => if path.startsWith "/" then return path else inHome
  | none => inHome
where
  /-- The usual place in the home directory. -/
  inHome : IO String := do
    return ((← IO.getEnv "HOME").getD "") ++ "/.local/share"

/-- What the program finds around it. -/
def lookAround : IO Surroundings := do
  return {
    indexVariable := ← IO.getEnv "STDDOC_INDEX"
    colorsOff := (← IO.getEnv "NO_COLOR").isSome
    terminal := ← IO.getEnv "TERM"
    isTerminal := ← (← IO.getStdout).isTty
    dataDirectory := ← userData }

end DocIndex.CommandLine

open DocIndex.CommandLine in
/-- Runs the program. -/
def main (words : List String) : IO UInt32 := do
  let around ← lookAround
  let contents ←
    match Arguments.parse words with
    | .ok (verb, a) =>
      match requiredFile? around verb a with
      | some path => readFile path
      | none => pure (.error .notFound)
    | .error _ => pure (.error .notFound)
  let outcome := run (fun _ => contents) around words
  IO.print outcome.output
  if outcome.problem ≠ "" then IO.eprintln outcome.problem
  return UInt32.ofNat outcome.exit
