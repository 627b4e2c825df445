import Transparency.Command.Run

/-! The program: gathers what a run depends on, and prints what it says. -/
namespace Transparency.Command

def programName : String := "ctlog-decode"

/-- Whether an error has this number; some calls report it negated. -/
def isNumber (number code : UInt32) : Bool := code = number || code = 0 - number

def fileError : IO.Error → FileError
  | .noFileOrDirectory .. => .notFound
  | .permissionDenied .. => .other "Permission denied (os error 13)"
  | .inappropriateType _ code _ => if isNumber 20 code then .notADirectory else .isADirectory
  | .invalidArgument name code details =>
    if isNumber 36 code then .nameTooLong
    else .other (toString (IO.Error.invalidArgument name code details))
  | error => .other (toString error)

/-- The contents of a file, or why they cannot be had. -/
def contents (name : String) : IO (Except FileError Bytes) := do
  try
    return .ok (← IO.FS.readBinFile name).data.toList
  catch error => return .error (fileError error)

/-- The files that a request names, as far as they are needed: none after the first that cannot be
read. -/
def gather : List String → IO (List (String × Except FileError Bytes))
  | [] => return []
  | name :: rest => do
    match ← contents name with
    | .ok bytes => return (name, .ok bytes) :: (← gather rest)
    | .error error => return [(name, .error error)]

end Transparency.Command

open Transparency Command in
def main (words : List String) : IO UInt32 := do
  let environment : Environment :=
    {allowTrailing := ← IO.getEnv allowTrailingVariable, filterText := ← IO.getEnv filterVariable}
  let line := programName :: words
  let gathered ← gather (request environment line).files
  let files : Files := fun name => (gathered.lookup name).getD (.error .notFound)
  let outcome := run environment files line
  for note in outcome.notes do
    IO.eprintln s!"{note.level.name} {note.target}: {note.text}"
  IO.eprint outcome.stderr
  IO.print outcome.stdout
  return outcome.exitCode.toUInt32
