import Transparency.Command.Input
import Transparency.Text.Natural
import Transparency.Wire.DecodeError

/-! Why a command failed. -/
namespace Transparency.Command

inductive FileError where
  | notFound
  | notADirectory
  | isADirectory
  | nameTooLong
  | other (message : String)
deriving DecidableEq, Repr

def FileError.message : FileError → String
  | .notFound => "No such file or directory (os error 2)"
  | .notADirectory => "Not a directory (os error 20)"
  | .isADirectory => "Is a directory (os error 21)"
  | .nameTooLong => "File name too long (os error 36)"
  | .other message => message

inductive Error where
  | unknownOption (text : String)
  | noInputFile
  | severalInputFiles
  | notLeafAndExtraData
  | noValue (option : String)
  | invalidValue (error : Text.Natural.Error)
  | requiredOption (option : String)
  | file (name : String) (error : FileError)
  | input (error : InputFormat.Error)
  | decode (error : Wire.DecodeError)
deriving DecidableEq

def Error.message : Error → String
  | .unknownOption text => "Unknown option: " ++ text
  | .noInputFile => "Missing input file"
  | .severalInputFiles => "Expected exactly one input file"
  | .notLeafAndExtraData => "Expected LEAF_FILE and EXTRA_DATA_FILE"
  | .noValue option => "Missing value for " ++ option
  | .invalidValue error => error.message
  | .requiredOption option => "Missing required " ++ option
  | .file name error => s!"Failed to read {name}: " ++ error.message
  | .input error => error.message
  | .decode error => error.message

end Transparency.Command
