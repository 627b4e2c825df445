import Transparency.Wire.IoError
import Transparency.Wire.Limit

/-! Why a record could not be encoded. -/
namespace Transparency.Wire

inductive EncodeError where
  | numberTooWide (width : Nat)
  | numberTooLarge (value : UInt64) (width : Nat)
  | fieldTooLong (length max : Nat)
  | io (error : IoError)
deriving DecidableEq, Repr

def EncodeError.message : EncodeError → String
  | .numberTooWide width =>
    s!"invalid argument: cannot write a number of {width} bytes, at most {maxNumberWidth} are supported"
  | .numberTooLarge value width =>
    s!"invalid argument: value {value} does not fit in {width} bytes"
  | .fieldTooLong length max =>
    s!"invalid argument: field of {length} bytes exceeds maximum {max}"
  | .io error => "I/O error: " ++ error.message

end Transparency.Wire
