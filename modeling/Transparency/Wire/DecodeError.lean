import Transparency.Record.AuditProof
import Transparency.Text.Hex
import Transparency.Wire.IoError
import Transparency.Wire.Limit

/-! Why a record could not be decoded. -/
namespace Transparency.Wire

inductive AlgorithmKind where
  | hash
  | signature
deriving DecidableEq, Repr

def AlgorithmKind.name : AlgorithmKind → String
  | .hash => "hash"
  | .signature => "signature"

/-- Lengths that contradict each other, or data that could not be had. -/
inductive Corruption where
  | lengthOverMaximum (length max : Nat)
  | lengthOverMemory (length : Nat)
  | chainUnreadable (type : EntryType) (cause : String)
  | chainTooLong (type : EntryType) (declared : Nat)
  | chainTooShort (type : EntryType) (declared available : Nat)
deriving DecidableEq, Repr

def Corruption.message : Corruption → String
  | .lengthOverMaximum length max => s!"declared length {length} exceeds maximum {max}"
  | .lengthOverMemory length => s!"declared length {length} does not fit in memory"
  | .chainUnreadable type cause => s!"cannot read {type.chainName}: {cause}"
  | .chainTooLong type declared => s!"{type.chainName} declares {declared} bytes but more remain"
  | .chainTooShort type declared available =>
    s!"{type.chainName} declares {declared} bytes but {available} remain"

inductive DecodeError where
  | unsupportedVersion (version : UInt64)
  | unsupportedLeafType (type : UInt64)
  | unknownEntryType (type : UInt64)
  | unknownAlgorithm (kind : AlgorithmKind) (value : UInt8)
  | truncated (expected actual : Nat)
  | corrupt (cause : Corruption)
  | numberTooWide (width : Nat)
  | trailingData (count : Nat)
  | node (error : AuditProof.Error)
  | typeMismatch (types : TypeMismatch)
  | io (error : IoError)
  /-- All of a source that has no end was asked for. -/
  | endless
deriving DecidableEq, Repr

namespace DecodeError

def message : DecodeError → String
  | .unsupportedVersion version => s!"unsupported version: {version}"
  | .unsupportedLeafType type => s!"unsupported leaf type: {type}"
  | .unknownEntryType type => s!"unknown entry type: {type}"
  | .unknownAlgorithm kind value =>
    s!"unknown {kind.name} algorithm: 0x" ++ Text.Hex.encode [value]
  | .truncated expected actual => s!"truncated input: expected {expected} bytes, got {actual}"
  | .corrupt cause => "corrupt data: " ++ cause.message
  | .numberTooWide width =>
    s!"invalid argument: cannot read a number of {width} bytes, at most {maxNumberWidth} are supported"
  | .trailingData count => s!"{count} trailing bytes after structure"
  | .node error => error.message
  | .typeMismatch types => types.message
  | .io error => "I/O error: " ++ error.message
  | .endless => "input has no end"

/-- How many bytes were missing. -/
def shortfall? : DecodeError → Option Nat
  | .truncated expected actual => some (expected - actual)
  | _ => none

end DecodeError

end Transparency.Wire
