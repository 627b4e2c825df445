import Transparency.Record.KeyHash
import Transparency.Record.Tag

/-! Signed certificate timestamps: a log's promise to include a certificate. -/
namespace Transparency

/-- A signature with the algorithms that made it. -/
structure DigitallySigned where
  hashAlgorithm : HashAlgorithm
  signatureAlgorithm : SignatureAlgorithm
  signature : Bytes
deriving DecidableEq

/-- A log, identified by the hash of its key. -/
structure LogId where
  keyId : KeyId
deriving DecidableEq

/-- Its timestamp counts milliseconds since 1970. -/
structure Sct where
  version : Version
  id : LogId
  timestamp : UInt64
  extensions : Bytes
  signature : DigitallySigned
deriving DecidableEq

end Transparency
