import Transparency.Command.Directory
import Transparency.Main
import Transparency.Wire.Encode
import Transparency.Proofs.Stream
import Transparency.Proofs.Canonical
import Transparency.Proofs.Chain
import Transparency.Proofs.Truncation
import Transparency.Proofs.Failure
import Transparency.Proofs.ChainEnd
import Transparency.Proofs.Pairing
import Transparency.Proofs.FailFast
import Transparency.Proofs.Presentation
import Transparency.Proofs.Faithful
import Transparency.Proofs.Identify
import Transparency.Proofs.Accounting
import Transparency.Proofs.Errors
import Transparency.Proofs.Modes
import Transparency.Proofs.Fitting
import Transparency.Proofs.Refusing
import Transparency.Proofs.AuditPath
import Transparency.Proofs.Instant
import Transparency.Proofs.ProofItems
import Transparency.Proofs.Fields
import Transparency.Proofs.Rephrasing
