import Transparency.Proofs.Outcome

/-! Sessions: any steps that a reader can be asked for, one after the other.

A step that fails does not end the session; the next one goes on from where it left the reader. Entries
come from two readers, which can go through a session together. -/
namespace Transparency.Wire

inductive Step where
  | bytes (length : Nat)
  | block (length : Nat)
  | number (width : Nat)
  | field (max : UInt64)
  | toEnd
  | upTo (limit : Nat)
  | sct
  | digitallySigned
  | leaf
  | timestampedEntry
  | x509Chain (leafCertificate : Bytes)
  | precertChain (precert : Precert)

namespace Step

/-- What a step gives if it succeeds. -/
abbrev Value : Step → Type
  | .bytes _ | .field _ | .toEnd | .upTo _ => Bytes
  | .block length => Block length
  | .number _ => UInt64
  | .sct => Sct
  | .digitallySigned => DigitallySigned
  | .leaf => Leaf
  | .timestampedEntry => TimestampedEntry
  | .x509Chain _ => X509Chain
  | .precertChain _ => PrecertChain

def decoder : (step : Step) → Decoder step.Value
  | .bytes length => Decoder.bytes length
  | .block length => Decoder.block length
  | .number width => Decoder.number width
  | .field max => Decoder.field max
  | .toEnd => Decoder.toEnd
  | .upTo limit => Decoder.upTo limit
  | .sct => Decoder.sct
  | .digitallySigned => Decoder.digitallySigned
  | .leaf => Decoder.leaf
  | .timestampedEntry => Decoder.timestampedEntry
  | .x509Chain leafCertificate => Decoder.x509Chain leafCertificate
  | .precertChain precert => Decoder.precertChain precert

end Step

/-- What can be seen of a step: what it came to, and where the reader stood then. -/
structure Seen (step : Step) where
  outcome : Except DecodeError step.Value
  position : Nat

/-- What can be seen of a session. -/
def session : List Step → Reader → List (Sigma Seen)
  | [], _ => []
  | step :: rest, r =>
    ⟨step, step.decoder.outcome r, (step.decoder.after r).position⟩ :: session rest (step.decoder.after r)

/-! ### Two readers -/

/-- A reader of leaves and one of chains. -/
structure Readers where
  leaves : Reader
  chains : Reader

/-- A step of one reader, or an entry from both. -/
inductive Move where
  | leaves (step : Step)
  | chains (step : Step)
  | entry

namespace Move

abbrev Value : Move → Type
  | .leaves step | .chains step => step.Value
  | .entry => LogEntry

def outcome : (move : Move) → Readers → Except DecodeError move.Value
  | .leaves step, r => step.decoder.outcome r.leaves
  | .chains step, r => step.decoder.outcome r.chains
  | .entry, r => (readEntry r.leaves r.chains).result

def after : Move → Readers → Readers
  | .leaves step, r => {r with leaves := step.decoder.after r.leaves}
  | .chains step, r => {r with chains := step.decoder.after r.chains}
  | .entry, r =>
    let read := readEntry r.leaves r.chains
    ⟨read.leafReader, read.chainReader⟩

end Move

/-- What can be seen of a move. -/
structure SeenBoth (move : Move) where
  outcome : Except DecodeError move.Value
  leafPosition : Nat
  chainPosition : Nat

/-- What can be seen of a session with two readers. -/
def jointSession : List Move → Readers → List (Sigma SeenBoth)
  | [], _ => []
  | move :: rest, r =>
    ⟨move, move.outcome r, (move.after r).leaves.position, (move.after r).chains.position⟩ ::
      jointSession rest (move.after r)

end Transparency.Wire
