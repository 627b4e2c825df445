import Transparency.Record.AuditProof
import Transparency.Record.Sct

/-! What is told along the way: notes, their levels and their wording. -/
namespace Transparency

inductive Level where
  | error
  | warn
  | info
  | debug
  | trace
deriving DecidableEq, Repr

namespace Level

def name : Level → String
  | .error => "ERROR"
  | .warn => "WARN"
  | .info => "INFO"
  | .debug => "DEBUG"
  | .trace => "TRACE"

/-- Higher is more detailed; zero is silence. -/
def rank : Level → Nat
  | .error => 1
  | .warn => 2
  | .info => 3
  | .debug => 4
  | .trace => 5

end Level

inductive Note where
  | fieldBegun (length offset : Nat)
  | entryRead (type : EntryType)
  | sctRead (log : KeyId) (timestamp : UInt64)
  | chainRead (type : EntryType) (count : Nat)
  | trailingIgnored (count : Nat)
  | proofRead (leafIndex treeSize : UInt64) (nodes : Nat)
  | fileRead (size : Nat) (name : String)
  | leafOutsideTree (leafIndex treeSize : UInt64)
deriving DecidableEq

namespace Note

def level : Note → Level
  | .fieldBegun .. | .entryRead _ => .trace
  | .sctRead .. | .chainRead .. | .proofRead .. | .fileRead .. => .debug
  | .trailingIgnored _ | .leafOutsideTree .. => .warn

/-- The part of the program that a note belongs to. -/
def target : Note → String
  | .fieldBegun .. => "ctlog_serialization::reader"
  | .entryRead _ | .sctRead .. | .chainRead .. | .trailingIgnored _ =>
    "ctlog_serialization::deserializer"
  | .proofRead .. => "ctlog_serialization::proof"
  | .fileRead .. => "ctlog_decode::input"
  | .leafOutsideTree .. => "ctlog_decode"

def message : Note → String
  | .fieldBegun length offset => s!"reading {length} byte field at offset {offset}"
  | .entryRead type => s!"parsed {type.name} timestamped entry"
  | .sctRead log timestamp => s!"parsed SCT from log {log.hex} at timestamp {timestamp}"
  | .chainRead type count => s!"parsed {type.chainName} with {count} certificates"
  | .trailingIgnored count => s!"ignoring {count} trailing bytes"
  | .proofRead leafIndex treeSize nodes =>
    s!"parsed audit proof for leaf {leafIndex} of {treeSize} with {nodes} nodes"
  | .fileRead size name => s!"read {size} bytes from {name}"
  | .leafOutsideTree leafIndex treeSize =>
    s!"leaf index {leafIndex} is outside a tree of size {treeSize}"

/-- A character as it is shown: those that could command a terminal are spelt out. -/
def shown (c : Char) : List Char :=
  let n := c.toNat
  if n = 0x07 ∨ n = 0x08 ∨ n = 0x0C ∨ n = 0x1B ∨ n = 0x7F then
    ['\\', 'x', Nat.digitChar (n / 16), Nat.digitChar (n % 16)]
  else if 0x80 ≤ n ∧ n ≤ 0x9F then
    ['\\', 'u', '{', Nat.digitChar (n / 16), Nat.digitChar (n % 16), '}']
  else [c]

/-- The message as it is shown. -/
def text (n : Note) : String := String.ofList (n.message.toList.flatMap shown)

end Note

end Transparency
