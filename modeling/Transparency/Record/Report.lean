import Transparency.Json.Order
import Transparency.Json.Pretty
import Transparency.Record.Form
import Transparency.Time.Instant

/-! The text shown for a record: its JSON form, pretty.

Records with a timestamp have their keys in ascending order and, if the timestamp has a text, that text
under an additional key. -/
namespace Transparency

/-- Adds the text of a timestamp. -/
def Json.withTime (millis : UInt64) : Json → Json
  | .object fields =>
    match Time.format? millis with
    | some text => .object (fields ++ [("time", .string text)])
    | none => .object fields
  | other => other

def Sct.report (s : Sct) : String := (s.toJson.withTime s.timestamp).sorted.pretty

def Leaf.report (l : Leaf) : String :=
  (l.toJson.withTime l.timestampedEntry.timestamp).sorted.pretty

def LogEntry.report (e : LogEntry) : String :=
  (e.toJson.withTime e.leaf.timestampedEntry.timestamp).sorted.pretty

def AuditProof.report (p : AuditProof) : String := p.toJson.pretty

end Transparency
