import Transparency.Bytes
import Transparency.Wire.IoError

/-! Where bytes are read from.

A source answers each request for at most so many bytes with its next event: some bytes, of which
what was not asked for stays for the next request, an interruption, or a failure. An answer without
bytes means the end of the input. After its last event it goes on by its ending.

`Source.draw` collects a number of bytes by as many requests as it takes, asks again after an
interruption, and makes no request once it has them all. -/
namespace Transparency.Wire

inductive Event where
  | data (bytes : Bytes)
  /-- Bytes that are there, but every answer is empty. -/
  | withheld (bytes : Bytes)
  | interrupt
  | fail (error : IoError)

def Event.bytes : Event → Bytes
  | .data bytes | .withheld bytes => bytes
  | .interrupt | .fail _ => []

/-- What every request meets once the events are over. -/
inductive Ending where
  | endOfInput
  /-- There is always more: `stream`, of which `offset` bytes have been taken. -/
  | endless (stream : Nat → UInt8) (offset : Nat)
  | failing (error : IoError)

structure Source where
  events : List Event
  ending : Ending

/-- Why a draw stopped. -/
inductive Stop where
  | filled
  | ended
  | failed (error : IoError)
deriving DecidableEq, Repr

/-- What a draw took from its source, and what it left there. -/
structure Draw where
  bytes : Bytes
  stop : Stop
  source : Source

namespace Source

/-- Byte strings are sources too. -/
def ofBytes (bytes : Bytes) : Source :=
  ⟨if bytes.isEmpty then [] else [.data bytes], .endOfInput⟩

/-- Draws up to `n` more bytes; `done` holds those so far, last first. -/
def drawOn (ending : Ending) (n : Nat) (done : Bytes) : List Event → Draw
  | [] =>
    if n = 0 then ⟨done.reverse, .filled, ⟨[], ending⟩⟩
    else match ending with
      | .endOfInput => ⟨done.reverse, .ended, ⟨[], ending⟩⟩
      | .failing error => ⟨done.reverse, .failed error, ⟨[], ending⟩⟩
      | .endless stream offset =>
        ⟨done.reverse ++ (List.range n).map fun i => stream (offset + i), .filled,
          ⟨[], .endless stream (offset + n)⟩⟩
  | event :: rest =>
    if n = 0 then ⟨done.reverse, .filled, ⟨event :: rest, ending⟩⟩
    else match event with
      | .interrupt => drawOn ending n done rest
      | .fail error => ⟨done.reverse, .failed error, ⟨rest, ending⟩⟩
      | .withheld bytes => ⟨done.reverse, .ended, ⟨.withheld bytes :: rest, ending⟩⟩
      | .data [] => ⟨done.reverse, .ended, ⟨rest, ending⟩⟩
      | .data bytes =>
        match bytes.drop n with
        | [] => drawOn ending (n - bytes.length) (bytes.reverseAux done) rest
        | left => ⟨done.reverse ++ bytes.take n, .filled, ⟨.data left :: rest, ending⟩⟩

/-- Draws `n` bytes, or fewer if the input ends or fails before. -/
def draw (n : Nat) (source : Source) : Draw := drawOn source.ending n [] source.events

/-- The bytes that the events still hold. -/
def unread (source : Source) : Bytes := source.events.flatMap Event.bytes

/-- Whether the events hold no more bytes. -/
def isSpent (source : Source) : Bool := source.events.all fun event => event.bytes.isEmpty

/-! ### Laws -/

@[simp] theorem unread_ofBytes (bytes : Bytes) : (ofBytes bytes).unread = bytes := by
  cases bytes <;> simp [ofBytes, unread, Event.bytes]

theorem isSpent_iff (source : Source) : source.isSpent ↔ source.unread = [] := by
  simp [isSpent, unread]

/-- Drawing nothing touches no event. -/
theorem drawOn_zero (ending : Ending) (done : Bytes) (events : List Event) :
    drawOn ending 0 done events = ⟨done.reverse, .filled, ⟨events, ending⟩⟩ := by
  cases events <;> rfl

theorem drawOn_interrupt {n : Nat} (more : n ≠ 0) (ending : Ending) (done : Bytes) (rest : List Event) :
    drawOn ending n done (.interrupt :: rest) = drawOn ending n done rest := by
  rw [drawOn, if_neg more]

theorem drawOn_data_all {n : Nat} {bytes : Bytes} (some : bytes ≠ []) (fits : bytes.length ≤ n)
    (ending : Ending) (done : Bytes) (rest : List Event) :
    drawOn ending n done (.data bytes :: rest) =
      drawOn ending (n - bytes.length) (bytes.reverseAux done) rest := by
  obtain ⟨byte, others, rfl⟩ := List.exists_cons_of_ne_nil some
  have more : n ≠ 0 := Nat.ne_of_gt (Nat.lt_of_lt_of_le (Nat.zero_lt_succ _) fits)
  simp only [drawOn, if_neg more, List.drop_of_length_le fits]

theorem drawOn_data_part {n : Nat} {bytes : Bytes} (more : n ≠ 0) (long : n < bytes.length)
    (ending : Ending) (done : Bytes) (rest : List Event) :
    drawOn ending n done (.data bytes :: rest) =
      ⟨done.reverse ++ bytes.take n, .filled, ⟨.data (bytes.drop n) :: rest, ending⟩⟩ := by
  obtain ⟨byte, others, rfl⟩ : ∃ byte others, bytes = byte :: others :=
    List.exists_cons_of_length_pos (Nat.zero_lt_of_lt long)
  simp only [drawOn, if_neg more]
  split
  · rename_i none
    exact absurd (List.drop_eq_nil_iff.1 none) (Nat.not_le.2 long)
  · rfl

@[simp] theorem draw_zero (source : Source) : source.draw 0 = ⟨[], .filled, source⟩ :=
  drawOn_zero source.ending [] source.events

theorem ofBytes_of_ne {bytes : Bytes} (some : bytes ≠ []) :
    ofBytes bytes = ⟨[.data bytes], .endOfInput⟩ := by
  simp [ofBytes, some]

/-- A draw from a byte string splits it. -/
theorem draw_ofBytes (n : Nat) (bytes : Bytes) :
    (ofBytes bytes).draw n =
      ⟨bytes.take n, if n ≤ bytes.length then .filled else .ended, ofBytes (bytes.drop n)⟩ := by
  by_cases zero : n = 0
  · simp [zero]
  by_cases none : bytes = []
  · simp [none, ofBytes, draw, drawOn, zero]
  rw [draw, ofBytes_of_ne none]
  by_cases fits : bytes.length ≤ n
  · rw [drawOn_data_all none fits, drawOn, List.take_of_length_le fits, List.drop_of_length_le fits]
    by_cases exact : n ≤ bytes.length
    · rw [if_pos (Nat.sub_eq_zero_of_le exact), if_pos exact]
      simp [List.reverseAux_eq, ofBytes]
    · rw [if_neg (Nat.sub_ne_zero_of_lt (Nat.lt_of_not_le exact)), if_neg exact]
      simp [List.reverseAux_eq, ofBytes]
  · have long := Nat.lt_of_not_le fits
    have left : bytes.drop n ≠ [] := fun empty => fits (List.drop_eq_nil_iff.1 empty)
    rw [drawOn_data_part zero long, ofBytes_of_ne left, if_pos (Nat.le_of_lt long)]
    rfl

end Source

end Transparency.Wire
