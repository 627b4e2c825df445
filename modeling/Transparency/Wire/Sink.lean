import Transparency.Bytes
import Transparency.Wire.IoError

/-! Where bytes are written to.

A sink answers each offer of some bytes by taking a part from their front, by an interruption, or by a
failure. Its first answers are scripted; after them it takes up to `chunk` bytes an offer as long as it
has room, and then stays stuck.

`Sink.push` offers what is not taken again, and again after an interruption, until all of it is taken
or the sink fails or takes nothing. Of no bytes there is nothing to offer. -/
namespace Transparency.Wire

inductive Reply where
  | interrupt
  | accept (most : Nat)
  | fail (error : IoError)
deriving DecidableEq, Repr

/-- Without a limit, all is taken. -/
structure Sink where
  replies : List Reply := []
  chunk : Option Nat := none
  room : Option Nat := none
  /-- How an offer fails when nothing of it fits. Without it, nothing is taken of such an offer. -/
  failure : Option IoError := none
  /-- What was taken, latest first. -/
  pieces : List Bytes := []

/-- How a push ended. -/
inductive Pushed where
  | all
  | nothing
  | failed (error : IoError)
deriving DecidableEq, Repr

/-- The bytes that a push got into its sink, and the sink after it. -/
structure Push where
  taken : Bytes
  stop : Pushed
  sink : Sink

namespace Sink

def output (s : Sink) : Bytes := s.pieces.reverse.flatten

/-- How much of `n` bytes the steady sink takes before it is stuck, over as many offers as that needs. -/
def fit (s : Sink) (n : Nat) : Nat :=
  if s.chunk = some 0 then 0 else
    match s.room with
    | none => n
    | some room => min n room

/-- A push to the steady sink. -/
def pushSteady (s : Sink) (data : Bytes) : Push :=
  let size := data.length
  let taken := s.fit size
  let sink := {s with room := s.room.map (· - taken)}
  if taken = size then ⟨data, .all, sink⟩
  else ⟨data.take taken, match s.failure with | some error => .failed error | none => .nothing, sink⟩

/-- A push to a sink that still has `replies`; `taken` is what it took of the same data before. -/
def pushOn (s : Sink) (taken : List Bytes) (data : Bytes) : List Reply → Push
  | [] =>
    let p := {s with replies := []}.pushSteady data
    {p with taken := taken.reverse.flatten ++ p.taken}
  | reply :: rest =>
    if data.isEmpty then ⟨taken.reverse.flatten, .all, {s with replies := reply :: rest}⟩
    else match reply with
      | .interrupt => s.pushOn taken data rest
      | .fail error => ⟨taken.reverse.flatten, .failed error, {s with replies := rest}⟩
      | .accept 0 => ⟨taken.reverse.flatten, .nothing, {s with replies := rest}⟩
      | .accept most => s.pushOn (data.take most :: taken) (data.drop most) rest

def push (data : Bytes) (s : Sink) : Push :=
  let p := s.pushOn [] data s.replies
  {p with sink := {p.sink with pieces := p.taken :: s.pieces}}

/-- A push adds to the output what it got in, and nothing else, however it ends. -/
theorem output_push (data : Bytes) (s : Sink) :
    (s.push data).sink.output = s.output ++ (s.push data).taken := by
  simp [push, output]

end Sink

end Transparency.Wire
