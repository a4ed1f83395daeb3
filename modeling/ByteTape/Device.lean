/-! # Input and output devices

    The machine asks a source for input, one poll at a time, and hands the
    bytes it emits to a sink.

    * `Reply` — what one poll gives: a value, nothing, or a failure;
    * `Source` — the reply to the first poll, the second, and so on;
    * `Input` — the forms in which input is supplied, each with its source;
    * `Sink` — keep emitted bytes in the machine, pass them to a stream, or
      offer them to a consumer that may refuse;
    * `Devices` — a source and a sink.

    A source is a function of the number of polls made before, and a consumer
    a function of the bytes offered to it before, so a device has no hidden
    state: the machine's own record of what passed is enough to go on. -/

namespace ByteTape

/-- The reply to one poll. -/
inductive Reply where
  /-- An integer, of which the machine keeps the low eight bits. -/
  | value (n : Int)
  /-- Nothing is available; the current cell stays as it is. -/
  | nothing
  /-- The source fails. -/
  | failure (why : String)
deriving DecidableEq, Repr

/-- A source of input: its reply to the poll that follows `n` earlier ones. -/
abbrev Source := Nat → Reply

namespace Source

/-- No input at all. -/
def exhausted : Source := fun _ => .nothing

/-- The given replies one after the other, and nothing after them. -/
def ofReplies (replies : Array Reply) : Source :=
  fun n => replies[n]?.getD .nothing

/-- The given bytes one after the other, and nothing after them. -/
def ofBytes (bytes : Array UInt8) : Source := fun n =>
  match bytes[n]? with
  | some b => .value b.toNat
  | none => .nothing

/-- A stream read one byte at a time: each poll asks for the chunk of length
    one at the place reached, and an empty chunk is the end. -/
def ofStream (bytes : Array UInt8) : Source := fun n =>
  match (bytes.extract n (n + 1)).toList with
  | b :: _ => .value b.toNat
  | [] => .nothing

end Source

/-- The forms in which input is supplied. -/
inductive Input where
  /-- There is none. -/
  | absent
  /-- Bytes that never change. -/
  | bytes (data : Array UInt8)
  /-- Bytes in a buffer, of which a copy is taken. -/
  | buffer (data : Array UInt8)
  /-- Bytes already wrapped as a source. -/
  | wrapped (data : Array UInt8)
  /-- A stream that holds the bytes. -/
  | stream (data : Array UInt8)
  /-- A scripted source. -/
  | replies (items : Array Reply)
deriving DecidableEq, Repr

/-- The source behind each form of input. -/
def Input.source : Input → Source
  | .absent => Source.exhausted
  | .bytes data => Source.ofBytes data
  | .buffer data => Source.ofBytes data
  | .wrapped data => Source.ofBytes data
  | .stream data => Source.ofStream data
  | .replies items => Source.ofReplies items

/-- A consumer's answer to one byte. -/
inductive Verdict where
  /-- The byte is taken. -/
  | accepted
  /-- The byte is not taken, and the consumer fails. -/
  | refused (why : String)
deriving DecidableEq, Repr

/-- Where emitted bytes go. -/
inductive Sink where
  /-- They are kept in the machine. -/
  | collect
  /-- They are written to a stream, which is flushed after each byte if so asked. -/
  | stream (flush : Bool)
  /-- They are offered to a consumer, who sees all bytes offered before. -/
  | consumer (judge : Array UInt8 → UInt8 → Verdict)

namespace Sink

/-- A consumer that takes every byte. -/
def unlimited : Sink := .consumer fun _ _ => .accepted

/-- A consumer that takes `k` bytes and refuses every later one. -/
def limited (k : Nat) (why : String) : Sink :=
  .consumer fun offered _ => if offered.size < k then .accepted else .refused why

end Sink

/-- What a machine is connected to. -/
structure Devices where
  source : Source
  sink : Sink

/-- One exchange with a device. -/
inductive Exchange where
  /-- A poll, with its reply. -/
  | polled (reply : Reply)
  /-- A byte handed out, whether or not it was taken. -/
  | emitted (byte : UInt8)
deriving DecidableEq, Repr

end ByteTape
