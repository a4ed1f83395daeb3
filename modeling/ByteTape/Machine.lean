import ByteTape.Program
import ByteTape.Tape
import ByteTape.Device

/-! # The machine

    A machine is a tape, a data pointer, an instruction pointer, a step count
    and a record of what passed between it and its devices.  Each operation
    either succeeds with the next machine or fails with a cause, and a failure
    also leaves a machine behind: the one from which a run may go on.

    * `Machine` — the state, plain data throughout;
    * `Fault` — the causes of failure, with their texts in `Fault.message`;
    * `Machine.add`, `move`, `jump`, `poll`, `emit`, `assign` — the operations;
    * `Machine.exec` — the operation of one instruction.

    The two pointers are integers and may be assigned freely.  A cell is
    addressed by a signed position, while a move looks at the plain sum and
    refuses every place outside the tape.  A poll asks first and stores
    second, so its reply is consumed even when there is no cell to store in. -/

namespace ByteTape

/-- An exchange with a device, and where the machine stood at that moment. -/
structure Event where
  exchange : Exchange
  ip : Int
  dp : Int
  steps : Nat
deriving DecidableEq, Repr

/-- Everything that has passed between a machine and its devices. -/
structure Traffic where
  /-- The number of polls made. -/
  polls : Nat
  /-- The bytes handed to the sink, refused ones included. -/
  offered : Array UInt8
  /-- The bytes the sink has taken. -/
  accepted : Array UInt8
  /-- How often the stream was flushed. -/
  flushes : Nat
  /-- Every exchange, in order. -/
  events : Array Event
deriving DecidableEq, Repr

/-- Nothing has passed yet. -/
def Traffic.empty : Traffic := ⟨0, #[], #[], 0, #[]⟩

/-- The state of a machine. -/
structure Machine where
  /-- The cells. -/
  tape : Tape
  /-- The data pointer: the position of the current cell. -/
  dp : Int
  /-- The instruction pointer: the position of the instruction to execute. -/
  ip : Int
  /-- The number of instructions completed. -/
  steps : Nat
  /-- The bytes kept in the machine, when no other sink takes them. -/
  output : Array UInt8
  /-- What has passed between the machine and its devices. -/
  traffic : Traffic
deriving DecidableEq, Repr

/-- Why an operation fails. -/
inductive Fault where
  /-- A move to a place outside the tape. -/
  | outOfBounds (pointer : Int) (tapeLen : Nat) (ip : Int) (output : Array UInt8)
  /-- The data pointer, or an assigned position, addresses no cell. -/
  | noSuchCell
  /-- The instruction pointer addresses no instruction. -/
  | noSuchInstruction
  /-- A value that does not fit into a cell was assigned to one. -/
  | notAByte
  /-- The source failed. -/
  | source (why : String)
  /-- The sink failed. -/
  | sink (why : String)
deriving DecidableEq, Repr

/-- The text of a fault. -/
def Fault.message : Fault → String
  | .outOfBounds pointer tapeLen ip _ =>
      "Data pointer out of bounds: " ++ toString pointer ++ " not in [0, "
        ++ toString tapeLen ++ ") at instruction " ++ toString ip
  | .noSuchCell => "no such cell"
  | .noSuchInstruction => "no such instruction"
  | .notAByte => "byte must be in range(0, 256)"
  | .source why => why
  | .sink why => why

/-- The result of one operation: the next machine, or a fault and the machine
    it left behind. -/
inductive Attempt where
  | done (m : Machine)
  | failed (why : Fault) (m : Machine)
deriving DecidableEq, Repr

/-- Positions and lengths are held in signed words of 64 bits: from this bound
    on, an integer is no position at all. -/
def wordBound : Int := 0x8000000000000000

namespace Machine

/-- A machine at rest on the first cell of a blank tape. -/
def fresh (n : Nat) : Machine := ⟨Tape.blank n, 0, 0, 0, #[], Traffic.empty⟩

/-- The byte in the current cell. -/
def cell? (m : Machine) : Option UInt8 := m.tape.get? m.dp

/-- The byte in the current cell, or the fault of having none. -/
def cell (m : Machine) : Except Fault UInt8 :=
  match m.cell? with
  | some b => .ok b
  | none => .error .noSuchCell

/-- Add an integer to the current cell, modulo 256. -/
def add (d : Int) (m : Machine) : Attempt :=
  match m.tape.index? m.dp with
  | some k => .done { m with tape := m.tape.shift k d }
  | none => .failed .noSuchCell m

/-- Move the data pointer by `d` cells; the new place must be on the tape. -/
def move (d : Int) (m : Machine) : Attempt :=
  let target := m.dp + d
  if 0 ≤ target ∧ target < m.tape.size then .done { m with dp := target }
  else .failed (.outOfBounds target m.tape.size m.ip m.output) m

/-- Point at another instruction; a run then advances past it. -/
def jump (target : Int) (m : Machine) : Machine := { m with ip := target }

/-- The event of an exchange made now. -/
def event (m : Machine) (x : Exchange) : Event := ⟨x, m.ip, m.dp, m.steps⟩

/-- The machine after a poll was answered, its cells not yet touched. -/
def heard (m : Machine) (reply : Reply) : Machine :=
  let e := m.event (.polled reply)
  { m with traffic := { m.traffic with
      polls := m.traffic.polls + 1, events := m.traffic.events.push e } }

/-- Ask the source once, and store the value it gives in the current cell. -/
def poll (source : Source) (m : Machine) : Attempt :=
  let reply := source m.traffic.polls
  let after := m.heard reply
  match reply with
  | .nothing => .done after
  | .failure why => .failed (.source why) after
  | .value n =>
      match after.tape.index? after.dp with
      | some k => .done { after with tape := after.tape.put k (UInt8.ofInt n) }
      | none => .failed .noSuchCell after

/-- The machine after it kept a byte itself. -/
def kept (m : Machine) (b : UInt8) : Machine :=
  let e := m.event (.emitted b)
  { m with
    output := m.output.push b
    traffic := { m.traffic with events := m.traffic.events.push e } }

/-- The machine after its sink took a byte, flushing so many times. -/
def delivered (m : Machine) (b : UInt8) (flushes : Nat) : Machine :=
  let e := m.event (.emitted b)
  { m with traffic := { m.traffic with
      offered := m.traffic.offered.push b
      accepted := m.traffic.accepted.push b
      flushes := m.traffic.flushes + flushes
      events := m.traffic.events.push e } }

/-- The machine after its sink refused a byte. -/
def rebuffed (m : Machine) (b : UInt8) : Machine :=
  let e := m.event (.emitted b)
  { m with traffic := { m.traffic with
      offered := m.traffic.offered.push b, events := m.traffic.events.push e } }

/-- Hand the byte in the current cell to the sink. -/
def emit (sink : Sink) (m : Machine) : Attempt :=
  match m.cell? with
  | none => .failed .noSuchCell m
  | some b =>
      match sink with
      | .collect => .done (m.kept b)
      | .stream flush => .done (m.delivered b (if flush then 1 else 0))
      | .consumer judge =>
          match judge m.traffic.offered b with
          | .accepted => .done (m.delivered b 0)
          | .refused why => .failed (.sink why) (m.rebuffed b)

/-- Jump when the current cell passes a test. -/
def jumpIf (test : UInt8 → Bool) (target : Int) (m : Machine) : Attempt :=
  match m.cell? with
  | none => .failed .noSuchCell m
  | some b => .done (if test b then m.jump target else m)

/-- Assign a value to the cell at a signed position.  A position that is none
    at all is refused first, then a value that is no byte, then a position
    off the tape. -/
def assign (i v : Int) (m : Machine) : Attempt :=
  if i < -wordBound ∨ wordBound ≤ i then .failed .noSuchCell m
  else if v < 0 ∨ 256 ≤ v then .failed .notAByte m
  else
    match m.tape.index? i with
    | some k => .done { m with tape := m.tape.put k (UInt8.ofInt v) }
    | none => .failed .noSuchCell m

/-- Assign the instruction pointer. -/
def setIp (i : Int) (m : Machine) : Machine := { m with ip := i }

/-- Assign the data pointer. -/
def setDp (i : Int) (m : Machine) : Machine := { m with dp := i }

/-- The operation of one action. -/
def act (d : Devices) : Action → Machine → Attempt
  | .inc, m => m.add 1
  | .dec, m => m.add (-1)
  | .right, m => m.move 1
  | .left, m => m.move (-1)
  | .emit, m => m.emit d.sink
  | .poll, m => m.poll d.source

/-- The operation of one instruction.  A jump taken leaves the instruction
    pointer on its target; nothing else touches that pointer. -/
def exec (d : Devices) : Instr → Machine → Attempt
  | .act a, m => m.act d a
  | .jumpIfZero target, m => m.jumpIf (· == 0) target
  | .jumpIfNonzero target, m => m.jumpIf (· != 0) target

end Machine

end ByteTape
