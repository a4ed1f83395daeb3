import ByteTape.Machine

/-! # Operations

    Everything that can be done to a machine from outside, one at a time, as
    data: an instruction, one of the operations behind the instructions, a
    look at the current cell, or an assignment.

    * `Operation` — the operations;
    * `Machine.perform` — carry one out. -/

namespace ByteTape

/-- Something that can be done to a machine. -/
inductive Operation where
  /-- Execute one instruction; the instruction pointer does not advance. -/
  | exec (instr : Instr)
  /-- Add to the current cell. -/
  | add (d : Int)
  /-- Move the data pointer. -/
  | move (d : Int)
  /-- Point at another instruction. -/
  | jump (target : Int)
  /-- Look at the current cell. -/
  | look
  /-- Ask the source. -/
  | poll
  /-- Hand the current cell to the sink. -/
  | emit
  /-- Assign the instruction pointer. -/
  | setIp (i : Int)
  /-- Assign the data pointer. -/
  | setDp (i : Int)
  /-- Assign a cell. -/
  | assign (i v : Int)
deriving DecidableEq, Repr

/-- Carry out one operation. -/
def Machine.perform (d : Devices) : Operation → Machine → Attempt
  | .exec instr, m => m.exec d instr
  | .add n, m => m.add n
  | .move n, m => m.move n
  | .jump target, m => .done (m.jump target)
  | .look, m =>
      match m.cell with
      | .ok _ => .done m
      | .error why => .failed why m
  | .poll, m => m.poll d.source
  | .emit, m => m.emit d.sink
  | .setIp i, m => .done (m.setIp i)
  | .setDp i, m => .done (m.setDp i)
  | .assign i v, m => m.assign i v

end ByteTape
