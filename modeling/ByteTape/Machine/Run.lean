import ByteTape.Machine
import ByteTape.Program.Linking

/-! # Runs

    A run repeats one step: fetch the instruction at the instruction pointer,
    execute it, advance the pointer and count.  It ends when the pointer has
    passed the last instruction, or when an instruction fails.

    * `Machine.step` — one step of a program;
    * `Machine.runFor` — at most so many steps;
    * `Machine.boot` — a fresh machine for a program, if the program's jumps
      and the length of the tape are in order;
    * `execute` — boot and run.

    A failing instruction is not counted and the pointer stays on it, so the
    next run tries it again.  A run of a halted machine changes nothing. -/

namespace ByteTape

/-- How far a run has come. -/
inductive Progress where
  /-- There is more to execute. -/
  | running (m : Machine)
  /-- The instruction pointer has passed the end. -/
  | halted (m : Machine)
  /-- The instruction at the pointer failed. -/
  | failed (why : Fault) (m : Machine)
deriving DecidableEq, Repr

/-- The machine a run has come to. -/
def Progress.machine : Progress → Machine
  | .running m => m
  | .halted m => m
  | .failed _ m => m

namespace Machine

/-- Count the instruction just executed and go to the next. -/
def advance (m : Machine) : Machine := { m with ip := m.ip + 1, steps := m.steps + 1 }

/-- One step of a program. -/
def step (d : Devices) (p : Program) (m : Machine) : Progress :=
  if (p.size : Int) ≤ m.ip then .halted m
  else
    match p.get? m.ip with
    | none => .failed .noSuchInstruction m
    | some instr =>
        match m.exec d instr with
        | .done next => .running next.advance
        | .failed why next => .failed why next

/-- At most `fuel` steps of a program. -/
def runFor (d : Devices) (p : Program) : Nat → Machine → Progress
  | 0, m => .running m
  | fuel + 1, m =>
      match m.step d p with
      | .running next => runFor d p fuel next
      | .halted next => .halted next
      | .failed why next => .failed why next

@[simp] theorem runFor_zero (d : Devices) (p : Program) (m : Machine) :
    m.runFor d p 0 = .running m := rfl

/-- One step of fuel buys one step. -/
theorem runFor_succ (d : Devices) (p : Program) (fuel : Nat) (m : Machine) :
    m.runFor d p (fuel + 1)
      = match m.step d p with
        | .running next => next.runFor d p fuel
        | .halted next => .halted next
        | .failed why next => .failed why next := rfl

/-- A run of `a + b` steps is one of `a` steps, gone on with for `b`. -/
theorem runFor_add (d : Devices) (p : Program) (a b : Nat) (m : Machine) :
    m.runFor d p (a + b)
      = match m.runFor d p a with
        | .running next => next.runFor d p b
        | .halted next => .halted next
        | .failed why next => .failed why next := by
  induction a generalizing m with
  | zero => rw [Nat.zero_add]; rfl
  | succ a ih =>
      rw [Nat.succ_add, runFor_succ, runFor_succ]
      cases m.step d p with
      | running next => exact ih next
      | halted next => rfl
      | failed why next => rfl

end Machine

/-- Why no machine can be set up. -/
inductive SetupError where
  /-- A jump leads to no instruction. -/
  | badJump (target : Int) (index : Nat)
  /-- A tape needs at least one cell. -/
  | tapeTooShort
  /-- No tape can be that long. -/
  | tapeTooLong
deriving DecidableEq, Repr

/-- The text of a refusal. -/
def SetupError.message : SetupError → String
  | .badJump target index =>
      "Unresolved jump target " ++ toString target ++ " at instruction " ++ toString index
  | .tapeTooShort => "tape_len must be >= 1"
  | .tapeTooLong => "tape_len is too large"

/-- The number of cells on a tape whose length nobody chose. -/
def defaultTapeLen : Int := 30000

namespace Machine

/-- A fresh machine with a tape of the given length. -/
def blank (tapeLen : Int) : Except SetupError Machine :=
  if tapeLen < 1 then .error .tapeTooShort
  else if wordBound ≤ tapeLen then .error .tapeTooLong
  else .ok (fresh tapeLen.toNat)

/-- A fresh machine for a program: its jumps are looked at first, the length
    of the tape second. -/
def boot (p : Program) (tapeLen : Int) : Except SetupError Machine :=
  match p.firstBadJump? with
  | some (index, target) => .error (.badJump target index)
  | none => blank tapeLen

end Machine

/-- Run a program on a fresh machine for at most `fuel` steps. -/
def execute (fuel : Nat) (d : Devices) (p : Program) (tapeLen : Int) :
    Except SetupError Progress :=
  match Machine.boot p tapeLen with
  | .ok m => .ok (m.runFor d p fuel)
  | .error e => .error e

end ByteTape
