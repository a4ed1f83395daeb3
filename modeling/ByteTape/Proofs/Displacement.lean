import ByteTape.Proofs.Composition
import ByteTape.Proofs.Lockstep

/-! # Machines with displaced pointers

    Two machines may be in the same state but for the numbers in their pointers: one of them
    runs a program that starts further on, or names its current cell by another position.

    * `Machine.Displaced` — the pointers of one machine are so much further on, and all else
      is the same, what has passed through the devices included;
    * `Attempt.Related` — one instruction is done by both machines, or fails for both;
    * `Displaced.exec` — an instruction does the same on displaced machines, if its target is
      displaced likewise, if both machines address one cell, and, unless the data pointers
      agree, if it is not a move;
    * `Displaced.step` — so does a step, where such instructions are fetched.

    A cell is looked up by its position, and a place on record is only written down; a move
    alone computes with the position itself. -/

namespace ByteTape

/-- The event of a machine whose pointers are `a` and `b` further on. -/
def Event.displace (a b : Int) (e : Event) : Event := { e with ip := e.ip + a, dp := e.dp + b }

/-- The fault of a machine whose pointers are `a` and `b` further on. -/
def Fault.displace (a b : Int) : Fault → Fault
  | .outOfBounds pointer tapeLen ip output => .outOfBounds (pointer + b) tapeLen (ip + a) output
  | why => why

/-- The instruction moves the data pointer. -/
def Instr.Moves : Instr → Prop
  | .act .right => True
  | .act .left => True
  | _ => False

/-- Both attempts have succeeded, or both have failed, with related machines. -/
inductive Attempt.Related (R : Machine → Machine → Prop)
    (F : Fault → Machine → Fault → Machine → Prop) : Attempt → Attempt → Prop where
  | done {m m' : Machine} (h : R m m') : Related R F (.done m) (.done m')
  | failed {why why' : Fault} {m m' : Machine} (h : F why m why' m') :
      Related R F (.failed why m) (.failed why' m')

namespace Machine

/-- The pointers of the second machine are `a` and `b` further on, and so are the places it
    has put on record since `past`; all else is the same. -/
structure Displaced (a b : Int) (past : List Event) (m m' : Machine) : Prop where
  tape : m'.tape = m.tape
  dp : m'.dp = m.dp + b
  ip : m'.ip = m.ip + a
  steps : m'.steps = m.steps
  output : m'.output = m.output
  polls : m'.traffic.polls = m.traffic.polls
  offered : m'.traffic.offered = m.traffic.offered
  accepted : m'.traffic.accepted = m.traffic.accepted
  flushes : m'.traffic.flushes = m.traffic.flushes
  events : ∃ recent, m.traffic.events.toList = past ++ recent ∧
    m'.traffic.events.toList = past ++ recent.map (Event.displace a b)

/-- Both have failed, for the same cause at displaced places. -/
def DisplacedFailed (a b : Int) (past : List Event) (why : Fault) (m : Machine) (why' : Fault)
    (m' : Machine) : Prop :=
  why' = why.displace a b ∧ Displaced a b past m m'

namespace Displaced

variable {a b : Int} {past : List Event} {m m' : Machine} {d : Devices}

/-! ## One instruction -/

/-- Where both pointers address one cell, both machines see the same byte. -/
theorem cell?_eq (h : Displaced a b past m m')
    (hplace : m'.tape.index? m'.dp = m.tape.index? m.dp) : m'.cell? = m.cell? := by
  rw [cell?, cell?, Tape.get?, Tape.get?, hplace, h.tape]

/-- An exchange is put on record at displaced places. -/
theorem record (h : Displaced a b past m m') (x : Exchange) :
    ∃ recent, (m.traffic.events.push (m.event x)).toList = past ++ recent ∧
      (m'.traffic.events.push (m'.event x)).toList
        = past ++ recent.map (Event.displace a b) := by
  obtain ⟨recent, hm, hm'⟩ := h.events
  refine ⟨recent ++ [m.event x], ?_, ?_⟩
  · rw [Array.toList_push, hm, List.append_assoc]
  · have hevent : m'.event x = (m.event x).displace a b := by
      rw [event, h.ip, h.dp, h.steps]
      rfl
    rw [Array.toList_push, hm', List.map_append, List.append_assoc, hevent]
    rfl

/-- A reply is recorded by both.  The events differ, because the pointers stand in them.
    -/
theorem heard (h : Displaced a b past m m') (reply : Reply) :
    Displaced a b past (m.heard reply) (m'.heard reply) :=
  { h with polls := congrArg (· + 1) h.polls, events := h.record _ }

theorem kept (h : Displaced a b past m m') (x : UInt8) :
    Displaced a b past (m.kept x) (m'.kept x) :=
  { h with output := congrArg (Array.push · x) h.output, events := h.record _ }

theorem delivered (h : Displaced a b past m m') (x : UInt8) (n : Nat) :
    Displaced a b past (m.delivered x n) (m'.delivered x n) :=
  { h with
    offered := congrArg (Array.push · x) h.offered
    accepted := congrArg (Array.push · x) h.accepted
    flushes := congrArg (· + n) h.flushes
    events := h.record _ }

theorem rebuffed (h : Displaced a b past m m') (x : UInt8) :
    Displaced a b past (m.rebuffed x) (m'.rebuffed x) :=
  { h with offered := congrArg (Array.push · x) h.offered, events := h.record _ }

/-- Adding changes the same cell, or fails for both. -/
theorem add (h : Displaced a b past m m')
    (hplace : m'.tape.index? m'.dp = m.tape.index? m.dp) (n : Int) :
    Attempt.Related (Displaced a b past) (DisplacedFailed a b past) (m.add n) (m'.add n) := by
  rw [Machine.add, Machine.add, hplace]
  cases m.tape.index? m.dp with
  | none => exact .failed ⟨rfl, h⟩
  | some k => exact .done { h with tape := congrArg (Tape.shift · k n) h.tape }

/-- One reply is heard by both, and stored in the same cell. -/
theorem poll (h : Displaced a b past m m')
    (hplace : m'.tape.index? m'.dp = m.tape.index? m.dp) (source : Source) :
    Attempt.Related (Displaced a b past) (DisplacedFailed a b past) (m.poll source)
      (m'.poll source) := by
  rw [Machine.poll, Machine.poll, h.polls]
  have hheard := h.heard (source m.traffic.polls)
  cases hreply : source m.traffic.polls with
  | nothing => rw [hreply] at hheard; exact .done hheard
  | failure why => rw [hreply] at hheard; exact .failed ⟨rfl, hheard⟩
  | value n =>
      rw [hreply] at hheard
      -- the record has grown, and the cell is still the same
      have hplace' : (m'.heard (.value n)).tape.index? (m'.heard (.value n)).dp
          = (m.heard (.value n)).tape.index? (m.heard (.value n)).dp := hplace
      dsimp only
      rw [hplace']
      cases (m.heard (.value n)).tape.index? (m.heard (.value n)).dp with
      | none => exact .failed ⟨rfl, hheard⟩
      | some k =>
          exact .done { hheard with tape := congrArg (Tape.put · k (UInt8.ofInt n)) hheard.tape }

/-- The same byte is offered to the sink, which has taken the same bytes before. -/
theorem emit (h : Displaced a b past m m')
    (hplace : m'.tape.index? m'.dp = m.tape.index? m.dp) (sink : Sink) :
    Attempt.Related (Displaced a b past) (DisplacedFailed a b past) (m.emit sink)
      (m'.emit sink) := by
  rw [Machine.emit, Machine.emit, h.cell?_eq hplace]
  cases m.cell? with
  | none => exact .failed ⟨rfl, h⟩
  | some x =>
      cases sink with
      | collect => exact .done (h.kept x)
      | stream flush => exact .done (h.delivered x _)
      | consumer judge =>
          dsimp only
          rw [h.offered]
          cases judge m.traffic.offered x with
          | accepted => exact .done (h.delivered x 0)
          | refused why => exact .failed ⟨rfl, h.rebuffed x⟩

/-- A test of the same byte has one answer; the target is as far away as the pointer is.
    -/
theorem jumpIf (h : Displaced a b past m m')
    (hplace : m'.tape.index? m'.dp = m.tape.index? m.dp) (test : UInt8 → Bool) (target : Int) :
    Attempt.Related (Displaced a b past) (DisplacedFailed a b past) (m.jumpIf test target)
      (m'.jumpIf test (target + a)) := by
  rw [Machine.jumpIf, Machine.jumpIf, h.cell?_eq hplace]
  cases m.cell? with
  | none => exact .failed ⟨rfl, h⟩
  | some x =>
      dsimp only
      cases test x with
      | true => exact .done { h with ip := rfl }
      | false => exact .done h

/-- A move compares the plain sum, so the data pointers have to agree. -/
theorem move (h : Displaced a 0 past m m') (n : Int) :
    Attempt.Related (Displaced a 0 past) (DisplacedFailed a 0 past) (m.move n) (m'.move n) := by
  have hdp : m'.dp = m.dp := h.dp.trans (Int.add_zero _)
  have hiff : 0 ≤ m'.dp + n ∧ m'.dp + n < m'.tape.size ↔ 0 ≤ m.dp + n ∧ m.dp + n < m.tape.size := by
    rw [hdp, h.tape]
  rw [Machine.move, Machine.move]
  by_cases hon : 0 ≤ m.dp + n ∧ m.dp + n < m.tape.size
  · rw [if_pos hon, if_pos (hiff.mpr hon)]
    refine .done { h with dp := ?_ }
    show m'.dp + n = m.dp + n + 0
    rw [hdp, Int.add_zero]
  · rw [if_neg hon, if_neg (fun hon' => hon (hiff.mp hon'))]
    refine .failed ⟨?_, h⟩
    rw [hdp, h.tape, h.ip, h.output, Fault.displace, Int.add_zero]

/-- **An instruction does the same on displaced machines** that address one cell, unless it
    is a move and their data pointers differ. -/
theorem exec (h : Displaced a b past m m')
    (hplace : m'.tape.index? m'.dp = m.tape.index? m.dp) {instr : Instr}
    (hmove : instr.Moves → b = 0) (d : Devices) :
    Attempt.Related (Displaced a b past) (DisplacedFailed a b past) (m.exec d instr)
      (m'.exec d (instr.relocate a)) := by
  cases instr with
  | jumpIfZero target => exact h.jumpIf hplace _ target
  | jumpIfNonzero target => exact h.jumpIf hplace _ target
  | act action =>
      cases action with
      | inc => exact h.add hplace 1
      | dec => exact h.add hplace (-1)
      | right =>
          obtain rfl := hmove trivial
          exact h.move 1
      | left =>
          obtain rfl := hmove trivial
          exact h.move (-1)
      | emit => exact h.emit hplace d.sink
      | poll => exact h.poll hplace d.source

/-! ## One step -/

/-- Both go on by one instruction. -/
theorem advance (h : Displaced a b past m m') : Displaced a b past m.advance m'.advance :=
  { h with
    ip := by
      show m'.ip + 1 = m.ip + 1 + a
      rw [h.ip]
      omega
    steps := congrArg (· + 1) h.steps }

/-- **A step does the same on displaced machines,** where the second fetches the instruction
    of the first with its target displaced. -/
theorem step (h : Displaced a b past m m') {p q : Program} (hsize : (q.size : Int) = p.size + a)
    (hget : q.get? m'.ip = (p.get? m.ip).map (Instr.relocate a))
    (hplace : m'.tape.index? m'.dp = m.tape.index? m.dp)
    (hmove : ∀ instr, p.get? m.ip = some instr → instr.Moves → b = 0) (d : Devices) :
    Progress.Related (Displaced a b past) (DisplacedFailed a b past) (m.step d p)
      (m'.step d q) := by
  have hend : (q.size : Int) ≤ m'.ip ↔ (p.size : Int) ≤ m.ip := by
    rw [hsize, h.ip]
    omega
  rw [Machine.step, Machine.step, hget]
  by_cases hover : (p.size : Int) ≤ m.ip
  · rw [if_pos hover, if_pos (hend.mpr hover)]
    exact .halted h
  · rw [if_neg hover, if_neg (fun hq => hover (hend.mp hq))]
    cases hinstr : p.get? m.ip with
    | none => exact .failed ⟨rfl, h⟩
    | some instr =>
        have hexec := h.exec hplace (hmove instr hinstr) d
        rw [Option.map_some]
        dsimp only
        generalize m.exec d instr = r at hexec ⊢
        generalize m'.exec d (instr.relocate a) = r' at hexec ⊢
        cases hexec with
        | done hnext => exact .running hnext.advance
        | failed hfail => exact .failed hfail

end Displaced

end Machine

end ByteTape
