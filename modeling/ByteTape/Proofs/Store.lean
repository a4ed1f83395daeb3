import ByteTape.Proofs.Run

/-! # The store

    A store is what a program works on, without any trace of the program: the
    cells, the current one among them, the bytes kept, and what has passed
    through the devices.  The current cell of a store is always on the tape.

    * `Store` — the state, and `Store.cell`, its current byte;
    * `Store.act` — the effect of one action on a store;
    * `Cause` — why an action fails, and `Cause.fault`, the same as reported by
      a machine that stands at some instruction;
    * `Machine.Holds`, `Machine.Stands` — a machine whose state is that of a
      store, and one that also stands at a given instruction and count.

    The lemmas at the end say what one step of a machine on its tape does, in
    these terms: `Stands.step_act`, `Stands.step_jumpIfZero` and
    `Stands.step_jumpIfNonzero`.  A proof that can do with stores opens the
    operations of the machine no more. -/

namespace ByteTape

/-- The state that actions work on. -/
@[ext]
structure Store where
  tape : Tape
  /-- The index of the current cell. -/
  dp : Nat
  onTape : dp < tape.size
  /-- The bytes kept, where no other sink takes them. -/
  output : Array UInt8
  /-- The number of replies taken from the source. -/
  polls : Nat
  /-- The bytes offered to the sink. -/
  offered : Array UInt8
  /-- The bytes the sink has taken. -/
  accepted : Array UInt8
  /-- How often the stream was flushed. -/
  flushes : Nat
deriving DecidableEq

/-- Why an action fails. -/
inductive Cause where
  /-- A move to a place outside the tape. -/
  | offTape (pointer : Int)
  /-- The source failed. -/
  | source (why : String)
  /-- The sink failed. -/
  | sink (why : String)
deriving DecidableEq, Repr

/-- The effect of one action. -/
inductive Effect where
  | done (s : Store)
  | failed (why : Cause) (s : Store)
deriving DecidableEq

namespace Store

/-- The byte in the current cell. -/
def cell (s : Store) : UInt8 :=
  have h : s.dp < s.tape.cells.size := s.onTape
  s.tape.cells[s.dp]

/-- Overwrite the current cell. -/
def write (s : Store) (b : UInt8) : Store :=
  { s with tape := s.tape.put s.dp b, onTape := by rw [Tape.size_put]; exact s.onTape }

/-- Add to the current cell, modulo 256. -/
def add (s : Store) (n : Int) : Store :=
  { s with tape := s.tape.shift s.dp n, onTape := by rw [Tape.size_shift]; exact s.onTape }

/-- Make the next cell the current one. -/
def right (s : Store) : Effect :=
  if h : s.dp + 1 < s.tape.size then .done { s with dp := s.dp + 1, onTape := h }
  else .failed (.offTape (s.dp + 1)) s

/-- Make the cell before the current one. -/
def left (s : Store) : Effect :=
  if 0 < s.dp then
    .done { s with dp := s.dp - 1, onTape := Nat.lt_of_le_of_lt (Nat.sub_le _ _) s.onTape }
  else .failed (.offTape (-1)) s

/-- Hand the current byte over, flushing so many times. -/
def deliver (s : Store) (flushes : Nat) : Store :=
  { s with
    offered := s.offered.push s.cell
    accepted := s.accepted.push s.cell
    flushes := s.flushes + flushes }

/-- Hand the current byte to the sink. -/
def emit (sink : Sink) (s : Store) : Effect :=
  match sink with
  | .collect => .done { s with output := s.output.push s.cell }
  | .stream flush => .done (s.deliver (if flush then 1 else 0))
  | .consumer judge =>
      match judge s.offered s.cell with
      | .accepted => .done (s.deliver 0)
      | .refused why => .failed (.sink why) { s with offered := s.offered.push s.cell }

/-- Take one reply from the source. -/
def poll (source : Source) (s : Store) : Effect :=
  let next := { s with polls := s.polls + 1 }
  match source s.polls with
  | .nothing => .done next
  | .failure why => .failed (.source why) next
  | .value n => .done (next.write (UInt8.ofInt n))

/-- The effect of one action. -/
def act (d : Devices) : Action → Store → Effect
  | .inc, s => .done (s.add 1)
  | .dec, s => .done (s.add (-1))
  | .right, s => s.right
  | .left, s => s.left
  | .emit, s => s.emit d.sink
  | .poll, s => s.poll d.source

end Store

/-- The fault that a machine at instruction `ip` reports for a cause. -/
def Cause.fault (ip : Int) (s : Store) : Cause → Fault
  | .offTape pointer => .outOfBounds pointer s.tape.size ip s.output
  | .source why => .source why
  | .sink why => .sink why

/-! ## Machines that hold a store -/

namespace Machine

/-- The machine is in the state of the store. -/
structure Holds (m : Machine) (s : Store) : Prop where
  tape : m.tape = s.tape
  dp : m.dp = (s.dp : Int)
  output : m.output = s.output
  polls : m.traffic.polls = s.polls
  offered : m.traffic.offered = s.offered
  accepted : m.traffic.accepted = s.accepted
  flushes : m.traffic.flushes = s.flushes

/-- The machine is in the state of the store, at instruction `i`, after `k`
    counted steps. -/
structure Stands (m : Machine) (s : Store) (i k : Nat) : Prop where
  holds : m.Holds s
  ip : m.ip = (i : Int)
  steps : m.steps = k

/-- The store of a machine whose data pointer is on its tape. -/
def store (m : Machine) (h : 0 ≤ m.dp ∧ m.dp < m.tape.size) : Store where
  tape := m.tape
  dp := m.dp.toNat
  onTape := by omega
  output := m.output
  polls := m.traffic.polls
  offered := m.traffic.offered
  accepted := m.traffic.accepted
  flushes := m.traffic.flushes

/-- On the tape a machine holds its store. -/
theorem holds_store (m : Machine) (h : 0 ≤ m.dp ∧ m.dp < m.tape.size) : m.Holds (m.store h) :=
  ⟨rfl, (Int.toNat_of_nonneg h.1).symm, rfl, rfl, rfl, rfl, rfl⟩

namespace Holds

variable {m : Machine} {s : Store}

theorem index? (h : m.Holds s) : m.tape.index? m.dp = some s.dp := by
  have hlt := s.onTape
  rw [h.tape, h.dp, Tape.index?, resolve?_of_nonneg (by omega) (by omega), Int.toNat_natCast]

/-- A machine is in the state of one store only. -/
theorem unique {s' : Store} (h : m.Holds s) (h' : m.Holds s') : s = s' := by
  ext1
  · exact h.tape.symm.trans h'.tape
  · exact Int.ofNat_inj.mp (h.dp.symm.trans h'.dp)
  · exact h.output.symm.trans h'.output
  · exact h.polls.symm.trans h'.polls
  · exact h.offered.symm.trans h'.offered
  · exact h.accepted.symm.trans h'.accepted
  · exact h.flushes.symm.trans h'.flushes

theorem cell? (h : m.Holds s) : m.cell? = some s.cell := by
  rw [Machine.cell?, Tape.get?, h.index?, h.tape]
  exact Array.getElem?_eq_getElem s.onTape

end Holds

/-- Two machines in the state of one store, wherever they stand. -/
structure SameStore (m m' : Machine) : Prop where
  tape : m'.tape = m.tape
  dp : m'.dp = m.dp
  output : m'.output = m.output
  polls : m'.traffic.polls = m.traffic.polls
  offered : m'.traffic.offered = m.traffic.offered
  accepted : m'.traffic.accepted = m.traffic.accepted
  flushes : m'.traffic.flushes = m.traffic.flushes

theorem Holds.sameStore {m m' : Machine} {s : Store} (h : m.Holds s) (h' : m'.Holds s) :
    m.SameStore m' where
  tape := h'.tape.trans h.tape.symm
  dp := h'.dp.trans h.dp.symm
  output := h'.output.trans h.output.symm
  polls := h'.polls.trans h.polls.symm
  offered := h'.offered.trans h.offered.symm
  accepted := h'.accepted.trans h.accepted.symm
  flushes := h'.flushes.trans h.flushes.symm

/-- What an action leaves of where the machine stands: everything. -/
def Realizes (m : Machine) (r : Attempt) : Effect → Prop
  | .done s' => ∃ m', r = .done m' ∧ m'.Holds s' ∧ m'.ip = m.ip ∧ m'.steps = m.steps
  | .failed why s' => ∃ m', r = .failed (why.fault m.ip s') m' ∧ m'.Holds s' ∧ m'.ip = m.ip ∧
      m'.steps = m.steps

namespace Holds

variable {m : Machine} {s : Store}

/-- Addition is the store's. -/
theorem add (h : m.Holds s) (n : Int) : m.Realizes (m.add n) (.done (s.add n)) := by
  rw [Machine.add, h.index?]
  exact ⟨_, rfl, ⟨by rw [h.tape]; rfl, h.dp, h.output, h.polls, h.offered, h.accepted, h.flushes⟩,
    rfl, rfl⟩

theorem right (h : m.Holds s) : m.Realizes (m.move 1) s.right := by
  rw [Machine.move, Store.right, h.dp, h.tape, h.output]
  by_cases hlt : s.dp + 1 < s.tape.size
  · rw [dif_pos hlt]
    rw [if_pos ⟨by omega, by omega⟩]
    exact ⟨_, rfl, ⟨rfl, rfl, rfl, h.polls, h.offered, h.accepted, h.flushes⟩, rfl, rfl⟩
  · rw [dif_neg hlt]
    rw [if_neg (by omega)]
    exact ⟨m, rfl, h, rfl, rfl⟩

theorem left (h : m.Holds s) : m.Realizes (m.move (-1)) s.left := by
  have hlt := s.onTape
  rw [Machine.move, Store.left, h.dp, h.tape, h.output]
  by_cases hpos : 0 < s.dp
  · rw [if_pos hpos]
    rw [if_pos ⟨by omega, by omega⟩]
    exact ⟨_, rfl, ⟨rfl, by dsimp only; omega, rfl, h.polls, h.offered, h.accepted, h.flushes⟩,
      rfl, rfl⟩
  · rw [if_neg hpos]
    rw [if_neg (by omega)]
    refine ⟨m, ?_, h, rfl, rfl⟩
    rw [show ((s.dp : Int) + -1) = -1 by omega]
    rfl

/-- An emission reaches the same sink, and meets the same answer. -/
theorem emit (h : m.Holds s) (sink : Sink) : m.Realizes (m.emit sink) (s.emit sink) := by
  rw [Machine.emit, h.cell?]
  cases sink with
  | collect =>
      exact ⟨_, rfl, ⟨h.tape, h.dp, congrArg (Array.push · s.cell) h.output, h.polls, h.offered,
        h.accepted, h.flushes⟩, rfl, rfl⟩
  | stream flush =>
      exact ⟨_, rfl, ⟨h.tape, h.dp, h.output, h.polls, congrArg (Array.push · s.cell) h.offered,
        congrArg (Array.push · s.cell) h.accepted, congrArg (· + _) h.flushes⟩, rfl, rfl⟩
  | consumer judge =>
      dsimp only [Store.emit]
      rw [h.offered]
      cases judge s.offered s.cell with
      | accepted =>
          exact ⟨_, rfl, ⟨h.tape, h.dp, h.output, h.polls, congrArg (Array.push · s.cell) h.offered,
            congrArg (Array.push · s.cell) h.accepted, congrArg (· + 0) h.flushes⟩, rfl, rfl⟩
      | refused why =>
          exact ⟨_, rfl, ⟨h.tape, h.dp, h.output, h.polls, congrArg (Array.push · s.cell) h.offered,
            h.accepted, h.flushes⟩, rfl, rfl⟩

/-- A reply, whatever it is, has been taken from the source. -/
theorem heard (h : m.Holds s) (reply : Reply) :
    (m.heard reply).Holds { s with polls := s.polls + 1 } :=
  ⟨h.tape, h.dp, h.output, congrArg (· + 1) h.polls, h.offered, h.accepted, h.flushes⟩

theorem poll (h : m.Holds s) (source : Source) : m.Realizes (m.poll source) (s.poll source) := by
  rw [Machine.poll, Store.poll, h.polls]
  -- the reply is taken before any cell is looked at
  have hheard := h.heard (source s.polls)
  cases hr : source s.polls with
  | nothing =>
      rw [hr] at hheard
      exact ⟨_, rfl, hheard, rfl, rfl⟩
  | failure why =>
      rw [hr] at hheard
      exact ⟨_, rfl, hheard, rfl, rfl⟩
  | value n =>
      rw [hr] at hheard
      dsimp only
      rw [hheard.index?]
      exact ⟨_, rfl, ⟨by dsimp only; rw [hheard.tape]; rfl, hheard.dp, hheard.output, hheard.polls,
        hheard.offered, hheard.accepted, hheard.flushes⟩, rfl, rfl⟩

/-- **An action does to a machine what it does to its store.** -/
theorem act (h : m.Holds s) (d : Devices) (a : Action) : m.Realizes (m.act d a) (s.act d a) := by
  cases a with
  | inc => exact h.add 1
  | dec => exact h.add (-1)
  | right => exact h.right
  | left => exact h.left
  | emit => exact h.emit d.sink
  | poll => exact h.poll d.source

/-- A jump looks at the current cell and moves only the instruction pointer. -/
theorem jumpIf (h : m.Holds s) (test : UInt8 → Bool) (target : Int) :
    m.jumpIf test target = .done (if test s.cell then m.jump target else m) := by
  rw [Machine.jumpIf, h.cell?]

/-- What a store says does not depend on where the machine stands. -/
theorem of_eq {m' : Machine} (h : m.Holds s) (ht : m'.tape = m.tape) (hd : m'.dp = m.dp)
    (ho : m'.output = m.output) (htr : m'.traffic = m.traffic) : m'.Holds s := by
  refine ⟨ht.trans h.tape, hd.trans h.dp, ho.trans h.output, ?_, ?_, ?_, ?_⟩
  · rw [htr]; exact h.polls
  · rw [htr]; exact h.offered
  · rw [htr]; exact h.accepted
  · rw [htr]; exact h.flushes

end Holds

/-! ## One step -/

/-- Where an instruction stands the program has not ended. -/
private theorem get?_natCast {p : Program} {i : Nat} {instr : Instr}
    (hi : p.code[i]? = some instr) : ¬ (p.size : Int) ≤ i ∧ p.get? i = some instr := by
  have hlt : i < p.size := (Array.getElem?_eq_some_iff.mp hi).1
  refine ⟨by omega, ?_⟩
  rw [Program.get?_of_nonneg p (by omega) (by omega), Int.toNat_natCast]
  exact hi

/-- An instruction that succeeds is counted, and the pointer advances. -/
theorem step_of_done {p : Program} {m next : Machine} {i : Nat} {instr : Instr} {d : Devices}
    (hip : m.ip = (i : Int)) (hi : p.code[i]? = some instr) (hx : m.exec d instr = .done next) :
    m.step d p = .running next.advance := by
  obtain ⟨hend, hget⟩ := get?_natCast hi
  simp only [step, hip, if_neg hend, hget, hx]

/-- An instruction that fails ends the run. -/
theorem step_of_failed {p : Program} {m next : Machine} {i : Nat} {instr : Instr} {d : Devices}
    {why : Fault} (hip : m.ip = (i : Int)) (hi : p.code[i]? = some instr)
    (hx : m.exec d instr = .failed why next) : m.step d p = .failed why next := by
  obtain ⟨hend, hget⟩ := get?_natCast hi
  simp only [step, hip, if_neg hend, hget, hx]

namespace Stands

variable {p : Program} {m : Machine} {s : Store} {i k : Nat}

/-- A step on an action: its effect, and then the next instruction; or its
    failure, and nothing counted. -/
theorem step_act (h : m.Stands s i k) {a : Action} (hi : p.code[i]? = some (.act a))
    (d : Devices) :
    match s.act d a with
    | .done s' => ∃ m', m.step d p = .running m' ∧ m'.Stands s' (i + 1) (k + 1)
    | .failed why s' => ∃ m', m.step d p = .failed (why.fault i s') m' ∧ m'.Stands s' i k := by
  have hact := h.holds.act d a
  cases he : s.act d a with
  | done s' =>
      rw [he] at hact
      obtain ⟨m', hm', hs', hip, hsteps⟩ := hact
      refine ⟨m'.advance, step_of_done h.ip hi hm', hs'.of_eq rfl rfl rfl rfl, ?_, ?_⟩
      · show m'.ip + 1 = _
        rw [hip, h.ip]
        rfl
      · show m'.steps + 1 = _
        rw [hsteps, h.steps]
  | failed why s' =>
      rw [he] at hact
      obtain ⟨m', hm', hs', hip, hsteps⟩ := hact
      rw [h.ip] at hm'
      exact ⟨m', step_of_failed h.ip hi hm', hs', hip.trans h.ip, hsteps.trans h.steps⟩

/-- A step on a jump: the test decides where the machine stands next. -/
private theorem step_jumpIf (h : m.Stands s i k) {instr : Instr} {test : UInt8 → Bool} {t : Nat}
    (hi : p.code[i]? = some instr) {d : Devices} (hx : m.exec d instr = m.jumpIf test t) :
    ∃ m', m.step d p = .running m' ∧ m'.Stands s (if test s.cell then t + 1 else i + 1) (k + 1) := by
  refine ⟨_, step_of_done h.ip hi (hx.trans (h.holds.jumpIf test t)), ?_, ?_, ?_⟩
  · cases test s.cell <;> exact h.holds.of_eq rfl rfl rfl rfl
  · cases test s.cell with
    | true => rfl
    | false =>
        show m.ip + 1 = _
        rw [h.ip]
        rfl
  · cases test s.cell <;> exact congrArg (· + 1) h.steps

/-- At zero an opener goes on behind its target, and else with the next instruction. -/
theorem step_jumpIfZero (h : m.Stands s i k) {t : Nat} (hi : p.code[i]? = some (.jumpIfZero t))
    (d : Devices) :
    ∃ m', m.step d p = .running m' ∧
      m'.Stands s (if s.cell = 0 then t + 1 else i + 1) (k + 1) := by
  obtain ⟨m', hm', hs⟩ := h.step_jumpIf hi (d := d) rfl
  simp only [beq_iff_eq] at hs
  exact ⟨m', hm', hs⟩

/-- At zero a closer goes on with the next instruction, and else behind its target. -/
theorem step_jumpIfNonzero (h : m.Stands s i k) {t : Nat}
    (hi : p.code[i]? = some (.jumpIfNonzero t)) (d : Devices) :
    ∃ m', m.step d p = .running m' ∧
      m'.Stands s (if s.cell = 0 then i + 1 else t + 1) (k + 1) := by
  obtain ⟨m', hm', hs⟩ := h.step_jumpIf hi (d := d) rfl
  simp only [bne_iff_ne, ne_eq, ite_not] at hs
  exact ⟨m', hm', hs⟩

/-- Past the last instruction there is nothing to do. -/
theorem step_end (h : m.Stands s p.size k) (d : Devices) : m.step d p = .halted m := by
  rw [step, h.ip, if_pos (Int.le_refl _)]

end Stands

end Machine

end ByteTape
