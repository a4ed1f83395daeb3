import ByteTape.Proofs.Lockstep

/-! # Bytes kept and bytes handed over

    Without a sink a machine keeps the bytes it emits; with one it hands over
    each of them and keeps none.  As long as the sink takes what it is offered,
    nothing else depends on which of the two it is.

    * `Sink.Takes`, `Sink.Willing` — the sink takes a byte, or whatever comes;
    * `Machine.handOver` — the bytes kept have been handed over instead, and
      nothing else has changed; likewise for a fault, which shows them;
    * `Machine.step_handOver` — one step that hands over is the step that keeps,
      its bytes handed over.

    No operation looks at the bytes kept, and only a consumer at the bytes
    offered to it before; so the two runs are one run seen twice
    (`runFor_handOver`), also where it fails or never ends. -/

namespace ByteTape

namespace Sink

/-- Bytes leave the machine, and this one is taken after those offered before. -/
def Takes : Sink → Array UInt8 → UInt8 → Prop
  | .collect, _, _ => False
  | .stream _, _, _ => True
  | .consumer judge, offered, b => judge offered b = .accepted

/-- The sink takes every byte. -/
def Willing (sink : Sink) : Prop := ∀ offered b, sink.Takes offered b

/-- A stream takes every byte. -/
theorem willing_stream (flush : Bool) : (Sink.stream flush).Willing :=
  fun _ _ => trivial

/-- How often the stream is flushed for each byte taken. -/
def flushes : Sink → Nat
  | .collect => 0
  | .stream flush => if flush then 1 else 0
  | .consumer _ => 0

end Sink

/-- The same fault of a machine that has kept nothing. -/
def Fault.handOver : Fault → Fault
  | .outOfBounds pointer tapeLen ip _ => .outOfBounds pointer tapeLen ip #[]
  | why => why

/-- The machine that has handed over the bytes which this one has kept. -/
def Machine.handOver (sink : Sink) (m : Machine) : Machine :=
  { m with
    output := #[]
    traffic := { m.traffic with
      offered := m.output
      accepted := m.output
      flushes := sink.flushes * m.output.size } }

/-- The result of an operation, with the bytes kept handed over. -/
def Attempt.handOver (sink : Sink) : Attempt → Attempt
  | .done m => .done (m.handOver sink)
  | .failed why m => .failed why.handOver (m.handOver sink)

/-- How far a run has got, with the bytes kept handed over. -/
def Progress.handOver (sink : Sink) : Progress → Progress
  | .running m => .running (m.handOver sink)
  | .halted m => .halted (m.handOver sink)
  | .failed why m => .failed why.handOver (m.handOver sink)

namespace Machine

variable {m : Machine} {sink : Sink}

/-! ## One step -/

/-- A byte kept and then handed over is a byte delivered. -/
theorem handOver_kept (sink : Sink) (m : Machine) (b : UInt8) :
    (m.kept b).handOver sink = (m.handOver sink).delivered b sink.flushes := by
  simp [handOver, kept, delivered, event, Nat.mul_succ]

/-- A byte is kept by the one machine and taken by the sink of the other. -/
theorem emit_handOver (h : ∀ b, m.cell? = some b → sink.Takes m.output b) :
    (m.handOver sink).emit sink = (m.emit .collect).handOver sink := by
  rw [emit, emit, show (m.handOver sink).cell? = m.cell? from rfl]
  cases hb : m.cell? with
  | none => rfl
  | some b =>
      have htakes := h b hb
      show _ = Attempt.done ((m.kept b).handOver sink)
      rw [handOver_kept]
      cases sink with
      | collect => exact htakes.elim
      | stream flush => rfl
      | consumer judge =>
          dsimp only
          rw [show (m.handOver (.consumer judge)).traffic.offered = m.output from rfl,
            show judge m.output b = .accepted from htakes]
          rfl

/-- Adding does not look at the bytes kept. -/
theorem add_handOver (sink : Sink) (m : Machine) (n : Int) :
    (m.handOver sink).add n = (m.add n).handOver sink := by
  rw [add, add, show (m.handOver sink).tape.index? (m.handOver sink).dp = m.tape.index? m.dp
    from rfl]
  cases m.tape.index? m.dp <;> rfl

/-- A move shows the bytes kept in its fault only, and there they are handed over too.
    -/
theorem move_handOver (sink : Sink) (m : Machine) (n : Int) :
    (m.handOver sink).move n = (m.move n).handOver sink := by
  rw [move, move, show (m.handOver sink).dp = m.dp from rfl,
    show (m.handOver sink).tape = m.tape from rfl]
  by_cases h : 0 ≤ m.dp + n ∧ m.dp + n < m.tape.size
  · rw [if_pos h, if_pos h]
    rfl
  · rw [if_neg h, if_neg h]
    rfl

/-- A poll does not look at the bytes kept. -/
theorem poll_handOver (sink : Sink) (m : Machine) (source : Source) :
    (m.handOver sink).poll source = (m.poll source).handOver sink := by
  rw [poll, poll, show (m.handOver sink).traffic.polls = m.traffic.polls from rfl]
  cases source m.traffic.polls with
  | nothing => rfl
  | failure why => rfl
  | value n =>
      have hindex : ((m.handOver sink).heard (.value n)).tape.index?
          ((m.handOver sink).heard (.value n)).dp
          = (m.heard (.value n)).tape.index? (m.heard (.value n)).dp := rfl
      dsimp only
      rw [hindex]
      cases (m.heard (.value n)).tape.index? (m.heard (.value n)).dp <;> rfl

/-- Nor does a test. -/
theorem jumpIf_handOver (sink : Sink) (m : Machine) (test : UInt8 → Bool) (target : Int) :
    (m.handOver sink).jumpIf test target = (m.jumpIf test target).handOver sink := by
  rw [jumpIf, jumpIf, show (m.handOver sink).cell? = m.cell? from rfl]
  cases m.cell? with
  | none => rfl
  | some b =>
      dsimp only
      cases test b <;> rfl

/-- **An instruction does the same whoever gets the bytes,** as long as the sink
    takes the one that is emitted. -/
theorem exec_handOver {instr : Instr}
    (h : instr = .act .emit → ∀ b, m.cell? = some b → sink.Takes m.output b) (source : Source) :
    (m.handOver sink).exec ⟨source, sink⟩ instr
      = (m.exec ⟨source, .collect⟩ instr).handOver sink := by
  cases instr with
  | jumpIfZero target => exact jumpIf_handOver sink m _ target
  | jumpIfNonzero target => exact jumpIf_handOver sink m _ target
  | act a =>
      cases a with
      | inc => exact add_handOver sink m 1
      | dec => exact add_handOver sink m (-1)
      | right => exact move_handOver sink m 1
      | left => exact move_handOver sink m (-1)
      | emit => exact emit_handOver (h rfl)
      | poll => exact poll_handOver sink m source

/-- A step is the same with the sink, if the sink takes the byte that it may emit. -/
theorem step_handOver {p : Program}
    (h : p.get? m.ip = some (.act .emit) → ∀ b, m.cell? = some b → sink.Takes m.output b)
    (source : Source) :
    (m.handOver sink).step ⟨source, sink⟩ p
      = (m.step ⟨source, .collect⟩ p).handOver sink := by
  rw [step, step, show (m.handOver sink).ip = m.ip from rfl]
  by_cases hend : (p.size : Int) ≤ m.ip
  · rw [if_pos hend, if_pos hend]
    rfl
  · rw [if_neg hend, if_neg hend]
    cases hi : p.get? m.ip with
    | none => rfl
    | some instr =>
        dsimp only
        rw [exec_handOver (fun hemit => h (by rw [hi, hemit])) source]
        cases m.exec ⟨source, .collect⟩ instr <;> rfl

/-! ## Whole runs -/

/-- **A run that hands over is the run that keeps,** its bytes handed over. -/
theorem runFor_handOver (hsink : sink.Willing) (source : Source) (p : Program) (m : Machine)
    (k : Nat) :
    (m.handOver sink).runFor ⟨source, sink⟩ p k
      = (m.runFor ⟨source, .collect⟩ p k).handOver sink := by
  induction k generalizing m with
  | zero => rfl
  | succ k ih =>
      rw [runFor_succ, runFor_succ, step_handOver (fun _ b _ => hsink m.output b) source]
      cases m.step ⟨source, .collect⟩ p with
      | running next => exact ih next
      | halted next => rfl
      | failed why next => rfl

/-- At the start there is nothing to hand over. -/
theorem handOver_fresh (sink : Sink) (n : Nat) : (fresh n).handOver sink = fresh n := rfl

/-! ## What a fault shows -/

section

variable {left : Machine} {d : Devices} {pointer ip : Int} {tapeLen : Nat}
  {output : Array UInt8}

theorem eq_of_move_outOfBounds {n : Int}
    (h : m.move n = .failed (.outOfBounds pointer tapeLen ip output) left) :
    left = m ∧ tapeLen = m.tape.size ∧ ip = m.ip ∧ output = m.output := by
  rw [move] at h
  split at h
  · cases h
  · cases h
    exact ⟨rfl, rfl, rfl, rfl⟩

/-- An instruction that goes out of bounds is a move: it leaves the machine as it
    was, and the fault shows it. -/
theorem eq_of_exec_outOfBounds {instr : Instr}
    (h : m.exec d instr = .failed (.outOfBounds pointer tapeLen ip output) left) :
    left = m ∧ tapeLen = m.tape.size ∧ ip = m.ip ∧ output = m.output := by
  cases instr with
  | jumpIfZero target =>
      rw [exec, jumpIf] at h
      split at h <;> cases h
  | jumpIfNonzero target =>
      rw [exec, jumpIf] at h
      split at h <;> cases h
  | act a =>
      cases a with
      | right => exact eq_of_move_outOfBounds h
      | left => exact eq_of_move_outOfBounds h
      | inc =>
          rw [exec, act, add] at h
          split at h <;> cases h
      | dec =>
          rw [exec, act, add] at h
          split at h <;> cases h
      | emit =>
          rw [exec, act, emit] at h
          split at h
          · cases h
          split at h
          · cases h
          · cases h
          · split at h <;> cases h
      | poll =>
          rw [exec, act, poll] at h
          split at h
          · cases h
          · cases h
          · split at h <;> cases h

/-- The fault of a step that leaves the tape shows the machine as it is. -/
theorem eq_of_step_outOfBounds {p : Program}
    (h : m.step d p = .failed (.outOfBounds pointer tapeLen ip output) left) :
    left = m ∧ tapeLen = m.tape.size ∧ ip = m.ip ∧ output = m.output := by
  rw [step] at h
  split at h
  · cases h
  split at h
  · cases h
  split at h
  · cases h
  · next hx =>
      cases h
      exact eq_of_exec_outOfBounds hx

/-- The fault of a run shows where the machine it leaves behind stands, and the
    bytes kept in it. -/
theorem eq_of_runFor_outOfBounds {p : Program} {k : Nat}
    (h : m.runFor d p k = .failed (.outOfBounds pointer tapeLen ip output) left) :
    tapeLen = left.tape.size ∧ ip = left.ip ∧ output = left.output := by
  obtain ⟨-, m', -, hstep⟩ := exists_running_of_failed h
  obtain ⟨rfl, hlen, hip, hout⟩ := eq_of_step_outOfBounds hstep
  exact ⟨hlen, hip, hout⟩

end

/-- The one machine has kept the bytes it emitted, the other has handed them to
    its sink, and all else is the same.  The stream was flushed for every byte, or
    never. -/
structure HandedOver (sink : Sink) (kept gone : Machine) : Prop where
  tape : gone.tape = kept.tape
  dp : gone.dp = kept.dp
  ip : gone.ip = kept.ip
  steps : gone.steps = kept.steps
  polls : gone.traffic.polls = kept.traffic.polls
  offered : gone.traffic.offered = kept.output
  accepted : gone.traffic.accepted = kept.output
  flushes : gone.traffic.flushes = sink.flushes * kept.output.size
  output : gone.output = #[]

theorem handedOver_handOver (sink : Sink) (m : Machine) : HandedOver sink m (m.handOver sink) :=
  ⟨rfl, rfl, rfl, rfl, rfl, rfl, rfl, rfl, rfl⟩

end Machine

/-- The faults of two runs that end alike, one of which has kept the given bytes
    while the other has handed them over. -/
inductive Fault.HandedOver (kept : Array UInt8) : Fault → Fault → Prop where
  | outOfBounds (pointer : Int) (tapeLen : Nat) (ip : Int) :
      HandedOver kept (.outOfBounds pointer tapeLen ip kept) (.outOfBounds pointer tapeLen ip #[])
  | source (why : String) : HandedOver kept (.source why) (.source why)

/-- **Keeping bytes and handing them over come to the same.**  Of a machine set
    up for a program, the run that keeps its bytes and the run that hands them to
    a sink which takes them all are in lockstep for any number of steps: both
    are going, both have halted, or both have failed.  All the while the bytes
    that the sink has taken are those the other machine has kept, flushed one by
    one if the sink flushes, and all else is the same.  A move off the tape shows
    the bytes kept in the one run, and none in the other; any other fault is one
    of the source, and the same in both. -/
theorem keeping_matches_delivery (source : Source) {sink : Sink} (hsink : sink.Willing)
    {p : Program} {n : Int} {m : Machine} (hboot : Machine.boot p n = .ok m) (k : Nat) :
    Progress.Related (Machine.HandedOver sink)
      (fun why kept why' gone =>
        Machine.HandedOver sink kept gone ∧ Fault.HandedOver kept.output why why')
      (m.runFor ⟨source, .collect⟩ p k) (m.runFor ⟨source, sink⟩ p k) := by
  obtain ⟨hp, hn, -, rfl⟩ := Machine.boot_eq_ok_iff.mp hboot
  have hrun := Machine.runFor_handOver hsink source p (Machine.fresh n.toNat) k
  rw [Machine.handOver_fresh] at hrun
  rw [hrun]
  cases hr : (Machine.fresh n.toNat).runFor ⟨source, .collect⟩ p k with
  | running kept => exact .running (kept.handedOver_handOver sink)
  | halted kept => exact .halted (kept.handedOver_handOver sink)
  | failed why kept =>
      refine .failed ⟨kept.handedOver_handOver sink, ?_⟩
      have hexp := (Machine.safe_fresh p (by omega)).expected_of_failed hp hr
      cases hexp with
      | outOfBounds _ =>
          obtain ⟨-, -, rfl⟩ := Machine.eq_of_runFor_outOfBounds hr
          exact .outOfBounds _ _ _
      | source _ => exact .source _
      | sink hd _ => exact nomatch hd

/-- A byte is emitted and then the tape left: one run still has the byte, the
    other has written and flushed it. -/
theorem keeping_matches_delivery_off_tape :
    ∃ p m kept gone, Program.parse "+.>" = .ok p ∧ Machine.boot p 1 = .ok m ∧
      m.Fails ⟨Source.exhausted, .collect⟩ p (.outOfBounds 1 1 2 #[1]) kept ∧
      m.Fails ⟨Source.exhausted, .stream true⟩ p (.outOfBounds 1 1 2 #[]) gone ∧
      gone.traffic.accepted = #[1] ∧ gone.traffic.flushes = 1 ∧ gone.output = #[] := by
  have hboot : Machine.boot ⟨#[.act .inc, .act .emit, .act .right]⟩ 1
      = .ok (Machine.fresh 1) := by decide
  have hlock := keeping_matches_delivery Source.exhausted (Sink.willing_stream true) hboot 3
  obtain ⟨kept, hkept, hone⟩ : ∃ kept, (Machine.fresh 1).runFor ⟨Source.exhausted, .collect⟩
      ⟨#[.act .inc, .act .emit, .act .right]⟩ 3 = .failed (.outOfBounds 1 1 2 #[1]) kept ∧
      kept.output = #[1] := ⟨_, rfl, rfl⟩
  rw [hkept] at hlock
  generalize hgone : (Machine.fresh 1).runFor ⟨Source.exhausted, .stream true⟩
    ⟨#[.act .inc, .act .emit, .act .right]⟩ 3 = r at hlock
  cases hlock with
  | @failed _ why' _ gone h =>
      obtain ⟨hover, hfault⟩ := h
      rw [hone] at hfault
      cases hfault
      refine ⟨_, _, kept, gone, rfl, hboot, ⟨3, hkept⟩, ⟨3, hgone⟩, ?_, ?_, hover.output⟩
      · rw [hover.accepted, hone]
      · rw [hover.flushes, hone]
        rfl

end ByteTape
