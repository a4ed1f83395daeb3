import ByteTape.Proofs.Accounting
import ByteTape.Proofs.Delivery
import ByteTape.Proofs.Frame

/-! # The ends of the tape

    A run has its data pointer on the tape, and one instruction moves it by one cell.
    So there are two ways off the tape, one at each end, and the place asked for is
    always the one just past it.

    * `Machine.AtEdge` — the next instruction leads off the tape, at one of its ends;
    * `Machine.collected` — the bytes collected since the machine was set up, as the
      record of its exchanges has them;
    * `Machine.step_outOfBounds_iff` — a step goes out of bounds exactly there.

    A move that fails leaves the whole machine as it was, its instruction pointer on the
    move.  So the next run comes to the same end at once, and so does every run after
    it. -/

namespace ByteTape

/-- The byte that an exchange hands out. -/
def Exchange.byte? : Exchange → Option UInt8
  | .emitted b => some b
  | .polled _ => none

namespace Machine

/-- Every byte handed out so far, in order. -/
def handedOut (m : Machine) : List UInt8 :=
  m.traffic.events.toList.filterMap fun e => e.exchange.byte?

/-- The bytes collected so far: all that were handed out, but none if there is a sink
    to take them. -/
def collected (sink : Sink) (m : Machine) : List UInt8 :=
  match sink with
  | .collect => m.handedOut
  | _ => []

/-- The next instruction leads off the tape of `n` cells, to the place given. -/
inductive AtEdge (p : Program) (n : Int) (m : Machine) : Int → Prop where
  | right {i : Nat} (ip : m.ip = i) (instr : p.code[i]? = some (.act .right))
      (dp : m.dp = n - 1) : AtEdge p n m n
  | left {i : Nat} (ip : m.ip = i) (instr : p.code[i]? = some (.act .left))
      (dp : m.dp = 0) : AtEdge p n m (-1)

variable {d : Devices} {p : Program} {m next : Machine} {n : Nat}

/-! ## The bytes collected -/

theorem Exchanged.handedOut_eq {e : JournalEntry} (h : Exchanged d e m next) :
    next.handedOut = m.handedOut ++ emissions [e] := by
  have hstamps : ∀ x : Machine, x.handedOut
      = (x.traffic.events.toList.map Event.stamp).filterMap fun s => s.1.byte? := by
    intro x
    rw [List.filterMap_map]
    rfl
  rw [hstamps, h.events, List.filterMap_append, ← hstamps]
  congr 1
  obtain ⟨instr, b⟩ := e
  cases instr with
  | act a => cases a <;> rfl
  | jumpIfZero target => rfl
  | jumpIfNonzero target => rfl

/-- Without a sink every byte handed out is kept; none of them is refused. -/
theorem output_exec_collect {instr : Instr} {b : UInt8} (hb : m.cell? = some b)
    (source : Source) (h : m.output.toList = m.handedOut) :
    (m.exec ⟨source, .collect⟩ instr).machine.output.toList
      = (m.exec ⟨source, .collect⟩ instr).machine.handedOut := by
  have htries := tries_exec hb ⟨source, .collect⟩ instr
  cases hx : m.exec ⟨source, .collect⟩ instr with
  | done next =>
      rw [hx] at htries
      obtain ⟨hexch, hemitted⟩ := htries
      show next.output.toList = next.handedOut
      rw [hexch.handedOut_eq, ← h]
      exact hemitted
  | failed why left =>
      rw [hx] at htries
      obtain ⟨hexch, hemitted, -, -, hfail⟩ := htries
      have hquiet : emissions [⟨instr, b⟩] = [] := by
        cases instr with
        | act a =>
            cases a with
            | emit => exact absurd rfl hfail
            | _ => rfl
        | _ => rfl
      show left.output.toList = left.handedOut
      rw [hexch.handedOut_eq, hquiet, List.append_nil, ← h]
      exact congrArg Array.toList hemitted

/-- With a sink nothing is kept. -/
theorem output_exec_of_ne_collect (h : d.sink ≠ .collect) (instr : Instr) (m : Machine) :
    (m.exec d instr).machine.output = m.output := by
  have hnone : ∀ op : Operation, op.keeps? d.sink m = none := by
    intro op
    cases op with
    | emit =>
        cases hsink : d.sink with
        | collect => exact absurd hsink h
        | stream flush => rfl
        | consumer judge => rfl
    | _ => rfl
  have hperform : (m.perform d (.exec instr)).machine.output = m.output :=
    output_perform_of_keeps? (hnone _)
  exact hperform

/-- What the machine keeps is what it has collected. -/
def Collects (d : Devices) (m : Machine) : Prop := m.output.toList = m.collected d.sink

theorem Collects.exec {instr : Instr} {b : UInt8} (hb : m.cell? = some b) (h : m.Collects d) :
    (m.exec d instr).machine.Collects d := by
  obtain ⟨source, sink⟩ := d
  cases sink with
  | collect => exact output_exec_collect hb source h
  | stream flush =>
      exact (congrArg Array.toList (output_exec_of_ne_collect (by simp) instr m)).trans h
  | consumer judge =>
      exact (congrArg Array.toList (output_exec_of_ne_collect (by simp) instr m)).trans h

/-- What a machine keeps stays what it has collected. -/
theorem Collects.step (hsafe : m.Safe p n) (h : m.Collects d) :
    (m.step d p).machine.Collects d := by
  rw [Machine.step]
  by_cases hend : (p.size : Int) ≤ m.ip
  · rw [if_pos hend]
    exact h
  · rw [if_neg hend]
    obtain ⟨e, -, hget, hcell⟩ := hsafe.exists_entry (by omega)
    have hexec : (m.exec d e.instr).machine.Collects d := h.exec hcell
    rw [hget]
    dsimp only
    cases hx : m.exec d e.instr with
    | done next => rw [hx] at hexec; exact hexec
    | failed why left => rw [hx] at hexec; exact hexec

/-- Everything that runs lead to keeps what it has collected. -/
theorem Collects.reaches {m₀ : Machine} (hp : p.Closed) (hsafe : m₀.Safe p n)
    (h₀ : m₀.Collects d) (h : Reaches d p m₀ m) : m.Collects d := by
  have hboth : m.Safe p n ∧ m.Collects d := by
    refine h.of_step (P := fun x => x.Safe p n ∧ x.Collects d) ?_ ⟨hsafe, h₀⟩
    rintro x ⟨hx, hcollects⟩
    exact ⟨hx.step hp, hcollects.step hx⟩
  exact hboth.2

theorem collects_fresh (d : Devices) (n : Nat) : (fresh n).Collects d := by
  obtain ⟨source, sink⟩ := d
  cases sink <;> rfl

/-! ## Where a step goes out of bounds -/

/-- The two actions that move the data pointer. -/
theorem plain_exec_eq_move {instr : Instr} {k : Int}
    (h : (Operation.exec instr).plain = .move k) :
    instr = .act .right ∧ k = 1 ∨ instr = .act .left ∧ k = -1 := by
  cases instr with
  | jumpIfZero target => cases h
  | jumpIfNonzero target => cases h
  | act a =>
      cases a with
      | right => cases h; exact Or.inl ⟨rfl, rfl⟩
      | left => cases h; exact Or.inr ⟨rfl, rfl⟩
      | _ => cases h

/-- A step that leaves the tape was taken at its edge. -/
theorem AtEdge.of_step {pointer ip : Int} {tapeLen : Nat} {output : Array UInt8} {left : Machine}
    (hsafe : m.Safe p n)
    (h : m.step d p = .failed (.outOfBounds pointer tapeLen ip output) left) :
    m.AtEdge p n pointer := by
  obtain ⟨i, hi⟩ := Int.eq_ofNat_of_zero_le hsafe.ip.1
  have hdp := hsafe.dp
  have hsize := hsafe.size
  cases hinstr : p.get? m.ip with
  | none =>
      rw [step, hinstr] at h
      split at h <;> cases h
  | some instr =>
      have hcode : p.code[i]? = some instr := by
        rw [p.get?_of_nonneg hsafe.ip.1 (Program.lt_size_of_get? hinstr), hi] at hinstr
        exact hinstr
      have hrefuses := (step_eq_failed_iff hinstr).mp h
      generalize hplain : (Operation.exec instr).plain = op at hrefuses
      cases hrefuses with
      | offTape hoff =>
          -- one cell on from a place on the tape is off it at the end only
          rcases plain_exec_eq_move hplain with ⟨rfl, rfl⟩ | ⟨rfl, rfl⟩
          · rw [show m.dp + 1 = n by omega]
            exact .right hi hcode (by omega)
          · rw [show m.dp + -1 = -1 by omega]
            exact .left hi hcode (by omega)

theorem step_offTape {i : Nat} {instr : Instr} {k : Int} (hi : m.ip = i)
    (hcode : p.code[i]? = some instr) (hplain : (Operation.exec instr).plain = .move k)
    (hoff : ¬ (0 ≤ m.dp + k ∧ m.dp + k < m.tape.size)) (d : Devices) :
    m.step d p = .failed (.outOfBounds (m.dp + k) m.tape.size m.ip m.output) m := by
  have hfails : m.perform d (.exec instr)
      = .failed (.outOfBounds (m.dp + k) m.tape.size m.ip m.output) m := by
    rw [perform_eq_failed_iff, hplain]
    exact .offTape hoff
  exact step_of_failed hi hcode hfails

/-- **At the edge the next step fails,** and names where it would have led. -/
theorem AtEdge.step {pointer : Int} (hn : m.tape.size = n) (h : m.AtEdge p n pointer)
    (d : Devices) :
    m.step d p = .failed (.outOfBounds pointer n m.ip m.output) m := by
  subst hn
  cases h with
  | right hi hcode hdp =>
      have hstep := step_offTape hi hcode rfl (by omega) d
      rw [show m.dp + 1 = m.tape.size by omega] at hstep
      exact hstep
  | left hi hcode hdp =>
      have hstep := step_offTape hi hcode rfl (by omega) d
      rw [show m.dp + -1 = -1 by omega] at hstep
      exact hstep

/-- **A step goes out of bounds exactly at the edge,** and the fault says where. -/
theorem step_outOfBounds_iff {pointer ip : Int} {tapeLen : Nat} {output : Array UInt8}
    {left : Machine} (hsafe : m.Safe p n) :
    m.step d p = .failed (.outOfBounds pointer tapeLen ip output) left ↔
      m.AtEdge p n pointer ∧ tapeLen = n ∧ ip = m.ip ∧ output = m.output ∧ left = m := by
  constructor
  · intro h
    obtain ⟨hleft, hlen, hip, hout⟩ := eq_of_step_outOfBounds h
    exact ⟨.of_step hsafe h, hlen.trans hsafe.size, hip, hout, hleft⟩
  · rintro ⟨hedge, rfl, rfl, rfl, rfl⟩
    exact hedge.step hsafe.size d

end Machine

/-- **Moves off the tape fail exactly, and for good.**  Of whatever runs have led to from a
    machine set up for a program on `n` cells, the next step goes out of bounds exactly
    when it stands at a move to the right on the last cell, or at a move to the left on
    the first; the fault then gives `n` or `-1` as the place asked for, `n` as the length
    of the tape, the index of that instruction, and all the bytes collected since the
    machine was set up, which with a sink are none.  And once a run has failed so, all that
    later runs lead to is the machine it has left, with the same devices at the same
    point, and each of them fails with the same fault. -/
theorem pointer_failure_exact (d : Devices) {p : Program} {n : Int} {m₀ m : Machine}
    (hboot : Machine.boot p n = .ok m₀) (hreach : Machine.Reaches d p m₀ m) :
    (∀ pointer tapeLen ip output left,
      m.step d p = .failed (.outOfBounds pointer tapeLen ip output) left ↔
        m.AtEdge p n pointer ∧ (tapeLen : Int) = n ∧ ip = m.ip ∧
          output.toList = m.collected d.sink ∧ left = m) ∧
    ∀ pointer tapeLen ip output left,
      m.Fails d p (.outOfBounds pointer tapeLen ip output) left →
        ∀ later, Machine.Reaches d p left later → later = left ∧
          ∀ k, later.runFor d p (k + 1) = .failed (.outOfBounds pointer tapeLen ip output) left := by
  obtain ⟨hp, hshort, -, rfl⟩ := Machine.boot_eq_ok_iff.mp hboot
  have hn : (n.toNat : Int) = n := Int.toNat_of_nonneg (by omega)
  have hfresh : (Machine.fresh n.toNat).Safe p n.toNat := Machine.safe_fresh p (by omega)
  have hcollects := (Machine.collects_fresh d n.toNat).reaches hp hfresh hreach
  constructor
  · intro pointer tapeLen ip output left
    have hlen : tapeLen = n.toNat ↔ (tapeLen : Int) = n := by omega
    have hout : output = m.output ↔ output.toList = m.collected d.sink := by
      rw [← hcollects, Array.toList_inj]
    rw [Machine.step_outOfBounds_iff (hfresh.reaches hp hreach), hn, hlen, hout]
  · intro pointer tapeLen ip output left hfails later hlater
    obtain ⟨k, hk⟩ := hfails
    -- a move that fails leaves the machine as it was, so the same step fails again
    obtain ⟨-, x, -, hstep⟩ := Machine.exists_running_of_failed hk
    obtain ⟨rfl, -⟩ := Machine.eq_of_step_outOfBounds hstep
    obtain ⟨rfl, hruns⟩ := hlater.of_stuck (P := (· = left))
      (fun y hy => ⟨left, by rw [hy]; exact hstep, rfl⟩) rfl
    refine ⟨rfl, ?_⟩
    intro j
    obtain ⟨y, hy, rfl⟩ := hruns j
    exact hy

/-- On the only cell, a byte is emitted and then the tape left to the right; three runs
    later nothing has changed. -/
theorem pointer_failure_exact_right_end :
    ∃ p m₀ m later, Program.parse "+.>" = .ok p ∧ Machine.boot p 1 = .ok m₀ ∧
      Machine.Reaches ⟨Source.exhausted, .collect⟩ p m₀ m ∧ m.AtEdge p 1 1 ∧
      m.collected .collect = [1] ∧
      m.Fails ⟨Source.exhausted, .collect⟩ p (.outOfBounds 1 1 2 #[1]) m ∧
      Machine.Reaches ⟨Source.exhausted, .collect⟩ p m later ∧ later = m ∧
      later.runFor ⟨Source.exhausted, .collect⟩ p 4 = .failed (.outOfBounds 1 1 2 #[1]) m := by
  have hboot : Machine.boot ⟨#[.act .inc, .act .emit, .act .right]⟩ 1
      = .ok (Machine.fresh 1) := by decide
  have hreach : Machine.Reaches ⟨Source.exhausted, .collect⟩
      ⟨#[.act .inc, .act .emit, .act .right]⟩ (Machine.fresh 1) _ := .run 2 .start
  obtain ⟨hexact, hgood⟩ := pointer_failure_exact ⟨Source.exhausted, .collect⟩ hboot hreach
  obtain ⟨hedge, -, -, hbytes, -⟩ := (hexact 1 1 2 #[1] _).mp rfl
  obtain ⟨hsame, hruns⟩ := hgood 1 1 2 #[1] _ ⟨1, rfl⟩ _ (.run 1 (.run 1 (.run 1 .start)))
  exact ⟨_, _, _, _, rfl, hboot, hreach, hedge, hbytes.symm, ⟨1, rfl⟩,
    .run 1 (.run 1 (.run 1 .start)), hsame, hruns 3⟩

end ByteTape
