import ByteTape.Proofs.Lockstep

/-! # Runs and the replies they have taken

    A run looks at its source only where it polls, and there only at the reply
    that comes next.  So two sources that give the same replies for a while give
    the same run until the first poll that they may answer differently.

    * `Machine.Polls` — the next instruction polls the source;
    * `Machine.polls_step` — a step takes one reply there, and none elsewhere;
    * `Machine.step_congr_source` — a step depends on the next reply alone, and
      only there.

    Replies are counted and never given back (`polls_le_runFor`): a run that has
    taken no more than so many replies never came to the poll after them, which
    is what `run_depends_on_replies` needs to compare how two runs end. -/

namespace ByteTape

/-- The machine that an operation leaves behind. -/
def Attempt.machine : Attempt → Machine
  | .done m => m
  | .failed _ m => m

namespace Machine

/-- The next instruction polls the source. -/
def Polls (p : Program) (m : Machine) : Prop := p.get? m.ip = some (.act .poll)

instance (p : Program) (m : Machine) : Decidable (m.Polls p) :=
  inferInstanceAs (Decidable (_ = _))

variable {d : Devices} {p : Program} {m : Machine}

/-! ## Counting -/

theorem traffic_add (n : Int) (m : Machine) : (m.add n).machine.traffic = m.traffic := by
  rw [add]
  split <;> rfl

theorem traffic_move (n : Int) (m : Machine) : (m.move n).machine.traffic = m.traffic := by
  rw [move]
  split <;> rfl

theorem traffic_jumpIf (test : UInt8 → Bool) (target : Int) (m : Machine) :
    (m.jumpIf test target).machine.traffic = m.traffic := by
  rw [jumpIf]
  split
  · rfl
  · split <;> rfl

theorem polls_emit (sink : Sink) (m : Machine) :
    (m.emit sink).machine.traffic.polls = m.traffic.polls := by
  rw [emit]
  split
  · rfl
  split
  · rfl
  · rfl
  · split <;> rfl

/-- A poll asks once, whatever it hears. -/
theorem polls_poll (source : Source) (m : Machine) :
    (m.poll source).machine.traffic.polls = m.traffic.polls + 1 := by
  rw [poll]
  split
  · rfl
  · rfl
  · split <;> rfl

/-- An instruction that does not poll takes no reply. -/
theorem polls_exec_of_ne {instr : Instr} (h : instr ≠ .act .poll) (d : Devices) (m : Machine) :
    (m.exec d instr).machine.traffic.polls = m.traffic.polls := by
  cases instr with
  | jumpIfZero target => exact congrArg Traffic.polls (traffic_jumpIf _ target m)
  | jumpIfNonzero target => exact congrArg Traffic.polls (traffic_jumpIf _ target m)
  | act a =>
      cases a with
      | inc => exact congrArg Traffic.polls (traffic_add 1 m)
      | dec => exact congrArg Traffic.polls (traffic_add (-1) m)
      | right => exact congrArg Traffic.polls (traffic_move 1 m)
      | left => exact congrArg Traffic.polls (traffic_move (-1) m)
      | emit => exact polls_emit d.sink m
      | poll => exact absurd rfl h

theorem machine_step_of_get?_eq_none (h : p.get? m.ip = none) (d : Devices) :
    (m.step d p).machine = m := by
  rw [step, h]
  split <;> rfl

/-- Whatever counting does not change, a step leaves as its instruction leaves it. -/
theorem machine_step_of_get? {α : Type} {f : Machine → α} (hf : ∀ x, f x.advance = f x)
    {instr : Instr} (h : p.get? m.ip = some instr) (d : Devices) :
    f (m.step d p).machine = f (m.exec d instr).machine := by
  rw [step, if_neg (Int.not_le.mpr (Program.lt_size_of_get? h)), h]
  dsimp only
  cases m.exec d instr with
  | done next => exact hf next
  | failed why left => rfl

/-- **A step takes one reply where it polls,** and none elsewhere. -/
theorem polls_step (d : Devices) (p : Program) (m : Machine) :
    (m.step d p).machine.traffic.polls = m.traffic.polls + if m.Polls p then 1 else 0 := by
  by_cases hpolls : m.Polls p
  · rw [if_pos hpolls, machine_step_of_get? (f := fun x => x.traffic.polls) (fun _ => rfl) hpolls]
    exact m.polls_poll d.source
  · rw [if_neg hpolls]
    cases hi : p.get? m.ip with
    | none => rw [machine_step_of_get?_eq_none hi, Nat.add_zero]
    | some instr =>
        have hne : instr ≠ .act .poll := by
          rintro rfl
          exact hpolls hi
        rw [machine_step_of_get? (f := fun x => x.traffic.polls) (fun _ => rfl) hi]
        exact polls_exec_of_ne hne d m

/-- Replies that were taken stay taken. -/
theorem polls_le_runFor (d : Devices) (p : Program) (k : Nat) (m : Machine) :
    m.traffic.polls ≤ (m.runFor d p k).machine.traffic.polls := by
  refine runFor_of_step (P := fun x => m.traffic.polls ≤ x.traffic.polls) ?_ k (Nat.le_refl _)
  intro x hx
  rw [polls_step]
  omega

/-- A run that comes to a poll takes a reply. -/
theorem Polls.lt_runFor (h : m.Polls p) (d : Devices) (k : Nat) :
    m.traffic.polls < (m.runFor d p (k + 1)).machine.traffic.polls := by
  have hstep := polls_step d p m
  rw [if_pos h] at hstep
  rw [runFor_succ]
  cases hs : m.step d p with
  | running next =>
      rw [hs] at hstep
      have hle := polls_le_runFor d p k next
      have hnext : next.traffic.polls = m.traffic.polls + 1 := hstep
      dsimp only
      omega
  | halted next =>
      rw [hs] at hstep
      exact Nat.lt_of_lt_of_eq (Nat.lt_succ_self _) hstep.symm
  | failed why next =>
      rw [hs] at hstep
      exact Nat.lt_of_lt_of_eq (Nat.lt_succ_self _) hstep.symm

/-! ## Two sources -/

/-- A step looks at the source only where it polls, and there at the next reply. -/
theorem step_congr_source {source source' : Source}
    (h : m.Polls p → source m.traffic.polls = source' m.traffic.polls) (sink : Sink) :
    m.step ⟨source, sink⟩ p = m.step ⟨source', sink⟩ p := by
  rw [step, step]
  cases hi : p.get? m.ip with
  | none => rfl
  | some instr =>
      have hexec : m.exec ⟨source, sink⟩ instr = m.exec ⟨source', sink⟩ instr := by
        cases instr with
        | jumpIfZero target => rfl
        | jumpIfNonzero target => rfl
        | act a =>
            cases a with
            | inc => rfl
            | dec => rfl
            | right => rfl
            | left => rfl
            | emit => rfl
            | poll =>
                show m.poll source = m.poll source'
                rw [poll, poll, h hi]
      dsimp only
      rw [hexec]

/-- One machine in two runs, with no more than `k` replies taken. -/
structure Shared (k : Nat) (m m' : Machine) : Prop where
  polls : m.traffic.polls ≤ k
  eq : m' = m

/-- Both runs have failed alike. -/
def SharedFailed (why : Fault) (m : Machine) (why' : Fault) (m' : Machine) : Prop :=
  why' = why ∧ m' = m

/-- Two runs on sources that agree on the first `k` replies share one more step,
    unless it is the poll after them. -/
theorem Shared.step {source source' : Source} {k : Nat} (hagree : ∀ i < k, source i = source' i)
    (sink : Sink) (p : Program) {m m' : Machine} (h : Shared k m m') :
    Progress.Related (Shared k) SharedFailed
      (m.step ⟨source, sink⟩ p) (m'.step ⟨source', sink⟩ p) ∨
    m.Polls p ∧ m.traffic.polls = k := by
  obtain ⟨hm, rfl⟩ := h
  by_cases hlast : m'.Polls p ∧ m'.traffic.polls = k
  · exact Or.inr hlast
  have hbefore : m'.Polls p → m'.traffic.polls < k :=
    fun hpolls => Nat.lt_of_le_of_ne hm fun heq => hlast ⟨hpolls, heq⟩
  have hsame := step_congr_source (fun hpolls => hagree _ (hbefore hpolls)) sink
  have hnext : (m'.step ⟨source, sink⟩ p).machine.traffic.polls ≤ k := by
    rw [polls_step]
    by_cases hpolls : m'.Polls p
    · rw [if_pos hpolls]
      exact hbefore hpolls
    · rw [if_neg hpolls]
      exact hm
  refine Or.inl ?_
  rw [← hsame]
  cases hs : m'.step ⟨source, sink⟩ p with
  | running next => rw [hs] at hnext; exact .running ⟨hnext, rfl⟩
  | halted next => rw [hs] at hnext; exact .halted ⟨hnext, rfl⟩
  | failed why next => exact .failed ⟨rfl, rfl⟩

/-- Two runs on sources that agree on the first `k` replies are one run, until it
    has taken them all and polls again. -/
theorem runFor_congr_source {source source' : Source} {k : Nat}
    (hagree : ∀ i < k, source i = source' i) (sink : Sink) (p : Program) (hm : m.traffic.polls ≤ k)
    (j : Nat) :
    m.runFor ⟨source', sink⟩ p j = m.runFor ⟨source, sink⟩ p j ∨
    ∃ i x, i < j ∧ m.runFor ⟨source, sink⟩ p i = .running x ∧
      m.runFor ⟨source', sink⟩ p i = .running x ∧ x.Polls p ∧ x.traffic.polls = k := by
  have hstep : ∀ x x', Shared k x x' →
      Progress.Related (Shared k) SharedFailed
        (x.step ⟨source, sink⟩ p) (x'.step ⟨source', sink⟩ p) ∨
      x.Polls p ∧ x.traffic.polls = k :=
    fun _ _ hx => hx.step hagree sink p
  rcases runFor_lockstep hstep j ⟨hm, rfl⟩ with hrel | ⟨i, x, x', hi, hx, hx', hsame, hlast⟩
  · refine Or.inl ?_
    generalize m.runFor ⟨source, sink⟩ p j = r at hrel ⊢
    generalize m.runFor ⟨source', sink⟩ p j = r' at hrel ⊢
    cases hrel with
    | running h => rw [h.eq]
    | halted h => rw [h.eq]
    | failed h => rw [h.1, h.2]
  · rw [hsame.eq] at hx'
    exact Or.inr ⟨i, x, hi, hx, hx', hlast⟩

/-- A run that has taken no more than the replies on which two sources agree is
    the same on both. -/
theorem runFor_eq_of_polls_le {source source' : Source} {k : Nat}
    (hagree : ∀ i < k, source i = source' i) (sink : Sink) (p : Program) (hm : m.traffic.polls ≤ k)
    {j : Nat} (hj : (m.runFor ⟨source, sink⟩ p j).machine.traffic.polls ≤ k) :
    m.runFor ⟨source', sink⟩ p j = m.runFor ⟨source, sink⟩ p j := by
  rcases runFor_congr_source hagree sink p hm j with heq | ⟨i, x, hi, hx, -, hpolls, hk⟩
  · exact heq
  · obtain ⟨c, rfl⟩ := Nat.exists_eq_add_of_lt hi
    rw [Nat.add_assoc, runFor_of_running hx] at hj
    have hlt := hpolls.lt_runFor ⟨source, sink⟩ c
    omega

end Machine

/-- **A run depends only on the replies it has taken.**  Let two sources give the
    same first `k` replies.  The runs of a machine set up for a program, on the
    one source and on the other, have come to the same after any number of steps,
    unless both have been, at the same earlier step and in the same state, at
    their poll number `k + 1`.  So if one of them halts or fails with no more
    than `k` replies taken, the other one ends alike. -/
theorem run_depends_on_replies {source source' : Source} {k : Nat}
    (hagree : ∀ i < k, source i = source' i) (sink : Sink) {p : Program} {n : Int} {m : Machine}
    (hboot : Machine.boot p n = .ok m) :
    (∀ j, m.runFor ⟨source', sink⟩ p j = m.runFor ⟨source, sink⟩ p j ∨
      ∃ i x, i < j ∧ m.runFor ⟨source, sink⟩ p i = .running x ∧
        m.runFor ⟨source', sink⟩ p i = .running x ∧ x.Polls p ∧ x.traffic.polls = k) ∧
    (∀ m', m.Halts ⟨source, sink⟩ p m' → m'.traffic.polls ≤ k → m.Halts ⟨source', sink⟩ p m') ∧
    ∀ why m', m.Fails ⟨source, sink⟩ p why m' → m'.traffic.polls ≤ k →
      m.Fails ⟨source', sink⟩ p why m' := by
  obtain ⟨-, -, -, rfl⟩ := Machine.boot_eq_ok_iff.mp hboot
  have hfresh : (Machine.fresh n.toNat).traffic.polls ≤ k := Nat.zero_le k
  refine ⟨Machine.runFor_congr_source hagree sink p hfresh, ?_, ?_⟩
  · rintro m' ⟨j, hj⟩ hk
    refine ⟨j, (Machine.runFor_eq_of_polls_le hagree sink p hfresh ?_).trans hj⟩
    rw [hj]
    exact hk
  · rintro why m' ⟨j, hj⟩ hk
    refine ⟨j, (Machine.runFor_eq_of_polls_le hagree sink p hfresh ?_).trans hj⟩
    rw [hj]
    exact hk

/-- A loop that polls once and counts down: what else the sources hold does not
    matter. -/
theorem run_depends_on_replies_countdown :
    ∃ p m m', Program.parse ",[.-]" = .ok p ∧ Machine.boot p 1 = .ok m ∧
      (∀ i < 1, Source.ofBytes #[2, 7] i = Source.ofBytes #[2] i) ∧
      m.Halts ⟨Source.ofBytes #[2, 7], .collect⟩ p m' ∧ m'.traffic.polls ≤ 1 ∧
      m.Halts ⟨Source.ofBytes #[2], .collect⟩ p m' ∧ m'.snapshot = ⟨#[2, 1], #[0], 0, 8⟩ := by
  have hboot : Machine.boot ⟨#[.act .poll, .jumpIfZero 4, .act .emit, .act .dec,
      .jumpIfNonzero 1]⟩ 1 = .ok (Machine.fresh 1) := by decide
  have hagree : ∀ i < 1, Source.ofBytes #[2, 7] i = Source.ofBytes #[2] i := by decide
  obtain ⟨m', hm', hpolls, hsnap⟩ : ∃ m', (Machine.fresh 1).runFor
      ⟨Source.ofBytes #[2, 7], .collect⟩
      ⟨#[.act .poll, .jumpIfZero 4, .act .emit, .act .dec, .jumpIfNonzero 1]⟩ 9 = .halted m' ∧
      m'.traffic.polls ≤ 1 ∧ m'.snapshot = ⟨#[2, 1], #[0], 0, 8⟩ :=
    ⟨_, rfl, by decide +kernel, by decide +kernel⟩
  obtain ⟨-, hhalts, -⟩ := run_depends_on_replies hagree .collect hboot
  exact ⟨_, _, m', rfl, hboot, hagree, ⟨9, hm'⟩, hpolls, hhalts m' ⟨9, hm'⟩ hpolls, hsnap⟩

end ByteTape
