import ByteTape.Proofs.Delivery
import ByteTape.Proofs.Frame

/-! # A sink that is full

    A sink that takes `k` bytes and refuses every later one lets a machine run as if
    there were no limit, up to the first byte too many.

    * `Machine.Emits` — the next instruction emits a byte;
    * `Machine.WithinLimit` — one machine keeps at most `k` bytes, and the other has
      handed the same bytes to such a sink;
    * `Machine.WithinLimit.step` — one step keeps two machines so, unless it emits where
      `k` bytes have been kept already.

    The bytes kept grow one at a time and are never given up (`output_prefix_runFor`).  So a
    run that keeps more than `k` has come to the emission of the first byte too many, and
    the run with the sink has come to it too.  There the byte is refused and nothing
    else happens; a byte refused counts as offered, so the sink stays full, and the
    next run is refused the same byte. -/

namespace ByteTape

namespace Machine

variable {d : Devices} {p : Program} {m m' : Machine} {b : UInt8} {k : Nat} {why : String}

/-! ## Bytes kept one after another -/

/-- A step takes back nothing of the output. -/
theorem output_prefix_step (d : Devices) (p : Program) (m : Machine) :
    m.output.toList <+: (m.step d p).machine.output.toList := by
  cases hi : p.get? m.ip with
  | none =>
      have hsame : (m.step d p).machine = m := machine_step_of_get?_eq_none hi d
      exact ⟨[], by rw [hsame, List.append_nil]⟩
  | some instr =>
      rw [machine_step_of_get? (f := output) (fun _ => rfl) hi]
      exact output_prefix_perform d (.exec instr) m

/-- What a machine has kept stays at the front of all it will have kept. -/
theorem output_prefix_runFor (d : Devices) (p : Program) (j : Nat) (m : Machine) :
    m.output.toList <+: (m.runFor d p j).machine.output.toList := by
  refine runFor_of_step (P := fun x => m.output.toList <+: x.output.toList) ?_ j List.prefix_rfl
  intro x hx
  exact hx.trans (output_prefix_step d p x)

/-- The next instruction emits `b`. -/
structure Emits (p : Program) (b : UInt8) (m : Machine) : Prop where
  instr : p.get? m.ip = some (.act .emit)
  cell : m.cell? = some b

/-- Without a sink an emission succeeds, and the byte is kept. -/
theorem Emits.step_collect (h : m.Emits p b) (source : Source) :
    m.step ⟨source, .collect⟩ p = .running (m.kept b).advance := by
  rw [step, if_neg (Int.not_le.mpr (Program.lt_size_of_get? h.instr)), h.instr]
  dsimp only
  rw [exec, act, emit, h.cell]

/-- Without a current cell, or at any other instruction, no byte is kept. -/
theorem keeps?_eq_none_of_not_emits {instr : Instr} (hi : p.get? m.ip = some instr)
    (h : ∀ b, ¬ m.Emits p b) (sink : Sink) :
    (Operation.exec instr).plain.keeps? sink m = none := by
  cases instr with
  | jumpIfZero target => rfl
  | jumpIfNonzero target => rfl
  | act a =>
      cases a with
      | emit =>
          cases hb : m.cell? with
          | some b => exact absurd ⟨hi, hb⟩ (h b)
          | none =>
              cases sink with
              | collect => exact hb
              | _ => rfl
      | _ => rfl

theorem output_step_of_not_emits (h : ∀ b, ¬ m.Emits p b) (d : Devices) :
    (m.step d p).machine.output = m.output := by
  cases hi : p.get? m.ip with
  | none => rw [machine_step_of_get?_eq_none hi]
  | some instr =>
      rw [machine_step_of_get? (f := output) (fun _ => rfl) hi]
      exact output_perform_of_keeps? (keeps?_eq_none_of_not_emits hi h d.sink)

/-! ## Up to the limit -/

/-- One machine has kept `k` bytes at most, and the other has handed them to a sink that
    takes `k`. -/
structure WithinLimit (k : Nat) (why : String) (m m' : Machine) : Prop where
  room : m.output.size ≤ k
  eq : m' = m.handOver (.limited k why)

/-- Both have failed for the same cause. -/
def WithinLimitFailed (k : Nat) (why : String) (cause : Fault) (m : Machine) (cause' : Fault)
    (m' : Machine) : Prop :=
  cause' = cause.handOver ∧ WithinLimit k why m m'

/-- A step that emits no byte too many does the same with the sink and without. -/
theorem step_limited (hroom : m.output.size ≤ k) (source : Source) :
    (m.handOver (.limited k why)).step ⟨source, .limited k why⟩ p
        = (m.step ⟨source, .collect⟩ p).handOver (.limited k why) ∧
      (m.step ⟨source, .collect⟩ p).machine.output.size ≤ k ∨
    m.output.size = k ∧ ∃ b, m.Emits p b := by
  by_cases hemits : ∃ b, m.Emits p b
  · rcases Nat.eq_or_lt_of_le hroom with hfull | hlt
    · exact Or.inr ⟨hfull, hemits⟩
    · obtain ⟨b, hb⟩ := hemits
      refine Or.inl ⟨step_handOver (fun _ b _ => ?_) source, ?_⟩
      · exact if_pos hlt
      · rw [hb.step_collect]
        show (m.output.push b).size ≤ k
        rw [Array.size_push]
        exact hlt
  · refine Or.inl ⟨step_handOver (fun hi b hb => ?_) source, ?_⟩
    · exact absurd ⟨b, hi, hb⟩ hemits
    · rw [output_step_of_not_emits (fun b hb => hemits ⟨b, hb⟩)]
      exact hroom

/-- **One step within the limit:** both machines take it alike, unless one byte too many
    is emitted. -/
theorem WithinLimit.step (h : WithinLimit k why m m') (source : Source) :
    Progress.Related (WithinLimit k why) (WithinLimitFailed k why)
      (m.step ⟨source, .collect⟩ p) (m'.step ⟨source, .limited k why⟩ p) ∨
    m.output.size = k ∧ ∃ b, m.Emits p b := by
  obtain ⟨hroom, rfl⟩ := h
  rcases step_limited hroom source with ⟨hs, hnext⟩ | hlimit
  · refine Or.inl ?_
    rw [hs]
    cases hm : m.step ⟨source, .collect⟩ p with
    | running next => rw [hm] at hnext; exact .running ⟨hnext, rfl⟩
    | halted next => rw [hm] at hnext; exact .halted ⟨hnext, rfl⟩
    | failed cause next => rw [hm] at hnext; exact .failed ⟨rfl, hnext, rfl⟩
  · exact Or.inr hlimit

/-- **A run with the sink is the run without it,** its bytes handed over, unless that has
    come to the emission of a byte too many. -/
theorem runFor_limited (hroom : m.output.size ≤ k) (source : Source) (why : String) (j : Nat) :
    (m.handOver (.limited k why)).runFor ⟨source, .limited k why⟩ p j
        = (m.runFor ⟨source, .collect⟩ p j).handOver (.limited k why) ∧
      (m.runFor ⟨source, .collect⟩ p j).machine.output.size ≤ k ∨
    ∃ i x b, i < j ∧ m.runFor ⟨source, .collect⟩ p i = .running x ∧
      (m.handOver (.limited k why)).runFor ⟨source, .limited k why⟩ p i
        = .running (x.handOver (.limited k why)) ∧
      x.output.size = k ∧ x.Emits p b := by
  have hstart : WithinLimit k why m (m.handOver (.limited k why)) := ⟨hroom, rfl⟩
  have hstep : ∀ x x', WithinLimit k why x x' →
      Progress.Related (WithinLimit k why) (WithinLimitFailed k why)
        (x.step ⟨source, .collect⟩ p) (x'.step ⟨source, .limited k why⟩ p) ∨
      x.output.size = k ∧ ∃ b, x.Emits p b := fun _ _ hx => hx.step source
  rcases runFor_lockstep hstep j hstart with hrel | ⟨i, x, x', hi, hx, hx', hR, hsize, b, hb⟩
  · refine Or.inl ?_
    generalize m.runFor ⟨source, .collect⟩ p j = r at hrel ⊢
    generalize (m.handOver (.limited k why)).runFor ⟨source, .limited k why⟩ p j = r' at hrel ⊢
    cases hrel with
    | running h => rw [h.eq]; exact ⟨rfl, h.room⟩
    | halted h => rw [h.eq]; exact ⟨rfl, h.room⟩
    | failed h => rw [h.1, h.2.eq]; exact ⟨rfl, h.2.room⟩
  · rw [hR.eq] at hx'
    exact Or.inr ⟨i, x, b, hi, hx, hx', hsize, hb⟩

/-- At the emission of a byte too many, the bytes kept so far are the first `k` of all
    that the run will have kept, and there are more. -/
theorem Emits.output_eq_take {source : Source} {x : Machine} {i j : Nat} (hb : x.Emits p b)
    (hx : m.runFor ⟨source, .collect⟩ p i = .running x) (hij : i < j) :
    x.output.size < (m.runFor ⟨source, .collect⟩ p j).machine.output.size ∧
      x.output.toList
        = (m.runFor ⟨source, .collect⟩ p j).machine.output.toList.take x.output.size := by
  obtain ⟨c, rfl⟩ := Nat.exists_eq_add_of_lt hij
  have hlater : m.runFor ⟨source, .collect⟩ p (i + c + 1)
      = (x.kept b).advance.runFor ⟨source, .collect⟩ p c := by
    rw [Nat.add_assoc, runFor_of_running hx, runFor_succ_of_running (hb.step_collect source)]
  have hprefix : x.output.toList ++ [b]
      <+: (m.runFor ⟨source, .collect⟩ p (i + c + 1)).machine.output.toList := by
    rw [hlater, ← Array.toList_push]
    exact output_prefix_runFor ⟨source, .collect⟩ p c (x.kept b).advance
  have hfront := (List.prefix_append x.output.toList [b]).trans hprefix
  refine ⟨?_, List.prefix_iff_eq_take.mp hfront⟩
  have hlength := hprefix.length_le
  rw [List.length_append] at hlength
  exact hlength

/-! ## Past the limit -/

/-- The machine is as `x` was, and `k` bytes or more have been offered to its sink. -/
structure CutOff (k : Nat) (x m : Machine) : Prop where
  untouched : x.Untouched m
  full : k ≤ m.traffic.offered.size

theorem Untouched.trans {x y z : Machine} (h : x.Untouched y) (h' : y.Untouched z) :
    x.Untouched z :=
  ⟨h'.tape.trans h.tape, h'.dp.trans h.dp, h'.ip.trans h.ip, h'.steps.trans h.steps,
    h'.output.trans h.output, h'.accepted.trans h.accepted, h'.flushes.trans h.flushes⟩

/-- What stands at an emission with its sink full is refused, and is cut off again. -/
theorem CutOff.step {x : Machine} (hx : x.Emits p b) (h : CutOff k x m) (source : Source)
    (why : String) :
    ∃ left, m.step ⟨source, .limited k why⟩ p = .failed (.sink why) left ∧ CutOff k x left := by
  have hi : p.get? m.ip = some (.act .emit) := by
    rw [h.untouched.ip]
    exact hx.instr
  have hcell : m.cell? = some b := by
    rw [cell?, h.untouched.tape, h.untouched.dp]
    exact hx.cell
  have hrefuses : m.Refuses ⟨source, .limited k why⟩ .emit (.sink why) (m.rebuffed b) :=
    .sink rfl hcell (if_neg (Nat.not_lt.mpr h.full))
  refine ⟨m.rebuffed b, (step_eq_failed_iff hi).mpr hrefuses,
    h.untouched.trans hrefuses.untouched, ?_⟩
  show k ≤ (m.traffic.offered.push b).size
  rw [Array.size_push]
  exact Nat.le_succ_of_le h.full

end Machine

/-- **A full sink cuts the output at the byte it refuses.**  Take a machine set up for a
    program, a sink that takes `k` bytes and refuses every later one, and any number of
    steps.  If the run without a sink has kept no more than `k` bytes by then, the run with
    the sink has come just as far, going, halted or failed alike, and the sink has taken the
    bytes that the other has kept.  If it has kept more, it has come to an emission with
    `k` bytes kept, the first `k` of all of them.  There the run with the sink fails with
    the sink's fault, and leaves the tape, both pointers, the step count and the bytes taken as
    they are just before that step; so does every later run. -/
theorem full_sink_cuts_output (source : Source) (k : Nat) (why : String) {p : Program} {n : Int}
    {m : Machine} (hboot : Machine.boot p n = .ok m) (j : Nat) :
    ((m.runFor ⟨source, .collect⟩ p j).machine.output.size ≤ k →
      m.runFor ⟨source, .limited k why⟩ p j
        = (m.runFor ⟨source, .collect⟩ p j).handOver (.limited k why)) ∧
    (k < (m.runFor ⟨source, .collect⟩ p j).machine.output.size →
      ∃ i x left, i < j ∧ m.runFor ⟨source, .collect⟩ p i = .running x ∧
        p.get? x.ip = some (.act .emit) ∧ x.output.size = k ∧
        x.output.toList = (m.runFor ⟨source, .collect⟩ p j).machine.output.toList.take k ∧
        m.runFor ⟨source, .limited k why⟩ p i = .running (x.handOver (.limited k why)) ∧
        m.runFor ⟨source, .limited k why⟩ p (i + 1) = .failed (.sink why) left ∧
        (x.handOver (.limited k why)).Untouched left ∧
        ∀ later, Machine.Reaches ⟨source, .limited k why⟩ p left later →
          (x.handOver (.limited k why)).Untouched later ∧
          ∀ c, ∃ left', later.runFor ⟨source, .limited k why⟩ p (c + 1)
              = .failed (.sink why) left' ∧
            (x.handOver (.limited k why)).Untouched left') := by
  obtain ⟨-, -, -, rfl⟩ := Machine.boot_eq_ok_iff.mp hboot
  have hlock := Machine.runFor_limited (p := p) (m := Machine.fresh n.toNat) (Nat.zero_le k)
    source why j
  rw [Machine.handOver_fresh] at hlock
  constructor
  · intro hsize
    rcases hlock with ⟨hrun, -⟩ | ⟨i, x, b, hij, hx, -, rfl, hb⟩
    · exact hrun
    · exact absurd (hb.output_eq_take hx hij).1 (Nat.not_lt.mpr hsize)
  · intro hsize
    rcases hlock with ⟨-, hroom⟩ | ⟨i, x, b, hij, hx, hx', rfl, hb⟩
    · exact absurd hsize (Nat.not_lt.mpr hroom)
    -- the sink has been offered the bytes kept, so it is full for the first time
    have hgone : (x.handOver (.limited x.output.size why)).Emits p b := ⟨hb.instr, hb.cell⟩
    have hfull : Machine.CutOff x.output.size (x.handOver (.limited x.output.size why))
        (x.handOver (.limited x.output.size why)) :=
      ⟨⟨rfl, rfl, rfl, rfl, rfl, rfl, rfl⟩, Nat.le_refl _⟩
    obtain ⟨left, hstep, hleft⟩ := hfull.step hgone source why
    refine ⟨i, x, left, hij, hx, hb.instr, rfl, (hb.output_eq_take hx hij).2, hx', ?_,
      hleft.untouched, ?_⟩
    · rw [Machine.runFor_of_running hx', Machine.runFor_succ, hstep]
    · intro later hlater
      obtain ⟨hcut, hruns⟩ := hlater.of_stuck (fun y hy => hy.step hgone source why) hleft
      refine ⟨hcut.untouched, ?_⟩
      intro c
      obtain ⟨left', hrun, hleft'⟩ := hruns c
      exact ⟨left', hrun, hleft'.untouched⟩

/-- A loop that counts up and emits is cut off at its third byte.  Two runs later the sink
    has still taken two, and the machine has come no further. -/
theorem full_sink_cuts_output_loop :
    ∃ (p : Program) (m left later : Machine), Program.parse "+[.+]" = .ok p ∧
      Machine.boot p 1 = .ok m ∧
      (m.runFor ⟨Source.exhausted, .collect⟩ p 9).machine.output = #[1, 2, 3] ∧
      m.Fails ⟨Source.exhausted, .limited 2 "full"⟩ p (.sink "full") left ∧
      left.traffic.accepted = #[1, 2] ∧
      Machine.Reaches ⟨Source.exhausted, .limited 2 "full"⟩ p left later ∧
      later.traffic.accepted = #[1, 2] ∧ later.steps = left.steps := by
  have hboot : Machine.boot ⟨#[.act .inc, .jumpIfZero 4, .act .emit, .act .inc,
      .jumpIfNonzero 1]⟩ 1 = .ok (Machine.fresh 1) := by decide
  have hkept : ((Machine.fresh 1).runFor ⟨Source.exhausted, .collect⟩
      ⟨#[.act .inc, .jumpIfZero 4, .act .emit, .act .inc, .jumpIfNonzero 1]⟩ 9).machine.output
      = #[1, 2, 3] := by decide +kernel
  obtain ⟨-, hcut⟩ := full_sink_cuts_output Source.exhausted 2 "full" hboot 9
  rw [hkept] at hcut
  obtain ⟨i, x, left, -, -, -, -, hout, -, hfails, hleft, hruns⟩ := hcut (by decide)
  have hfirst : x.output = #[1, 2] := Array.toList_inj.mp hout
  obtain ⟨hlater, -⟩ := hruns _ (.run 1 (.run 1 .start))
  exact ⟨_, _, left, _, by decide +kernel, hboot, hkept, ⟨i + 1, hfails⟩,
    hleft.accepted.trans hfirst, .run 1 (.run 1 .start), hlater.accepted.trans hfirst,
    hlater.steps.trans hleft.steps.symm⟩

end ByteTape
