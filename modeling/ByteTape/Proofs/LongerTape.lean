import ByteTape.Proofs.Lockstep

/-! # Runs on a longer tape

    A machine with more cells than another does the same, as long as the other
    does not ask for the first cell it lacks.

    * `Tape.widen`, `Machine.widen` — zero cells added at the end, and nothing
      else changed; likewise for a fault, which names the length of the tape;
    * `Machine.step_widen` — one step of a widened machine is the step of the
      machine, widened, unless that is a move past the last cell.

    Cells are read and written at the data pointer only, and a safe machine has
    it on the tape; so the added cells are never looked at.  `longer_tape` says
    what this means for the runs of two fresh machines. -/

namespace ByteTape

/-! ## Added cells -/

namespace Tape

variable {t : Tape} {i : Int}

/-- The tape with `k` zero cells after its last. -/
def widen (k : Nat) (t : Tape) : Tape := ⟨t.cells ++ Array.replicate k 0⟩

/-- Widening adds its cells. -/
@[simp] theorem size_widen (k : Nat) (t : Tape) : (t.widen k).size = t.size + k := by
  simp [widen, size]

/-- A blank tape made wider is the blank tape of that length. -/
theorem widen_blank (n k : Nat) : (blank n).widen k = blank (n + k) := by
  simp [widen, blank]

/-- A position on the tape is the same position on a longer one. -/
theorem index?_widen (k : Nat) (h : 0 ≤ i ∧ i < t.size) : (t.widen k).index? i = t.index? i := by
  rw [index?, index?, size_widen, resolve?_of_nonneg h.1 h.2, resolve?_of_nonneg h.1 (by omega)]

/-- The cells that were there keep their bytes. -/
theorem get?_widen (k : Nat) (h : 0 ≤ i ∧ i < t.size) : (t.widen k).get? i = t.get? i := by
  have hlt : i.toNat < t.size := by omega
  rw [get?, get?, index?_widen k h, index?, resolve?_of_nonneg h.1 h.2]
  exact Array.getElem?_append_left hlt

/-- Overwriting an old cell does not depend on the new ones. -/
theorem put_widen {j : Nat} (k : Nat) (hj : j < t.size) (b : UInt8) :
    (t.widen k).put j b = (t.put j b).widen k :=
  congrArg Tape.mk (Array.setIfInBounds_append_left hj)

private theorem modify_append {c : Array UInt8} {j : Nat} (hj : j < c.size) (r : Array UInt8)
    (f : UInt8 → UInt8) : (c ++ r).modify j f = c.modify j f ++ r := by
  apply Array.ext_getElem?
  intro i
  by_cases hi : i < c.size
  · rw [Array.getElem?_append_left (by rw [Array.size_modify]; exact hi),
      Array.getElem?_modify, Array.getElem?_modify, Array.getElem?_append_left hi]
  · have hne : j ≠ i := fun hji => hi (hji ▸ hj)
    rw [Array.getElem?_modify, if_neg hne, Array.getElem?_append_right (by omega),
      Array.getElem?_append_right (by rw [Array.size_modify]; omega), Array.size_modify]

/-- Nor does adding to an old cell. -/
theorem shift_widen {j : Nat} (k : Nat) (hj : j < t.size) (n : Int) :
    (t.widen k).shift j n = (t.shift j n).widen k :=
  congrArg Tape.mk (modify_append hj _ _)

end Tape

/-- The same fault on a tape that is `k` cells longer. -/
def Fault.widen (k : Nat) : Fault → Fault
  | .outOfBounds pointer tapeLen ip output => .outOfBounds pointer (tapeLen + k) ip output
  | why => why

/-- The machine with `k` zero cells after its last. -/
def Machine.widen (k : Nat) (m : Machine) : Machine := { m with tape := m.tape.widen k }

/-- The result of an operation, on a tape of `k` more cells. -/
def Attempt.widen (k : Nat) : Attempt → Attempt
  | .done m => .done (m.widen k)
  | .failed why m => .failed (why.widen k) (m.widen k)

/-- How far a run has got, on a tape of `k` more cells. -/
def Progress.widen (k : Nat) : Progress → Progress
  | .running m => .running (m.widen k)
  | .halted m => .halted (m.widen k)
  | .failed why m => .failed (why.widen k) (m.widen k)

/-! ## One step -/

namespace Machine

variable {m : Machine}

/-- On an old cell, the machine sees the same byte. -/
theorem cell?_widen (k : Nat) (h : 0 ≤ m.dp ∧ m.dp < m.tape.size) :
    (m.widen k).cell? = m.cell? :=
  Tape.get?_widen k h

/-- The current cell has one index on both tapes. -/
theorem index?_widen (k : Nat) (h : 0 ≤ m.dp ∧ m.dp < m.tape.size) :
    (m.widen k).tape.index? (m.widen k).dp = some m.dp.toNat ∧
      m.tape.index? m.dp = some m.dp.toNat ∧ m.dp.toNat < m.tape.size := by
  have hm : m.tape.index? m.dp = some m.dp.toNat := resolve?_of_nonneg h.1 h.2
  exact ⟨(Tape.index?_widen k h).trans hm, hm, by omega⟩

/-- Adding to an old cell is the same on the wider tape. -/
theorem add_widen (k : Nat) (h : 0 ≤ m.dp ∧ m.dp < m.tape.size) (n : Int) :
    (m.widen k).add n = (m.add n).widen k := by
  obtain ⟨hw, hm, hlt⟩ := index?_widen k h
  rw [add, add, hw, hm]
  show Attempt.done { m with tape := (m.tape.widen k).shift m.dp.toNat n } = _
  rw [Tape.shift_widen k hlt]
  rfl

/-- So is emitting from one, whatever the sink. -/
theorem emit_widen (k : Nat) (h : 0 ≤ m.dp ∧ m.dp < m.tape.size) (sink : Sink) :
    (m.widen k).emit sink = (m.emit sink).widen k := by
  rw [emit, emit, cell?_widen k h]
  cases m.cell? with
  | none => rfl
  | some b =>
      cases sink with
      | collect => rfl
      | stream flush => rfl
      | consumer judge =>
          dsimp only
          rw [show (m.widen k).traffic = m.traffic from rfl]
          cases judge m.traffic.offered b with
          | accepted => rfl
          | refused why => rfl

/-- So is polling into one, whatever the reply. -/
theorem poll_widen (k : Nat) (h : 0 ≤ m.dp ∧ m.dp < m.tape.size) (source : Source) :
    (m.widen k).poll source = (m.poll source).widen k := by
  rw [poll, poll, show (m.widen k).traffic = m.traffic from rfl]
  cases source m.traffic.polls with
  | nothing => rfl
  | failure why => rfl
  | value n =>
      obtain ⟨hw, hm, hlt⟩ := index?_widen k h
      dsimp only
      rw [show ((m.widen k).heard (.value n)).tape.index? ((m.widen k).heard (.value n)).dp
        = some m.dp.toNat from hw,
        show (m.heard (.value n)).tape.index? (m.heard (.value n)).dp = some m.dp.toNat from hm]
      show Attempt.done { (m.heard (.value n)).widen k with
        tape := (m.tape.widen k).put m.dp.toNat (UInt8.ofInt n) } = _
      rw [Tape.put_widen k hlt]
      rfl

/-- A test of an old cell has the same answer. -/
theorem jumpIf_widen (k : Nat) (h : 0 ≤ m.dp ∧ m.dp < m.tape.size) (test : UInt8 → Bool)
    (target : Int) : (m.widen k).jumpIf test target = (m.jumpIf test target).widen k := by
  rw [jumpIf, jumpIf, cell?_widen k h]
  cases m.cell? with
  | none => rfl
  | some b =>
      dsimp only
      cases test b with
      | true => rfl
      | false => rfl

/-- A move that stays below the end of the shorter tape ends alike on both. -/
theorem move_widen (k : Nat) {n : Int} (h : m.dp + n < m.tape.size) :
    (m.widen k).move n = (m.move n).widen k := by
  have hsize : (m.widen k).tape.size = m.tape.size + k := Tape.size_widen k m.tape
  rw [move, move, hsize]
  show (if 0 ≤ m.dp + n ∧ m.dp + n < ((m.tape.size + k : Nat) : Int) then _ else _) = _
  by_cases h0 : 0 ≤ m.dp + n
  · rw [if_pos ⟨h0, by omega⟩, if_pos ⟨h0, h⟩]
    rfl
  · rw [if_neg (fun hc => h0 hc.1), if_neg (fun hc => h0 hc.1)]
    rfl

/-- The step asks for the first cell past the end. -/
def Overflows (d : Devices) (p : Program) (m : Machine) : Prop :=
  m.step d p = .failed (.outOfBounds m.tape.size m.tape.size m.ip m.output) m

/-- **An instruction does the same on a longer tape,** unless it is a move past
    the end of the shorter one. -/
theorem exec_widen (k : Nat) (h : 0 ≤ m.dp ∧ m.dp < m.tape.size) (d : Devices) (instr : Instr) :
    (m.widen k).exec d instr = (m.exec d instr).widen k ∨
    m.exec d instr = .failed (.outOfBounds m.tape.size m.tape.size m.ip m.output) m := by
  cases instr with
  | jumpIfZero target => exact Or.inl (jumpIf_widen k h _ target)
  | jumpIfNonzero target => exact Or.inl (jumpIf_widen k h _ target)
  | act a =>
      cases a with
      | inc => exact Or.inl (add_widen k h 1)
      | dec => exact Or.inl (add_widen k h (-1))
      | emit => exact Or.inl (emit_widen k h d.sink)
      | poll => exact Or.inl (poll_widen k h d.source)
      | left => exact Or.inl (move_widen k (by omega))
      | right =>
          by_cases hlt : m.dp + 1 < m.tape.size
          · exact Or.inl (move_widen k hlt)
          · refine Or.inr ?_
            show m.move 1 = _
            rw [move, if_neg (fun hc => hlt hc.2), show m.dp + 1 = m.tape.size by omega]

/-- One step from an old cell: both do the same, or the shorter tape is left at its
    right end. -/
theorem step_widen (k : Nat) (h : 0 ≤ m.dp ∧ m.dp < m.tape.size) (d : Devices) (p : Program) :
    (m.widen k).step d p = (m.step d p).widen k ∨ m.Overflows d p := by
  rw [Overflows, step, step, show (m.widen k).ip = m.ip from rfl]
  by_cases hend : (p.size : Int) ≤ m.ip
  · rw [if_pos hend, if_pos hend]
    exact Or.inl rfl
  · rw [if_neg hend, if_neg hend]
    cases p.get? m.ip with
    | none => exact Or.inl rfl
    | some instr =>
        dsimp only
        rcases exec_widen k h d instr with hx | hx
        · rw [hx]
          cases m.exec d instr with
          | done next => exact Or.inl rfl
          | failed why next => exact Or.inl rfl
        · rw [hx]
          exact Or.inr rfl

/-! ## Whole runs -/

/-- One machine is safe on `n` cells, the other is the same with `k` more. -/
structure Widens (p : Program) (n k : Nat) (m m' : Machine) : Prop where
  safe : m.Safe p n
  eq : m' = m.widen k

/-- Both have failed, alike but for the length of the tape. -/
def WidensFailed (k : Nat) (why : Fault) (m : Machine) (why' : Fault) (m' : Machine) : Prop :=
  why' = why.widen k ∧ m' = m.widen k

/-- What holds of machines on the two tapes is kept by a step, up to the first overflow.
    -/
theorem Widens.step {p : Program} {n k : Nat} {m m' : Machine} (hp : p.Closed)
    (h : Widens p n k m m') (d : Devices) :
    Progress.Related (Widens p n k) (WidensFailed k) (m.step d p) (m'.step d p) ∨
      m.Overflows d p := by
  obtain ⟨hsafe, rfl⟩ := h
  have hnext := hsafe.step hp (d := d)
  rcases step_widen k (by rw [hsafe.size]; exact hsafe.dp) d p with hs | hover
  · refine Or.inl ?_
    rw [hs]
    cases hm : m.step d p with
    | running next => rw [hm] at hnext; exact .running ⟨hnext, rfl⟩
    | halted next => rw [hm] at hnext; exact .halted ⟨hnext, rfl⟩
    | failed why next => exact .failed ⟨rfl, rfl⟩
  · exact Or.inr hover

/-- A run on the longer tape is the run on the shorter one, widened, unless that
    has failed at the first cell it lacks. -/
theorem runFor_widen {p : Program} {n : Nat} {m : Machine} (hp : p.Closed) (hm : m.Safe p n)
    (k : Nat) (d : Devices) (j : Nat) :
    (m.widen k).runFor d p j = (m.runFor d p j).widen k ∨
    ∃ ip output left, m.runFor d p j = .failed (.outOfBounds n n ip output) left := by
  have hstep : ∀ x x', Widens p n k x x' →
      Progress.Related (Widens p n k) (WidensFailed k) (x.step d p) (x'.step d p) ∨
        x.Overflows d p := by
    intro x x' hx
    exact hx.step hp d
  have hstart : Widens p n k m (m.widen k) := ⟨hm, rfl⟩
  rcases runFor_lockstep hstep j hstart with hrel | ⟨i, x, x', hi, hx, -, hR, hover⟩
  · refine Or.inl ?_
    generalize m.runFor d p j = r at hrel ⊢
    generalize (m.widen k).runFor d p j = r' at hrel ⊢
    cases hrel with
    | running h => rw [h.eq]; rfl
    | halted h => rw [h.eq]; rfl
    | failed h => rw [h.1, h.2]; rfl
  · refine Or.inr ⟨x.ip, x.output, x, ?_⟩
    rw [Overflows, hR.safe.size] at hover
    obtain ⟨i', rfl⟩ := Nat.exists_eq_add_of_lt hi
    rw [Nat.add_assoc, runFor_of_running hx, runFor_succ, hover]

/-- A fresh machine made wider is the fresh machine of the longer tape. -/
theorem widen_fresh (n k : Nat) : (fresh n).widen k = fresh (n + k) := by
  rw [widen, fresh, fresh, Tape.widen_blank]

/-- At halt the longer tape shows its new cells, all zero. -/
theorem snapshot_widen (m : Machine) (k : Nat) :
    (m.widen k).snapshot
      = { m.snapshot with tape := m.snapshot.tape ++ Array.replicate k 0 } := by
  simp [snapshot, widen, Tape.widen]

end Machine

/-- **A longer tape changes nothing until the shorter one overflows.**  Of two
    machines set up for one program, on `n` cells and on as many or more, the
    runs are in lockstep for any number of steps, the longer tape being the
    shorter one followed by zeros and all else the same, unless the shorter run
    has failed within that number with a move to cell `n`.  So if the shorter
    run halts, the longer one halts with the same record but for the zeros; and
    if the shorter run fails with a move to cell `-1`, so does the longer one, at
    the same instruction and with the same output. -/
theorem longer_tape (d : Devices) {p : Program} {n l : Int} {a b : Machine}
    (ha : Machine.boot p n = .ok a) (hb : Machine.boot p l = .ok b) (hnl : n ≤ l) :
    (∀ j, b.runFor d p j = (a.runFor d p j).widen (l - n).toNat ∨
      ∃ ip output left, a.runFor d p j = .failed (.outOfBounds n n.toNat ip output) left) ∧
    (∀ a', a.Halts d p a' → ∃ b', b.Halts d p b' ∧
      b'.snapshot = { a'.snapshot with
        tape := a'.snapshot.tape ++ Array.replicate (l - n).toNat 0 }) ∧
    ∀ ip output left, a.Fails d p (.outOfBounds (-1) n.toNat ip output) left →
      b.Fails d p (.outOfBounds (-1) l.toNat ip output) (left.widen (l - n).toNat) := by
  obtain ⟨hp, hn, -, rfl⟩ := Machine.boot_eq_ok_iff.mp ha
  obtain ⟨-, -, -, rfl⟩ := Machine.boot_eq_ok_iff.mp hb
  have hsum : n.toNat + (l - n).toNat = l.toNat := by omega
  have hl : Machine.fresh l.toNat = (Machine.fresh n.toNat).widen (l - n).toNat := by
    rw [Machine.widen_fresh, hsum]
  have hcast : ((n.toNat : Nat) : Int) = n := Int.toNat_of_nonneg (by omega)
  have hlock := Machine.runFor_widen hp (Machine.safe_fresh p (n := n.toNat) (by omega))
    (l - n).toNat d
  rw [hcast, ← hl] at hlock
  refine ⟨hlock, ?_, ?_⟩
  · rintro a' ⟨j, hj⟩
    rcases hlock j with hrun | ⟨ip, output, left, hfail⟩
    · rw [hj] at hrun
      exact ⟨_, ⟨j, hrun⟩, a'.snapshot_widen _⟩
    · exact nomatch hj.symm.trans hfail
  · rintro ip output left ⟨j, hj⟩
    rcases hlock j with hrun | ⟨ip', output', left', hfail⟩
    · rw [hj] at hrun
      refine ⟨j, hrun.trans ?_⟩
      show Progress.failed (.outOfBounds (-1) (n.toNat + (l - n).toNat) ip output) _ = _
      rw [hsum]
    · -- a move to `-1` is none to cell `n`
      cases hj.symm.trans hfail
      omega

/-- A program that uses two cells and then moves off the tape to the left does
    so on five cells as on two. -/
theorem longer_tape_left_edge :
    ∃ p a b left, p = (⟨#[.act .right, .act .inc, .act .emit, .act .left, .act .left]⟩ : Program) ∧
      Machine.boot p 2 = .ok a ∧ Machine.boot p 5 = .ok b ∧
      a.Fails ⟨Source.exhausted, .collect⟩ p (.outOfBounds (-1) 2 4 #[1]) left ∧
      b.Fails ⟨Source.exhausted, .collect⟩ p (.outOfBounds (-1) 5 4 #[1]) (left.widen 3) := by
  have ha : Machine.boot ⟨#[.act .right, .act .inc, .act .emit, .act .left, .act .left]⟩ 2
      = .ok (Machine.fresh 2) := by decide
  have hb : Machine.boot ⟨#[.act .right, .act .inc, .act .emit, .act .left, .act .left]⟩ 5
      = .ok (Machine.fresh 5) := by decide
  obtain ⟨-, -, hleft⟩ := longer_tape ⟨Source.exhausted, .collect⟩ ha hb (by decide)
  have hfails : (Machine.fresh 2).Fails ⟨Source.exhausted, .collect⟩
      ⟨#[.act .right, .act .inc, .act .emit, .act .left, .act .left]⟩
      (.outOfBounds (-1) 2 4 #[1]) _ := ⟨5, rfl⟩
  exact ⟨_, _, _, _, rfl, ha, hb, hfails, hleft _ _ _ hfails⟩

end ByteTape
