import ByteTape.Machine.Operation
import ByteTape.Machine.Run

/-! # Operations that fail

    An operation looks before it changes anything: a move at the place it would
    come to, an emission at the cell it would write out.  Only a poll asks first
    and looks for a cell second.  So what fails has changed nothing in the machine
    itself, and at most one exchange with a device stands on record.

    * `Operation.plain` — the operation behind an action;
    * `Operation.UsesCell` — what cannot be done without the current cell;
    * `Machine.Refuses` — every way to fail, with its cause and with the machine
      that it leaves behind.

    `perform_eq_failed_iff` says that there are no other ways, and that each of them
    does occur; what a failure leaves alone, and when it arises, is read off the
    list. -/

namespace ByteTape

namespace Operation

/-- The operation behind an action; every other operation stands for itself. -/
def plain : Operation → Operation
  | .exec (.act .inc) => .add 1
  | .exec (.act .dec) => .add (-1)
  | .exec (.act .right) => .move 1
  | .exec (.act .left) => .move (-1)
  | .exec (.act .emit) => .emit
  | .exec (.act .poll) => .poll
  | op => op

/-- The operations that look at the current cell whatever happens. -/
inductive NeedsCell : Operation → Prop where
  | add (n : Int) : NeedsCell (.add n)
  | look : NeedsCell .look
  | emit : NeedsCell .emit
  | opener (target : Int) : NeedsCell (.exec (.jumpIfZero target))
  | closer (target : Int) : NeedsCell (.exec (.jumpIfNonzero target))

/-- The operation makes use of the current cell.  A poll does when it is given a
    value, and not otherwise. -/
def UsesCell (d : Devices) (m : Machine) (op : Operation) : Prop :=
  op.plain.NeedsCell ∨ op.plain = .poll ∧ ∃ v, d.source m.traffic.polls = .value v

theorem plain_eq_assign {op : Operation} {i v : Int} (h : op.plain = .assign i v) :
    op = .assign i v := by
  cases op with
  | exec instr =>
      cases instr with
      | jumpIfZero target => exact h
      | jumpIfNonzero target => exact h
      | act a => cases a <;> exact nomatch h
  | _ => exact h

end Operation

namespace Machine

variable {d : Devices} {m left : Machine} {why : Fault}

/-! ## The ways to fail -/

/-- How an operation fails, and what it leaves behind. -/
inductive Refuses (d : Devices) (m : Machine) : Operation → Fault → Machine → Prop where
  /-- A move would leave the tape. -/
  | offTape {n : Int} (h : ¬ (0 ≤ m.dp + n ∧ m.dp + n < m.tape.size)) :
      Refuses d m (.move n) (.outOfBounds (m.dp + n) m.tape.size m.ip m.output) m
  /-- There is no current cell to look at. -/
  | noCell {op : Operation} (hop : op.NeedsCell) (h : m.cell? = none) :
      Refuses d m op .noSuchCell m
  /-- There is no current cell for the value that the source has given. -/
  | noRoom {v : Int} (hreply : d.source m.traffic.polls = .value v) (h : m.cell? = none) :
      Refuses d m .poll .noSuchCell (m.heard (.value v))
  /-- The source fails. -/
  | source {text : String} (hreply : d.source m.traffic.polls = .failure text) :
      Refuses d m .poll (.source text) (m.heard (.failure text))
  /-- The sink refuses the byte in the current cell. -/
  | sink {judge : Array UInt8 → UInt8 → Verdict} {b : UInt8} {text : String}
      (hsink : d.sink = .consumer judge) (hb : m.cell? = some b)
      (hverdict : judge m.traffic.offered b = .refused text) :
      Refuses d m .emit (.sink text) (m.rebuffed b)
  /-- An assigned position is none at all. -/
  | noPosition {i v : Int} (hi : i < -wordBound ∨ wordBound ≤ i) :
      Refuses d m (.assign i v) .noSuchCell m
  /-- An assigned value is no byte. -/
  | notAByte {i v : Int} (hi : ¬ (i < -wordBound ∨ wordBound ≤ i)) (hv : v < 0 ∨ 256 ≤ v) :
      Refuses d m (.assign i v) .notAByte m
  /-- An assigned position is off the tape. -/
  | noPlace {i v : Int} (hi : ¬ (i < -wordBound ∨ wordBound ≤ i)) (hv : ¬ (v < 0 ∨ 256 ≤ v))
      (hplace : m.tape.index? i = none) : Refuses d m (.assign i v) .noSuchCell m

theorem cell?_eq_none_iff_index? : m.cell? = none ↔ m.tape.index? m.dp = none := by
  rw [cell?, Tape.get?]
  cases hk : m.tape.index? m.dp with
  | none => simp
  | some k =>
      have hlt : k < m.tape.cells.size := resolve?_lt hk
      simp [Array.getElem?_eq_getElem hlt]

/-- There is a current cell exactly when the data pointer is in `[-N, N)`. -/
theorem cell?_eq_none_iff :
    m.cell? = none ↔ ¬ (-(m.tape.size : Int) ≤ m.dp ∧ m.dp < m.tape.size) := by
  rw [cell?_eq_none_iff_index?, ← resolve?_isSome_iff, Tape.index?, Option.not_isSome_iff_eq_none]

/-- All that an operation on the current cell can lack is the cell, unless the cell is
    handed to the sink. -/
theorem refuses_iff_of_needsCell {op : Operation} (hop : op.NeedsCell) (hemit : op ≠ .emit) :
    m.Refuses d op why left ↔ m.cell? = none ∧ why = .noSuchCell ∧ left = m := by
  constructor
  · intro h
    cases h with
    | noCell _ hcell => exact ⟨hcell, rfl, rfl⟩
    | sink _ _ _ => exact absurd rfl hemit
    | _ => cases hop
  · rintro ⟨hcell, rfl, rfl⟩
    exact .noCell hop hcell

/-- An addition fails exactly when it is refused, and in the same way. -/
theorem add_eq_failed_iff {n : Int} :
    m.add n = .failed why left ↔ m.Refuses d (.add n) why left := by
  rw [refuses_iff_of_needsCell (.add n) (by simp), cell?_eq_none_iff_index?, add]
  cases m.tape.index? m.dp with
  | none => simp [eq_comm]
  | some k => simp

/-- A bracket is refused for want of a cell only, whatever it tests. -/
theorem jumpIf_eq_failed_iff {op : Operation} (hop : op.NeedsCell) (hemit : op ≠ .emit)
    (test : UInt8 → Bool) (target : Int) :
    m.jumpIf test target = .failed why left ↔ m.Refuses d op why left := by
  rw [refuses_iff_of_needsCell hop hemit, jumpIf]
  cases m.cell? with
  | none => simp [eq_comm]
  | some b => simp

theorem look_eq_failed_iff :
    m.perform d .look = .failed why left ↔ m.Refuses d .look why left := by
  rw [refuses_iff_of_needsCell .look (by simp), perform, cell]
  cases m.cell? with
  | none => simp [eq_comm]
  | some b => simp

theorem move_eq_failed_iff {n : Int} :
    m.move n = .failed why left ↔ m.Refuses d (.move n) why left := by
  rw [move]
  constructor
  · intro h
    by_cases hon : 0 ≤ m.dp + n ∧ m.dp + n < m.tape.size
    · rw [if_pos hon] at h
      exact nomatch h
    · rw [if_neg hon] at h
      cases h
      exact .offTape hon
  · intro h
    cases h with
    | offTape hoff => rw [if_neg hoff]
    | noCell hop _ => cases hop

/-- An emission is refused by the tape or by the sink, and fails in no other way. -/
theorem emit_eq_failed_iff :
    m.emit d.sink = .failed why left ↔ m.Refuses d .emit why left := by
  rw [emit]
  constructor
  · intro h
    cases hb : m.cell? with
    | none =>
        rw [hb] at h
        cases h
        exact .noCell .emit hb
    | some b =>
        rw [hb] at h
        cases hsink : d.sink with
        | collect => rw [hsink] at h; exact nomatch h
        | stream flush => rw [hsink] at h; exact nomatch h
        | consumer judge =>
            rw [hsink] at h
            dsimp only at h
            cases hverdict : judge m.traffic.offered b with
            | accepted => rw [hverdict] at h; exact nomatch h
            | refused text =>
                rw [hverdict] at h
                cases h
                exact .sink hsink hb hverdict
  · intro h
    cases h with
    | noCell _ hb => rw [hb]
    | sink hsink hb hverdict =>
        rw [hb, hsink]
        dsimp only
        rw [hverdict]

/-- A poll asks before it looks for a cell: its reply is on record either way. -/
theorem poll_eq_failed_iff :
    m.poll d.source = .failed why left ↔ m.Refuses d .poll why left := by
  rw [poll]
  constructor
  · intro h
    cases hreply : d.source m.traffic.polls with
    | nothing => rw [hreply] at h; exact nomatch h
    | failure text =>
        rw [hreply] at h
        cases h
        exact .source hreply
    | value v =>
        rw [hreply] at h
        dsimp only at h
        cases hk : (m.heard (.value v)).tape.index? (m.heard (.value v)).dp with
        | some k => rw [hk] at h; exact nomatch h
        | none =>
            rw [hk] at h
            cases h
            exact .noRoom hreply (cell?_eq_none_iff_index?.mpr hk)
  · intro h
    cases h with
    | noCell hop _ => cases hop
    | source hreply => rw [hreply]
    | @noRoom v hreply hcell =>
        have hk : (m.heard (.value v)).tape.index? (m.heard (.value v)).dp = none :=
          cell?_eq_none_iff_index?.mp hcell
        rw [hreply]
        dsimp only
        rw [hk]

theorem assign_eq_failed_iff {i v : Int} :
    m.assign i v = .failed why left ↔ m.Refuses d (.assign i v) why left := by
  rw [assign]
  constructor
  · intro h
    by_cases hi : i < -wordBound ∨ wordBound ≤ i
    · rw [if_pos hi] at h
      cases h
      exact .noPosition hi
    by_cases hv : v < 0 ∨ 256 ≤ v
    · rw [if_neg hi, if_pos hv] at h
      cases h
      exact .notAByte hi hv
    rw [if_neg hi, if_neg hv] at h
    cases hplace : m.tape.index? i with
    | some k => rw [hplace] at h; exact nomatch h
    | none =>
        rw [hplace] at h
        cases h
        exact .noPlace hi hv hplace
  · intro h
    cases h with
    | noCell hop _ => cases hop
    | noPosition hi => rw [if_pos hi]
    | notAByte hi hv => rw [if_neg hi, if_pos hv]
    | noPlace hi hv hplace => rw [if_neg hi, if_neg hv, hplace]

/-- What only assigns a pointer never fails. -/
theorem done_eq_failed_iff {op : Operation} (next : Machine)
    (hop : ∀ why left, ¬ m.Refuses d op why left) :
    Attempt.done next = .failed why left ↔ m.Refuses d op why left := by
  simp [hop]

/-- **An operation fails in the ways listed, and in no other.** -/
theorem perform_eq_failed_iff {op : Operation} :
    m.perform d op = .failed why left ↔ m.Refuses d op.plain why left := by
  cases op with
  | exec instr =>
      cases instr with
      | jumpIfZero target => exact jumpIf_eq_failed_iff (.opener target) (by simp) _ target
      | jumpIfNonzero target => exact jumpIf_eq_failed_iff (.closer target) (by simp) _ target
      | act a =>
          cases a with
          | inc => exact add_eq_failed_iff
          | dec => exact add_eq_failed_iff
          | right => exact move_eq_failed_iff
          | left => exact move_eq_failed_iff
          | emit => exact emit_eq_failed_iff
          | poll => exact poll_eq_failed_iff
  | add n => exact add_eq_failed_iff
  | move n => exact move_eq_failed_iff
  | look => exact look_eq_failed_iff
  | poll => exact poll_eq_failed_iff
  | emit => exact emit_eq_failed_iff
  | assign i v => exact assign_eq_failed_iff
  | jump target => exact done_eq_failed_iff _ (by rintro _ _ ⟨⟩; contradiction)
  | setIp i => exact done_eq_failed_iff _ (by rintro _ _ ⟨⟩; contradiction)
  | setDp i => exact done_eq_failed_iff _ (by rintro _ _ ⟨⟩; contradiction)

/-- A step fails as its instruction does. -/
theorem step_eq_failed_iff {p : Program} {instr : Instr} (hi : p.get? m.ip = some instr) :
    m.step d p = .failed why left ↔ m.Refuses d (Operation.exec instr).plain why left := by
  rw [← perform_eq_failed_iff, step, if_neg (Int.not_le.mpr (Program.lt_size_of_get? hi)), hi,
    perform]
  dsimp only
  cases m.exec d instr with
  | done next => simp
  | failed why' next => simp

/-! ## What a failure leaves alone -/

/-- The machine itself is as it was, and so is what its sink has taken.  Only the
    record of what was asked and offered may have grown. -/
structure Untouched (m left : Machine) : Prop where
  tape : left.tape = m.tape
  dp : left.dp = m.dp
  ip : left.ip = m.ip
  steps : left.steps = m.steps
  output : left.output = m.output
  accepted : left.traffic.accepted = m.traffic.accepted
  flushes : left.traffic.flushes = m.traffic.flushes

namespace Refuses

variable {op : Operation}

/-- **Whatever is refused leaves the machine as it was.** -/
theorem untouched (h : m.Refuses d op why left) : m.Untouched left := by
  cases h <;> exact ⟨rfl, rfl, rfl, rfl, rfl, rfl, rfl⟩

/-- Only a poll has asked, and it has asked once. -/
theorem polls (h : m.Refuses d op why left) :
    left.traffic.polls = m.traffic.polls ∨
      op = .poll ∧ left.traffic.polls = m.traffic.polls + 1 := by
  cases h with
  | noRoom _ _ => exact Or.inr ⟨rfl, rfl⟩
  | source _ => exact Or.inr ⟨rfl, rfl⟩
  | _ => exact Or.inl rfl

/-- Only an emission has offered a byte, and this was the current one. -/
theorem offered (h : m.Refuses d op why left) :
    left.traffic.offered = m.traffic.offered ∨
      op = .emit ∧ ∃ b, m.cell? = some b ∧
        left.traffic.offered = m.traffic.offered.push b := by
  cases h with
  | sink _ hb _ => exact Or.inr ⟨rfl, _, hb, rfl⟩
  | _ => exact Or.inl rfl

end Refuses

/-- Apart from assignments, a cell is missed by those that use the current one, and
    exactly when there is none. -/
theorem exists_refuses_noSuchCell_iff {op : Operation} (hop : ∀ i v, op ≠ .assign i v) :
    (∃ left, m.Refuses d op.plain .noSuchCell left) ↔ op.UsesCell d m ∧ m.cell? = none := by
  constructor
  · rintro ⟨left, h⟩
    generalize hplain : op.plain = o at h
    cases h with
    | noCell hneeds hcell =>
        rw [← hplain] at hneeds
        exact ⟨Or.inl hneeds, hcell⟩
    | noRoom hreply hcell => exact ⟨Or.inr ⟨hplain, _, hreply⟩, hcell⟩
    | noPosition _ => exact absurd (Operation.plain_eq_assign hplain) (hop _ _)
    | noPlace _ _ _ => exact absurd (Operation.plain_eq_assign hplain) (hop _ _)
  · rintro ⟨hneeds | ⟨hpoll, v, hreply⟩, hcell⟩
    · exact ⟨m, .noCell hneeds hcell⟩
    · rw [hpoll]
      exact ⟨m.heard (.value v), .noRoom hreply hcell⟩

theorem refuses_move_iff {n : Int} :
    m.Refuses d (.move n) why left ↔ ¬ (0 ≤ m.dp + n ∧ m.dp + n < m.tape.size) ∧
      why = .outOfBounds (m.dp + n) m.tape.size m.ip m.output ∧ left = m := by
  constructor
  · intro h
    cases h with
    | offTape hoff => exact ⟨hoff, rfl, rfl⟩
    | noCell hop _ => cases hop
  · rintro ⟨hoff, rfl, rfl⟩
    exact .offTape hoff

end Machine

/-- **A failing operation is atomic.**  Whatever the state of the machine, with its
    pointers on the tape or not: an operation that fails leaves the tape, both pointers,
    the bytes kept and those its sink has taken as they were; it has taken a reply only
    if it polls, and one at most; and it has offered a byte to the sink only if it emits
    and there is a current cell.  Apart from an assignment to a cell, an operation fails
    for want of a cell exactly when it uses the current one and the data pointer is
    outside `[-N, N)`.  A move fails exactly when it would lead outside `[0, N)`, and then
    the fault says where it would have led and where the machine stands; a jump never
    fails. -/
theorem failure_atomic (d : Devices) (op : Operation) (m : Machine) :
    (∀ why left, m.perform d op = .failed why left →
      m.Untouched left ∧
      (left.traffic.polls = m.traffic.polls ∨
        op.plain = .poll ∧ left.traffic.polls = m.traffic.polls + 1) ∧
      (left.traffic.offered = m.traffic.offered ∨
        op.plain = .emit ∧ ∃ b, m.cell? = some b ∧
          left.traffic.offered = m.traffic.offered.push b)) ∧
    ((∀ i v, op ≠ .assign i v) →
      ((∃ left, m.perform d op = .failed .noSuchCell left) ↔
        op.UsesCell d m ∧ ¬ (-(m.tape.size : Int) ≤ m.dp ∧ m.dp < m.tape.size))) ∧
    (∀ n, op.plain = .move n → ∀ why left,
      (m.perform d op = .failed why left ↔
        ¬ (0 ≤ m.dp + n ∧ m.dp + n < m.tape.size) ∧
          why = .outOfBounds (m.dp + n) m.tape.size m.ip m.output ∧ left = m)) ∧
    ∀ target why left, m.perform d (.jump target) ≠ .failed why left := by
  refine ⟨?_, ?_, ?_, ?_⟩
  · intro why left h
    have hrefuses := Machine.perform_eq_failed_iff.mp h
    exact ⟨hrefuses.untouched, hrefuses.polls, hrefuses.offered⟩
  · intro hop
    rw [← Machine.cell?_eq_none_iff, ← Machine.exists_refuses_noSuchCell_iff hop]
    exact exists_congr fun left => Machine.perform_eq_failed_iff
  · intro n hmove why left
    rw [Machine.perform_eq_failed_iff, hmove]
    exact Machine.refuses_move_iff
  · intro target why left h
    exact nomatch h

/-- With the data pointer just past the only cell, a poll loses the value it was given
    and a move to the left succeeds. -/
theorem failure_atomic_value_lost :
    ∃ m left, m = (Machine.fresh 1).setDp 1 ∧
      m.perform ⟨Source.ofBytes #[7], .collect⟩ (.exec (.act .poll)) = .failed .noSuchCell left ∧
      m.Untouched left ∧ left.traffic.polls = 1 ∧
      (Operation.exec (.act .poll)).UsesCell ⟨Source.ofBytes #[7], .collect⟩ m ∧
      ¬ (-(m.tape.size : Int) ≤ m.dp ∧ m.dp < m.tape.size) ∧
      ∀ why left, m.perform ⟨Source.ofBytes #[7], .collect⟩ (.exec (.act .left))
        ≠ .failed why left := by
  obtain ⟨left, hleft⟩ : ∃ left, ((Machine.fresh 1).setDp 1).perform
      ⟨Source.ofBytes #[7], .collect⟩ (.exec (.act .poll)) = .failed .noSuchCell left := ⟨_, rfl⟩
  obtain ⟨hkept, hcell, -⟩ := failure_atomic ⟨Source.ofBytes #[7], .collect⟩
    (.exec (.act .poll)) ((Machine.fresh 1).setDp 1)
  obtain ⟨-, -, hmove, -⟩ := failure_atomic ⟨Source.ofBytes #[7], .collect⟩
    (.exec (.act .left)) ((Machine.fresh 1).setDp 1)
  obtain ⟨huntouched, -, -⟩ := hkept _ _ hleft
  obtain ⟨huses, hoff⟩ := (hcell (by simp)).mp ⟨left, hleft⟩
  refine ⟨_, left, rfl, hleft, huntouched, ?_, huses, hoff, ?_⟩
  · cases hleft
    rfl
  · intro why left h
    exact ((hmove (-1) rfl why left).mp h).1 (by decide)

end ByteTape
