import ByteTape.Proofs.Displacement
import ByteTape.Proofs.Frame

/-! # Cells named from the end

    A cell has two positions: its index, and the negative number that counts it from the end
    of the tape.  The data pointer may be put on either.

    * `Machine.AtMove`, `Machine.NoMoveBefore` — the next instruction moves the data pointer,
      and none has done so yet;
    * `Machine.Aliases` — two machines whose data pointers name one cell, the first of them
      from the end;
    * `Machine.Aliases.step` — one step keeps them so, unless it is a move.

    Whatever looks at the current cell does the same for both names, and so the two runs go
    in lockstep.  A move looks at the plain sum: from a negative position it leaves the tape,
    unless it goes from `-1` to `0`.  There the pointer has come to an index, and all later
    moves keep it on one (`Reaches.dp_onTape`). -/

namespace ByteTape

/-- A cell counted from the end has another position, counted from the front. -/
theorem Tape.index?_add_size {t : Tape} {i : Int} (hlow : -(t.size : Int) ≤ i) (hhigh : i < 0) :
    t.index? (i + t.size) = t.index? i := by
  rw [index?, index?, resolve?_of_neg hlow hhigh, resolve?_of_nonneg (by omega) (by omega)]

@[simp] theorem Instr.relocate_zero (instr : Instr) : instr.relocate 0 = instr := by
  cases instr <;> simp [relocate]

namespace Machine

variable {d : Devices} {p : Program} {m m' : Machine}

/-- The next instruction moves the data pointer. -/
def AtMove (p : Program) (m : Machine) : Prop := ∃ instr, p.get? m.ip = some instr ∧ instr.Moves

/-- None of the first `j` steps is a move. -/
def NoMoveBefore (d : Devices) (p : Program) (j : Nat) (m : Machine) : Prop :=
  ∀ i < j, ∀ x, m.runFor d p i = .running x → ¬ x.AtMove p

/-! ## The data pointer -/

/-- The operation behind an instruction that is no move is none either. -/
theorem plain_ne_move {instr : Instr} (h : ¬ instr.Moves) (n : Int) :
    (Operation.exec instr).plain ≠ .move n := by
  intro hplain
  cases instr with
  | jumpIfZero target => exact nomatch hplain
  | jumpIfNonzero target => exact nomatch hplain
  | act a =>
      cases a with
      | right => exact h trivial
      | left => exact h trivial
      | _ => exact nomatch hplain

/-- An instruction that is no move leaves the data pointer alone. -/
theorem dp_exec {instr : Instr} (h : ¬ instr.Moves) (d : Devices) (m : Machine) :
    (m.exec d instr).machine.dp = m.dp := by
  have hleads : (Operation.exec instr).plain.leads? m = none := by
    cases instr with
    | jumpIfZero target => rfl
    | jumpIfNonzero target => rfl
    | act a =>
        cases a with
        | right => exact absurd trivial h
        | left => exact absurd trivial h
        | _ => rfl
  have hframed := framed_perform d (.exec instr) m
  rw [perform] at hframed
  cases hx : m.exec d instr with
  | done next =>
      rw [hx] at hframed
      have hdp : next.dp = ((Operation.exec instr).plain.leads? m).getD m.dp := hframed.dp
      rw [hleads] at hdp
      exact hdp
  | failed why left =>
      rw [hx] at hframed
      exact hframed.dp

/-- A move that succeeds leads to an index. -/
theorem dp_move (n : Int) (m : Machine) :
    (m.move n).machine.dp = m.dp ∨
      0 ≤ (m.move n).machine.dp ∧ (m.move n).machine.dp < m.tape.size := by
  rw [move]
  split
  · next hon => exact Or.inr hon
  · exact Or.inl rfl

/-- A step that is no move leaves the data pointer alone, and a move leads to an index if it
    leads anywhere. -/
theorem dp_step (d : Devices) (p : Program) (m : Machine) :
    (m.step d p).machine.dp = m.dp ∨
      m.AtMove p ∧ 0 ≤ (m.step d p).machine.dp ∧ (m.step d p).machine.dp < m.tape.size := by
  cases hi : p.get? m.ip with
  | none => exact Or.inl (congrArg dp (machine_step_of_get?_eq_none hi d))
  | some instr =>
      rw [machine_step_of_get? (f := dp) (fun _ => rfl) hi]
      by_cases hmoves : instr.Moves
      · have hmove : ∃ n, m.exec d instr = m.move n := by
          cases instr with
          | jumpIfZero target => exact hmoves.elim
          | jumpIfNonzero target => exact hmoves.elim
          | act a =>
              cases a with
              | right => exact ⟨1, rfl⟩
              | left => exact ⟨-1, rfl⟩
              | _ => exact hmoves.elim
        obtain ⟨n, hn⟩ := hmove
        rw [hn]
        exact (dp_move n m).imp_right fun hon => ⟨⟨instr, hi, hmoves⟩, hon⟩
      · exact Or.inl (dp_exec hmoves d m)

theorem size_step (d : Devices) (p : Program) (m : Machine) :
    (m.step d p).machine.tape.size = m.tape.size := by
  cases hi : p.get? m.ip with
  | none => rw [machine_step_of_get?_eq_none hi]
  | some instr =>
      rw [machine_step_of_get? (f := tape) (fun _ => rfl) hi]
      exact size_perform d (.exec instr) m

/-- **A pointer that is on the tape stays on it,** whatever runs lead to. -/
theorem Reaches.dp_onTape {later : Machine} (h : Reaches d p m later) {n : Nat}
    (hsize : m.tape.size = n) (hdp : 0 ≤ m.dp ∧ m.dp < n) : 0 ≤ later.dp ∧ later.dp < n := by
  refine (h.of_step (P := fun x => x.tape.size = n ∧ 0 ≤ x.dp ∧ x.dp < n) ?_ ⟨hsize, hdp⟩).2
  rintro x ⟨hx, hon⟩
  refine ⟨(size_step d p x).trans hx, ?_⟩
  rcases dp_step d p x with hsame | ⟨-, hon'⟩
  · rw [hsame]
    exact hon
  · rw [hx] at hon'
    exact hon'

/-! ## The first move -/

/-- From a negative position a move leaves the tape, unless it comes to `0`. -/
theorem step_move_failed {instr : Instr} {n : Int} (hi : p.get? m.ip = some instr)
    (hplain : (Operation.exec instr).plain = .move n) (hoff : m.dp + n < 0) (d : Devices) :
    m.step d p = .failed (.outOfBounds (m.dp + n) m.tape.size m.ip m.output) m := by
  rw [step_eq_failed_iff hi, hplain]
  exact .offTape (by omega)

/-- From `-1` a move to the right leads to the first cell. -/
theorem step_right_last (hi : p.get? m.ip = some (.act .right)) (hdp : m.dp = -1)
    (hsize : 0 < m.tape.size) (d : Devices) :
    m.step d p = .running { m with dp := 0 }.advance := by
  have hexec : m.exec d (.act .right) = .done { m with dp := 0 } := by
    show m.move 1 = _
    rw [move, hdp]
    exact if_pos ⟨Int.le_refl 0, Int.natCast_pos.mpr hsize⟩
  rw [step, if_neg (Int.not_le.mpr (Program.lt_size_of_get? hi)), hi]
  dsimp only
  rw [hexec]

/-! ## The two runs -/

/-- The data pointer of one machine is `x`, counted from the end of `n` cells, and the other
    names the same cell from the front. -/
structure Aliases (n : Nat) (x : Int) (past : List Event) (m m' : Machine) : Prop where
  displaced : Displaced 0 n past m m'
  size : m.tape.size = n
  dp : m.dp = x

/-- Both have failed, for the same cause. -/
def AliasesFailed (n : Nat) (past : List Event) (why : Fault) (m : Machine) (why' : Fault)
    (m' : Machine) : Prop :=
  why' = why ∧ Displaced 0 n past m m'

/-- Only a fault of a move depends on the pointers. -/
theorem Refuses.displace_eq {op : Operation} {why : Fault} {left : Machine}
    (h : m.Refuses d op why left) (hop : ∀ n, op ≠ .move n) (a b : Int) :
    why.displace a b = why := by
  cases h with
  | offTape _ => exact absurd rfl (hop _)
  | _ => rfl

/-- **One step below zero:** unless it moves, both machines take it alike. -/
theorem Aliases.step {n : Nat} {x : Int} {past : List Event} (hlow : -(n : Int) ≤ x)
    (hhigh : x ≤ -1) (h : Aliases n x past m m') (hstay : ¬ m.AtMove p) (d : Devices) :
    Progress.Related (Aliases n x past) (AliasesFailed n past) (m.step d p) (m'.step d p) := by
  have hmove : ∀ instr, p.get? m.ip = some instr → ¬ instr.Moves :=
    fun instr hi hmoves => hstay ⟨instr, hi, hmoves⟩
  have hget : p.get? m'.ip = (p.get? m.ip).map (Instr.relocate 0) := by
    rw [h.displaced.ip, Int.add_zero]
    cases p.get? m.ip with
    | none => rfl
    | some instr => exact congrArg some instr.relocate_zero.symm
  -- a negative pointer counts from the end, so both name one cell
  have hplace : m'.tape.index? m'.dp = m.tape.index? m.dp := by
    rw [h.displaced.tape, h.displaced.dp, ← h.size]
    have hdp := h.dp
    have hsize := h.size
    exact Tape.index?_add_size (by omega) (by omega)
  have hstep := h.displaced.step (Int.add_zero _).symm hget hplace
    (fun instr hi hmoves => absurd hmoves (hmove instr hi)) d
  refine hstep.imp ?_ ?_
  · rintro y y' rfl hy
    have hdp : (m.step d p).machine.dp = m.dp :=
      (dp_step d p m).resolve_right fun hat => hstay hat.1
    exact ⟨hy, (size_step d p m).trans h.size, hdp.trans h.dp⟩
  · rintro why y why' y' hm ⟨rfl, hy⟩
    refine ⟨?_, hy⟩
    cases hi : p.get? m.ip with
    | none =>
        rw [Machine.step, hi] at hm
        split at hm
        · cases hm
        · cases hm
          rfl
    | some instr =>
        have hrefuses := (step_eq_failed_iff hi).mp hm
        exact hrefuses.displace_eq (plain_ne_move (hmove instr hi)) 0 n

/-- **Up to the first move both names do the same.** -/
theorem Aliases.runFor {n : Nat} {x : Int} {past : List Event} (hlow : -(n : Int) ≤ x)
    (hhigh : x ≤ -1) (h : Aliases n x past m m') {j : Nat} (hstay : m.NoMoveBefore d p j) :
    Progress.Related (Aliases n x past) (AliasesFailed n past) (m.runFor d p j)
      (m'.runFor d p j) := by
  have hstep : ∀ y y', Aliases n x past y y' →
      Progress.Related (Aliases n x past) (AliasesFailed n past) (y.step d p) (y'.step d p) ∨
        y.AtMove p := by
    intro y y' hy
    by_cases hat : y.AtMove p
    · exact Or.inr hat
    · exact Or.inl (hy.step hlow hhigh hat d)
  rcases runFor_lockstep hstep j h with hrel | ⟨i, y, y', hi, hy, -, -, hat⟩
  · exact hrel
  · exact absurd hat (hstay i hi y hy)

end Machine

/-- **A negative data pointer names a cell until the first move.**  Put the data pointer of a
    machine on `x`, a position counted from the end of its tape.  Up to the first move the run
    is in lockstep with the one that has the pointer on the same cell counted from the front:
    both go on, halt, or fail for the same cause, with the same tape, instruction pointer,
    counts, bytes and exchanges, and with data pointers that differ by the length of the tape.
    The first move to the left fails with the place `x - 1`; the first move to the right fails
    with `x + 1`, unless `x` is `-1`.  There it comes to cell `0`, and whatever runs lead to
    from there has its data pointer on the tape. -/
theorem negative_pointer_aliases (d : Devices) (p : Program) (m : Machine) {x : Int}
    (hlow : -(m.tape.size : Int) ≤ x) (hhigh : x ≤ -1) {j : Nat}
    (hstay : (m.setDp x).NoMoveBefore d p j) :
    Progress.Related (Machine.Displaced 0 m.tape.size m.traffic.events.toList)
      (Machine.AliasesFailed m.tape.size m.traffic.events.toList)
      ((m.setDp x).runFor d p j) ((m.setDp (x + m.tape.size)).runFor d p j) ∧
    ∀ y, (m.setDp x).runFor d p j = .running y →
      (p.get? y.ip = some (.act .left) →
        (m.setDp x).runFor d p (j + 1)
          = .failed (.outOfBounds (x - 1) m.tape.size y.ip y.output) y) ∧
      (p.get? y.ip = some (.act .right) → x ≠ -1 →
        (m.setDp x).runFor d p (j + 1)
          = .failed (.outOfBounds (x + 1) m.tape.size y.ip y.output) y) ∧
      (p.get? y.ip = some (.act .right) → x = -1 →
        ∃ next, (m.setDp x).runFor d p (j + 1) = .running next ∧ next.dp = 0 ∧
          ∀ later, Machine.Reaches d p next later → 0 ≤ later.dp ∧ later.dp < m.tape.size) := by
  have hstart : Machine.Aliases m.tape.size x m.traffic.events.toList (m.setDp x)
      (m.setDp (x + m.tape.size)) := by
    refine ⟨⟨rfl, rfl, (Int.add_zero _).symm, rfl, rfl, rfl, rfl, rfl, rfl, ⟨[], ?_, ?_⟩⟩, rfl, rfl⟩
    · exact (List.append_nil _).symm
    · exact (List.append_nil _).symm
  have hrel := hstart.runFor hlow hhigh hstay
  refine ⟨hrel.mono (fun _ _ hy => hy.displaced) (fun _ _ _ _ hy => hy), ?_⟩
  intro y hy
  rw [hy] at hrel
  obtain ⟨hsize, hdp⟩ : y.tape.size = m.tape.size ∧ y.dp = x := by
    generalize (m.setDp (x + m.tape.size)).runFor d p j = r' at hrel
    cases hrel with
    | running h => exact ⟨h.size, h.dp⟩
  -- the first move is made in the state that the lockstep has come to
  have hnext : ∀ r, y.step d p = r → (m.setDp x).runFor d p (j + 1) = r := by
    rintro r rfl
    rw [Machine.runFor_of_running hy, Machine.runFor_succ]
    cases y.step d p <;> rfl
  refine ⟨?_, ?_, ?_⟩
  · intro hi
    have hfail := Machine.step_move_failed hi rfl (by omega) d
    rw [hsize, hdp] at hfail
    exact hnext _ hfail
  · intro hi hne
    have hfail := Machine.step_move_failed hi rfl (by omega) d
    rw [hsize, hdp] at hfail
    exact hnext _ hfail
  · rintro hi rfl
    refine ⟨_, hnext _ (Machine.step_right_last hi hdp (by omega) d), rfl, ?_⟩
    intro later hlater
    exact hlater.dp_onTape hsize ⟨Int.le_refl 0, by show (0 : Int) < _; omega⟩

/-- The last of two cells, counted from the end, is counted down and emitted as it is when
    counted from the front; then the move to the right comes to the first. -/
theorem negative_pointer_aliases_last_cell :
    ∃ (p : Program) (m y y' next : Machine), Program.parse "+[.-]>" = .ok p ∧
      m = Machine.fresh 2 ∧
      (m.setDp (-1)).NoMoveBefore ⟨Source.exhausted, .collect⟩ p 5 ∧
      (m.setDp (-1)).runFor ⟨Source.exhausted, .collect⟩ p 5 = .running y ∧
      (m.setDp 1).runFor ⟨Source.exhausted, .collect⟩ p 5 = .running y' ∧
      y.output = #[1] ∧ y'.output = #[1] ∧ y'.ip = y.ip ∧ y.dp = -1 ∧ y'.dp = 1 ∧
      p.get? y.ip = some (.act .right) ∧
      (m.setDp (-1)).runFor ⟨Source.exhausted, .collect⟩ p 6 = .running next ∧ next.dp = 0 := by
  have hstay : ((Machine.fresh 2).setDp (-1)).NoMoveBefore ⟨Source.exhausted, .collect⟩
      ⟨#[.act .inc, .jumpIfZero 4, .act .emit, .act .dec, .jumpIfNonzero 1, .act .right]⟩ 5 := by
    rintro i hi x hx ⟨instr, hget, hmoves⟩
    obtain rfl | rfl | rfl | rfl | rfl : i = 0 ∨ i = 1 ∨ i = 2 ∨ i = 3 ∨ i = 4 := by omega
    all_goals
      cases hx
      cases hget
      exact hmoves
  obtain ⟨hrel, hfirst⟩ := negative_pointer_aliases ⟨Source.exhausted, .collect⟩
    ⟨#[.act .inc, .jumpIfZero 4, .act .emit, .act .dec, .jumpIfNonzero 1, .act .right]⟩
    (Machine.fresh 2) (x := -1) (by decide) (by decide) hstay
  obtain ⟨y, hy, hout, hdp, hget⟩ : ∃ y, ((Machine.fresh 2).setDp (-1)).runFor
      ⟨Source.exhausted, .collect⟩ ⟨#[.act .inc, .jumpIfZero 4, .act .emit, .act .dec,
        .jumpIfNonzero 1, .act .right]⟩ 5 = .running y ∧ y.output = #[1] ∧ y.dp = -1 ∧
      Program.get? ⟨#[.act .inc, .jumpIfZero 4, .act .emit, .act .dec, .jumpIfNonzero 1,
        .act .right]⟩ y.ip = some (.act .right) := ⟨_, rfl, rfl, rfl, rfl⟩
  obtain ⟨-, -, hlast⟩ := hfirst y hy
  obtain ⟨next, hnext, hzero, -⟩ := hlast hget rfl
  rw [hy] at hrel
  generalize hy' : ((Machine.fresh 2).setDp (-1 + (Machine.fresh 2).tape.size)).runFor
    ⟨Source.exhausted, .collect⟩ ⟨#[.act .inc, .jumpIfZero 4, .act .emit, .act .dec,
      .jumpIfNonzero 1, .act .right]⟩ 5 = r' at hrel
  cases hrel with
  | @running _ y' h =>
      refine ⟨_, _, y, y', next, rfl, rfl, hstay, hy, hy', hout, h.output.trans hout, ?_, hdp, ?_,
        hget, hnext, hzero⟩
      · exact h.ip.trans (Int.add_zero _)
      · rw [h.dp, hdp]
        rfl

end ByteTape
