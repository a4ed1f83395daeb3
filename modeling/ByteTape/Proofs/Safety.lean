import ByteTape.Proofs.Nesting
import ByteTape.Proofs.Store
import ByteTape.Snapshot

/-! # Safe runs

    Nothing in a run looks at the instruction pointer before an instruction is
    fetched, or at the data pointer before a cell is touched.  What keeps both
    in place is looked at earlier: a machine is set up only when every jump of
    the program leads to one of its instructions, and a move is made only when
    it stays on the tape.

    * `Program.Closed` — every jump leads to an instruction, and
      `boot_eq_ok_iff`, what it takes to set a machine up;
    * `Machine.Safe` — the tape has its length, the data pointer is on it, and
      the instruction pointer is on the program or just past its end;
    * `Fault.Expected` — what a safe machine may fail with: a move off the tape,
      or whatever its devices raise.

    One step of a safe machine is described once, in `Safe.step_spec`; that runs
    stay safe, and what they fail with, are read off it. -/

namespace ByteTape

/-! ## Setting a machine up -/

namespace Program

/-- Every jump leads to an instruction of the program. -/
def Closed (p : Program) : Prop :=
  ∀ i t, p.jumpAt? i = some t → 0 ≤ t ∧ t < p.size

/-- No jump is reported exactly when all of them lead to instructions. -/
theorem firstBadJump?_eq_none_iff {p : Program} : p.firstBadJump? = none ↔ p.Closed := by
  rw [firstBadJump?, List.find?_eq_none]
  constructor
  · intro h i t ht
    have hin := h (i, t) (mem_jumps_iff.mpr ht)
    rw [Bool.not_eq_true, Bool.not_eq_false'] at hin
    exact inRange_iff.mp hin
  · rintro h ⟨i, t⟩ hmem
    rw [Bool.not_eq_true, Bool.not_eq_false']
    exact inRange_iff.mpr (h i t (mem_jumps_iff.mp hmem))

/-- The jumps of an accepted text lead to instructions: to their partners. -/
theorem closed_of_parse {text : String} {p : Program} (h : Program.parse text = .ok p) :
    p.Closed := by
  have hl := linked_of_parse h
  intro i t ht
  rw [hl.size_eq]
  exact hl.properNesting.inRange i t ht

end Program

namespace Machine

/-- A tape is made for every length that is positive and fits a word. -/
theorem blank_eq_ok_iff {n : Int} {m : Machine} :
    blank n = .ok m ↔ 1 ≤ n ∧ n < wordBound ∧ m = fresh n.toNat := by
  rw [blank]
  constructor
  · intro h
    by_cases hshort : n < 1
    · rw [if_pos hshort] at h
      exact nomatch h
    by_cases hlong : wordBound ≤ n
    · rw [if_neg hshort, if_pos hlong] at h
      exact nomatch h
    rw [if_neg hshort, if_neg hlong] at h
    cases h
    exact ⟨by omega, by omega, rfl⟩
  · rintro ⟨hshort, hlong, rfl⟩
    rw [if_neg (by omega), if_neg (by omega)]

/-- A machine can be set up exactly when the jumps of the program and the length
    of the tape are in order. -/
theorem boot_eq_ok_iff {p : Program} {n : Int} {m : Machine} :
    boot p n = .ok m ↔ p.Closed ∧ 1 ≤ n ∧ n < wordBound ∧ m = fresh n.toNat := by
  rw [boot, ← Program.firstBadJump?_eq_none_iff, ← blank_eq_ok_iff]
  cases p.firstBadJump? with
  | some bad => simp
  | none => simp

end Machine

/-! ## What a step may do -/

/-- The faults of a run on `n` cells: a move off the tape, or what the source
    and the sink raise. -/
inductive Fault.Expected (d : Devices) (n : Nat) : Fault → Prop where
  | outOfBounds {pointer ip : Int} {output : Array UInt8} (h : ¬ (0 ≤ pointer ∧ pointer < n)) :
      Expected d n (.outOfBounds pointer n ip output)
  | source {polls : Nat} {why : String} (h : d.source polls = .failure why) :
      Expected d n (.source why)
  | sink {judge : Array UInt8 → UInt8 → Verdict} {offered : Array UInt8} {b : UInt8}
      {why : String} (hd : d.sink = .consumer judge) (h : judge offered b = .refused why) :
      Expected d n (.sink why)

/-- The effect leaves `n` cells, and fails only as a run may. -/
def Effect.Keeps (d : Devices) (n : Nat) : Effect → Prop
  | .done s => s.tape.size = n
  | .failed why s => s.tape.size = n ∧ ∀ ip, (why.fault ip s).Expected d n

/-- **Actions keep the tape.** -/
theorem Store.act_keeps (d : Devices) (a : Action) (s : Store) :
    (s.act d a).Keeps d s.tape.size := by
  cases a with
  | inc => exact Tape.size_shift _ _ _
  | dec => exact Tape.size_shift _ _ _
  | right =>
      rw [act, right]
      by_cases h : s.dp + 1 < s.tape.size
      · rw [dif_pos h]
        rfl
      · rw [dif_neg h]
        exact ⟨rfl, fun ip => .outOfBounds (by omega)⟩
  | left =>
      rw [act, left]
      by_cases h : 0 < s.dp
      · rw [if_pos h]
        rfl
      · rw [if_neg h]
        exact ⟨rfl, fun ip => .outOfBounds (by omega)⟩
  | emit =>
      show (s.emit d.sink).Keeps d _
      cases hd : d.sink with
      | collect => rfl
      | stream flush => rfl
      | consumer judge =>
          dsimp only [emit]
          cases hj : judge s.offered s.cell with
          | accepted => rfl
          | refused why => exact ⟨rfl, fun ip => .sink hd hj⟩
  | poll =>
      rw [act, poll]
      cases hr : d.source s.polls with
      | value b => exact Tape.size_put _ _ _
      | nothing => rfl
      | failure why => exact ⟨rfl, fun ip => .source hr⟩

namespace Machine

/-- The tape has `n` cells, the data pointer is on one of them, and the
    instruction pointer is on the program or just past its end. -/
structure Safe (p : Program) (n : Nat) (m : Machine) : Prop where
  size : m.tape.size = n
  dp : 0 ≤ m.dp ∧ m.dp < n
  ip : 0 ≤ m.ip ∧ m.ip ≤ p.size

variable {d : Devices} {p : Program} {n : Nat} {m : Machine}

/-- A machine that stands on the program with a store is safe. -/
theorem Stands.safe {s : Store} {i k : Nat} (h : m.Stands s i k) (hn : s.tape.size = n)
    (hi : i ≤ p.size) : m.Safe p n := by
  have hdp := h.holds.dp
  have hip := h.ip
  have hlt := s.onTape
  refine ⟨?_, ?_, ?_⟩
  · rw [h.holds.tape]
    exact hn
  · omega
  · omega

/-- And a safe machine stands so: it has a store, and a place on the program. -/
theorem Safe.exists_stands (h : m.Safe p n) :
    ∃ s i, m.Stands s i m.steps ∧ s.tape.size = n ∧ i ≤ p.size := by
  have hdp : 0 ≤ m.dp ∧ m.dp < m.tape.size := by
    rw [h.size]
    exact h.dp
  obtain ⟨i, hi⟩ := Int.eq_ofNat_of_zero_le h.ip.1
  have hle := h.ip.2
  exact ⟨m.store hdp, i, ⟨m.holds_store hdp, hi, rfl⟩, h.size, by omega⟩

/-- **One step of a safe machine** halts, goes on safely, or fails as expected
    and leaves a safe machine behind. -/
theorem Safe.step_spec (hp : p.Closed) (h : m.Safe p n) (d : Devices) :
    m.step d p = .halted m ∨
    (∃ m', m.step d p = .running m' ∧ m'.Safe p n) ∨
    ∃ why m', m.step d p = .failed why m' ∧ m'.Safe p n ∧ why.Expected d n := by
  obtain ⟨s, i, hs, hn, hi⟩ := h.exists_stands
  rcases Nat.eq_or_lt_of_le hi with rfl | hlt
  · exact Or.inl (hs.step_end d)
  refine Or.inr ?_
  have hcode : p.code[i]? = some p.code[i] := Array.getElem?_eq_getElem hlt
  have hjump : p.jumpAt? i = p.code[i].target? := by
    rw [Program.jumpAt?_eq, targetAt?, Array.getElem?_toList, hcode]
    rfl
  cases hinstr : p.code[i] with
  | act a =>
      rw [hinstr] at hcode
      have hstep := hs.step_act hcode d
      have hkeeps := s.act_keeps d a
      rw [hn] at hkeeps
      cases ha : s.act d a with
      | done s' =>
          rw [ha] at hstep hkeeps
          obtain ⟨m', hm', hs'⟩ := hstep
          exact Or.inl ⟨m', hm', hs'.safe hkeeps hlt⟩
      | failed why s' =>
          rw [ha] at hstep hkeeps
          obtain ⟨m', hm', hs'⟩ := hstep
          exact Or.inr ⟨_, m', hm', hs'.safe hkeeps.1 hi, hkeeps.2 i⟩
  | jumpIfZero t =>
      rw [hinstr] at hcode hjump
      obtain ⟨h0, hend⟩ := hp i t hjump
      obtain ⟨t, rfl⟩ := Int.eq_ofNat_of_zero_le h0
      -- a run goes on one past the target, so at most just past the end
      obtain ⟨m', hm', hs'⟩ := hs.step_jumpIfZero hcode d
      exact Or.inl ⟨m', hm', hs'.safe hn (by split <;> omega)⟩
  | jumpIfNonzero t =>
      rw [hinstr] at hcode hjump
      obtain ⟨h0, hend⟩ := hp i t hjump
      obtain ⟨t, rfl⟩ := Int.eq_ofNat_of_zero_le h0
      obtain ⟨m', hm', hs'⟩ := hs.step_jumpIfNonzero hcode d
      exact Or.inl ⟨m', hm', hs'.safe hn (by split <;> omega)⟩

theorem Safe.step (hp : p.Closed) (h : m.Safe p n) : (m.step d p).machine.Safe p n := by
  rcases h.step_spec hp d with hm | ⟨m', hm, hsafe⟩ | ⟨why, m', hm, hsafe, -⟩
  · rw [hm]
    exact h
  · rw [hm]
    exact hsafe
  · rw [hm]
    exact hsafe

/-- Everything that the runs of a safe machine lead to is safe. -/
theorem Safe.reaches {m₀ : Machine} (hp : p.Closed) (h₀ : m₀.Safe p n)
    (h : Reaches d p m₀ m) : m.Safe p n :=
  h.of_step (fun _ hm => hm.step hp) h₀

/-- A safe machine fails as expected. -/
theorem Safe.expected_of_failed {k : Nat} {why : Fault} {left : Machine} (hp : p.Closed)
    (h : m.Safe p n) (hrun : m.runFor d p k = .failed why left) : why.Expected d n := by
  -- the step that failed was one of a machine still safe
  obtain ⟨j, m', hj, hstep⟩ := exists_running_of_failed hrun
  have hsafe := runFor_of_step (d := d) (fun _ hm => Safe.step hp hm) j h
  rw [hj] at hsafe
  rcases hsafe.step_spec hp d with hm | ⟨m₁, hm, -⟩ | ⟨why', m₁, hm, -, hexp⟩
  · exact nomatch hm.symm.trans hstep
  · exact nomatch hm.symm.trans hstep
  · cases hm.symm.trans hstep
    exact hexp

theorem safe_fresh (p : Program) {n : Nat} (hn : 0 < n) : (fresh n).Safe p n := by
  refine ⟨Tape.size_blank n, ⟨Int.le_refl 0, ?_⟩, ⟨Int.le_refl 0, ?_⟩⟩
  · show (0 : Int) < n
    omega
  · show (0 : Int) ≤ p.size
    omega

end Machine

theorem Machine.snapshot_tape_range (m : Machine) :
    ∀ v ∈ m.snapshot.tape, 0 ≤ v ∧ v ≤ 255 := by
  intro v hv
  obtain ⟨b, -, rfl⟩ := Array.mem_map.mp hv
  have hb := b.toNat_lt
  omega

/-- **Runs are safe.**  Whatever runs lead to from a machine that was set up for
    a program, also after failures: the tape keeps its length and its cells are
    bytes, the data pointer is on the tape, the instruction pointer is on the
    program or just past its end, and the next run fails with a move off the
    tape or with what a device raises, if it fails at all.  And for an accepted
    text a machine can be set up on a tape of any length. -/
theorem run_safe (d : Devices) :
    (∀ (p : Program) (n : Int) (m₀ m : Machine),
      Machine.boot p n = .ok m₀ → Machine.Reaches d p m₀ m →
        (m.tape.size : Int) = n ∧ (∀ v ∈ m.snapshot.tape, 0 ≤ v ∧ v ≤ 255) ∧
        (0 ≤ m.dp ∧ m.dp < n) ∧ (0 ≤ m.ip ∧ m.ip ≤ p.size) ∧
        ∀ k why left, m.runFor d p k = .failed why left → why.Expected d n.toNat) ∧
    ∀ (text : String) (p : Program) (n : Int),
      Program.parse text = .ok p → 1 ≤ n → n < wordBound → ∃ m, Machine.boot p n = .ok m := by
  constructor
  · intro p n m₀ m hboot hreach
    obtain ⟨hp, hshort, -, rfl⟩ := Machine.boot_eq_ok_iff.mp hboot
    have hn : (n.toNat : Int) = n := Int.toNat_of_nonneg (by omega)
    have hsafe := (Machine.safe_fresh p (by omega)).reaches hp hreach
    refine ⟨?_, m.snapshot_tape_range, ?_, hsafe.ip, ?_⟩
    · rw [hsafe.size]
      exact hn
    · have hdp := hsafe.dp
      rw [hn] at hdp
      exact hdp
    · intro k why left hrun
      exact hsafe.expected_of_failed hp hrun
  · intro text p n hparse hshort hlong
    exact ⟨_, Machine.boot_eq_ok_iff.mpr ⟨Program.closed_of_parse hparse, hshort, hlong, rfl⟩⟩

/-- A jump that goes back although it is no closer, and a second run after the
    first has moved off the tape. -/
theorem run_safe_second_run :
    ∃ m₀ m left, Machine.boot ⟨#[.act .inc, .act .right, .jumpIfZero 0]⟩ 2 = .ok m₀ ∧
      m₀.Fails ⟨Source.exhausted, .collect⟩ ⟨#[.act .inc, .act .right, .jumpIfZero 0]⟩
        (.outOfBounds 2 2 1 #[]) m ∧
      m.runFor ⟨Source.exhausted, .collect⟩ ⟨#[.act .inc, .act .right, .jumpIfZero 0]⟩ 1
        = .failed (.outOfBounds 2 2 1 #[]) left ∧
      (0 ≤ m.dp ∧ m.dp < 2) ∧ (0 ≤ m.ip ∧ m.ip ≤ 3) ∧
      (Fault.outOfBounds 2 2 1 #[]).Expected ⟨Source.exhausted, .collect⟩ 2 := by
  have hboot : Machine.boot ⟨#[.act .inc, .act .right, .jumpIfZero 0]⟩ 2
      = .ok (Machine.fresh 2) := by decide
  obtain ⟨-, -, hdp, hip, hexp⟩ := (run_safe ⟨Source.exhausted, .collect⟩).1 _ _ _ _ hboot
    (.run 4 .start)
  exact ⟨_, _, _, hboot, ⟨4, rfl⟩, rfl, hdp, hip, hexp 1 _ _ rfl⟩

end ByteTape
