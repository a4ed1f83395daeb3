import ByteTape.Proofs.Displacement
import ByteTape.Proofs.Frame

/-! # Runs from a negative place

    The instruction pointer may be put on a negative place.  An instruction is fetched by its
    signed position, so a run from `-k` begins with the last `k` instructions; but the pointer
    is counted up as a plain number, so behind the last instruction it has come to the first
    and the whole program is still ahead.

    * `Program.replay` — the program that does the same from its start: the last `k`
      instructions, and behind them all of them, every target `k` further on;
    * `Program.get?_replay` — the instruction at a place of the one is at the place `k` further
      on of the other;
    * `Machine.ip_step` — a step leaves a negative place only upwards, as all targets are
      places of the program.

    The two machines stand `k` places apart and do the same, whichever of the two ways a place
    is read (`Machine.Replays.step`). -/

namespace ByteTape

/-- The last `k` instructions of a program, and behind them the whole of it. -/
def Program.replay (k : Nat) (q : Program) : Program :=
  ⟨(q.code.extract (q.size - k) q.size ++ q.code).map (Instr.relocate k)⟩

/-! ## The two programs -/

namespace Program

variable {q : Program} {k : Nat}

theorem size_tail (hk : k ≤ q.size) : (q.code.extract (q.size - k) q.size).size = k := by
  rw [Array.size_extract, show min q.size q.code.size = q.size from Nat.min_self _]
  omega

theorem size_replay (hk : k ≤ q.size) : (q.replay k).size = k + q.size := by
  rw [replay, size, Array.size_map, Array.size_append, size_tail hk]
  rfl

/-- The instructions before place `k` of the longer program are the last of the shorter. -/
theorem code_replay_of_lt (hk : k ≤ q.size) {i : Nat} (hi : i < k) :
    (q.replay k).code[i]? = q.code[q.size - k + i]?.map (Instr.relocate k) := by
  have hleft : i < (q.code.extract (q.size - k) q.size).size := by
    rw [size_tail hk]
    exact hi
  rw [replay, Array.getElem?_map, Array.getElem?_append_left hleft, Array.getElem?_extract,
    if_pos (by show i < min q.size q.size - _; omega)]

/-- Those from place `k` on are all of the shorter. -/
theorem code_replay_add (hk : k ≤ q.size) (i : Nat) :
    (q.replay k).code[k + i]? = q.code[i]?.map (Instr.relocate k) := by
  have hright : (q.code.extract (q.size - k) q.size).size ≤ k + i := by
    rw [size_tail hk]
    exact Nat.le_add_right k i
  rw [replay, Array.getElem?_map, Array.getElem?_append_right hright, size_tail hk,
    Nat.add_sub_cancel_left]

/-- **Both programs have the same instruction `k` places apart,** from place `-k` on. -/
theorem get?_replay (hk : k ≤ q.size) {i : Int} (hi : -(k : Int) ≤ i) :
    (q.replay k).get? (i + k) = (q.get? i).map (Instr.relocate k) := by
  have hsize := size_replay hk
  by_cases hneg : i < 0
  · -- counted from the end here, and from the front there
    rw [get?, get?, resolve?_of_neg (by omega) hneg, resolve?_of_nonneg (by omega) (by omega)]
    dsimp only
    rw [code_replay_of_lt hk (by omega),
      show q.size - k + (i + k).toNat = (i + q.size).toNat by omega]
  · by_cases hend : i < q.size
    · rw [q.get?_of_nonneg (by omega) hend, (q.replay k).get?_of_nonneg (by omega) (by omega),
        show (i + k).toNat = k + i.toNat by omega, code_replay_add hk]
    · have hnone : ∀ (p : Program) (x : Int), 0 ≤ x → ¬ x < p.size → p.get? x = none := by
        intro p x hx hpast
        rw [get?, resolve?, if_pos hx, if_neg hpast]
      rw [hnone q i (by omega) hend, hnone (q.replay k) (i + k) (by omega) (by omega)]
      rfl

/-- A jump fetched from a program whose jumps all lead somewhere. -/
theorem Closed.of_get? (hq : q.Closed) {i t : Int} {instr : Instr} (h : q.get? i = some instr)
    (ht : instr.target? = some t) : 0 ≤ t ∧ t < q.size := by
  rw [get?] at h
  cases hr : resolve? q.size i with
  | none => rw [hr] at h; cases h
  | some j =>
      rw [hr] at h
      refine hq j t ?_
      rw [jumpAt?_eq, targetAt?, Array.getElem?_toList, show q.code[j]? = some instr from h]
      exact ht

/-- The longer program has nothing but the jumps of the shorter, `k` further on. -/
theorem Closed.replay (hq : q.Closed) (hk : k ≤ q.size) : (q.replay k).Closed := by
  have hsize := size_replay hk
  intro i t ht
  rw [jumpAt?_eq, targetAt?, Array.getElem?_toList] at ht
  obtain ⟨instr, hcode, htarget⟩ := Option.bind_eq_some_iff.mp ht
  have hi : i < (q.replay k).size := (Array.getElem?_eq_some_iff.mp hcode).1
  have hget := get?_replay hk (i := (i : Int) - k) (by omega)
  rw [Int.sub_add_cancel, (q.replay k).get?_of_nonneg (by omega) (by omega), Int.toNat_natCast,
    hcode] at hget
  obtain ⟨instr', hinstr', rfl⟩ := Option.map_eq_some_iff.mp hget.symm
  cases instr' with
  | act a => cases htarget
  | jumpIfZero t' =>
      obtain rfl : t' + k = t := Option.some.inj htarget
      have hrange := hq.of_get? hinstr' rfl
      omega
  | jumpIfNonzero t' =>
      obtain rfl : t' + k = t := Option.some.inj htarget
      have hrange := hq.of_get? hinstr' rfl
      omega

end Program

/-! ## The pointer -/

namespace Machine

variable {d : Devices} {q : Program} {m next : Machine}

/-- Only a bracket takes the pointer elsewhere. -/
theorem target?_of_jumps? {instr : Instr} {t : Int}
    (h : (Operation.exec instr).jumps? m = some t) : instr.target? = some t := by
  cases instr with
  | act a => exact nomatch h
  | jumpIfZero target =>
      simp only [Operation.jumps?, Option.ite_none_right_eq_some] at h
      exact h.2
  | jumpIfNonzero target =>
      simp only [Operation.jumps?, Option.ite_none_left_eq_some] at h
      exact h.2

/-- The operation behind an action does no more. -/
theorem jumps?_plain (instr : Instr) (m : Machine) :
    (Operation.exec instr).plain.jumps? m = (Operation.exec instr).jumps? m := by
  cases instr with
  | act a => cases a <;> rfl
  | jumpIfZero target => rfl
  | jumpIfNonzero target => rfl

/-- Where a step that succeeds leads: one past the target of a jump that is taken, and
    otherwise to the next place. -/
theorem ip_of_step {instr : Instr} (hi : q.get? m.ip = some instr)
    (hstep : m.step d q = .running next) :
    next.ip = ((Operation.exec instr).jumps? m).getD m.ip + 1 := by
  rw [step, if_neg (Int.not_le.mpr (Program.lt_size_of_get? hi)), hi] at hstep
  dsimp only at hstep
  cases hx : m.exec d instr with
  | failed why left => rw [hx] at hstep; cases hstep
  | done x =>
      rw [hx] at hstep
      cases hstep
      have hchanged : m.Changed d (Operation.exec instr).plain x := changed_of_perform hx
      rw [← jumps?_plain]
      exact congrArg (· + 1) hchanged.ip

/-- **A step never takes the pointer further down,** unless it takes it to a place past the
    first. -/
theorem ip_step (hq : q.Closed) (d : Devices) (m : Machine) :
    m.ip ≤ (m.step d q).machine.ip ∨ 0 < (m.step d q).machine.ip := by
  cases hi : q.get? m.ip with
  | none => exact Or.inl (by rw [machine_step_of_get?_eq_none hi])
  | some instr =>
      cases hstep : m.step d q with
      | halted left =>
          rw [step, if_neg (Int.not_le.mpr (Program.lt_size_of_get? hi)), hi] at hstep
          dsimp only at hstep
          split at hstep <;> cases hstep
      | failed why left =>
          have huntouched := ((step_eq_failed_iff hi).mp hstep).untouched
          exact Or.inl (Int.le_of_eq huntouched.ip.symm)
      | running next =>
          have hip := ip_of_step hi hstep
          show m.ip ≤ next.ip ∨ 0 < next.ip
          cases hj : (Operation.exec instr).jumps? m with
          | none =>
              rw [hj, Option.getD_none] at hip
              omega
          | some t =>
              have ht := hq.of_get? hi (target?_of_jumps? hj)
              rw [hj, Option.getD_some] at hip
              omega

/-- What is not negative stays so. -/
theorem Reaches.ip_nonneg {later : Machine} (hq : q.Closed) (h : Reaches d q m later)
    (hm : 0 ≤ m.ip) : 0 ≤ later.ip := by
  refine h.of_step (P := fun x => 0 ≤ x.ip) ?_ hm
  intro x hx
  have hstep := ip_step hq d x
  omega

/-- A place before the first instruction from behind holds none. -/
theorem step_before (h : m.ip < -(q.size : Int)) (d : Devices) :
    m.step d q = .failed .noSuchInstruction m := by
  have hget : q.get? m.ip = none := by
    rw [Program.get?, resolve?, if_neg (by omega), if_neg (by omega)]
  rw [step, if_neg (by omega), hget]

/-! ## The two runs -/

/-- One machine stands at a place from `-k` on, and the other `k` places further on. -/
structure Replays (k : Nat) (past : List Event) (m m' : Machine) : Prop where
  displaced : Displaced k 0 past m m'
  above : -(k : Int) ≤ m.ip

theorem Replays.step {k : Nat} {past : List Event} {m' : Machine} (hq : q.Closed)
    (hk : k ≤ q.size) (h : Replays k past m m') (d : Devices) :
    Progress.Related (Replays k past) (DisplacedFailed k 0 past) (m.step d q)
      (m'.step d (q.replay k)) := by
  have hsize : ((q.replay k).size : Int) = q.size + k := by
    rw [Program.size_replay hk]
    omega
  have hget : (q.replay k).get? m'.ip = (q.get? m.ip).map (Instr.relocate k) := by
    rw [h.displaced.ip]
    exact Program.get?_replay hk h.above
  have hplace : m'.tape.index? m'.dp = m.tape.index? m.dp := by
    rw [h.displaced.tape, h.displaced.dp, Int.add_zero]
  have hstep := h.displaced.step hsize hget hplace (fun _ _ _ => rfl) d
  refine hstep.imp ?_ (fun _ _ _ _ _ hfail => hfail)
  rintro x x' rfl hx
  refine ⟨hx, ?_⟩
  have hip := ip_step hq d m
  have habove := h.above
  omega

/-- **A run from `-k` is the run of the longer program,** `k` places apart. -/
theorem Replays.runFor {k : Nat} {past : List Event} {m' : Machine} (hq : q.Closed)
    (hk : k ≤ q.size) (h : Replays k past m m') (d : Devices) (j : Nat) :
    Progress.Related (Displaced k 0 past) (DisplacedFailed k 0 past) (m.runFor d q j)
      (m'.runFor d (q.replay k) j) := by
  have hstep : ∀ x x', Replays k past x x' →
      Progress.Related (Replays k past) (DisplacedFailed k 0 past) (x.step d q)
        (x'.step d (q.replay k)) ∨ False :=
    fun _ _ hx => Or.inl (hx.step hq hk d)
  rcases runFor_lockstep hstep j h with hrel | ⟨-, -, -, -, -, -, -, hno⟩
  · exact hrel.mono (fun _ _ hx => hx.displaced) (fun _ _ _ _ hx => hx)
  · exact hno.elim

end Machine

/-- **A run from a negative place replays the tail and then the program.**  Let a machine be
    set up for a program, let `k` be at most the number of its instructions, and take any
    machine.  With its instruction pointer put on `-k` it does, step for step, what it does
    with the pointer on `0` in the program that has the last `k` instructions first and behind
    them the whole, all targets `k` further on, for which a machine can be set up likewise:
    the tape, the data pointer, the counts and what passes through the devices are the same,
    and the runs go on, halt or fail alike, with instruction pointers, in faults too, that are
    `k` less.  Once the pointer is not negative it stays so, whatever runs lead to; and so it
    is from a jump on that is taken.  And from a place below all instructions every run fails
    at once, having found no instruction, and leaves the machine as it was. -/
theorem negative_start_replays (d : Devices) {q : Program} {l : Int} {m₀ : Machine}
    (hboot : Machine.boot q l = .ok m₀) (m : Machine) :
    (∀ k : Nat, k ≤ q.size →
      Machine.boot (q.replay k) l = .ok m₀ ∧
      ∀ j, Progress.Related (Machine.Displaced k 0 m.traffic.events.toList)
        (Machine.DisplacedFailed k 0 m.traffic.events.toList)
        ((m.setIp (-k)).runFor d q j) ((m.setIp 0).runFor d (q.replay k) j)) ∧
    (0 ≤ m.ip → ∀ later, Machine.Reaches d q m later → 0 ≤ later.ip) ∧
    (∀ instr target next, q.get? m.ip = some instr →
      (Operation.exec instr).jumps? m = some target → m.step d q = .running next →
        ∀ later, Machine.Reaches d q next later → 0 ≤ later.ip) ∧
    (m.ip < -(q.size : Int) → ∀ j, m.runFor d q (j + 1) = .failed .noSuchInstruction m) := by
  obtain ⟨hq, hshort, hlong, rfl⟩ := Machine.boot_eq_ok_iff.mp hboot
  refine ⟨?_, ?_, ?_, ?_⟩
  · intro k hk
    refine ⟨Machine.boot_eq_ok_iff.mpr ⟨hq.replay hk, hshort, hlong, rfl⟩, ?_⟩
    have hstart : Machine.Replays k m.traffic.events.toList (m.setIp (-k)) (m.setIp 0) := by
      refine ⟨⟨rfl, (Int.add_zero _).symm, ?_, rfl, rfl, rfl, rfl, rfl, rfl, ⟨[], ?_, ?_⟩⟩, ?_⟩
      · exact (Int.add_left_neg (k : Int)).symm
      · exact (List.append_nil _).symm
      · exact (List.append_nil _).symm
      · exact Int.le_refl _
    exact hstart.runFor hq hk d
  · intro hm later hlater
    exact hlater.ip_nonneg hq hm
  · intro instr target next hi hj hstep later hlater
    -- a jump that is taken leads into the program, so never below zero
    have ht := hq.of_get? hi (Machine.target?_of_jumps? hj)
    have hip := Machine.ip_of_step hi hstep
    rw [hj, Option.getD_some] at hip
    exact hlater.ip_nonneg hq (by omega)
  · intro hlow j
    rw [Machine.runFor_succ, Machine.step_before hlow]

/-- From place `-2` the end of a loop is run first.  It takes the jump back into the loop, and
    from there both runs end alike, two places apart. -/
theorem negative_start_replays_loop :
    ∃ (q : Program) (m x x' : Machine), Program.parse "[.-]" = .ok q ∧
      Machine.boot q 1 = .ok (Machine.fresh 1) ∧ m = { Machine.fresh 1 with tape := ⟨#[2]⟩ } ∧
      (m.setIp (-2)).Halts ⟨Source.exhausted, .collect⟩ q x ∧
      (m.setIp 0).Halts ⟨Source.exhausted, .collect⟩ (q.replay 2) x' ∧
      x.output = #[1] ∧ x'.output = #[1] ∧ x'.steps = x.steps ∧ x.ip = 4 ∧ x'.ip = 6 ∧
      (m.setIp (-5)).runFor ⟨Source.exhausted, .collect⟩ q 1
        = .failed .noSuchInstruction (m.setIp (-5)) := by
  have hboot : Machine.boot ⟨#[.jumpIfZero 3, .act .emit, .act .dec, .jumpIfNonzero 0]⟩ 1
      = .ok (Machine.fresh 1) := by decide
  obtain ⟨hreplay, -⟩ := negative_start_replays ⟨Source.exhausted, .collect⟩ hboot
    { Machine.fresh 1 with tape := ⟨#[2]⟩ }
  obtain ⟨-, -, -, hbefore⟩ := negative_start_replays ⟨Source.exhausted, .collect⟩ hboot
    (Machine.setIp (-5) { Machine.fresh 1 with tape := ⟨#[2]⟩ })
  obtain ⟨-, hruns⟩ := hreplay 2 (by decide)
  obtain ⟨x, hx, hip, hout⟩ : ∃ x, (Machine.setIp (-2) { Machine.fresh 1 with tape := ⟨#[2]⟩ }).runFor
      ⟨Source.exhausted, .collect⟩ ⟨#[.jumpIfZero 3, .act .emit, .act .dec, .jumpIfNonzero 0]⟩ 6
      = .halted x ∧ x.ip = 4 ∧ x.output = #[1] := ⟨_, rfl, rfl, rfl⟩
  have hrel := hruns 6
  rw [show (-((2 : Nat) : Int)) = -2 from rfl, hx] at hrel
  generalize hx' : (Machine.setIp 0 { Machine.fresh 1 with tape := ⟨#[2]⟩ }).runFor
    ⟨Source.exhausted, .collect⟩ (Program.replay 2 ⟨#[.jumpIfZero 3, .act .emit, .act .dec,
      .jumpIfNonzero 0]⟩) 6 = r' at hrel
  cases hrel with
  | @halted _ x' h =>
      refine ⟨_, _, x, x', rfl, hboot, rfl, ⟨6, hx⟩, ⟨6, hx'⟩, hout, h.output.trans hout, h.steps,
        hip, ?_, hbefore (by decide) 0⟩
      rw [h.ip, hip]
      rfl

end ByteTape
