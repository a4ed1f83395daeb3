import ByteTape.Machine.Run

/-! # How runs end

    A run is counted out in steps by `Machine.runFor`; how a run ends is what
    all large enough counts agree on.

    * `Machine.Halts`, `Machine.Fails`, `Machine.RunsForever` — the three ways
      of a run;
    * `Machine.Reaches` — everything that runs lead to: any number of steps,
      and after a failure the next run from where it left off.

    A step is a function, so a run has one end at most (`over_unique`), it keeps
    it however much longer one counts (`runFor_eq_of_over`), and what every step
    preserves holds of everything reached (`Reaches.of_step`), as does what leads to the
    same failure over and over (`Reaches.of_stuck`). -/

namespace ByteTape

/-- There is nothing more to execute. -/
def Progress.Over : Progress → Prop
  | .running _ => False
  | .halted _ => True
  | .failed _ _ => True

namespace Machine

variable {d : Devices} {p : Program}

/-- The run ends normally, in `m'`. -/
def Halts (d : Devices) (p : Program) (m m' : Machine) : Prop :=
  ∃ n, m.runFor d p n = .halted m'

/-- The run ends with a fault, and leaves `m'` behind. -/
def Fails (d : Devices) (p : Program) (m : Machine) (why : Fault) (m' : Machine) : Prop :=
  ∃ n, m.runFor d p n = .failed why m'

/-- The run never ends. -/
def RunsForever (d : Devices) (p : Program) (m : Machine) : Prop :=
  ∀ n, ∃ m', m.runFor d p n = .running m'

/-- A run that is still going after `a` steps goes on from there. -/
theorem runFor_of_running {m next : Machine} {a : Nat} (h : m.runFor d p a = .running next)
    (b : Nat) : m.runFor d p (a + b) = next.runFor d p b := by
  rw [runFor_add, h]

/-- One step that goes on, and the run from there. -/
theorem runFor_succ_of_running {m next : Machine} (h : m.step d p = .running next) (n : Nat) :
    m.runFor d p (n + 1) = next.runFor d p n := by
  rw [runFor_succ, h]

/-- A run that is over stays as it is. -/
theorem runFor_eq_of_over {m : Machine} {r : Progress} {a b : Nat}
    (h : m.runFor d p a = r) (hr : r.Over) (hab : a ≤ b) : m.runFor d p b = r := by
  obtain ⟨c, rfl⟩ := Nat.exists_eq_add_of_le hab
  rw [runFor_add, h]
  cases r with
  | running next => exact hr.elim
  | halted next => rfl
  | failed why next => rfl

/-- A run has one end. -/
theorem over_unique {m : Machine} {r r' : Progress} {a b : Nat} (h : m.runFor d p a = r)
    (hr : r.Over) (h' : m.runFor d p b = r') (hr' : r'.Over) : r = r' := by
  rcases Nat.le_total a b with hle | hle
  · exact (runFor_eq_of_over h hr hle).symm.trans h'
  · exact h.symm.trans (runFor_eq_of_over h' hr' hle)

theorem Halts.not_fails {m m' left : Machine} {why : Fault} (h : m.Halts d p m') :
    ¬ m.Fails d p why left := by
  obtain ⟨a, ha⟩ := h
  rintro ⟨b, hb⟩
  exact nomatch over_unique ha trivial hb trivial

/-- A run halts in one machine only. -/
theorem Halts.unique {m m' m'' : Machine} (h : m.Halts d p m') (h' : m.Halts d p m'') :
    m' = m'' := by
  obtain ⟨a, ha⟩ := h
  obtain ⟨b, hb⟩ := h'
  exact Progress.halted.inj (over_unique ha trivial hb trivial)

/-- A run fails in one way only. -/
theorem Fails.unique {m m' m'' : Machine} {why why' : Fault} (h : m.Fails d p why m')
    (h' : m.Fails d p why' m'') : why = why' ∧ m' = m'' := by
  obtain ⟨a, ha⟩ := h
  obtain ⟨b, hb⟩ := h'
  exact Progress.failed.inj (over_unique ha trivial hb trivial)

/-- A run goes on forever exactly when no number of steps ends it. -/
theorem runsForever_iff {m : Machine} :
    m.RunsForever d p ↔ ¬ ∃ n, (m.runFor d p n).Over := by
  constructor
  · rintro h ⟨n, hn⟩
    obtain ⟨m', hm'⟩ := h n
    rw [hm'] at hn
    exact hn
  · intro h n
    cases hr : m.runFor d p n with
    | running m' => exact ⟨m', rfl⟩
    | halted m' => exact absurd ⟨n, by rw [hr]; trivial⟩ h
    | failed why m' => exact absurd ⟨n, by rw [hr]; trivial⟩ h

/-- A run that is still going after as many steps as one likes goes on forever. -/
theorem runsForever_of_unbounded {m : Machine}
    (h : ∀ n, ∃ k m', n ≤ k ∧ m.runFor d p k = .running m') : m.RunsForever d p := by
  refine runsForever_iff.mpr ?_
  rintro ⟨n, hover⟩
  obtain ⟨k, m', hk, hm'⟩ := h n
  rw [← runFor_eq_of_over rfl hover hk, hm'] at hover
  exact hover

theorem Halts.not_runsForever {m m' : Machine} (h : m.Halts d p m') : ¬ m.RunsForever d p := by
  obtain ⟨n, hn⟩ := h
  intro hforever
  exact runsForever_iff.mp hforever ⟨n, by rw [hn]; trivial⟩

/-! ## What runs lead to -/

/-- The machines that one or more runs lead to.  A run may be looked at after
    any number of steps; when it has ended, the next one starts where it left
    off. -/
inductive Reaches (d : Devices) (p : Program) (m₀ : Machine) : Machine → Prop where
  | start : Reaches d p m₀ m₀
  | run {m : Machine} (n : Nat) (h : Reaches d p m₀ m) : Reaches d p m₀ (m.runFor d p n).machine

/-- What every step preserves is preserved by a run. -/
theorem runFor_of_step {P : Machine → Prop} (hstep : ∀ m, P m → P (m.step d p).machine)
    (n : Nat) {m : Machine} (hm : P m) : P (m.runFor d p n).machine := by
  induction n generalizing m with
  | zero => exact hm
  | succ n ih =>
      have hnext := hstep m hm
      rw [runFor_succ]
      cases hs : m.step d p with
      | running next => rw [hs] at hnext; exact ih hnext
      | halted next => rw [hs] at hnext; exact hnext
      | failed why next => rw [hs] at hnext; exact hnext

/-- What every step preserves holds of everything reached. -/
theorem Reaches.of_step {P : Machine → Prop} (hstep : ∀ m, P m → P (m.step d p).machine)
    {m₀ m : Machine} (h : Reaches d p m₀ m) (h₀ : P m₀) : P m := by
  induction h with
  | start => exact h₀
  | run n _ ih => exact runFor_of_step hstep n ih

/-- Where every step fails for one cause, runs lead nowhere: each of them fails for it
    again. -/
theorem Reaches.of_stuck {P : Machine → Prop} {why : Fault}
    (hstuck : ∀ m, P m → ∃ left, m.step d p = .failed why left ∧ P left)
    {m₀ m : Machine} (h : Reaches d p m₀ m) (h₀ : P m₀) :
    P m ∧ ∀ k, ∃ left, m.runFor d p (k + 1) = .failed why left ∧ P left := by
  have hm : P m := by
    refine h.of_step ?_ h₀
    intro x hx
    obtain ⟨left, hstep, hleft⟩ := hstuck x hx
    rw [hstep]
    exact hleft
  refine ⟨hm, ?_⟩
  intro k
  obtain ⟨left, hstep, hleft⟩ := hstuck m hm
  exact ⟨left, by rw [runFor_succ, hstep], hleft⟩

/-- A run that fails was still going before the step that failed. -/
theorem exists_running_of_failed {m left : Machine} {why : Fault} {n : Nat}
    (h : m.runFor d p n = .failed why left) :
    ∃ k m', m.runFor d p k = .running m' ∧ m'.step d p = .failed why left := by
  induction n generalizing m with
  | zero => exact nomatch h
  | succ n ih =>
      rw [runFor_succ] at h
      cases hs : m.step d p with
      | running next =>
          rw [hs] at h
          obtain ⟨k, m', hk, hm'⟩ := ih h
          exact ⟨k + 1, m', by rw [runFor_succ_of_running hs, hk], hm'⟩
      | halted next => rw [hs] at h; exact nomatch h
      | failed why' next =>
          rw [hs] at h
          exact ⟨0, m, rfl, hs.trans h⟩

/-- A run that halts has passed the last instruction. -/
theorem size_le_ip_of_halted {m m' : Machine} {n : Nat} (h : m.runFor d p n = .halted m') :
    (p.size : Int) ≤ m'.ip := by
  induction n generalizing m with
  | zero => exact nomatch h
  | succ n ih =>
      rw [runFor_succ] at h
      cases hs : m.step d p with
      | running next => rw [hs] at h; exact ih h
      | failed why next => rw [hs] at h; exact nomatch h
      | halted next =>
          rw [hs] at h
          cases h
          rw [step] at hs
          by_cases hend : (p.size : Int) ≤ m.ip
          · rw [if_pos hend] at hs
            cases hs
            exact hend
          · -- only there does a step halt
            rw [if_neg hend] at hs
            split at hs
            · exact nomatch hs
            · split at hs <;> exact nomatch hs

end Machine

end ByteTape
