import ByteTape.Proofs.Safety

/-! # Two runs side by side

    Two machines, each with devices of its own, are in lockstep when every step
    of the one is matched by a step of the other.

    * `Progress.Related` — two runs have come equally far: both are going, both
      have halted, or both have failed, and what they have come to is related;
    * `Machine.runFor_lockstep` — if single steps of related machines are
      related, so are their runs of any length, up to the first pair of machines
      for which this is given up;
    * `Machine.exists_runFor_ahead`, `Machine.exists_runFor_behind` — the same
      where one of the two takes a step of its own now and then, so that it needs
      more steps, never fewer;
    * `Machine.EndAlike` — both runs halt, both fail, or neither ends;
    * `Machine.Abreast` — two machines stand at the same instruction of one
      program, in related stores;
    * `Machine.runFor_abreast` — if actions keep stores related, and related
      stores have the same current cell, the machines run in lockstep.

    What may break the lockstep is a parameter: a comparison of runs says what
    one step, or one action, does and leaves the counting to this module. -/

namespace ByteTape

/-- Two runs have come equally far, to related ends. -/
inductive Progress.Related (R : Machine → Machine → Prop)
    (F : Fault → Machine → Fault → Machine → Prop) : Progress → Progress → Prop where
  | running {m m' : Machine} (h : R m m') : Related R F (.running m) (.running m')
  | halted {m m' : Machine} (h : R m m') : Related R F (.halted m) (.halted m')
  | failed {why why' : Fault} {m m' : Machine} (h : F why m why' m') :
      Related R F (.failed why m) (.failed why' m')

namespace Progress.Related

variable {R : Machine → Machine → Prop} {F : Fault → Machine → Fault → Machine → Prop}
  {r : Progress} {m' : Machine}

theorem exists_running (h : Related R F r (.running m')) : ∃ m, r = .running m ∧ R m m' := by
  cases h with
  | running hR => exact ⟨_, rfl, hR⟩

theorem exists_halted (h : Related R F r (.halted m')) : ∃ m, r = .halted m ∧ R m m' := by
  cases h with
  | halted hR => exact ⟨_, rfl, hR⟩

theorem exists_failed {why' : Fault} (h : Related R F r (.failed why' m')) :
    ∃ why m, r = .failed why m ∧ F why m why' m' := by
  cases h with
  | failed hF => exact ⟨_, _, rfl, hF⟩

/-- What is related stays related if less is asked. -/
theorem mono {R' : Machine → Machine → Prop} {F' : Fault → Machine → Fault → Machine → Prop}
    {r' : Progress} (h : Related R F r r') (hR : ∀ m m', R m m' → R' m m')
    (hF : ∀ why m why' m', F why m why' m' → F' why m why' m') : Related R' F' r r' := by
  cases h with
  | running hm => exact .running (hR _ _ hm)
  | halted hm => exact .halted (hR _ _ hm)
  | failed hm => exact .failed (hF _ _ _ _ hm)

/-- The same with what is known of the first run besides. -/
theorem imp {R' : Machine → Machine → Prop} {F' : Fault → Machine → Fault → Machine → Prop}
    {r' : Progress} (h : Related R F r r') (hR : ∀ m m', r.machine = m → R m m' → R' m m')
    (hF : ∀ why m why' m', r = .failed why m → F why m why' m' → F' why m why' m') :
    Related R' F' r r' := by
  cases h with
  | running hm => exact .running (hR _ _ rfl hm)
  | halted hm => exact .halted (hR _ _ rfl hm)
  | failed hm => exact .failed (hF _ _ _ _ rfl hm)

/-- What two runs have come to is related, if it is after failures too. -/
theorem machine {r' : Progress} (h : Related R F r r')
    (hF : ∀ why m why' m', F why m why' m' → R m m') : R r.machine r'.machine := by
  cases h with
  | running hR => exact hR
  | halted hR => exact hR
  | failed hfail => exact hF _ _ _ _ hfail

end Progress.Related

/-- **Related machines run in lockstep** until a pair of them breaks it. -/
theorem Machine.runFor_lockstep {R Breaks : Machine → Machine → Prop}
    {F : Fault → Machine → Fault → Machine → Prop} {d d' : Devices} {p p' : Program}
    (hstep : ∀ m m', R m m' →
      Progress.Related R F (m.step d p) (m'.step d' p') ∨ Breaks m m')
    (n : Nat) {m m' : Machine} (h : R m m') :
    Progress.Related R F (m.runFor d p n) (m'.runFor d' p' n) ∨
    ∃ k x x', k < n ∧ m.runFor d p k = .running x ∧ m'.runFor d' p' k = .running x' ∧
      R x x' ∧ Breaks x x' := by
  -- after a step the rest of the run is in lockstep, or has its first break
  induction n generalizing m m' with
  | zero => exact Or.inl (.running h)
  | succ n ih =>
      rcases hstep m m' h with hrel | hbreak
      · rw [runFor_succ, runFor_succ]
        generalize hs : m.step d p = r at hrel ⊢
        generalize hs' : m'.step d' p' = r' at hrel ⊢
        cases hrel with
        | running hnext =>
            rcases ih hnext with hrun | ⟨k, x, x', hk, hx, hx', hR, hbreak⟩
            · exact Or.inl hrun
            · refine Or.inr ⟨k + 1, x, x', by omega, ?_, ?_, hR, hbreak⟩
              · rw [runFor_succ_of_running hs, hx]
              · rw [runFor_succ_of_running hs', hx']
        | halted hR => exact Or.inl (.halted hR)
        | failed hF => exact Or.inl (.failed hF)
      · exact Or.inr ⟨0, m, m', by omega, rfl, rfl, h, hbreak⟩

/-! ## Steps of its own -/

namespace Machine

section Stutter

variable {R W : Machine → Machine → Prop} {F : Fault → Machine → Fault → Machine → Prop}
  {d d' : Devices} {p p' : Program} {m m' : Machine}

/-- Where the second machine takes a step of its own first, it comes as far as the
    first in as many steps or more. -/
theorem exists_runFor_ahead
    (hR : ∀ m m', R m m' →
      Progress.Related (fun x x' => R x x' ∨ W x x') F (m.step d p) (m'.step d' p'))
    (hW : ∀ m m', W m m' → ∃ next, m'.step d' p' = .running next ∧ R m next)
    (n : Nat) (h : R m m' ∨ W m m') :
    ∃ k, n ≤ k ∧
      Progress.Related (fun x x' => R x x' ∨ W x x') F (m.runFor d p n) (m'.runFor d' p' k) := by
  induction n generalizing m m' with
  | zero => exact ⟨0, Nat.le_refl 0, .running h⟩
  | succ n ih =>
      -- once that step is taken, if there is one, the next is in common
      obtain ⟨j, x', hx', hx⟩ : ∃ j x', m'.runFor d' p' j = .running x' ∧ R m x' := by
        rcases h with h | h
        · exact ⟨0, m', rfl, h⟩
        · obtain ⟨next, hnext, hR'⟩ := hW m m' h
          exact ⟨1, next, by rw [runFor_succ_of_running hnext]; rfl, hR'⟩
      have hstep := hR m x' hx
      rw [runFor_succ]
      generalize m.step d p = r at hstep ⊢
      generalize hs' : x'.step d' p' = r' at hstep
      cases hstep with
      | running hnext =>
          obtain ⟨k, hk, hrun⟩ := ih hnext
          refine ⟨j + (k + 1), by omega, ?_⟩
          rw [runFor_of_running hx', runFor_succ_of_running hs']
          exact hrun
      | halted hend =>
          refine ⟨j + (n + 1), by omega, ?_⟩
          rw [runFor_of_running hx', runFor_succ, hs']
          exact .halted hend
      | failed hend =>
          refine ⟨j + (n + 1), by omega, ?_⟩
          rw [runFor_of_running hx', runFor_succ, hs']
          exact .failed hend

/-- And whatever it comes to, the first has come to in as many steps or fewer. -/
theorem exists_runFor_behind
    (hR : ∀ m m', R m m' →
      Progress.Related (fun x x' => R x x' ∨ W x x') F (m.step d p) (m'.step d' p'))
    (hW : ∀ m m', W m m' → ∃ next, m'.step d' p' = .running next ∧ R m next)
    (n : Nat) (h : R m m' ∨ W m m') :
    ∃ k, k ≤ n ∧
      Progress.Related (fun x x' => R x x' ∨ W x x') F (m.runFor d p k) (m'.runFor d' p' n) := by
  induction n generalizing m m' with
  | zero => exact ⟨0, Nat.le_refl 0, .running h⟩
  | succ n ih =>
      rcases h with h | h
      · have hstep := hR m m' h
        rw [runFor_succ d' p']
        generalize hs : m.step d p = r at hstep
        generalize m'.step d' p' = r' at hstep ⊢
        cases hstep with
        | running hnext =>
            obtain ⟨k, hk, hrun⟩ := ih hnext
            refine ⟨k + 1, by omega, ?_⟩
            rw [runFor_succ_of_running hs]
            exact hrun
        | halted hend =>
            refine ⟨1, by omega, ?_⟩
            rw [runFor_succ, hs]
            exact .halted hend
        | failed hend =>
            refine ⟨1, by omega, ?_⟩
            rw [runFor_succ, hs]
            exact .failed hend
      · obtain ⟨next, hnext, hR'⟩ := hW m m' h
        obtain ⟨k, hk, hrun⟩ := ih (Or.inl hR')
        refine ⟨k, by omega, ?_⟩
        rw [runFor_succ_of_running hnext]
        exact hrun

end Stutter

/-- Both runs halt, both fail, or neither ends. -/
inductive EndAlike (R : Machine → Machine → Prop)
    (F : Fault → Machine → Fault → Machine → Prop) (d : Devices) (p p' : Program)
    (m m' : Machine) : Prop where
  | halt {x x' : Machine} (here : m.Halts d p x) (there : m'.Halts d p' x') (h : R x x')
  | fail {why why' : Fault} {x x' : Machine} (here : m.Fails d p why x)
      (there : m'.Fails d p' why' x') (h : F why x why' x')
  | forever (here : m.RunsForever d p) (there : m'.RunsForever d p')

/-- A run that always comes as far as another ends as that one does. -/
theorem endAlike_of_runFor {R : Machine → Machine → Prop}
    {F : Fault → Machine → Fault → Machine → Prop} {d : Devices} {p p' : Program} {m m' : Machine}
    (h : ∀ n, ∃ k, n ≤ k ∧ Progress.Related R F (m.runFor d p n) (m'.runFor d p' k)) :
    EndAlike R F d p p' m m' := by
  by_cases hforever : m.RunsForever d p
  · refine .forever hforever (runsForever_iff.mpr ?_)
    rintro ⟨n, hover⟩
    obtain ⟨k, hk, hrel⟩ := h n
    obtain ⟨x, hx⟩ := hforever n
    rw [hx, runFor_eq_of_over rfl hover hk] at hrel
    generalize m'.runFor d p' n = r' at hrel hover
    cases hrel with
    | running _ => exact hover
  · obtain ⟨n, hover⟩ := Classical.not_not.mp fun hn => hforever (runsForever_iff.mpr hn)
    obtain ⟨k, -, hrel⟩ := h n
    generalize hr : m.runFor d p n = r at hrel hover
    generalize hr' : m'.runFor d p' k = r' at hrel
    cases hrel with
    | running _ => exact hover.elim
    | halted hend => exact .halt ⟨n, hr⟩ ⟨k, hr'⟩ hend
    | failed hend => exact .fail ⟨n, hr⟩ ⟨k, hr'⟩ hend

end Machine

/-! ## In related stores -/

/-- Both actions are done, or both have failed for the same cause. -/
inductive Effect.Related (S : Store → Store → Prop) : Effect → Effect → Prop where
  | done {s s' : Store} (h : S s s') : Related S (.done s) (.done s')
  | failed {s s' : Store} (why : Cause) (h : S s s') :
      Related S (.failed why s) (.failed why s')

theorem Effect.Related.mono {S T : Store → Store → Prop} {e e' : Effect} (h : Related S e e')
    (hST : ∀ s s', S s s' → T s s') : Related T e e' := by
  cases h with
  | done hS => exact .done (hST _ _ hS)
  | failed why hS => exact .failed why (hST _ _ hS)

/-- What stands at an index of a program whose jumps all lead somewhere. -/
theorem Program.Closed.instr_cases {p : Program} (hp : p.Closed) {i : Nat} (hi : i < p.size) :
    (∃ a, p.code[i]? = some (.act a)) ∨
    (∃ t : Nat, t < p.size ∧ p.code[i]? = some (.jumpIfZero t)) ∨
    ∃ t : Nat, t < p.size ∧ p.code[i]? = some (.jumpIfNonzero t) := by
  have hcode : p.code[i]? = some p.code[i] := Array.getElem?_eq_getElem hi
  have hjump : p.jumpAt? i = p.code[i].target? := by
    rw [jumpAt?_eq, targetAt?, Array.getElem?_toList, hcode]
    rfl
  cases hinstr : p.code[i] with
  | act a =>
      rw [hinstr] at hcode
      exact Or.inl ⟨a, hcode⟩
  | jumpIfZero t =>
      rw [hinstr] at hcode hjump
      obtain ⟨h0, hlt⟩ := hp i t hjump
      obtain ⟨t, rfl⟩ := Int.eq_ofNat_of_zero_le h0
      exact Or.inr (Or.inl ⟨t, Int.ofNat_lt.mp hlt, hcode⟩)
  | jumpIfNonzero t =>
      rw [hinstr] at hcode hjump
      obtain ⟨h0, hlt⟩ := hp i t hjump
      obtain ⟨t, rfl⟩ := Int.eq_ofNat_of_zero_le h0
      exact Or.inr (Or.inr ⟨t, Int.ofNat_lt.mp hlt, hcode⟩)

namespace Machine

/-- Both machines stand at the same instruction after the same number of steps,
    in related stores. -/
inductive Abreast (p : Program) (S : Store → Store → Prop) (m m' : Machine) : Prop where
  | mk {s s' : Store} {i c : Nat} (stores : S s s') (here : m.Stands s i c)
      (there : m'.Stands s' i c) (within : i ≤ p.size)

/-- Both have failed at that instruction, for the same cause. -/
inductive AbreastFailed (S : Store → Store → Prop) :
    Fault → Machine → Fault → Machine → Prop where
  | mk {m m' : Machine} {s s' : Store} {i c : Nat} (cause : Cause) (stores : S s s')
      (here : m.Stands s i c) (there : m'.Stands s' i c) :
      AbreastFailed S (cause.fault i s) m (cause.fault i s') m'

/-- Both are about to do an action for which the comparison is given up. -/
inductive AbreastBreaks (p : Program) (B : Action → Store → Store → Prop) (m m' : Machine) :
    Prop where
  | mk {s s' : Store} {i c : Nat} {a : Action} (breaks : B a s s') (here : m.Stands s i c)
      (there : m'.Stands s' i c) (instr : p.code[i]? = some (.act a))

variable {p : Program} {S : Store → Store → Prop} {B : Action → Store → Store → Prop}
  {d d' : Devices} {m m' : Machine}

/-- One step keeps two machines abreast. -/
theorem Abreast.step (hp : p.Closed) (hcell : ∀ s s', S s s' → s.cell = s'.cell)
    (hact : ∀ a s s', S s s' → Effect.Related S (s.act d a) (s'.act d' a) ∨ B a s s')
    (h : Abreast p S m m') :
    Progress.Related (Abreast p S) (AbreastFailed S) (m.step d p) (m'.step d' p) ∨
      AbreastBreaks p B m m' := by
  obtain @⟨s, s', i, c, hS, hs, hs', hi⟩ := h
  rcases Nat.eq_or_lt_of_le hi with rfl | hlt
  · rw [hs.step_end, hs'.step_end]
    exact Or.inl (.halted ⟨hS, hs, hs', hi⟩)
  rcases hp.instr_cases hlt with ⟨a, ha⟩ | ⟨t, ht, hcode⟩ | ⟨t, ht, hcode⟩
  · rcases hact a s s' hS with hrel | hbreak
    · refine Or.inl ?_
      have hm := hs.step_act ha d
      have hm' := hs'.step_act ha d'
      generalize s.act d a = e at hrel hm
      generalize s'.act d' a = e' at hrel hm'
      cases hrel with
      | done hS₁ =>
          obtain ⟨m₁, hm₁, hs₁⟩ := hm
          obtain ⟨m₁', hm₁', hs₁'⟩ := hm'
          rw [hm₁, hm₁']
          exact .running ⟨hS₁, hs₁, hs₁', hlt⟩
      | failed why hS₁ =>
          obtain ⟨m₁, hm₁, hs₁⟩ := hm
          obtain ⟨m₁', hm₁', hs₁'⟩ := hm'
          rw [hm₁, hm₁']
          exact .failed (.mk why hS₁ hs₁ hs₁')
    · exact Or.inr ⟨hbreak, hs, hs', ha⟩
  · -- the current cells are the same, so both jump or neither does
    obtain ⟨m₁, hm₁, hs₁⟩ := hs.step_jumpIfZero hcode d
    obtain ⟨m₁', hm₁', hs₁'⟩ := hs'.step_jumpIfZero hcode d'
    rw [← hcell s s' hS] at hs₁'
    rw [hm₁, hm₁']
    exact Or.inl (.running ⟨hS, hs₁, hs₁', by split <;> omega⟩)
  · obtain ⟨m₁, hm₁, hs₁⟩ := hs.step_jumpIfNonzero hcode d
    obtain ⟨m₁', hm₁', hs₁'⟩ := hs'.step_jumpIfNonzero hcode d'
    rw [← hcell s s' hS] at hs₁'
    rw [hm₁, hm₁']
    exact Or.inl (.running ⟨hS, hs₁, hs₁', by split <;> omega⟩)

/-- **Actions that keep stores related keep runs in lockstep.** -/
theorem runFor_abreast (hp : p.Closed) (hcell : ∀ s s', S s s' → s.cell = s'.cell)
    (hact : ∀ a s s', S s s' → Effect.Related S (s.act d a) (s'.act d' a) ∨ B a s s')
    (n : Nat) (h : Abreast p S m m') :
    Progress.Related (Abreast p S) (AbreastFailed S) (m.runFor d p n) (m'.runFor d' p n) ∨
    ∃ k x x', k < n ∧ m.runFor d p k = .running x ∧ m'.runFor d' p k = .running x' ∧
      AbreastBreaks p B x x' := by
  have hstep : ∀ x x', Abreast p S x x' →
      Progress.Related (Abreast p S) (AbreastFailed S) (x.step d p) (x'.step d' p) ∨
        AbreastBreaks p B x x' :=
    fun _ _ hx => hx.step hp hcell hact
  rcases runFor_lockstep hstep n h with hrel | ⟨k, x, x', hk, hx, hx', -, hbreak⟩
  · exact Or.inl hrel
  · exact Or.inr ⟨k, x, x', hk, hx, hx', hbreak⟩

end Machine

end ByteTape
