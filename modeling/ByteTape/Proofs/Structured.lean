import ByteTape.Proofs.Block
import ByteTape.Proofs.Store

/-! # Structured runs

    A linked program knows nothing of loops: it has instructions in a row and
    jumps between them.  Here its runs are compared with what a block means by
    itself, where a loop repeats its body as long as the current cell is not
    zero.

    * `Block.Ends` — how a block ends from a store, and at what cost;
    * `Block.Carried` — a program carries the code of a block at an index;
    * `Block.Entry` — where a machine may stand that is about to execute a
      block: at its first instruction and, when the block starts with a loop, at
      the closer of the loop as well, since both brackets make the same test and
      go on to the same two places.

    From left to right the comparison is an induction on how the block ends
    (`Ends.follows`).  From right to left it counts: within any number of steps
    the block has an end or the run is still going (`ends_or_running`). -/

namespace ByteTape

/-- How a block ends. -/
inductive Outcome where
  /-- Normally, in a store. -/
  | finished (s : Store)
  /-- With the failure of the symbol of the given index, which leaves a store. -/
  | failed (why : Cause) (index : Nat) (s : Store)
deriving DecidableEq

/-- The same outcome, with `n` more symbols before the one that fails. -/
def Outcome.shift (n : Nat) : Outcome → Outcome
  | .finished s => .finished s
  | .failed why index s => .failed why (n + index) s

@[simp] theorem Outcome.shift_zero (o : Outcome) : o.shift 0 = o := by
  cases o with
  | finished s => rfl
  | failed why index s => rw [shift, Nat.zero_add]

theorem Outcome.shift_eq_failed {n index : Nat} {o : Outcome} {why : Cause} {s : Store}
    (h : o.shift n = .failed why index s) : ∃ i, index = n + i ∧ o = .failed why i s := by
  cases o with
  | finished s' => exact nomatch h
  | failed why' i s' =>
      cases h
      exact ⟨i, rfl, rfl⟩

namespace Block

/-- `t.Ends d s k o`: started in the store `s`, the block `t` ends with `o` at
    the cost `k`.  An action costs 1.  A loop costs 1 on entry and, for each turn
    of its body, the cost of the body plus 1.  What fails costs nothing. -/
inductive Ends (d : Devices) : Block → Store → Nat → Outcome → Prop where
  /-- Nothing is left to do. -/
  | done {s : Store} : Ends d .done s 0 (.finished s)
  /-- The action succeeds, and the rest ends somehow. -/
  | act {a : Action} {rest : Block} {s s' : Store} {k : Nat} {o : Outcome}
      (ha : s.act d a = .done s') (hrest : Ends d rest s' k o) :
      Ends d (.act a rest) s (1 + k) (o.shift 1)
  /-- The action fails. -/
  | actFails {a : Action} {rest : Block} {s s' : Store} {why : Cause}
      (ha : s.act d a = .failed why s') : Ends d (.act a rest) s 0 (.failed why 0 s')
  /-- The current cell is zero: the loop is done, and the rest ends somehow. -/
  | skip {body rest : Block} {s : Store} {k : Nat} {o : Outcome}
      (hz : s.cell = 0) (hrest : Ends d rest s k o) :
      Ends d (.loop body rest) s (1 + k) (o.shift (body.size + 2))
  /-- The current cell is not zero: the body is done once, and the loop again. -/
  | turn {body rest : Block} {s s' : Store} {i k : Nat} {o : Outcome}
      (hnz : s.cell ≠ 0) (hbody : Ends d body s i (.finished s'))
      (hagain : Ends d (.loop body rest) s' k o) :
      Ends d (.loop body rest) s (i + 1 + k) o
  /-- The current cell is not zero, and the body fails. -/
  | turnFails {body rest : Block} {s s' : Store} {i index : Nat} {why : Cause}
      (hnz : s.cell ≠ 0) (hbody : Ends d body s i (.failed why index s')) :
      Ends d (.loop body rest) s (1 + i) (.failed why (1 + index) s')

/-- The index of a failure is that of an action in the written block, and the
    failure is what the action does to some store. -/
theorem Ends.symbol_of_failed {d : Devices} {t : Block} {s s' : Store} {k index : Nat}
    {why : Cause} (h : t.Ends d s k (.failed why index s')) :
    ∃ a s₁, t.symbols[index]? = some (.act a) ∧ Store.act d a s₁ = .failed why s' := by
  generalize ho : Outcome.failed why index s' = o at h
  -- the index counts the symbols before those that are left
  induction h generalizing index with
  | done => exact nomatch ho
  | act _ _ ih =>
      obtain ⟨i, rfl, hi⟩ := Outcome.shift_eq_failed ho.symm
      rw [symbols, Nat.add_comm, List.getElem?_cons_succ]
      exact ih hi.symm
  | @actFails a rest s _ _ ha =>
      cases ho
      exact ⟨a, s, rfl, ha⟩
  | @skip body rest _ _ _ _ _ ih =>
      obtain ⟨i, rfl, hi⟩ := Outcome.shift_eq_failed ho.symm
      rw [symbols, show body.size + 2 + i = body.size + (i + 1) + 1 by omega,
        List.getElem?_cons_succ, List.getElem?_append_right (by rw [length_symbols]; omega),
        length_symbols, Nat.add_sub_cancel_left, List.getElem?_cons_succ]
      exact ih hi.symm
  | turn _ _ _ _ ih => exact ih ho
  | turnFails _ _ ih =>
      cases ho
      obtain ⟨a, s₁, ha, hs₁⟩ := ih rfl
      refine ⟨a, s₁, ?_, hs₁⟩
      rw [symbols, Nat.add_comm, List.getElem?_cons_succ,
        List.getElem?_append_left (List.getElem?_eq_some_iff.mp ha).1]
      exact ha

/-! ## Where the code of a block is found -/

/-- The code of the block stands in the program, from index `base` on. -/
def Carried (t : Block) (p : Program) (base : Nat) : Prop :=
  ∀ i instr, (t.code base)[i]? = some instr → p.code[base + i]? = some instr

namespace Carried

variable {p : Program} {base : Nat}

/-- An action stands at the index of its block. -/
theorem action {a : Action} {rest : Block} (h : (Block.act a rest).Carried p base) :
    p.code[base]? = some (.act a) :=
  h 0 _ rfl

theorem afterAction {a : Action} {rest : Block} (h : (Block.act a rest).Carried p base) :
    rest.Carried p (base + 1) := by
  intro i instr hi
  rw [Nat.add_assoc, Nat.add_comm 1]
  exact h (i + 1) instr hi

/-- The opener of a loop stands at the index of its block, and leads behind the closer.
    -/
theorem opener {body rest : Block} (h : (Block.loop body rest).Carried p base) :
    p.code[base]? = some (.jumpIfZero ((base + body.size + 1 : Nat) : Int)) :=
  h 0 _ rfl

theorem body {body rest : Block} (h : (Block.loop body rest).Carried p base) :
    body.Carried p (base + 1) := by
  intro i instr hi
  have hlt : i < (body.code (base + 1)).length := (List.getElem?_eq_some_iff.mp hi).1
  rw [Nat.add_assoc, Nat.add_comm 1]
  refine h (i + 1) instr ?_
  rw [code, List.getElem?_cons_succ, List.getElem?_append_left hlt]
  exact hi

/-- What stands from the closer on. -/
private theorem fromCloser {body rest : Block} (h : (Block.loop body rest).Carried p base)
    {i : Nat} {instr : Instr}
    (hi : (.jumpIfNonzero (base : Int) :: rest.code (base + body.size + 2))[i]? = some instr) :
    p.code[base + body.size + 1 + i]? = some instr := by
  rw [show base + body.size + 1 + i = base + (body.size + i + 1) by omega]
  refine h (body.size + i + 1) instr ?_
  rw [code, List.getElem?_cons_succ, List.getElem?_append_right (by rw [length_code]; omega),
    length_code, Nat.add_sub_cancel_left]
  exact hi

/-- The closer stands behind the body, and leads back to the opener. -/
theorem closer {body rest : Block} (h : (Block.loop body rest).Carried p base) :
    p.code[base + body.size + 1]? = some (.jumpIfNonzero (base : Int)) :=
  h.fromCloser (i := 0) rfl

theorem afterLoop {body rest : Block} (h : (Block.loop body rest).Carried p base) :
    rest.Carried p (base + body.size + 2) := by
  intro i instr hi
  rw [show base + body.size + 2 + i = base + body.size + 1 + (i + 1) by omega]
  exact h.fromCloser hi

end Carried

/-- Where a machine may stand that is about to execute a block. -/
def Entry (base j : Nat) : Block → Prop
  | .done => j = base
  | .act _ _ => j = base
  | .loop body _ => j = base ∨ j = base + body.size + 1

theorem entry_base (t : Block) (base : Nat) : t.Entry base base := by
  cases t with
  | done => rfl
  | act a rest => rfl
  | loop body rest => exact Or.inl rfl

/-- **Both brackets of a loop do the same**: they look at the current cell, and
    go on behind the loop or with its body. -/
theorem Carried.step_bracket {p : Program} {body rest : Block} {base j c : Nat} {m : Machine}
    {s : Store} (hc : (Block.loop body rest).Carried p base)
    (hj : (Block.loop body rest).Entry base j) (hm : m.Stands s j c) (d : Devices) :
    ∃ m', m.step d p = .running m' ∧
      m'.Stands s (if s.cell = 0 then base + body.size + 2 else base + 1) (c + 1) := by
  rcases hj with rfl | rfl
  · exact hm.step_jumpIfZero hc.opener d
  · exact hm.step_jumpIfNonzero hc.closer d

end Block

/-! ## From a block to the run -/

namespace Machine

/-- After `k` steps the run has come out of the block that starts at `base`, the
    way of the outcome: to what stands at `next`, or to the action that fails. -/
def Follows (d : Devices) (p : Program) (m : Machine) (base next c k : Nat) : Outcome → Prop
  | .finished s' => ∃ m', m.runFor d p k = .running m' ∧ m'.Stands s' next (c + k)
  | .failed why index s' => ∃ m',
      m.runFor d p (k + 1) = .failed (why.fault ((base + index : Nat) : Int) s') m' ∧
      m'.Stands s' (base + index) (c + k)

variable {d : Devices} {p : Program} {m m' : Machine} {base next c i k : Nat} {o : Outcome}

/-- What follows from where a run has come to follows from its start. -/
theorem Follows.of_running {n : Nat} (h : m'.Follows d p (base + n) next (c + i) k o)
    (hm : m.runFor d p i = .running m') : m.Follows d p base next c (i + k) (o.shift n) := by
  cases o with
  | finished s' =>
      obtain ⟨m₁, hrun, hs⟩ := h
      refine ⟨m₁, (runFor_of_running hm k).trans hrun, ?_⟩
      rw [← Nat.add_assoc]
      exact hs
  | failed why index s' =>
      obtain ⟨m₁, hrun, hs⟩ := h
      refine ⟨m₁, ?_, ?_⟩
      · rw [Nat.add_assoc, runFor_of_running hm, hrun, Nat.add_assoc]
      · rw [← Nat.add_assoc, ← Nat.add_assoc]
        exact hs

/-- A step is a run. -/
theorem runFor_one (h : m.step d p = .running m') : m.runFor d p 1 = .running m' :=
  runFor_succ_of_running h 0

end Machine

namespace Block

open Machine

/-- **A run follows the block.**  Wherever the code of the block stands, a
    machine that is about to execute it comes out of it the way the block ends,
    and counts what it costs. -/
theorem Ends.follows {d : Devices} {p : Program} {t : Block} {s : Store} {k : Nat} {o : Outcome}
    (h : t.Ends d s k o) {base j c : Nat} {m : Machine} (hc : t.Carried p base)
    (hj : t.Entry base j) (hm : m.Stands s j c) :
    m.Follows d p base (base + t.size) c k o := by
  induction h generalizing base j c m with
  | done =>
      subst hj
      exact ⟨m, rfl, hm⟩
  | @act a rest _ _ _ _ ha _ ih =>
      subst hj
      have hstep := hm.step_act hc.action d
      rw [ha] at hstep
      obtain ⟨m₁, hm₁, hs₁⟩ := hstep
      have hrest := ih hc.afterAction (rest.entry_base _) hs₁
      rw [show j + 1 + rest.size = j + (Block.act a rest).size by rw [size]; omega] at hrest
      exact hrest.of_running (runFor_one hm₁)
  | actFails ha =>
      subst hj
      have hstep := hm.step_act hc.action d
      rw [ha] at hstep
      obtain ⟨m₁, hm₁, hs₁⟩ := hstep
      refine ⟨m₁, ?_, hs₁⟩
      rw [runFor_succ, hm₁]
      rfl
  | @skip body rest _ _ _ hz _ ih =>
      obtain ⟨m₁, hm₁, hs₁⟩ := hc.step_bracket hj hm d
      rw [if_pos hz] at hs₁
      have hrest := ih hc.afterLoop (rest.entry_base _) hs₁
      rw [show base + body.size + 2 + rest.size = base + (Block.loop body rest).size by
        rw [size]; omega, Nat.add_assoc base] at hrest
      exact hrest.of_running (runFor_one hm₁)
  | @turn body rest s s' i k o hnz _ _ ihb iha =>
      obtain ⟨m₁, hm₁, hs₁⟩ := hc.step_bracket hj hm d
      rw [if_neg hnz] at hs₁
      obtain ⟨m₂, hm₂, hs₂⟩ := ihb hc.body (body.entry_base _) hs₁
      -- the body leaves the machine on the closer, which does for the opener
      have hcloser : (Block.loop body rest).Entry base (base + 1 + body.size) :=
        Or.inr (by omega)
      have hagain := iha hc hcloser hs₂
      have hturn : m.runFor d p (i + 1) = .running m₂ := by
        rw [runFor_succ_of_running hm₁, hm₂]
      rw [Nat.add_assoc c, Nat.add_comm 1] at hagain
      rw [← o.shift_zero]
      exact Follows.of_running (n := 0) hagain hturn
  | turnFails hnz _ ih =>
      obtain ⟨m₁, hm₁, hs₁⟩ := hc.step_bracket hj hm d
      rw [if_neg hnz] at hs₁
      have hbody := ih hc.body (entry_base _ _) hs₁
      exact hbody.of_running (runFor_one hm₁)

/-! ## From the run to the block -/

/-- **Within any number of steps the block ends, or the run is still going.** -/
theorem ends_or_running {d : Devices} {p : Program} :
    ∀ (n : Nat) {t : Block} {base j c : Nat} {m : Machine} {s : Store},
      t.Carried p base → t.Entry base j → m.Stands s j c →
      (∃ k o, k ≤ n ∧ t.Ends d s k o) ∨ ∃ m', m.runFor d p n = .running m' := by
  intro n
  induction n using Nat.strongRecOn with
  | _ n ih =>
      intro t base j c m s hc hj hm
      -- without steps nothing has ended, except a block with nothing in it
      obtain _ | n := n
      · exact Or.inr ⟨m, rfl⟩
      cases t with
      | done => exact Or.inl ⟨0, _, Nat.zero_le _, .done⟩
      | act a rest =>
          subst hj
          have hstep := hm.step_act hc.action d
          cases ha : s.act d a with
          | failed why s' => exact Or.inl ⟨0, _, Nat.zero_le _, .actFails ha⟩
          | done s' =>
              rw [ha] at hstep
              obtain ⟨m₁, hm₁, hs₁⟩ := hstep
              rcases ih n (by omega) hc.afterAction (rest.entry_base _) hs₁ with
                ⟨k, o, hk, hrest⟩ | ⟨m', hm'⟩
              · exact Or.inl ⟨1 + k, _, by omega, .act ha hrest⟩
              · exact Or.inr ⟨m', by rw [runFor_succ_of_running hm₁, hm']⟩
      | loop body rest =>
          obtain ⟨m₁, hm₁, hs₁⟩ := hc.step_bracket hj hm d
          by_cases hz : s.cell = 0
          · rw [if_pos hz] at hs₁
            rcases ih n (by omega) hc.afterLoop (rest.entry_base _) hs₁ with
              ⟨k, o, hk, hrest⟩ | ⟨m', hm'⟩
            · exact Or.inl ⟨1 + k, _, by omega, .skip hz hrest⟩
            · exact Or.inr ⟨m', by rw [runFor_succ_of_running hm₁, hm']⟩
          · rw [if_neg hz] at hs₁
            rcases ih n (by omega) hc.body (body.entry_base _) hs₁ with
              ⟨i, o, hi, hbody⟩ | ⟨m', hm'⟩
            · cases o with
              | failed why index s' => exact Or.inl ⟨1 + i, _, by omega, .turnFails hz hbody⟩
              | finished s' =>
                  obtain ⟨m₂, hm₂, hs₂⟩ := hbody.follows hc.body (body.entry_base _) hs₁
                  -- the loop starts again at its closer, with fewer steps left
                  have hcloser : (Block.loop body rest).Entry base (base + 1 + body.size) :=
                    Or.inr (by omega)
                  rcases ih (n - i) (by omega) hc hcloser hs₂ with
                    ⟨k, o, hk, hagain⟩ | ⟨m', hm'⟩
                  · exact Or.inl ⟨i + 1 + k, o, by omega, .turn hz hbody hagain⟩
                  · refine Or.inr ⟨m', ?_⟩
                    rw [runFor_succ_of_running hm₁, show n = i + (n - i) by omega,
                      runFor_of_running hm₂, hm']
            · exact Or.inr ⟨m', by rw [runFor_succ_of_running hm₁, hm']⟩

end Block

/-! ## Whole programs -/

namespace Machine

variable {d : Devices} {p : Program} {m m' : Machine} {c k : Nat} {o : Outcome}

/-- The run ends the way of the outcome, having counted `k` steps on top of `c`. -/
def Closes (d : Devices) (p : Program) (m : Machine) (c k : Nat) : Outcome → Prop
  | .finished s' => ∃ m', m.Halts d p m' ∧ m'.Stands s' p.size (c + k)
  | .failed why index s' => ∃ m', m.Fails d p (why.fault index s') m' ∧ m'.Stands s' index (c + k)

/-- What a run that halts has come to is the outcome. -/
theorem Closes.of_halts (h : m.Closes d p c k o) (hm : m.Halts d p m') :
    ∃ s, o = .finished s ∧ m'.Stands s p.size (c + k) := by
  cases o with
  | finished s =>
      obtain ⟨m₁, hm₁, hs⟩ := h
      obtain rfl := hm.unique hm₁
      exact ⟨s, rfl, hs⟩
  | failed why index s =>
      obtain ⟨m₁, hm₁, -⟩ := h
      exact absurd hm₁ hm.not_fails

/-- What a run that fails has come to is the outcome. -/
theorem Closes.of_fails {fault : Fault} (h : m.Closes d p c k o) (hm : m.Fails d p fault m') :
    ∃ why index s, o = .failed why index s ∧ fault = why.fault index s ∧
      m'.Stands s index (c + k) := by
  cases o with
  | finished s =>
      obtain ⟨m₁, hm₁, -⟩ := h
      exact absurd hm hm₁.not_fails
  | failed why index s =>
      obtain ⟨m₁, hm₁, hs⟩ := h
      obtain ⟨rfl, rfl⟩ := hm.unique hm₁
      exact ⟨why, index, s, rfl, rfl, hs⟩

theorem Closes.exists_over (h : m.Closes d p c k o) : ∃ n, (m.runFor d p n).Over := by
  cases o with
  | finished s =>
      obtain ⟨m₁, ⟨n, hn⟩, -⟩ := h
      exact ⟨n, by rw [hn]; trivial⟩
  | failed why index s =>
      obtain ⟨m₁, ⟨n, hn⟩, -⟩ := h
      exact ⟨n, by rw [hn]; trivial⟩

end Machine

namespace Block

variable {d : Devices} {t : Block} {m : Machine} {s : Store} {c k : Nat} {o : Outcome}

/-- The program of a block, linked. -/
def program (t : Block) : Program := ⟨(t.code 0).toArray⟩

@[simp] theorem size_program (t : Block) : t.program.size = t.size := by
  rw [program, Program.size, List.size_toArray, length_code]

/-- **The text of a block is parsed as its code.** -/
theorem parse_text (t : Block) : Program.parse t.text = .ok t.program := by
  rw [Program.parse, scan_text]
  exact link_symbols t

/-- The program of a block carries it from the start. -/
theorem carried_program (t : Block) : t.Carried t.program 0 := by
  intro i instr hi
  rw [Nat.zero_add, program, List.getElem?_toArray]
  exact hi

/-- A run of the program ends the way the block does. -/
theorem Ends.closes (h : t.Ends d s k o) (hm : m.Stands s 0 c) :
    m.Closes d t.program c k o := by
  have hrun := h.follows t.carried_program (t.entry_base 0) hm
  rw [Nat.zero_add, ← t.size_program] at hrun
  cases o with
  | finished s' =>
      obtain ⟨m', hm', hs'⟩ := hrun
      refine ⟨m', ⟨k + 1, ?_⟩, hs'⟩
      rw [Machine.runFor_of_running hm', Machine.runFor_succ, hs'.step_end]
  | failed why index s' =>
      obtain ⟨m', hm', hs'⟩ := hrun
      rw [Nat.zero_add] at hm' hs'
      exact ⟨m', ⟨k + 1, hm'⟩, hs'⟩

/-- A run of the program that is over closes an end of the block. -/
theorem exists_ends_of_over {n : Nat} (hm : m.Stands s 0 c)
    (h : (m.runFor d t.program n).Over) : ∃ k o, t.Ends d s k o ∧ m.Closes d t.program c k o := by
  rcases ends_or_running n t.carried_program (t.entry_base 0) hm with
    ⟨k, o, -, hends⟩ | ⟨m', hm'⟩
  · exact ⟨k, o, hends, hends.closes hm⟩
  · rw [hm'] at h
    exact h.elim

/-- **A run halts exactly when the block ends,** in the same store and at the same cost.
    -/
theorem halts_iff (hm : m.Stands s 0 c) (s' : Store) (k : Nat) :
    (∃ m', m.Halts d t.program m' ∧ m'.Holds s' ∧ m'.steps = c + k) ↔
      t.Ends d s k (.finished s') := by
  constructor
  · rintro ⟨m', ⟨n, hn⟩, hs', hk⟩
    obtain ⟨k', o, hends, hclose⟩ := exists_ends_of_over (n := n) hm (by rw [hn]; trivial)
    obtain ⟨s'', rfl, hs''⟩ := hclose.of_halts ⟨n, hn⟩
    obtain rfl : s' = s'' := hs'.unique hs''.holds
    obtain rfl : k = k' := Nat.add_left_cancel (hk.symm.trans hs''.steps)
    exact hends
  · intro h
    obtain ⟨m', hm', hs'⟩ := h.closes hm
    exact ⟨m', hm', hs'.holds, hs'.steps⟩

/-- **A run fails exactly when the block does,** for the same reason and at the same
    action. -/
theorem fails_iff (hm : m.Stands s 0 c) (fault : Fault) (i : Int) (s' : Store) (k : Nat) :
    (∃ m', m.Fails d t.program fault m' ∧ m'.ip = i ∧ m'.Holds s' ∧ m'.steps = c + k) ↔
      ∃ why index a, t.Ends d s k (.failed why index s') ∧ fault = why.fault index s' ∧
        i = index ∧ t.symbols[index]? = some (.act a) := by
  constructor
  · rintro ⟨m', ⟨n, hn⟩, rfl, hs', hk⟩
    obtain ⟨k', o, hends, hclose⟩ := exists_ends_of_over (n := n) hm (by rw [hn]; trivial)
    obtain ⟨why, index, s'', rfl, hwhy, hs''⟩ := hclose.of_fails ⟨n, hn⟩
    obtain rfl : s' = s'' := hs'.unique hs''.holds
    obtain rfl : k = k' := Nat.add_left_cancel (hk.symm.trans hs''.steps)
    obtain ⟨a, -, ha, -⟩ := hends.symbol_of_failed
    exact ⟨why, index, a, hends, hwhy, hs''.ip, ha⟩
  · rintro ⟨why, index, a, hends, rfl, rfl, -⟩
    obtain ⟨m', hm', hs'⟩ := hends.closes hm
    exact ⟨m', hm', hs'.ip, hs'.holds, hs'.steps⟩

/-- **A run goes on forever exactly when the block has no end.** -/
theorem runsForever_iff_not_ends (hm : m.Stands s 0 c) :
    m.RunsForever d t.program ↔ ¬ ∃ k o, t.Ends d s k o := by
  rw [Machine.runsForever_iff, not_iff_not]
  constructor
  · rintro ⟨n, hn⟩
    obtain ⟨k, o, hends, -⟩ := exists_ends_of_over hm hn
    exact ⟨k, o, hends⟩
  · rintro ⟨k, o, hends⟩
    exact (hends.closes hm).exists_over

end Block

/-- **The jumps of a linked program are structured loops.**  For every block,
    every pair of devices and every machine at the first instruction with its
    data pointer on the tape: the text of the block is a program; its run halts
    in a store after `k` counted steps exactly when the block ends there at the
    cost `k`; it fails exactly when the block does, for the same cause, with the
    instruction pointer on the action that fails; and it goes on forever exactly
    when the block has no end. -/
theorem run_structured (d : Devices) (t : Block) (m : Machine) (hip : m.ip = 0)
    (hdp : 0 ≤ m.dp ∧ m.dp < m.tape.size) :
    ∃ p, Program.parse t.text = .ok p ∧
      (∀ s k, (∃ m', m.Halts d p m' ∧ m'.Holds s ∧ m'.steps = m.steps + k) ↔
        t.Ends d (m.store hdp) k (.finished s)) ∧
      (∀ fault i s k,
        (∃ m', m.Fails d p fault m' ∧ m'.ip = i ∧ m'.Holds s ∧ m'.steps = m.steps + k) ↔
        ∃ why index a, t.Ends d (m.store hdp) k (.failed why index s) ∧
          fault = why.fault index s ∧ i = index ∧ t.symbols[index]? = some (.act a)) ∧
      (m.RunsForever d p ↔ ¬ ∃ k o, t.Ends d (m.store hdp) k o) := by
  have hm : m.Stands (m.store hdp) 0 m.steps := ⟨m.holds_store hdp, hip, rfl⟩
  refine ⟨t.program, t.parse_text, ?_, ?_, ?_⟩
  · exact t.halts_iff hm
  · exact t.fails_iff hm
  · exact t.runsForever_iff_not_ends hm

/-- On two cells, the second turn of the loop in `+[>+]` moves off the tape: the
    instruction pointer is left on the move, after five counted steps. -/
theorem run_structured_second_turn :
    (Machine.fresh 2).ip = 0 ∧ (0 ≤ (Machine.fresh 2).dp ∧
      (Machine.fresh 2).dp < (Machine.fresh 2).tape.size) ∧
    ∃ p m', Program.parse "+[>+]" = .ok p ∧
      (Machine.fresh 2).Fails ⟨Source.exhausted, .collect⟩ p (.outOfBounds 2 2 2 #[]) m' ∧
      m'.ip = 2 ∧ m'.steps = 5 := by
  obtain ⟨p, hp, -, hfails, -⟩ := run_structured ⟨Source.exhausted, .collect⟩
    (.act .inc (.loop (.act .right (.act .inc .done)) .done)) (Machine.fresh 2) rfl (by decide)
  have hfirst : (Block.act .right (.act .inc .done)).Ends ⟨Source.exhausted, .collect⟩
      (((Machine.fresh 2).store (by decide)).add 1) 2 (.finished _) :=
    .act rfl (.act rfl .done)
  have hloop : (Block.loop (.act .right (.act .inc .done)) .done).Ends _ _ 4 (.failed _ 1 _) :=
    .turn (by decide) hfirst (.turnFails (by decide) (.actFails rfl))
  have hends : (Block.act .inc (.loop _ .done)).Ends _ _ 5 (.failed _ 2 _) := .act rfl hloop
  obtain ⟨m', hm', hip, -, hsteps⟩ :=
    (hfails _ 2 _ 5).mpr ⟨_, 2, .right, hends, rfl, rfl, rfl⟩
  exact ⟨rfl, by decide, p, m', hp, hm', hip, hsteps⟩

end ByteTape
