import ByteTape.Proofs.Store

/-! # A walk over the tape

    Actions in a row, with no bracket among them, walk over the tape: they move from
    cell to cell and add to the cells they are on.  Neither depends on what the cells
    hold, so both can be told by counting symbols.

    * `position` — how far from its start a walk has come: moves to the right less moves
      to the left;
    * `tally` — what it has added at a distance from its start: increments less
      decrements among the symbols met there;
    * `Store.Walked` — a store that is another one after a walk with a given end and given
      additions, and `Walked.trans`, one walk after the other.

    One action is a walk of its own (`Store.exists_act_walked`).  So a machine that has a
    row of actions before it does the walk that the counts tell, as long as it stays on the
    tape (`Machine.runFor_walk`). -/

namespace ByteTape

/-! ## Counting -/

/-- How far an action moves. -/
def Action.reach : Action → Int
  | .right => 1
  | .left => -1
  | .inc => 0
  | .dec => 0
  | .emit => 0
  | .poll => 0

/-- What an action adds to the current cell. -/
def Action.gain : Action → Int
  | .inc => 1
  | .dec => -1
  | .right => 0
  | .left => 0
  | .emit => 0
  | .poll => 0

/-- Moves to the right less moves to the left among the first `i` symbols. -/
def position (f : List Symbol) (i : Nat) : Int :=
  ((f.take i).count (.act .right) : Int) - ((f.take i).count (.act .left) : Int)

/-- How often an action stands at a position, among the first `i` symbols. -/
def timesAt (f : List Symbol) (a : Action) (j : Int) (i : Nat) : Nat :=
  (List.range i).countP fun k => f[k]? = some (.act a) ∧ position f k = j

/-- Increments less decrements at a position, among the first `i` symbols. -/
def tally (f : List Symbol) (j : Int) (i : Nat) : Int :=
  (timesAt f .inc j i : Int) - (timesAt f .dec j i : Int)

/-- A place on a tape of `n` cells. -/
def OnTape (n : Nat) (x : Int) : Prop := 0 ≤ x ∧ x < n

instance (n : Nat) (x : Int) : Decidable (OnTape n x) := inferInstanceAs (Decidable (_ ∧ _))

@[simp] theorem position_zero (f : List Symbol) : position f 0 = 0 := rfl

variable {f : List Symbol} {i : Nat} {a : Action}

/-- What stands at a place of a row of actions. -/
theorem exists_action_at {P : Action → Prop} (h : ∀ x ∈ f, ∃ a, x = .act a ∧ P a)
    (hi : i < f.length) : ∃ a, f[i]? = some (.act a) ∧ P a := by
  obtain ⟨a, ha, hP⟩ := h f[i] (List.getElem_mem hi)
  exact ⟨a, by rw [List.getElem?_eq_getElem hi, ha], hP⟩

/-- An action takes the walk on by its reach. -/
theorem position_succ (h : f[i]? = some (.act a)) :
    position f (i + 1) = position f i + a.reach := by
  rw [position, position, List.take_add_one, h, List.count_append, List.count_append]
  cases a <;> simp [Action.reach] <;> omega

/-- One more symbol is counted if it is the action, and stands at the position. -/
theorem timesAt_succ (f : List Symbol) (b : Action) (j : Int) (i : Nat) :
    timesAt f b j (i + 1)
      = timesAt f b j i + if f[i]? = some (.act b) ∧ position f i = j then 1 else 0 := by
  rw [timesAt, List.range_succ, List.countP_append, List.countP_singleton, timesAt]
  simp only [decide_eq_true_eq]

/-- One action more adds where it stands, and nowhere else. -/
theorem tally_succ (h : f[i]? = some (.act a)) (j : Int) :
    tally f j (i + 1) = tally f j i + if j = position f i then a.gain else 0 := by
  rw [tally, tally, timesAt_succ, timesAt_succ, h]
  by_cases hj : j = position f i
  · cases a <;> simp [Action.gain, hj] <;> omega
  · have hj' : ¬ position f i = j := fun h' => hj h'.symm
    simp [hj, hj']

/-- Where the walk does not come to, it adds nothing. -/
theorem tally_eq_zero {j : Int} (h : ∀ k, k < i → position f k ≠ j) : tally f j i = 0 := by
  have htimes : ∀ b, timesAt f b j i = 0 := by
    intro b
    rw [timesAt, List.countP_eq_zero]
    intro k hk hboth
    exact h k (List.mem_range.mp hk) (of_decide_eq_true hboth).2
  rw [tally, htimes, htimes]
  rfl

/-! ## Walks of a store -/

/-- The byte that an integer leaves, modulo 256. -/
theorem toNat_ofInt (z : Int) : ((UInt8.ofInt z).toNat : Int) = z % 256 := by
  rw [UInt8.ofInt, UInt8.toNat_ofNat']
  omega

namespace Store

/-- `s'` is `s` after a walk that ends `shift` cells on and has added `gain j` to the
    cell `j` cells on from its start, all modulo 256. -/
structure Walked (s : Store) (shift : Int) (gain : Int → Int) (s' : Store) : Prop where
  dp : (s'.dp : Int) = s.dp + shift
  cells : ∀ c : Nat,
    s'.tape.cells[c]? = s.tape.cells[c]?.map (· + UInt8.ofInt (gain ((c : Int) - s.dp)))

namespace Walked

variable {s s' s'' : Store} {shift shift' : Int} {gain gain' : Int → Int}

theorem size_eq (h : s.Walked shift gain s') : s'.tape.size = s.tape.size := by
  have hge := h.cells s.tape.cells.size
  rw [Array.getElem?_eq_none (Nat.le_refl _), Option.map_none, Array.getElem?_eq_none_iff] at hge
  have hle := h.cells s'.tape.cells.size
  rw [Array.getElem?_eq_none (Nat.le_refl _), eq_comm, Option.map_eq_none_iff,
    Array.getElem?_eq_none_iff] at hle
  exact Nat.le_antisymm hge hle

private theorem map_add_zero (o : Option UInt8) : o.map (· + UInt8.ofInt 0) = o := by
  cases o with
  | none => rfl
  | some b => exact congrArg some (UInt8.add_zero b)

/-- Where nothing is added nothing changes. -/
theorem cells_of_gain (h : s.Walked shift gain s') {c : Nat} (hc : gain ((c : Int) - s.dp) = 0) :
    s'.tape.cells[c]? = s.tape.cells[c]? := by
  rw [h.cells, hc, map_add_zero]

/-- What the current cell holds at the end. -/
theorem cell (h : s.Walked shift gain s') :
    some s'.cell = s.tape.cells[s'.dp]?.map (· + UInt8.ofInt (gain shift)) := by
  have hcell := h.cells s'.dp
  rw [Array.getElem?_eq_getElem s'.onTape, h.dp,
    show (s.dp : Int) + shift - s.dp = shift by omega] at hcell
  exact hcell

/-- Where the tape stays as it is, nothing is gained. -/
theorem of_tape_eq (ht : s'.tape = s.tape) (hdp : (s'.dp : Int) = s.dp + shift) :
    s.Walked shift (fun _ => 0) s' := by
  refine ⟨hdp, ?_⟩
  intro c
  rw [ht, map_add_zero]

theorem refl (s : Store) : s.Walked 0 (fun _ => 0) s := of_tape_eq rfl (Int.add_zero _).symm

theorem congr (h : s.Walked shift gain s') (hshift : shift = shift')
    (hgain : ∀ j, gain j = gain' j) : s.Walked shift' gain' s' := by
  obtain rfl := hshift
  obtain rfl := funext hgain
  exact h

/-- One walk, and from its end another. -/
theorem trans (h : s.Walked shift gain s') (h' : s'.Walked shift' gain' s'') :
    s.Walked (shift + shift') (fun j => gain j + gain' (j - shift)) s'' := by
  refine ⟨by rw [h'.dp, h.dp, Int.add_assoc], ?_⟩
  intro c
  rw [h'.cells, h.cells, Option.map_map, h.dp]
  refine congrArg (Option.map · _) (funext fun b => ?_)
  rw [Function.comp_apply, UInt8.add_assoc, ← UInt8.ofInt_add, Int.sub_sub]

/-- An addition gains at the cell where the walk stands. -/
theorem add (s : Store) (n : Int) : s.Walked 0 (fun j => if j = 0 then n else 0) (s.add n) := by
  refine ⟨(Int.add_zero _).symm, ?_⟩
  intro c
  show (s.tape.cells.modify s.dp fun b => b + UInt8.ofInt n)[c]? = _
  rw [Array.getElem?_modify]
  by_cases hc : s.dp = c
  · rw [if_pos hc, if_pos (by omega)]
  · rw [if_neg hc, if_neg (by omega), map_add_zero]

end Walked

end Store

/-- The action can fail only at an end of the tape, and what it does to the cells can be
    told by counting: it does not poll, and emits only what the machine keeps itself. -/
def Action.Plain (d : Devices) (a : Action) : Prop :=
  a ≠ .poll ∧ (a = .emit → d.sink = .collect)

/-- **One action is a walk of its own,** if it stays on the tape. -/
theorem Store.exists_act_walked {d : Devices} {s : Store} (ha : a.Plain d)
    (hon : OnTape s.tape.size ((s.dp : Int) + a.reach)) :
    ∃ s', s.act d a = .done s' ∧ s.Walked a.reach (fun j => if j = 0 then a.gain else 0) s' := by
  -- moves and emissions leave the tape as it is
  have hstill : ∀ {s' : Store}, s'.tape = s.tape → (s'.dp : Int) = s.dp + a.reach → a.gain = 0 →
      s.Walked a.reach (fun j => if j = 0 then a.gain else 0) s' := by
    intro s' ht hdp hgain
    refine (Walked.of_tape_eq ht hdp).congr rfl fun j => ?_
    rw [hgain, ite_self]
  obtain ⟨hlow, hhigh⟩ := hon
  cases a with
  | inc => exact ⟨_, rfl, .add s 1⟩
  | dec => exact ⟨_, rfl, .add s (-1)⟩
  | right =>
      rw [Action.reach] at hhigh
      exact ⟨_, dif_pos (by omega), hstill rfl rfl rfl⟩
  | left =>
      rw [Action.reach] at hlow
      refine ⟨_, if_pos (by omega), hstill rfl ?_ rfl⟩
      rw [Action.reach]
      dsimp only
      omega
  | emit =>
      refine ⟨{ s with output := s.output.push s.cell }, ?_, hstill rfl (Int.add_zero _).symm rfl⟩
      rw [act, ha.2 rfl]
      rfl
  | poll => exact absurd rfl ha.1

/-! ## Walks of a machine -/

/-- **A row of actions is walked through.**  A machine before a row of plain actions that
    keeps to the tape comes to the end of its first `i`, having done the walk that the
    counts tell; and what every action on the way keeps holds there. -/
theorem Machine.runFor_walk {d : Devices} {p : Program} {base c : Nat} {m : Machine} {s : Store}
    {P : Nat → Store → Prop}
    (hcode : ∀ k a, f[k]? = some (.act a) → p.code[base + k]? = some (.act a))
    (hplain : ∀ x ∈ f, ∃ a, x = .act a ∧ a.Plain d)
    (hP : ∀ k a s₁ s₂, f[k]? = some (.act a) → s.Walked (position f k) (tally f · k) s₁ →
      P k s₁ → s₁.act d a = .done s₂ → P (k + 1) s₂)
    (hm : m.Stands s base c) (hstart : P 0 s) (hi : i ≤ f.length)
    (hrange : ∀ k, k ≤ i → OnTape s.tape.size ((s.dp : Int) + position f k)) :
    ∃ m' s', m.runFor d p i = .running m' ∧ m'.Stands s' (base + i) (c + i) ∧
      s.Walked (position f i) (tally f · i) s' ∧ P i s' := by
  -- `Walked` says what the symbols so far have done to the tape, and `P` whatever else is asked
  induction i with
  | zero => exact ⟨m, s, rfl, hm, .refl s, hstart⟩
  | succ i ih =>
      obtain ⟨m₁, s₁, hrun, hs₁, hw, hP₁⟩ := ih (by omega) fun k hk => hrange k (by omega)
      obtain ⟨a, hget, hpl⟩ := exists_action_at hplain hi
      have hon := hrange (i + 1) (Nat.le_refl _)
      rw [position_succ hget, ← Int.add_assoc, ← hw.dp, ← hw.size_eq] at hon
      obtain ⟨s₂, hact, hw₂⟩ := Store.exists_act_walked hpl hon
      have hstep := hs₁.step_act (hcode i a hget) d
      rw [hact] at hstep
      obtain ⟨m₂, hm₂, hs₂⟩ := hstep
      refine ⟨m₂, s₂, ?_, hs₂, (hw.trans hw₂).congr (position_succ hget).symm ?_, ?_⟩
      · rw [runFor_of_running hrun, runFor_succ, hm₂]
        rfl
      · intro j
        rw [tally_succ hget]
        simp only [Int.sub_eq_zero]
      · exact hP i a s₁ s₂ hget hw hP₁ hact

end ByteTape
