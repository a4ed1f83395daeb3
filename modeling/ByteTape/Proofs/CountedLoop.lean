import ByteTape.Proofs.Accounting
import ByteTape.Proofs.Composition
import ByteTape.Proofs.LoopExit
import ByteTape.Proofs.RoundTrip
import ByteTape.Proofs.Walk

/-! # Counted loops

    A loop whose body only adds and moves, and comes back to where it started, does the
    same walk on every turn.  So its turns only count: after `k` of them each cell has
    received `k` times what one walk adds there, and the loop is left at the first `k` that
    takes the cell it tests to zero.

    * `CountsOut` — so many turns take a byte to zero;
    * `CountedLoop` — the code of such a loop, and `Store.Fits`, the stores from which its
      body keeps to the tape;
    * `CountedLoop.turn`, `CountedLoop.turns` — one turn, and any number of them, as long as
      the tested cell is not zero;
    * `Program.Silent` — a program that exchanges nothing with its devices. -/

namespace ByteTape

/-- After `k` turns of a loop over `f` the tested cell, which held `v`, holds zero. -/
def CountsOut (f : List Symbol) (v : UInt8) (k : Nat) : Prop :=
  ((v.toNat : Int) + k * tally f 0 f.length) % 256 = 0

instance (f : List Symbol) (v : UInt8) (k : Nat) : Decidable (CountsOut f v k) :=
  inferInstanceAs (Decidable (_ = _))

/-! ## Programs that exchange nothing -/

/-- No instruction polls or emits. -/
def Program.Silent (p : Program) : Prop :=
  ∀ instr ∈ p.code, instr ≠ .act .emit ∧ instr ≠ .act .poll

theorem Program.mem_of_get? {p : Program} {i : Int} {instr : Instr}
    (h : p.get? i = some instr) : instr ∈ p.code := by
  rw [get?] at h
  split at h
  · exact Array.mem_of_getElem? h
  · cases h

namespace Machine

/-- What neither emits nor polls leaves the books alone. -/
theorem sameBooks_exec {instr : Instr} (h : instr ≠ .act .emit ∧ instr ≠ .act .poll)
    (d : Devices) (m : Machine) : m.SameBooks (m.exec d instr).machine := by
  have hadd : ∀ n, m.SameBooks (m.add n).machine := by
    intro n
    rw [add]
    split <;> exact ⟨rfl, rfl, rfl⟩
  have hmove : ∀ n, m.SameBooks (m.move n).machine := by
    intro n
    rw [move]
    split <;> exact ⟨rfl, rfl, rfl⟩
  have hjump : ∀ test target, m.SameBooks (m.jumpIf test target).machine := by
    intro test target
    rw [jumpIf]
    split
    · exact ⟨rfl, rfl, rfl⟩
    · split <;> exact ⟨rfl, rfl, rfl⟩
  cases instr with
  | jumpIfZero target => exact hjump _ target
  | jumpIfNonzero target => exact hjump _ target
  | act a =>
      cases a with
      | inc => exact hadd 1
      | dec => exact hadd (-1)
      | right => exact hmove 1
      | left => exact hmove (-1)
      | emit => exact absurd rfl h.1
      | poll => exact absurd rfl h.2

/-- A step of a silent program leaves output and traffic alone. -/
theorem step_silent {p : Program} (hp : p.Silent) (d : Devices) (m : Machine) :
    (m.step d p).machine.output = m.output ∧ (m.step d p).machine.traffic = m.traffic := by
  rw [step]
  split
  · exact ⟨rfl, rfl⟩
  cases hi : p.get? m.ip with
  | none => exact ⟨rfl, rfl⟩
  | some instr =>
      have hbooks := sameBooks_exec (hp instr (Program.mem_of_get? hi)) d m
      dsimp only
      cases hx : m.exec d instr with
      | done next =>
          rw [hx] at hbooks
          exact ⟨hbooks.output, hbooks.traffic⟩
      | failed why next =>
          rw [hx] at hbooks
          exact ⟨hbooks.output, hbooks.traffic⟩

/-- A run of a silent program leaves them alone as well. -/
theorem runFor_silent {p : Program} (hp : p.Silent) (d : Devices) (m : Machine) (n : Nat) :
    (m.runFor d p n).machine.output = m.output ∧
      (m.runFor d p n).machine.traffic = m.traffic := by
  refine runFor_of_step (P := fun x => x.output = m.output ∧ x.traffic = m.traffic) ?_ n ⟨rfl, rfl⟩
  rintro x ⟨hout, htraffic⟩
  obtain ⟨hout', htraffic'⟩ := step_silent hp d x
  exact ⟨hout'.trans hout, htraffic'.trans htraffic⟩

end Machine

/-! ## Turns -/

/-- The program of a loop over `f`, of which every symbol adds or moves, and which ends
    where it starts. -/
structure CountedLoop (f : List Symbol) (p : Program) : Prop where
  linked : Linked (.opener :: (f ++ [.closer])) 0 p.code.toList
  body : ∀ x ∈ f, x = .act .inc ∨ x = .act .dec ∨ x = .act .right ∨ x = .act .left
  home : position f f.length = 0

/-- From this store the walk of `f` keeps to the tape. -/
def Store.Fits (f : List Symbol) (s : Store) : Prop :=
  ∀ i, i ≤ f.length → OnTape s.tape.size ((s.dp : Int) + position f i)

/-- Coming back to the same cell, one finds in it what was there and what was added. -/
theorem Store.Walked.cell_of_home {s s' : Store} {gain : Int → Int} (h : s.Walked 0 gain s') :
    s'.cell = s.cell + UInt8.ofInt (gain 0) := by
  have hdp : s'.dp = s.dp := by
    have := h.dp
    omega
  have hcell := h.cell
  rw [hdp, Array.getElem?_eq_getElem s.onTape] at hcell
  exact Option.some.inj hcell

/-- A turn that comes back to its cell leaves room for the next one. -/
theorem Store.Fits.of_walked {f : List Symbol} {s s' : Store} {gain : Int → Int}
    (h : s.Fits f) (hw : s.Walked 0 gain s') : s'.Fits f := by
  intro i hi
  rw [hw.size_eq, hw.dp, Int.add_zero]
  exact h i hi

/-- Cells add modulo 256. -/
theorem toNat_add_ofInt (b : UInt8) (z : Int) :
    ((b + UInt8.ofInt z).toNat : Int) = ((b.toNat : Int) + z) % 256 := by
  have hz := toNat_ofInt z
  rw [UInt8.toNat_add]
  omega

/-- Counting out is what the cell itself does. -/
theorem countsOut_iff {f : List Symbol} {v : UInt8} {k : Nat} :
    CountsOut f v k ↔ v + UInt8.ofInt (k * tally f 0 f.length) = 0 := by
  rw [CountsOut, ← toNat_add_ofInt, ← UInt8.toNat_inj]
  exact Int.ofNat_inj

namespace CountedLoop

variable {f : List Symbol} {p : Program} {s : Store} {m : Machine} {j c : Nat}

theorem balanced
    (hbody : ∀ x ∈ f, x = .act .inc ∨ x = .act .dec ∨ x = .act .right ∨ x = .act .left) :
    Balanced f := by
  refine balanced_of_actions ?_
  intro x hx
  rcases hbody x hx with rfl | rfl | rfl | rfl <;> exact ⟨_, rfl⟩

theorem pair (h : CountedLoop f p) : Matches (.opener :: (f ++ [.closer])) 0 (f.length + 1) :=
  Linked.matches_enclose (balanced h.body)

theorem plain (h : CountedLoop f p) (d : Devices) : ∀ x ∈ f, ∃ a, x = .act a ∧ a.Plain d := by
  intro x hx
  rcases h.body x hx with rfl | rfl | rfl | rfl <;>
    exact ⟨_, rfl, ⟨by decide, fun he => nomatch he⟩⟩

theorem silent (h : CountedLoop f p) : p.Silent := by
  have hsymbol : ∀ a, .act a ∈ p.code → a ≠ .emit ∧ a ≠ .poll := by
    intro a ha
    have hmem : Symbol.act a ∈ p.code.toList.map Instr.symbol :=
      List.mem_map.mpr ⟨_, ha.val, rfl⟩
    rw [h.linked.symbols] at hmem
    have hbody : Symbol.act a ∈ f := by simpa using hmem
    rcases h.body _ hbody with ha | ha | ha | ha <;> cases ha <;> decide
  intro instr hinstr
  constructor
  · rintro rfl
    exact (hsymbol _ hinstr).1 rfl
  · rintro rfl
    exact (hsymbol _ hinstr).2 rfl

theorem action_at (h : CountedLoop f p) {k : Nat} {a : Action} (hk : f[k]? = some (.act a)) :
    p.code[0 + 1 + k]? = some (.act a) := by
  refine h.linked.action_at ?_
  rw [show 0 + 1 + k = k + 1 by omega, List.getElem?_cons_succ,
    List.getElem?_append_left (List.getElem?_eq_some_iff.mp hk).1]
  exact hk

/-- **One turn** from either bracket, on a cell that is not zero, ends at the closer. -/
theorem turn (h : CountedLoop f p) (d : Devices) (hs : m.Stands s j c)
    (hj : j = 0 ∨ j = f.length + 1) (hcell : s.cell ≠ 0) (hfits : s.Fits f) :
    ∃ m' s', m.runFor d p (f.length + 1) = .running m' ∧
      m'.Stands s' (f.length + 1) (c + (f.length + 1)) ∧ s.Walked 0 (tally f · f.length) s' := by
  obtain ⟨m₁, hm₁, hs₁⟩ := h.linked.step_bracket h.pair hs hj d
  rw [if_neg hcell] at hs₁
  obtain ⟨m₂, s₂, hrun, hs₂, hw, -⟩ := Machine.runFor_walk (P := fun _ _ => True)
    (fun k a hk => h.action_at hk) (h.plain d) (fun _ _ _ _ _ _ _ _ => trivial) hs₁ trivial
    (Nat.le_refl _) hfits
  rw [h.home] at hw
  rw [show 0 + 1 + f.length = f.length + 1 by omega,
    show c + 1 + f.length = c + (f.length + 1) by omega] at hs₂
  exact ⟨m₂, s₂, by rw [Machine.runFor_succ_of_running hm₁, hrun], hs₂, hw⟩

/-- **Turn after turn.**  As long as no number of turns has taken the tested cell to zero,
    so many turns add so many times what one turn adds. -/
theorem turns (h : CountedLoop f p) (d : Devices) (hs : m.Stands s 0 c) (hfits : s.Fits f)
    (k : Nat) (hgoes : ∀ i, i < k → ¬ CountsOut f s.cell i) :
    ∃ m' s' j, m.runFor d p (k * (f.length + 1)) = .running m' ∧
      m'.Stands s' j (c + k * (f.length + 1)) ∧ (j = 0 ∨ j = f.length + 1) ∧
      s.Walked 0 (fun x => k * tally f x f.length) s' := by
  -- after each turn the walk is back at its cell, which has gained the tally once more
  induction k with
  | zero =>
      refine ⟨m, s, 0, by rw [Nat.zero_mul]; rfl, by rw [Nat.zero_mul]; exact hs, Or.inl rfl, ?_⟩
      exact (Store.Walked.refl s).congr rfl fun x => (Int.zero_mul _).symm
  | succ k ih =>
      obtain ⟨m₁, s₁, j, hrun, hs₁, hj, hw⟩ := ih fun i hi => hgoes i (by omega)
      have hcell : s₁.cell ≠ 0 := by
        rw [hw.cell_of_home]
        exact fun hzero => hgoes k (Nat.lt_succ_self k) (countsOut_iff.mpr hzero)
      obtain ⟨m₂, s₂, hrun₂, hs₂, hw₂⟩ := h.turn d hs₁ hj hcell (hfits.of_walked hw)
      rw [Nat.add_assoc, ← Nat.succ_mul] at hs₂
      refine ⟨m₂, s₂, _, ?_, hs₂, Or.inr rfl, (hw.trans hw₂).congr rfl ?_⟩
      · rw [Nat.succ_mul, Machine.runFor_of_running hrun, hrun₂]
      · intro x
        rw [Int.sub_zero, Int.natCast_succ, Int.add_mul, Int.one_mul]

/-- The loop is left after the first number of turns that takes the cell to zero. -/
theorem halts (h : CountedLoop f p) (d : Devices) (hs : m.Stands s 0 c) (hfits : s.Fits f) {k : Nat}
    (hk : IsLeast {k | CountsOut f s.cell k} k) :
    ∃ m' s', m.Halts d p m' ∧ m'.Stands s' p.size (c + (1 + k * (f.length + 1))) ∧
      s.Walked 0 (fun x => k * tally f x f.length) s' := by
  have hgoes : ∀ i, i < k → ¬ CountsOut f s.cell i :=
    fun i hi hout => Nat.not_le_of_lt hi (hk.2 hout)
  obtain ⟨m₁, s₁, j, hrun, hs₁, hj, hw⟩ := h.turns d hs hfits k hgoes
  have hcell : s₁.cell = 0 := by
    rw [hw.cell_of_home]
    exact countsOut_iff.mp hk.1
  obtain ⟨m₂, hm₂, hs₂⟩ := h.linked.step_bracket h.pair hs₁ hj d
  have hsize : p.size = f.length + 1 + 1 := by
    rw [h.linked.size_eq]
    simp
  rw [if_pos hcell, ← hsize, Nat.add_assoc, Nat.add_comm _ 1] at hs₂
  refine ⟨m₂, s₁, ⟨k * (f.length + 1) + (1 + 1), ?_⟩, hs₂, hw⟩
  rw [Machine.runFor_of_running hrun, Machine.runFor_succ_of_running hm₂, Machine.runFor_succ,
    hs₂.step_end]

/-- If no number of turns does, the loop is never left. -/
theorem runsForever (h : CountedLoop f p) (d : Devices) (hs : m.Stands s 0 c) (hfits : s.Fits f)
    (hnever : ¬ ∃ k, CountsOut f s.cell k) : m.RunsForever d p := by
  refine Machine.runsForever_of_unbounded ?_
  intro n
  obtain ⟨m', _, _, hrun, -⟩ := h.turns d hs hfits n fun i _ hout => hnever ⟨i, hout⟩
  exact ⟨n * (f.length + 1), m', Nat.le_mul_of_pos_right n (Nat.succ_pos _), hrun⟩

end CountedLoop

/-- Such a loop is accepted, and its program is the counted loop of its body. -/
theorem exists_countedLoop {b : String}
    (hbody : ∀ x ∈ scan b, x = .act .inc ∨ x = .act .dec ∨ x = .act .right ∨ x = .act .left)
    (hhome : position (scan b) (scan b).length = 0) :
    ∃ p, Program.parse ("[" ++ b ++ "]") = .ok p ∧ CountedLoop (scan b) p := by
  obtain ⟨p, hp⟩ := exists_link_iff.mpr (CountedLoop.balanced hbody).enclose
  rw [← scan_enclose] at hp
  have hl := linked_of_parse hp
  rw [scan_enclose] at hl
  exact ⟨p, hp, hl, hbody, hhome⟩

/-- What a walk of so many turns shows in the record of the cells. -/
theorem Store.Walked.snapshot_tape {s s' : Store} {m m' : Machine} {shift : Int}
    {gain : Int → Int} (h : s.Walked shift gain s') (hm : m.Holds s) (hm' : m'.Holds s') (c : Nat) :
    m'.snapshot.tape[c]?
      = m.snapshot.tape[c]?.map fun v => (v + gain ((c : Int) - m.dp)) % 256 := by
  rw [Machine.snapshot, Machine.snapshot, Array.getElem?_map, Array.getElem?_map, hm'.tape, h.cells,
    hm.tape, hm.dp, Option.map_map, Option.map_map]
  exact congrArg (Option.map · _) (funext fun b => toNat_add_ofInt b _)

/-- A cell that gains nothing is shown as it was. -/
theorem Store.Walked.snapshot_tape_of_gain {s s' : Store} {m m' : Machine} {shift : Int}
    {gain : Int → Int} (h : s.Walked shift gain s') (hm : m.Holds s) (hm' : m'.Holds s') {c : Nat}
    (hc : gain ((c : Int) - m.dp) = 0) : m'.snapshot.tape[c]? = m.snapshot.tape[c]? := by
  rw [hm.dp] at hc
  rw [Machine.snapshot, Machine.snapshot, Array.getElem?_map, Array.getElem?_map, hm'.tape,
    h.cells_of_gain hc, hm.tape]

/-- **Counted loops compute multiples modulo 256.**  For every body that only adds and moves
    and comes back to where it started, and every machine before the loop from whose cell
    the body keeps to the tape, `v` being in that cell: the run halts exactly when some
    number of turns takes `v` to zero.  After the first such number `k` it halts on that cell,
    each cell having received `k` times what one turn adds there, modulo 256, and those the
    body does not come to nothing; it has exchanged nothing with its devices and has counted
    one step and, for each turn, one more than the body has symbols.  If there is no such
    number the run goes on forever. -/
theorem counted_loop (d : Devices) {b : String} {m : Machine} (hip : m.ip = 0)
    (hbody : ∀ x ∈ scan b, x = .act .inc ∨ x = .act .dec ∨ x = .act .right ∨ x = .act .left)
    (hhome : position (scan b) (scan b).length = 0)
    (hfits : ∀ i, i ≤ (scan b).length → OnTape m.tape.size (m.dp + position (scan b) i)) :
    ∃ p v, Program.parse ("[" ++ b ++ "]") = .ok p ∧ m.cell? = some v ∧
      ((∃ m', m.Halts d p m') ↔ ∃ k, CountsOut (scan b) v k) ∧
      (∀ k, IsLeast {k | CountsOut (scan b) v k} k →
        ∃ m', m.Halts d p m' ∧ m'.dp = m.dp ∧
          (∀ c : Nat, m'.snapshot.tape[c]? = m.snapshot.tape[c]?.map fun x =>
            (x + k * tally (scan b) ((c : Int) - m.dp) (scan b).length) % 256) ∧
          (∀ c : Nat, (∀ i, i < (scan b).length → m.dp + position (scan b) i ≠ c) →
            m'.snapshot.tape[c]? = m.snapshot.tape[c]?) ∧
          m'.output = m.output ∧ m'.traffic = m.traffic ∧
          m'.steps = m.steps + (1 + k * ((scan b).length + 1))) ∧
      ((¬ ∃ k, CountsOut (scan b) v k) → m.RunsForever d p) := by
  obtain ⟨p, hp, hloop⟩ := exists_countedLoop hbody hhome
  have hdp : 0 ≤ m.dp ∧ m.dp < m.tape.size := by
    have hstart := hfits 0 (Nat.zero_le _)
    rw [position_zero, Int.add_zero] at hstart
    exact hstart
  have hs : m.Stands (m.store hdp) 0 m.steps := ⟨m.holds_store hdp, hip, rfl⟩
  have hstore : (m.store hdp).Fits (scan b) := by
    intro i hi
    rw [← hs.holds.dp, ← hs.holds.tape]
    exact hfits i hi
  have hhalts := fun {k} => hloop.halts d hs hstore (k := k)
  have hforever := hloop.runsForever d hs hstore
  generalize m.store hdp = s at hs hstore hhalts hforever
  refine ⟨p, s.cell, hp, hs.holds.cell?, ?_, ?_, hforever⟩
  · constructor
    · rintro ⟨m', hm'⟩
      -- a loop that never counts out goes on forever
      by_contra hnever
      exact hm'.not_runsForever (hforever hnever)
    · intro hex
      obtain ⟨m', _, hm', -⟩ := hhalts ⟨Nat.find_spec hex, fun k hk => Nat.find_min' hex hk⟩
      exact ⟨m', hm'⟩
  · intro k hk
    obtain ⟨m', s', hm', hs', hw⟩ := hhalts hk
    obtain ⟨n, hn⟩ := hm'
    have hsilent := Machine.runFor_silent hloop.silent d m n
    rw [hn] at hsilent
    have htape := hw.snapshot_tape hs.holds hs'.holds
    refine ⟨m', ⟨n, hn⟩, ?_, htape, ?_, hsilent.1, hsilent.2, hs'.steps⟩
    · rw [hs'.holds.dp, hw.dp, hs.holds.dp, Int.add_zero]
    · intro c hc
      refine hw.snapshot_tape_of_gain hs.holds hs'.holds ?_
      -- no symbol of the body adds where the walk does not come
      rw [tally_eq_zero fun i hi => by have := hc i hi; omega, Int.mul_zero]

/-- A loop that adds two to the next cell for each one it takes from its own, over the
    edge of a byte: three turns, and nineteen steps. -/
theorem counted_loop_doubling :
    ∃ p m m', Program.parse ("[" ++ "->++<" ++ "]") = .ok p ∧
      m = (⟨⟨#[3, 254, 7]⟩, 0, 0, 0, #[], Traffic.empty⟩ : Machine) ∧
      IsLeast {k | CountsOut (scan "->++<") 3 k} 3 ∧
      m.Halts ⟨Source.exhausted, .collect⟩ p m' ∧ m'.dp = 0 ∧ m'.steps = 19 ∧
      m'.snapshot.tape[0]? = some 0 ∧ m'.snapshot.tape[1]? = some 4 ∧
      m'.snapshot.tape[2]? = some 7 := by
  obtain ⟨m, hm⟩ : ∃ m, m = (⟨⟨#[3, 254, 7]⟩, 0, 0, 0, #[], Traffic.empty⟩ : Machine) := ⟨_, rfl⟩
  have hdp : m.dp = 0 := by rw [hm]
  have htape : m.snapshot.tape = #[3, 254, 7] := by simp [hm, Machine.snapshot]
  have hgoes : ∀ k, k < 3 → ¬ CountsOut (scan "->++<") 3 k := by decide
  have hleast : IsLeast {k | CountsOut (scan "->++<") 3 k} 3 :=
    ⟨by decide, fun k hk => Nat.not_lt.mp fun hlt => hgoes k hlt hk⟩
  obtain ⟨p, v, hp, hv, -, hhalts, -⟩ := counted_loop ⟨Source.exhausted, .collect⟩ (b := "->++<")
    (m := m) (by rw [hm]) (by decide) (by decide) (by rw [hm]; decide)
  obtain rfl : 3 = v := by
    rw [hm] at hv
    exact Option.some.inj hv
  obtain ⟨m', hm', hdp', htape', -, -, -, hsteps⟩ := hhalts 3 hleast
  rw [hdp, htape] at htape'
  refine ⟨p, m, m', hp, hm, hleast, hm', hdp'.trans hdp, ?_, ?_, ?_, ?_⟩
  · rw [hsteps, hm]
    rfl
  · rw [htape']
    decide
  · rw [htape']
    decide
  · rw [htape']
    decide

end ByteTape
