import ByteTape.Proofs.LoopExit
import ByteTape.Proofs.RoundTrip
import ByteTape.Proofs.Walk

/-! # Straight-line programs

    A program without brackets that asks for no input does the same on every run, and
    all of it can be told from its symbols beforehand: one walk over the blank tape.

    * `printed` — the bytes that the first `i` symbols emit: what the walk has added so
      far, at the position of each emission;
    * `Store.Traced` — the store that the walk has come to after `i` symbols;
    * `Machine.runFor_straight` — a run comes there, as long as it keeps to the tape, and
      from there halts or fails (`Machine.runFor_straight_halted`,
      `Machine.runFor_straight_failed`). -/

namespace ByteTape

/-- The bytes emitted by the first `i` symbols: at each emission the increments less the
    decrements before it at its position, modulo 256. -/
def printed (f : List Symbol) (i : Nat) : List UInt8 :=
  (List.range i).filterMap fun k =>
    if f[k]? = some (.act .emit) then some (UInt8.ofInt (tally f (position f k) k)) else none

variable {f : List Symbol} {i : Nat} {a : Action}

theorem printed_succ (h : f[i]? = some (.act a)) :
    printed f (i + 1)
      = printed f i ++ if a = .emit then [UInt8.ofInt (tally f (position f i) i)] else [] := by
  rw [printed, List.range_succ, List.filterMap_append, printed]
  by_cases ha : a = .emit
  · simp [h, ha]
  · simp [h, ha]

/-! ## Stores -/

namespace Store

/-- An action that succeeds adds to the bytes kept exactly what it emits. -/
theorem output_of_done {d : Devices} (hd : d.sink = .collect) {s s' : Store}
    (h : s.act d a = .done s') :
    s'.output = s.output ++ if a = .emit then #[s.cell] else #[] := by
  cases a with
  | inc => cases h; simp [Store.add]
  | dec => cases h; simp [Store.add]
  | right =>
      rw [act, right] at h
      split at h
      · cases h; simp
      · cases h
  | left =>
      rw [act, left] at h
      split at h
      · cases h; simp
      · cases h
  | emit =>
      rw [act, hd, emit] at h
      cases h
      simp
  | poll =>
      rw [act, poll] at h
      split at h
      · cases h; simp
      · cases h
      · cases h; simp [write]

/-- An action that would leave the tape fails, and names the place outside. -/
theorem act_offTape {d : Devices} {s : Store} (ha : a.Plain d)
    (h : ¬ OnTape s.tape.size ((s.dp : Int) + a.reach)) :
    s.act d a = .failed (.offTape ((s.dp : Int) + a.reach)) s := by
  have hon := s.onTape
  rw [OnTape] at h
  cases a with
  | inc => rw [Action.reach] at h; omega
  | dec => rw [Action.reach] at h; omega
  | emit => rw [Action.reach] at h; omega
  | poll => exact absurd rfl ha.1
  | right =>
      rw [Action.reach] at h
      exact dif_neg (by omega)
  | left =>
      rw [Action.reach] at h
      rw [act, left, if_neg (by omega), Action.reach, show (s.dp : Int) + -1 = -1 by omega]

/-- What the first `i` symbols of a walk over `n` blank cells leave. -/
structure Traced (f : List Symbol) (n i : Nat) (s : Store) : Prop where
  dp : (s.dp : Int) = position f i
  size : s.tape.size = n
  cells : ∀ c : Nat, c < n → s.tape.cells[c]? = some (UInt8.ofInt (tally f c i))
  output : s.output = (printed f i).toArray

theorem Traced.cell {n : Nat} {s : Store} (h : s.Traced f n i) :
    s.cell = UInt8.ofInt (tally f (position f i) i) := by
  have hcell := h.cells s.dp (h.size ▸ s.onTape)
  rw [Array.getElem?_eq_getElem s.onTape, h.dp] at hcell
  exact Option.some.inj hcell

end Store

/-! ## Runs -/

namespace Machine

variable {d : Devices} {p : Program} {n : Nat}

/-- **A run without brackets leaves what the counts tell,** as long as it keeps to the
    tape. -/
theorem runFor_straight (hl : Linked f 0 p.code.toList) (hd : d.sink = .collect)
    (hplain : ∀ x ∈ f, ∃ a, x = .act a ∧ a.Plain d) (hn : 0 < n) (hi : i ≤ f.length)
    (hrange : ∀ k, k ≤ i → OnTape n (position f k)) :
    ∃ m s, (fresh n).runFor d p i = .running m ∧ m.Stands s i i ∧ s.Traced f n i := by
  obtain ⟨s₀, hs₀, -⟩ := exists_stands_fresh hn
  have htape : s₀.tape = Tape.blank n := hs₀.holds.tape.symm
  have hdp : (s₀.dp : Int) = 0 := hs₀.holds.dp.symm
  have hblank : ∀ c : Nat, c < n → s₀.tape.cells[c]? = some 0 := by
    intro c hc
    rw [htape, Tape.blank, Array.getElem?_replicate, if_pos hc]
  -- the walk starts at the first cell of a blank tape, so distances are places
  have htraced : ∀ k s, s₀.Walked (position f k) (tally f · k) s →
      s.output = (printed f k).toArray → s.Traced f n k := by
    intro k s hw hout
    refine ⟨by rw [hw.dp, hdp, Int.zero_add], ?_, ?_, hout⟩
    · rw [hw.size_eq, htape, Tape.size_blank]
    · intro c hc
      rw [hw.cells, hblank c hc, Option.map_some, UInt8.zero_add, hdp, Int.sub_zero]
  have hcode : ∀ k a, f[k]? = some (.act a) → p.code[0 + k]? = some (.act a) := by
    intro k a hk
    rw [Nat.zero_add]
    exact hl.action_at hk
  have houtput : ∀ k a s₁ s₂, f[k]? = some (.act a) →
      s₀.Walked (position f k) (tally f · k) s₁ → s₁.output = (printed f k).toArray →
      s₁.act d a = .done s₂ → s₂.output = (printed f (k + 1)).toArray := by
    intro k a s₁ s₂ hk hw hout hact
    rw [Store.output_of_done hd hact, hout, (htraced k s₁ hw hout).cell, printed_succ hk]
    by_cases ha : a = .emit
    · simp [ha]
    · simp [ha]
  obtain ⟨m, s, hrun, hs, hw, hout⟩ := runFor_walk hcode hplain houtput hs₀
    hs₀.holds.output.symm hi (by
      rw [hdp, htape, Tape.size_blank]
      simpa only [Int.zero_add] using hrange)
  rw [Nat.zero_add] at hs
  exact ⟨m, s, hrun, hs, htraced i s hw hout⟩

/-- What such a run shows when it halts. -/
theorem Stands.snapshot_of_traced {m : Machine} {s : Store} (hs : m.Stands s i i)
    (h : s.Traced f n i) :
    m.snapshot = {
      output := (printed f i).toArray
      tape := (Array.range n).map fun c : Nat => tally f c i % 256
      dataPointer := position f i
      steps := i } := by
  have htape : m.tape.cells.map (fun b => (b.toNat : Int))
      = (Array.range n).map fun c : Nat => tally f c i % 256 := by
    apply Array.ext_getElem?
    intro c
    rw [Array.getElem?_map, Array.getElem?_map, Array.getElem?_range, hs.holds.tape]
    by_cases hc : c < n
    · rw [h.cells c hc, if_pos hc, Option.map_some, Option.map_some, toNat_ofInt]
    · have hnone : s.tape.cells[c]? = none := Array.getElem?_eq_none (by
        have := h.size
        rw [Tape.size] at this
        omega)
      rw [hnone, if_neg hc]
      rfl
  rw [snapshot, htape, hs.holds.output, h.output, hs.holds.dp, h.dp, hs.steps]

/-- A run that keeps to the tape halts behind the last symbol. -/
theorem runFor_straight_halted (hl : Linked f 0 p.code.toList) (hd : d.sink = .collect)
    (hplain : ∀ x ∈ f, ∃ a, x = .act a ∧ a.Plain d) (hn : 0 < n)
    (hrange : ∀ i, i ≤ f.length → OnTape n (position f i)) :
    ∃ m s, (fresh n).runFor d p (f.length + 1) = .halted m ∧ m.Stands s f.length f.length ∧
      s.Traced f n f.length := by
  obtain ⟨m, s, hrun, hs, htraced⟩ := runFor_straight hl hd hplain hn (Nat.le_refl _) hrange
  refine ⟨m, s, ?_, hs, htraced⟩
  rw [← hl.size_eq] at hs
  rw [runFor_of_running hrun, runFor_succ, hs.step_end]

/-- A run that keeps to the tape up to a symbol, and not with it, fails there. -/
theorem runFor_straight_failed (hl : Linked f 0 p.code.toList) (hd : d.sink = .collect)
    (hplain : ∀ x ∈ f, ∃ a, x = .act a ∧ a.Plain d) (hn : 0 < n) (hi : i < f.length)
    (hrange : ∀ k, k ≤ i → OnTape n (position f k)) (hoff : ¬ OnTape n (position f (i + 1))) :
    ∃ left, (fresh n).runFor d p (i + 1)
      = .failed (.outOfBounds (position f (i + 1)) n i (printed f i).toArray) left := by
  obtain ⟨m, s, hrun, hs, htraced⟩ :=
    runFor_straight hl hd hplain hn (Nat.le_of_lt hi) hrange
  obtain ⟨a, hget, hpl⟩ := exists_action_at hplain hi
  have hnext : (s.dp : Int) + a.reach = position f (i + 1) := by
    rw [htraced.dp, position_succ hget]
  rw [← hnext, ← htraced.size] at hoff
  have hstep := hs.step_act (hl.action_at hget) d
  rw [Store.act_offTape hpl hoff, hnext] at hstep
  obtain ⟨left, hleft, -⟩ := hstep
  refine ⟨left, ?_⟩
  rw [runFor_of_running hrun, runFor_succ, hleft, Cause.fault, htraced.size, htraced.output]

theorem execute_of_parse {text : String} (h : Program.parse text = .ok p) {m : Machine}
    (hm : blank n = .ok m) (d : Devices) (fuel : Nat) :
    execute fuel d p n = .ok ((fresh n).runFor d p fuel) := by
  obtain ⟨hshort, hlong, -⟩ := blank_eq_ok_iff.mp hm
  have hboot : boot p n = .ok (fresh n) :=
    boot_eq_ok_iff.mpr ⟨Program.closed_of_parse h, hshort, hlong, rfl⟩
  rw [execute, hboot]

end Machine

/-- A walk that leaves the tape does so at a first symbol; up to there it keeps to it. -/
theorem exists_isLeast_offTape {n : Nat} (hn : 0 < n)
    (h : ¬ ∀ i, i ≤ f.length → OnTape n (position f i)) :
    ∃ i, IsLeast {i | ¬ OnTape n (position f (i + 1))} i ∧ i < f.length ∧
      ∀ k, k ≤ i → OnTape n (position f k) := by
  have hzero : OnTape n (position f 0) := by
    rw [position_zero, OnTape]
    omega
  have hex : ∃ i, ¬ OnTape n (position f (i + 1)) := by
    by_contra hall
    refine h fun i _ => ?_
    cases i with
    | zero => exact hzero
    | succ i => exact not_not.mp fun hi => hall ⟨i, hi⟩
  have hleast : IsLeast {i | ¬ OnTape n (position f (i + 1))} (Nat.find hex) :=
    ⟨Nat.find_spec hex, fun k hk => Nat.find_min' hex hk⟩
  generalize Nat.find hex = i at hleast
  have hbefore : ∀ k, k ≤ i → OnTape n (position f k) := by
    intro k hk
    cases k with
    | zero => exact hzero
    | succ k => exact not_not.mp fun hk' => Nat.not_le_of_lt hk (hleast.2 hk')
  refine ⟨i, hleast, ?_, hbefore⟩
  by_contra hge
  -- past the end nothing moves any more
  have hsame : position f (i + 1) = position f i := by
    rw [position, position, List.take_of_length_le (by omega), List.take_of_length_le (by omega)]
  exact hleast.1 (hsame ▸ hbefore i (Nat.le_refl i))

/-- A walk leaves the tape over one of its ends, to the place next to it. -/
theorem position_offTape {P : Action → Prop} {n : Nat} (hrow : ∀ x ∈ f, ∃ a, x = .act a ∧ P a)
    (hi : i < f.length) (hon : OnTape n (position f i)) (hoff : ¬ OnTape n (position f (i + 1))) :
    position f (i + 1) = -1 ∨ position f (i + 1) = n := by
  obtain ⟨a, hget, -⟩ := exists_action_at hrow hi
  rw [position_succ hget] at hoff ⊢
  rw [OnTape] at hon hoff
  cases a <;> simp only [Action.reach] at hoff ⊢ <;> omega

/-- **A straight-line program ends as its symbols tell.**  For every text without brackets
    and without a poll, on a blank tape of any length that a tape can have: if the walk of
    its symbols keeps to the tape, the run halts after as many steps as there are symbols,
    at the position the walk has come to, with the increments less the decrements of each
    cell in it, and having kept the bytes so counted at each emission.  Otherwise it fails
    at the first symbol that moves off the tape, to the place before the first cell or
    behind the last, having kept the bytes emitted before. -/
theorem straight_line_outcome (source : Source) {text : String} {n : Nat} {m₀ : Machine}
    (htape : Machine.blank n = .ok m₀)
    (htext : ∀ x ∈ scan text, x ≠ .opener ∧ x ≠ .closer ∧ x ≠ .act .poll) :
    ∃ p, Program.parse text = .ok p ∧
      ((∀ i, i ≤ (scan text).length → OnTape n (position (scan text) i)) →
        ∃ fuel m, execute fuel ⟨source, .collect⟩ p n = .ok (.halted m) ∧
          m.snapshot = {
            output := (printed (scan text) (scan text).length).toArray
            tape := (Array.range n).map fun c : Nat => tally (scan text) c (scan text).length % 256
            dataPointer := position (scan text) (scan text).length
            steps := (scan text).length }) ∧
      ((¬ ∀ i, i ≤ (scan text).length → OnTape n (position (scan text) i)) →
        ∃ i, IsLeast {i | ¬ OnTape n (position (scan text) (i + 1))} i ∧
          (position (scan text) (i + 1) = -1 ∨ position (scan text) (i + 1) = n) ∧
          ∃ fuel left, execute fuel ⟨source, .collect⟩ p n = .ok (.failed (.outOfBounds
            (position (scan text) (i + 1)) n i (printed (scan text) i).toArray) left)) := by
  have hn : 0 < n := by
    have := (Machine.blank_eq_ok_iff.mp htape).1
    omega
  generalize hf : scan text = f at htext ⊢
  have hplain : ∀ x ∈ f, ∃ a, x = .act a ∧ a.Plain ⟨source, .collect⟩ := by
    intro x hx
    obtain ⟨hopener, hcloser, hpoll⟩ := htext x hx
    cases x with
    | act a => exact ⟨a, rfl, fun ha => hpoll (congrArg _ ha), fun _ => rfl⟩
    | opener => exact absurd rfl hopener
    | closer => exact absurd rfl hcloser
  -- without brackets every text is balanced
  obtain ⟨p, hp⟩ := exists_link_iff.mpr (balanced_of_actions fun x hx =>
    (hplain x hx).imp fun a ha => ha.1)
  rw [← hf] at hp
  have hl := linked_of_parse hp
  rw [hf] at hl
  refine ⟨p, hp, ?_, ?_⟩
  · intro hrange
    obtain ⟨m, s, hrun, hs, htraced⟩ := Machine.runFor_straight_halted hl rfl hplain hn hrange
    refine ⟨f.length + 1, m, ?_, hs.snapshot_of_traced htraced⟩
    rw [Machine.execute_of_parse hp htape, hrun]
  · intro hleaves
    obtain ⟨i, hleast, hi, hbefore⟩ := exists_isLeast_offTape hn hleaves
    obtain ⟨left, hrun⟩ :=
      Machine.runFor_straight_failed hl rfl hplain hn hi hbefore hleast.1
    have hend := position_offTape hplain hi (hbefore i (Nat.le_refl i)) hleast.1
    refine ⟨i, hleast, hend, i + 1, left, ?_⟩
    rw [Machine.execute_of_parse hp htape, hrun]

/-- On two cells, the second `<` moves to the place before the first cell; the byte
    emitted before was counted on the second. -/
theorem straight_line_outcome_left_edge :
    Machine.blank 2 = .ok (Machine.fresh 2) ∧
    (∀ x ∈ scan "+>-.<<+", x ≠ .opener ∧ x ≠ .closer ∧ x ≠ .act .poll) ∧
    (¬ ∀ i, i ≤ (scan "+>-.<<+").length → OnTape 2 (position (scan "+>-.<<+") i)) ∧
    ∃ p fuel left, Program.parse "+>-.<<+" = .ok p ∧
      execute fuel ⟨Source.exhausted, .collect⟩ p 2
        = .ok (.failed (.outOfBounds (-1) 2 5 #[255]) left) := by
  have htext : ∀ x ∈ scan "+>-.<<+", x ≠ .opener ∧ x ≠ .closer ∧ x ≠ .act .poll := by decide
  have hleaves : ¬ ∀ i, i ≤ (scan "+>-.<<+").length → OnTape 2 (position (scan "+>-.<<+") i) := by
    decide
  have htape : Machine.blank (2 : Nat) = .ok (Machine.fresh 2) := by decide
  obtain ⟨p, hp, -, hfails⟩ := straight_line_outcome Source.exhausted htape htext
  obtain ⟨i, hleast, -, fuel, left, hleft⟩ := hfails hleaves
  have hbefore : ∀ k, k < 5 → OnTape 2 (position (scan "+>-.<<+") (k + 1)) := by decide
  have hat : ¬ OnTape 2 (position (scan "+>-.<<+") (5 + 1)) := by decide
  obtain rfl : i = 5 := Nat.le_antisymm (hleast.2 hat)
    (Nat.not_lt.mp fun hlt => hleast.1 (hbefore i hlt))
  exact ⟨htape, htext, hleaves, p, fuel, left, hp, hleft⟩

end ByteTape
