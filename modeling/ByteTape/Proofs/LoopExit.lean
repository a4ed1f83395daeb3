import ByteTape.Proofs.Safety

/-! # Behind the brackets

    A place in a program can be reached by going on from the place before or by a
    jump from elsewhere.  In linked code this makes no difference to what is known
    there: the two brackets of a pair make the same test and go on to the same two
    places, so whoever stands behind a closer has a zero in the current cell, and
    whoever stands behind an opener has none.

    * `Linked.step_bracket` — either bracket of a pair, one step;
    * `Guided` — what is known of the place at which a run of linked code stands.
      It says of the bracket before the place what it tells of the cell, and that
      the place is not inside a loop that directly follows another loop: such a loop
      is met with a zero, and its brackets enclose all jumps to the places between.

    Every step keeps this (`Machine.GuidedBy.step`), also one that fails. -/

namespace ByteTape

/-! ## The brackets of a pair -/

namespace Linked

variable {f : List Symbol} {p : Program} {o c : Nat}

/-- Each instruction has the symbol of its place. -/
theorem symbol_at (h : Linked f 0 p.code.toList) (i : Nat) :
    p.code[i]?.map Instr.symbol = f[i]? := by
  rw [← h.symbols, List.getElem?_map, Array.getElem?_toList]

theorem action_at (h : Linked f 0 p.code.toList) {i : Nat} {a : Action}
    (ha : f[i]? = some (.act a)) : p.code[i]? = some (.act a) := by
  have hcode := h.symbol_at i
  rw [ha] at hcode
  obtain ⟨instr, hinstr, hs⟩ := Option.map_eq_some_iff.mp hcode
  cases instr with
  | act b =>
      cases hs
      exact hinstr
  | jumpIfZero t => exact nomatch hs
  | jumpIfNonzero t => exact nomatch hs

/-- A bracket of the code, with the place of its partner. -/
private theorem instr_at (h : Linked f 0 p.code.toList) {i j : Nat} (hp : Partners f i j) :
    ∃ instr, p.code[i]? = some instr ∧ f[i]? = some instr.symbol ∧
      instr.target? = some (j : Int) := by
  have ht : targetAt? p.code.toList i = some (j : Int) := by
    rw [← Program.jumpAt?_eq]
    exact h.jumpAt?_eq_some_iff.mpr ⟨j, hp, rfl⟩
  obtain ⟨instr, hi, htarget⟩ := Option.bind_eq_some_iff.mp ht
  rw [Array.getElem?_toList] at hi
  refine ⟨instr, hi, ?_, htarget⟩
  rw [← h.symbol_at, hi]
  rfl

/-- An opener jumps to its closer. -/
theorem opener_at (h : Linked f 0 p.code.toList) (hm : Matches f o c) :
    p.code[o]? = some (.jumpIfZero c) := by
  obtain ⟨instr, hi, hs, ht⟩ := h.instr_at (Or.inl hm)
  rw [hm.opener] at hs
  cases instr with
  | act a => exact nomatch hs
  | jumpIfZero t =>
      cases ht
      exact hi
  | jumpIfNonzero t => exact nomatch hs

theorem closer_at (h : Linked f 0 p.code.toList) (hm : Matches f o c) :
    p.code[c]? = some (.jumpIfNonzero o) := by
  obtain ⟨instr, hi, hs, ht⟩ := h.instr_at (Or.inr hm)
  rw [hm.closer] at hs
  cases instr with
  | act a => exact nomatch hs
  | jumpIfZero t => exact nomatch hs
  | jumpIfNonzero t =>
      cases ht
      exact hi

/-- What stands at an index: an action, or one of a pair of brackets. -/
theorem cases_at (h : Linked f 0 p.code.toList) {i : Nat} (hi : i < f.length) :
    (∃ a, f[i]? = some (.act a) ∧ p.code[i]? = some (.act a)) ∨
    ∃ o c, Matches f o c ∧ (i = o ∨ i = c) := by
  have hsym : f[i]? = some f[i] := List.getElem?_eq_getElem hi
  have hbracket : f[i]? = some .opener ∨ f[i]? = some .closer →
      ∃ o c, Matches f o c ∧ (i = o ∨ i = c) := by
    intro hb
    obtain ⟨j, hm | hm, -⟩ := h.partner i hb
    · exact ⟨i, j, hm, Or.inl rfl⟩
    · exact ⟨j, i, hm, Or.inr rfl⟩
  cases hs : f[i] with
  | act a =>
      rw [hs] at hsym
      exact Or.inl ⟨a, hsym, h.action_at hsym⟩
  | opener => exact Or.inr (hbracket (Or.inl (hs ▸ hsym)))
  | closer => exact Or.inr (hbracket (Or.inr (hs ▸ hsym)))

/-- **Both brackets of a pair do the same**: they look at the current cell, and go
    on behind the closer or behind the opener. -/
theorem step_bracket (h : Linked f 0 p.code.toList) (hm : Matches f o c) {m : Machine} {s : Store}
    {i k : Nat} (hs : m.Stands s i k) (hi : i = o ∨ i = c) (d : Devices) :
    ∃ m', m.step d p = .running m' ∧
      m'.Stands s (if s.cell = 0 then c + 1 else o + 1) (k + 1) := by
  rcases hi with rfl | rfl
  · exact hs.step_jumpIfZero (h.opener_at hm) d
  · exact hs.step_jumpIfNonzero (h.closer_at hm) d

end Linked

/-- An action that fails leaves the current cell as it was. -/
theorem Store.cell_of_failed {d : Devices} {a : Action} {s s' : Store} {why : Cause}
    (h : s.act d a = .failed why s') : s'.cell = s.cell := by
  -- an action that fails has neither moved nor stored
  cases a with
  | inc => cases h
  | dec => cases h
  | right =>
      rw [act, right] at h
      split at h
      · cases h
      · cases h
        rfl
  | left =>
      rw [act, left] at h
      split at h
      · cases h
      · cases h
        rfl
  | emit =>
      rw [act, emit.eq_def] at h
      split at h
      · cases h
      · cases h
      · split at h
        · cases h
        · cases h
          rfl
  | poll =>
      rw [act, poll] at h
      split at h
      · cases h
      · cases h
        rfl
      · cases h

/-! ## Where runs of linked code stand -/

/-- What is known of a run of linked code that stands at place `i`. -/
structure Guided (f : List Symbol) (i : Nat) (s : Store) : Prop where
  within : i ≤ f.length
  /-- Behind a closer the current cell is zero. -/
  closer : ∀ j, i = j + 1 → f[j]? = some .closer → s.cell = 0
  /-- Behind an opener it is not. -/
  opener : ∀ j, i = j + 1 → f[j]? = some .opener → s.cell ≠ 0
  /-- The place is not inside a loop that directly follows another. -/
  outside : ∀ j c, f[j]? = some .closer → Matches f (j + 1) c → i ≤ j + 1 ∨ c < i

namespace Guided

variable {f : List Symbol} {i : Nat} {s : Store}

theorem zero (f : List Symbol) (s : Store) : Guided f 0 s where
  within := Nat.zero_le _
  closer := fun _ h => nomatch h
  opener := fun _ h => nomatch h
  outside := fun _ _ _ _ => Or.inl (Nat.zero_le _)

/-- Only the current cell guides, so any other change of the store is free. -/
theorem of_cell_eq {s' : Store} (h : Guided f i s) (hcell : s'.cell = s.cell) : Guided f i s' where
  within := h.within
  closer := fun j hj hf => hcell.trans (h.closer j hj hf)
  opener := fun j hj hf => hcell ▸ h.opener j hj hf
  outside := h.outside

/-- Behind an action nothing is known of the cell. -/
theorem act {a : Action} (h : Guided f i s) (ha : f[i]? = some (.act a)) (s' : Store) :
    Guided f (i + 1) s' := by
  refine ⟨(List.getElem?_eq_some_iff.mp ha).1, ?_, ?_, ?_⟩
  · intro j hj hf
    cases hj
    exact nomatch ha.symm.trans hf
  · intro j hj hf
    cases hj
    exact nomatch ha.symm.trans hf
  · intro j c hj hm
    have hne : i ≠ j + 1 := by
      rintro rfl
      exact nomatch ha.symm.trans hm.opener
    have := h.outside j c hj hm
    omega

/-- A pair that overlaps a loop lies inside it, is the loop, or encloses it. -/
private theorem overlap {o c o' c' : Nat} (hm : Matches f o c) (hm' : Matches f o' c') :
    (o' < o ∧ c < c') ∨ (o = o' ∧ c = c') ∨ (o < o' ∧ c' < c) ∨ c < o' ∨ c' < o := by
  rcases Nat.lt_trichotomy o o' with hlt | rfl | hgt
  · have := hm.nested hm' hlt
    omega
  · exact Or.inr (Or.inl ⟨rfl, hm.right_unique hm'⟩)
  · have := hm'.nested hm hgt
    omega

/-- Either bracket of a pair leads to a place of which the same is known. -/
theorem bracket {o c : Nat} (h : Guided f i s) (hm : Matches f o c) (hi : i = o ∨ i = c) :
    Guided f (if s.cell = 0 then c + 1 else o + 1) s := by
  have hlt := hm.lt
  have hc := (List.getElem?_eq_some_iff.mp hm.closer).1
  by_cases hz : s.cell = 0
  · rw [if_pos hz]
    refine ⟨hc, fun _ _ _ => hz, ?_, ?_⟩
    · intro j hj hf
      cases hj
      exact nomatch hm.closer.symm.trans hf
    · intro j c' hj hm'
      have hout := h.outside j c' hj hm'
      have hlt' := hm'.lt
      have hover := overlap hm hm'
      omega
  · rw [if_neg hz]
    refine ⟨by omega, ?_, fun _ _ _ => hz, ?_⟩
    · intro j hj hf
      cases hj
      exact nomatch hm.opener.symm.trans hf
    · intro j c' hj hm'
      -- the opener of such a loop is never passed: the cell is zero there
      have hne : i ≠ j + 1 := fun hij => hz (h.closer j hij hj)
      have hout := h.outside j c' hj hm'
      have hlt' := hm'.lt
      have hover := overlap hm hm'
      omega

end Guided

namespace Machine

/-- A machine that stands where a run of linked code may stand. -/
inductive GuidedBy (f : List Symbol) (m : Machine) : Prop where
  | mk {s : Store} {i k : Nat} (stands : m.Stands s i k) (guided : Guided f i s)

variable {f : List Symbol} {p : Program} {m : Machine}

/-- **Every step keeps to where runs of linked code may stand.** -/
theorem GuidedBy.step (hl : Linked f 0 p.code.toList) (d : Devices) (h : m.GuidedBy f) :
    (m.step d p).machine.GuidedBy f := by
  obtain @⟨s, i, k, hs, hg⟩ := h
  rcases Nat.eq_or_lt_of_le hg.within with rfl | hlt
  · rw [← hl.size_eq] at hs
    rw [hs.step_end]
    exact ⟨hs, hl.size_eq ▸ hg⟩
  rcases hl.cases_at hlt with ⟨a, ha, hcode⟩ | ⟨o, c, hm, hi⟩
  · have hstep := hs.step_act hcode d
    cases he : s.act d a with
    | done s' =>
        rw [he] at hstep
        obtain ⟨m', hm', hs'⟩ := hstep
        rw [hm']
        exact ⟨hs', hg.act ha s'⟩
    | failed why s' =>
        rw [he] at hstep
        obtain ⟨m', hm', hs'⟩ := hstep
        rw [hm']
        exact ⟨hs', hg.of_cell_eq (Store.cell_of_failed he)⟩
  · obtain ⟨m', hm', hs'⟩ := hl.step_bracket hm hs hi d
    rw [hm']
    exact ⟨hs', hg.bracket hm hi⟩

/-- A fresh machine stands at the start, on a zero cell. -/
theorem exists_stands_fresh {n : Nat} (hn : 0 < n) : ∃ s, (fresh n).Stands s 0 0 ∧ s.cell = 0 := by
  have hdp : 0 ≤ (fresh n).dp ∧ (fresh n).dp < (fresh n).tape.size := by
    have hsafe := safe_fresh ⟨#[]⟩ hn
    rw [hsafe.size]
    exact hsafe.dp
  refine ⟨(fresh n).store hdp, ⟨(fresh n).holds_store hdp, rfl, rfl⟩, ?_⟩
  exact Array.getElem_replicate _

/-- Everything that runs of linked code lead to from a fresh machine. -/
theorem guidedBy_of_reaches {d : Devices} {n : Nat} (hl : Linked f 0 p.code.toList) (hn : 0 < n)
    (h : Reaches d p (fresh n) m) : m.GuidedBy f := by
  obtain ⟨s, hs, -⟩ := exists_stands_fresh hn
  exact h.of_step (fun _ hm => hm.step hl d) ⟨hs, .zero f s⟩

namespace GuidedBy

/-- Where the pointer is, in terms of the symbols of the program. -/
private theorem symbol_before (hl : Linked f 0 p.code.toList) {s : Store} {i k : Nat}
    (hs : m.Stands s i k) (hpos : 1 ≤ m.ip) {x : Symbol}
    (h : (p.get? (m.ip - 1)).map Instr.symbol = some x) : ∃ j, i = j + 1 ∧ f[j]? = some x := by
  rw [hs.ip] at hpos h
  obtain ⟨j, rfl⟩ : ∃ j, i = j + 1 := ⟨i - 1, by omega⟩
  rw [show ((j + 1 : Nat) : Int) - 1 = (j : Int) by omega] at h
  obtain ⟨instr, hinstr, hx⟩ := Option.map_eq_some_iff.mp h
  have hlt := Program.lt_size_of_get? hinstr
  rw [p.get?_of_nonneg (Int.natCast_nonneg j) hlt, Int.toNat_natCast] at hinstr
  refine ⟨j, rfl, ?_⟩
  rw [← hl.symbol_at, hinstr, Option.map_some, hx]

/-- Behind a closer the current cell is zero. -/
theorem cell?_of_closer (hl : Linked f 0 p.code.toList) (h : m.GuidedBy f) (hpos : 1 ≤ m.ip)
    (hx : (p.get? (m.ip - 1)).map Instr.symbol = some .closer) : m.cell? = some 0 := by
  obtain ⟨hs, hg⟩ := h
  obtain ⟨j, hj, hf⟩ := symbol_before hl hs hpos hx
  rw [hs.holds.cell?, hg.closer j hj hf]

/-- Behind an opener it is not. -/
theorem cell?_of_opener (hl : Linked f 0 p.code.toList) (h : m.GuidedBy f) (hpos : 1 ≤ m.ip)
    (hx : (p.get? (m.ip - 1)).map Instr.symbol = some .opener) :
    ∃ b, m.cell? = some b ∧ b ≠ 0 := by
  obtain ⟨hs, hg⟩ := h
  obtain ⟨j, hj, hf⟩ := symbol_before hl hs hpos hx
  exact ⟨_, hs.holds.cell?, hg.opener j hj hf⟩

end GuidedBy

end Machine

/-- **The bracket just passed tells the current cell.**  Whatever the runs of an
    accepted text lead to, also after failures: behind a closer the current cell is
    zero, and behind an opener it is not.  So a program that ends with a closer halts
    on a zero cell, if it halts; and in a loop that directly follows another loop
    no run ever stands at a place between the brackets, nor at the closer. -/
theorem brackets_tell_cell (d : Devices) {text : String} {p : Program} {n : Int} {m₀ : Machine}
    (hparse : Program.parse text = .ok p) (hboot : Machine.boot p n = .ok m₀) :
    (∀ m, Machine.Reaches d p m₀ m → 1 ≤ m.ip →
      ((p.get? (m.ip - 1)).map Instr.symbol = some .closer → m.cell? = some 0) ∧
      ((p.get? (m.ip - 1)).map Instr.symbol = some .opener → ∃ b, m.cell? = some b ∧ b ≠ 0)) ∧
    ((scan text).getLast? = some .closer → ∀ m, m₀.Halts d p m → m.cell? = some 0) ∧
    ∀ i c, (scan text)[i]? = some .closer → Matches (scan text) (i + 1) c →
      ∀ m, Machine.Reaches d p m₀ m → ¬ (i + 1 < m.ip ∧ m.ip ≤ c) := by
  obtain ⟨-, hn, -, rfl⟩ := Machine.boot_eq_ok_iff.mp hboot
  have hl := linked_of_parse hparse
  have hguided : ∀ m, Machine.Reaches d p (Machine.fresh n.toNat) m → m.GuidedBy (scan text) :=
    fun m hm => Machine.guidedBy_of_reaches hl (by omega) hm
  refine ⟨?_, ?_, ?_⟩
  · intro m hm hpos
    exact ⟨(hguided m hm).cell?_of_closer hl hpos, (hguided m hm).cell?_of_opener hl hpos⟩
  · rintro hlast m ⟨k, hk⟩
    have hm : m.GuidedBy (scan text) := by
      have hrun := hguided _ (.run k .start)
      rw [hk] at hrun
      exact hrun
    obtain @⟨s, i, _, hs, hg⟩ := hm
    -- it stands at the end, right behind the last symbol
    have hend := Machine.size_le_ip_of_halted hk
    rw [hs.ip, hl.size_eq] at hend
    have hwithin := hg.within
    rw [List.getLast?_eq_getElem?] at hlast
    have hlt := (List.getElem?_eq_some_iff.mp hlast).1
    rw [hs.holds.cell?, hg.closer _ (by omega) hlast]
  · intro i c hi hmatch m hm
    obtain @⟨s, j, _, hs, hg⟩ := hguided m hm
    have hout := hg.outside i c hi hmatch
    rw [hs.ip]
    omega

/-- A loop that clears the cell, and right behind it a loop that would not end: the
    run halts on a zero cell. -/
theorem brackets_tell_cell_clear :
    ∃ p m₀ m, Program.parse "+[-][+]" = .ok p ∧ Machine.boot p 1 = .ok m₀ ∧
      m₀.Halts ⟨Source.exhausted, .collect⟩ p m ∧ m.cell? = some 0 ∧
      ∀ x, Machine.Reaches ⟨Source.exhausted, .collect⟩ p m₀ x → ¬ (4 < x.ip ∧ x.ip ≤ 6) := by
  have hparse : Program.parse "+[-][+]" = .ok ⟨#[.act .inc, .jumpIfZero 3, .act .dec,
      .jumpIfNonzero 1, .jumpIfZero 6, .act .inc, .jumpIfNonzero 4]⟩ := rfl
  have hboot : Machine.boot ⟨#[.act .inc, .jumpIfZero 3, .act .dec, .jumpIfNonzero 1,
      .jumpIfZero 6, .act .inc, .jumpIfNonzero 4]⟩ 1 = .ok (Machine.fresh 1) := by decide
  have hmatch : Matches (scan "+[-][+]") 4 6 :=
    ⟨by decide, rfl, rfl, Block.balanced_symbols (.act .inc .done)⟩
  obtain ⟨-, hhalt, hdead⟩ := brackets_tell_cell ⟨Source.exhausted, .collect⟩ hparse hboot
  have hhalts : (Machine.fresh 1).Halts ⟨Source.exhausted, .collect⟩ ⟨#[.act .inc, .jumpIfZero 3,
      .act .dec, .jumpIfNonzero 1, .jumpIfZero 6, .act .inc, .jumpIfNonzero 4]⟩ _ := ⟨6, rfl⟩
  exact ⟨_, _, _, hparse, hboot, hhalts, hhalt rfl _ hhalts, hdead 3 6 rfl hmatch⟩

end ByteTape
