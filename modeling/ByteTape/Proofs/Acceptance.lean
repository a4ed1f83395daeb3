import ByteTape.Proofs.Passes
import Mathlib.Order.Bounds.Basic
import Mathlib.Data.Nat.Find

/-! # Which texts are accepted, and where the others are refused

    The linker decides with a stack of indices; the law it follows is about
    counts.  A text is accepted exactly when its brackets are balanced.  A
    text whose depth goes below zero is refused at the first symbol that takes
    it there.  Any other text is refused at the last opener that the depth
    never comes back down to.

    * `Unclosed` — an opener above whose depth everything after it stays;
    * `link_closer` — a block, and then a closer too many;
    * `link_opener` — an opener that nothing closes, and then a block;
    * `parse_verdict` — the three cases, for every text.

    Both refusals come down to blocks: up to the first closer too many the
    text is a block, and so is the text after the last unclosed opener. -/

namespace ByteTape

/-- An opener that is never closed: from there on the depth stays above the
    depth before it. -/
def Unclosed (f : List Symbol) (j : Nat) : Prop :=
  f[j]? = some .opener ∧ ∀ i, j < i → depth f j < depth f i

/-! ## A closer too many -/

/-- A block links; the closer after it finds nothing waiting. -/
theorem link_closer (t : Block) (rest : List Symbol) :
    link (t.symbols ++ .closer :: rest) = .error ⟨t.size⟩ := by
  rw [link, Linker.feedAll_append, Linker.feedAll_symbols]
  simp [Linker.feedAll, Linker.feed, Linker.empty]

/-- Where the depth first goes below zero there is a closer, and what stands
    before it is balanced. -/
theorem closer_of_isLeast {f : List Symbol} {i : Nat}
    (h : IsLeast {i | depth f (i + 1) < 0} i) :
    f[i]? = some .closer ∧ Balanced (f.take i) := by
  obtain ⟨hneg, hleast⟩ := h
  have hneg' : depth f (i + 1) < 0 := hneg
  have hbefore : ∀ k, k ≤ i → 0 ≤ depth f k := by
    intro k hk
    cases k with
    | zero => exact Int.le_refl 0
    | succ k =>
        rcases Int.lt_or_le (depth f (k + 1)) 0 with hlt | hle
        · have : i ≤ k := hleast hlt
          omega
        · exact hle
  have hi := hbefore i (Nat.le_refl i)
  cases hs : f[i]? with
  | none =>
      -- past the end the depth no longer changes
      have hlen : f.length ≤ i := List.getElem?_eq_none_iff.mp hs
      rw [depth_of_length_le (by omega), ← depth_of_length_le hlen] at hneg'
      omega
  | some s =>
      rw [depth_succ hs] at hneg'
      cases s with
      | act a =>
          have : depth f i + 0 < 0 := hneg'
          omega
      | opener =>
          have : depth f i + 1 < 0 := hneg'
          omega
      | closer =>
          have : depth f i + -1 < 0 := hneg'
          refine ⟨rfl, ?_, ?_⟩
          · intro k
            rw [depth_take]
            exact hbefore _ (Nat.min_le_right _ _)
          · rw [depth_length]
            show depth f i = 0
            omega

/-- Up to that closer the list is a block. -/
theorem exists_closer_block {f : List Symbol} {i : Nat}
    (h : IsLeast {i | depth f (i + 1) < 0} i) :
    ∃ (t : Block) (rest : List Symbol), f = t.symbols ++ .closer :: rest ∧ t.size = i := by
  obtain ⟨hcloser, hbal⟩ := closer_of_isLeast h
  obtain ⟨t, ht⟩ := balanced_iff_exists_block.mp hbal
  have hdrop : f.drop i = .closer :: f.drop (i + 1) := by
    rw [List.drop_eq_getElem?_toList_append, hcloser]
    rfl
  refine ⟨t, f.drop (i + 1), ?_, ?_⟩
  · rw [ht, ← hdrop, List.take_append_drop]
  · have hlt := (List.getElem?_eq_some_iff.mp hcloser).1
    rw [← t.length_symbols, ht, List.length_take]
    omega

/-! ## An opener too many -/

/-- Layers are taken by any linker. -/
theorem Linker.exists_feedAll_layers (us : List Block) (l : Linker) :
    ∃ l', l.feedAll (layers us) = .ok l' := by
  induction us with
  | nil => exact ⟨l, rfl⟩
  | cons u us ih =>
      obtain ⟨m, hm⟩ := ih
      rw [layers, feedAll_append, hm]
      dsimp only
      rw [feedAll_append, feedAll_symbols]
      exact ⟨_, rfl⟩

/-- A list whose depth is never negative is taken by a new linker. -/
theorem Linker.exists_feedAll_of_nonneg {w : List Symbol} (h : ∀ i, 0 ≤ depth w i) :
    ∃ l, empty.feedAll w = .ok l := by
  obtain ⟨us, t, rfl, -⟩ := exists_layers w h
  obtain ⟨l, hl⟩ := exists_feedAll_layers us empty
  rw [feedAll_append, hl]
  exact ⟨_, feedAll_symbols t l⟩

/-- The opener before the last block is the innermost one left waiting. -/
theorem link_opener {w : List Symbol} (h : ∀ i, 0 ≤ depth w i) (t : Block) :
    link (w ++ .opener :: t.symbols) = .error ⟨w.length⟩ := by
  obtain ⟨l, hl⟩ := Linker.exists_feedAll_of_nonneg h
  have hsize : l.code.size = w.length := by
    rw [Linker.size_of_feedAll hl]
    exact Nat.zero_add _
  rw [link, Linker.feedAll_append, hl]
  dsimp only
  rw [Linker.feedAll_cons, Linker.feed]
  dsimp only
  rw [Linker.feedAll_symbols, hsize]
  rfl

/-- A list that ends above depth zero, without ever having been below, breaks
    up at an opener whose text to the end is a block. -/
theorem exists_opener_block {f : List Symbol} (h : ∀ i, 0 ≤ depth f i) (hpos : 0 < net f) :
    ∃ (w : List Symbol) (t : Block), f = w ++ .opener :: t.symbols ∧ ∀ i, 0 ≤ depth w i := by
  obtain ⟨us, t, rfl, hnet⟩ := exists_layers f h
  cases us with
  | nil => rw [hnet] at hpos; exact absurd hpos (by simp)
  | cons u us =>
      have hf : layers (u :: us) ++ t.symbols
          = (layers us ++ u.symbols) ++ .opener :: t.symbols := by
        simp [layers]
      refine ⟨layers us ++ u.symbols, t, hf, ?_⟩
      intro i
      rcases Nat.le_total i (layers us ++ u.symbols).length with hle | hle
      · rw [← depth_append_of_le (.opener :: t.symbols) hle, ← hf]
        exact h i
      · rw [depth_of_length_le hle, ← depth_length,
          ← depth_append_of_le (.opener :: t.symbols) (Nat.le_refl _), ← hf]
        exact h _

/-- That opener is the last one that is never closed. -/
theorem isGreatest_unclosed (w : List Symbol) (t : Block) :
    IsGreatest {j | Unclosed (w ++ .opener :: t.symbols) j} w.length := by
  have hafter : ∀ k, depth (w ++ .opener :: t.symbols) (w.length + (k + 1))
      = net w + (1 + depth t.symbols k) := by
    intro k
    rw [depth_append_add, depth_cons_succ]
    rfl
  have hat : depth (w ++ .opener :: t.symbols) w.length = net w := by
    rw [depth_append_of_le _ (Nat.le_refl _), depth_length]
  refine ⟨⟨by simp, ?_⟩, ?_⟩
  · intro i hi
    obtain ⟨k, rfl⟩ := Nat.exists_eq_add_of_le hi
    rw [show w.length.succ + k = w.length + (k + 1) by omega, hafter, hat]
    have := t.balanced_symbols.nonneg k
    omega
  · -- an opener inside the block is closed before the block ends
    rintro j ⟨hj, hup⟩
    rcases Nat.lt_or_ge w.length j with hlt | hge
    · obtain ⟨k, rfl⟩ := Nat.exists_eq_add_of_le hlt
      have hjlen : w.length.succ + k < (w ++ .opener :: t.symbols).length :=
        (List.getElem?_eq_some_iff.mp hj).1
      have hend := hup (w.length + (t.size + 1)) (by simp at hjlen; omega)
      rw [show w.length.succ + k = w.length + (k + 1) by omega, hafter, hafter,
        ← t.length_symbols, t.balanced_symbols.closed] at hend
      have := t.balanced_symbols.nonneg k
      omega
    · exact hge

/-! ## The verdict -/

/-- A list whose depth goes below zero is refused where it first does. -/
theorem link_error_of_below {f : List Symbol} (h : ∃ i, depth f (i + 1) < 0) :
    ∃ i, IsLeast {i | depth f (i + 1) < 0} i ∧ link f = .error ⟨i⟩ := by
  have hleast : IsLeast {i | depth f (i + 1) < 0} (Nat.find h) :=
    ⟨Nat.find_spec h, fun k hk => Nat.find_min' h hk⟩
  generalize Nat.find h = i at hleast
  obtain ⟨t, rest, hsplit, hsize⟩ := exists_closer_block hleast
  refine ⟨i, hleast, ?_⟩
  rw [hsplit, link_closer, hsize]

/-- A list that ends above depth zero is refused at its last unclosed opener. -/
theorem link_error_of_above {f : List Symbol} (h : ∀ i, 0 ≤ depth f i)
    (hpos : 0 < depth f f.length) :
    ∃ j, IsGreatest {j | Unclosed f j} j ∧ link f = .error ⟨j⟩ := by
  rw [depth_length] at hpos
  obtain ⟨w, t, rfl, hw⟩ := exists_opener_block h hpos
  exact ⟨w.length, isGreatest_unclosed w t, link_opener hw t⟩

/-- What links is the code of a block. -/
theorem link_eq_ok_iff {f : List Symbol} {p : Program} :
    link f = .ok p ↔ ∃ t : Block, t.symbols = f ∧ p = ⟨(t.code 0).toArray⟩ := by
  constructor
  · intro hp
    -- neither error arises, so the list is balanced
    have hnonneg : ∀ i, 0 ≤ depth f i := by
      intro i
      rcases Int.lt_or_le (depth f i) 0 with hlt | hle
      · cases i with
        | zero => exact Int.le_refl 0
        | succ i =>
            obtain ⟨j, -, he⟩ := link_error_of_below ⟨i, hlt⟩
            rw [hp] at he
            exact nomatch he
      · exact hle
    have hclosed : depth f f.length = 0 := by
      rcases Int.lt_or_le 0 (depth f f.length) with hlt | hle
      · obtain ⟨j, -, he⟩ := link_error_of_above hnonneg hlt
        rw [hp] at he
        exact nomatch he
      · exact Int.le_antisymm hle (hnonneg _)
    obtain ⟨t, rfl⟩ := balanced_iff_exists_block.mp ⟨hnonneg, hclosed⟩
    rw [link_symbols] at hp
    exact ⟨t, rfl, (Except.ok.inj hp).symm⟩
  · rintro ⟨t, rfl, rfl⟩
    exact link_symbols t

/-- **Every text is judged by its depths.**  It is accepted exactly when its
    symbols are balanced.  If its depth ever goes below zero, it is refused at
    the first symbol after which it is; otherwise, if its depth ends above
    zero, at the last opener that is never closed.  And no other refusal is
    possible, even when assembly is done in two passes that could each stop for
    reasons of their own. -/
theorem parse_verdict (text : String) :
    ((∃ p, Program.parse text = .ok p) ↔
      (∀ i, 0 ≤ depth (scan text) i) ∧ depth (scan text) (scan text).length = 0) ∧
    ((∃ i, depth (scan text) (i + 1) < 0) →
      ∃ i, IsLeast {i | depth (scan text) (i + 1) < 0} i ∧ Program.parse text = .error ⟨i⟩) ∧
    ((∀ i, 0 ≤ depth (scan text) i) → 0 < depth (scan text) (scan text).length →
      ∃ j, IsGreatest {j | Unclosed (scan text) j} j ∧ Program.parse text = .error ⟨j⟩) ∧
    assemble text
      = match Program.parse text with
        | .ok p => .ok p
        | .error e => .error (.unbalanced e) := by
  refine ⟨?_, link_error_of_below, link_error_of_above, assemble_eq_parse text⟩
  constructor
  · rintro ⟨p, hp⟩
    obtain ⟨t, ht, -⟩ := link_eq_ok_iff.mp hp
    rw [← ht]
    exact ⟨t.balanced_symbols.nonneg, t.balanced_symbols.closed⟩
  · rintro ⟨hnonneg, hclosed⟩
    obtain ⟨t, ht⟩ := balanced_iff_exists_block.mp ⟨hnonneg, hclosed⟩
    exact ⟨_, link_eq_ok_iff.mpr ⟨t, ht, rfl⟩⟩

/-- Two openers are left open, and the later of them is the place of the refusal. -/
theorem parse_verdict_unclosed :
    (∀ i, 0 ≤ depth (scan "[+[") i) ∧ 0 < depth (scan "[+[") (scan "[+[").length ∧
      ∃ j, IsGreatest {j | Unclosed (scan "[+[") j} j ∧ Program.parse "[+[" = .error ⟨j⟩ := by
  have hnonneg : ∀ i, 0 ≤ depth (scan "[+[") i := by
    intro i
    match i with
    | 0 => decide
    | 1 => decide
    | 2 => decide
    | i + 3 =>
        rw [depth_of_length_le (show (scan "[+[").length ≤ i + 3 by
          rw [show (scan "[+[").length = 3 from rfl]; omega)]
        decide
  have hpos : 0 < depth (scan "[+[") (scan "[+[").length := by decide
  exact ⟨hnonneg, hpos, (parse_verdict "[+[").2.2.1 hnonneg hpos⟩

end ByteTape
