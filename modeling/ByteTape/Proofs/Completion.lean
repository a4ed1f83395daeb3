import ByteTape.Proofs.RoundTrip
import Mathlib.Data.Set.Card

/-! # What becomes of a refused text

    A refused text may be only unfinished.  Which of the two it is can be seen from the
    bracket that is reported.  A closer without an opener stays one, whatever comes after
    it.  An opener without a closer is the innermost of all that are left open, and as
    many closers as there are such openers complete the text: no other number does, and
    the first of them is the partner of the opener reported.

    * `link_error_cases` — the two ways of being refused, each with the block next to the
      bracket that is reported;
    * `unclosed_append_iff`, `ncard_unclosed` — the openers left open: that bracket and
      those before it, as many as the depth is at the end;
    * `exists_parse_append_closers_iff` — how many closers complete a text. -/

namespace ByteTape

/-- The two ways of being refused: a block and then a closer, or an opener that is left
    open and then a block. -/
theorem link_error_cases {f : List Symbol} {e : Unbalanced} (h : link f = .error e) :
    (∃ (t : Block) (rest : List Symbol), f = t.symbols ++ .closer :: rest ∧ e = ⟨t.size⟩) ∨
    ∃ (w : List Symbol) (t : Block), f = w ++ .opener :: t.symbols ∧ e = ⟨w.length⟩ ∧
      ∀ i, 0 ≤ depth f i := by
  by_cases hbelow : ∃ i, depth f (i + 1) < 0
  · obtain ⟨i, hleast, hi⟩ := link_error_of_below hbelow
    obtain ⟨t, rest, hsplit, rfl⟩ := exists_closer_block hleast
    exact Or.inl ⟨t, rest, hsplit, Except.error.inj (h.symm.trans hi)⟩
  · have hnonneg : ∀ i, 0 ≤ depth f i := by
      intro i
      cases i with
      | zero => exact Int.le_refl 0
      | succ i => exact Int.not_lt.mp fun hlt => hbelow ⟨i, hlt⟩
    have hpos : 0 < net f := by
      rcases Int.lt_or_le 0 (net f) with hlt | hle
      · exact hlt
      · -- at depth zero the list would be balanced, and linked
        have hzero : depth f f.length = 0 := by
          have := hnonneg f.length
          rw [depth_length] at this ⊢
          omega
        obtain ⟨p, hp⟩ := exists_link_iff.mpr ⟨hnonneg, hzero⟩
        exact nomatch h.symm.trans hp
    obtain ⟨w, t, rfl, hw⟩ := exists_opener_block hnonneg hpos
    exact Or.inr ⟨w, t, rfl, Except.error.inj (h.symm.trans (link_opener hw t)), hnonneg⟩

/-! ## The openers left open -/

/-- Behind an opener that is left open a block opens nothing more, and closes nothing
    before it. -/
theorem unclosed_append_iff (w : List Symbol) (t : Block) (j : Nat) :
    Unclosed (w ++ .opener :: t.symbols) j ↔ j = w.length ∨ Unclosed w j := by
  have hbefore : ∀ i, i ≤ w.length → depth (w ++ .opener :: t.symbols) i = depth w i :=
    fun i hi => depth_append_of_le _ hi
  constructor
  · intro h
    rcases Nat.eq_or_lt_of_le ((isGreatest_unclosed w t).2 h) with heq | hlt
    · exact Or.inl heq
    obtain ⟨hopener, habove⟩ := h
    rw [List.getElem?_append_left hlt] at hopener
    rw [hbefore j (Nat.le_of_lt hlt)] at habove
    refine Or.inr ⟨hopener, ?_⟩
    intro i hi
    rcases Nat.le_total i w.length with hle | hle
    · have := habove i hi
      rw [hbefore i hle] at this
      exact this
    · -- past its end a list keeps the depth it ends with
      have := habove w.length hlt
      rw [hbefore _ (Nat.le_refl _), depth_length, ← depth_of_length_le hle] at this
      exact this
  · rintro (rfl | ⟨hopener, habove⟩)
    · exact (isGreatest_unclosed w t).1
    have hlt := (List.getElem?_eq_some_iff.mp hopener).1
    refine ⟨by rw [List.getElem?_append_left hlt]; exact hopener, ?_⟩
    intro i hi
    rw [hbefore j (Nat.le_of_lt hlt)]
    rcases Nat.le_total i w.length with hle | hle
    · rw [hbefore i hle]
      exact habove i hi
    · -- from the last opener on the depth is above that of all before
      obtain ⟨k, rfl⟩ := Nat.exists_eq_add_of_le hle
      have hend := habove w.length hlt
      rw [depth_length] at hend
      rw [depth_append_add]
      cases k with
      | zero => rw [depth_zero]; omega
      | succ k =>
          have := t.balanced_symbols.nonneg k
          rw [depth_cons_succ, Symbol.weight]
          omega

theorem finite_unclosed (f : List Symbol) : {j | Unclosed f j}.Finite := by
  refine (Set.finite_lt_nat f.length).subset ?_
  rintro j ⟨hopener, -⟩
  exact (List.getElem?_eq_some_iff.mp hopener).1

/-- **One opener is left open in each layer.** -/
theorem ncard_unclosed_layers (us : List Block) (t : Block) :
    {j | Unclosed (layers us ++ t.symbols) j}.ncard = us.length := by
  induction us generalizing t with
  | nil =>
      rw [List.length_nil, Set.ncard_eq_zero (finite_unclosed _), Set.eq_empty_iff_forall_notMem]
      rintro j ⟨hopener, habove⟩
      -- a block comes back to depth zero
      have hlt := (List.getElem?_eq_some_iff.mp hopener).1
      have hend := habove _ hlt
      rw [show layers [] ++ t.symbols = t.symbols from rfl, t.balanced_symbols.closed] at hend
      have := t.balanced_symbols.nonneg j
      omega
  | cons u us ih =>
      have hsplit : layers (u :: us) ++ t.symbols
          = (layers us ++ u.symbols) ++ .opener :: t.symbols := by
        simp [layers]
      have hset : {j | Unclosed (layers (u :: us) ++ t.symbols) j}
          = insert (layers us ++ u.symbols).length {j | Unclosed (layers us ++ u.symbols) j} := by
        ext j
        rw [hsplit]
        exact unclosed_append_iff _ t j
      rw [hset, Set.ncard_insert_of_notMem ?_ (finite_unclosed _), ih, List.length_cons]
      rintro ⟨hopener, -⟩
      exact Nat.lt_irrefl _ (List.getElem?_eq_some_iff.mp hopener).1

/-- As many openers are left open as the depth is at the end. -/
theorem ncard_unclosed {f : List Symbol} (h : ∀ i, 0 ≤ depth f i) :
    ({j | Unclosed f j}.ncard : Int) = net f := by
  obtain ⟨us, t, rfl, hnet⟩ := exists_layers f h
  rw [ncard_unclosed_layers, hnet]

/-! ## Closers at the end -/

theorem depth_closers (k i : Nat) :
    depth (List.replicate k .closer) i = -((min i k : Nat) : Int) := by
  rw [depth, List.take_replicate, net, List.count_replicate_self,
    List.count_replicate, if_neg (by decide)]
  omega

/-- One number of closers balances a list that never closes too much. -/
theorem balanced_append_closers_iff {f : List Symbol} (h : ∀ i, 0 ≤ depth f i) (k : Nat) :
    Balanced (f ++ List.replicate k .closer) ↔ (k : Int) = net f := by
  have hnet : net (List.replicate k .closer) = -(k : Int) := by
    rw [← depth_length, depth_closers, List.length_replicate, Nat.min_self]
  constructor
  · intro hb
    have := hb.net_eq_zero
    rw [net_append, hnet] at this
    omega
  · intro hk
    refine ⟨?_, ?_⟩
    · intro i
      rcases Nat.le_total i f.length with hle | hle
      · rw [depth_append_of_le _ hle]
        exact h i
      · obtain ⟨j, rfl⟩ := Nat.exists_eq_add_of_le hle
        rw [depth_append_add, depth_closers]
        omega
    · rw [depth_length, net_append, hnet]
      omega

/-- So many closers, as a text. -/
def closers (k : Nat) : String := String.ofList (List.replicate k ']')

theorem scan_closers (k : Nat) : scan (closers k) = List.replicate k .closer := by
  rw [← scan_spell (List.replicate k .closer), spell, List.map_replicate]
  rfl

/-- One number of closers completes a text that never closes too much: as many as openers
    are left open. -/
theorem exists_parse_append_closers_iff {text : String} (h : ∀ i, 0 ≤ depth (scan text) i)
    (k : Nat) :
    (∃ p, Program.parse (text ++ closers k) = .ok p) ↔
      k = {j | Unclosed (scan text) j}.ncard := by
  rw [Program.parse, scan_append, scan_closers, exists_link_iff, balanced_append_closers_iff h,
    ← ncard_unclosed h]
  exact Int.ofNat_inj

/-- The opener that is reported pairs with the first closer behind the text. -/
theorem partners_first_closer (w : List Symbol) (t : Block) (k : Nat) :
    Partners (w ++ .opener :: t.symbols ++ List.replicate (k + 1) .closer) w.length
      (w ++ .opener :: t.symbols).length := by
  have h := (Linked.matches_enclose t.balanced_symbols).embed w (List.replicate k .closer)
  rw [show w ++ .opener :: (t.symbols ++ [.closer]) ++ List.replicate k .closer
      = w ++ .opener :: t.symbols ++ List.replicate (k + 1) .closer by
    simp [List.replicate_succ]] at h
  rw [List.length_append, List.length_cons]
  exact Or.inl h

/-- **A refused text is doomed or unfinished, as the bracket reported tells.**  That
    bracket is a closer or an opener.  If it is a closer, the text is refused at the same
    place whatever is put behind it.  If it is an opener, exactly one number of closers
    behind the text makes it accepted: as many as openers are left open, which is one at
    least; and in that program the opener reported and the first closer behind the text
    lead to each other. -/
theorem refused_doomed_or_unfinished {text : String} {e : Unbalanced}
    (h : Program.parse text = .error e) :
    ((scan text)[e.position]? = some .closer ∨ (scan text)[e.position]? = some .opener) ∧
    ((scan text)[e.position]? = some .closer →
      ∀ more, Program.parse (text ++ more) = .error e) ∧
    ((scan text)[e.position]? = some .opener →
      ∃ k p, 1 ≤ k ∧ k = {j | Unclosed (scan text) j}.ncard ∧
        Program.parse (text ++ closers k) = .ok p ∧
        (∀ l q, Program.parse (text ++ closers l) = .ok q → l = k) ∧
        p.jumpAt? e.position = some ((scan text).length : Int) ∧
        p.jumpAt? (scan text).length = some (e.position : Int)) := by
  rcases link_error_cases h with ⟨t, rest, hf, rfl⟩ | ⟨w, t, hf, rfl, hnonneg⟩
  · -- the closer has no opener before it, whatever comes after
    have hat : (scan text)[t.size]? = some .closer := by simp [hf]
    refine ⟨Or.inl hat, ?_, ?_⟩
    · intro _ more
      rw [Program.parse, scan_append, hf, List.append_assoc, List.cons_append]
      exact link_closer t _
    · intro hopener
      cases hat.symm.trans hopener
  · -- the opener waits for a closer, and so do all that are unclosed
    have hat : (scan text)[w.length]? = some .opener := by simp [hf]
    refine ⟨Or.inr hat, ?_, ?_⟩
    · intro hcloser
      cases hat.symm.trans hcloser
    intro _
    have hparse := exists_parse_append_closers_iff hnonneg
    have hopen : Unclosed (scan text) w.length := by
      rw [hf]
      exact (isGreatest_unclosed w t).1
    have hpos : 1 ≤ {j | Unclosed (scan text) j}.ncard :=
      (Set.ncard_pos (finite_unclosed _)).mpr ⟨_, hopen⟩
    generalize {j | Unclosed (scan text) j}.ncard = k at hparse hpos
    obtain ⟨p, hp⟩ := (hparse k).mpr rfl
    -- it is the last of them, so the first closer that is added is its own
    obtain ⟨k, rfl⟩ : ∃ k', k = k' + 1 := ⟨k - 1, by omega⟩
    have hl := linked_of_parse hp
    rw [scan_append, scan_closers] at hl
    have hpartners := partners_first_closer w t k
    rw [← hf] at hpartners
    refine ⟨k + 1, p, hpos, rfl, hp, ?_, ?_, ?_⟩
    · intro l q hq
      exact (hparse l).mp ⟨q, hq⟩
    · exact hl.jumpAt?_eq_some_iff.mpr ⟨_, hpartners, rfl⟩
    · exact hl.jumpAt?_eq_some_iff.mpr ⟨_, hpartners.symm, rfl⟩

/-- Of three openers two are left open, and the inner one of these is reported.  Two
    closers complete the text, and the first of them stands at its end. -/
theorem refused_doomed_or_unfinished_two_open :
    Program.parse "[>[[-]." = .error ⟨2⟩ ∧ (scan "[>[[-].")[2]? = some .opener ∧
      (∀ l q, Program.parse ("[>[[-]." ++ closers l) = .ok q → l = 2) ∧
      ∃ p, Program.parse ("[>[[-]." ++ closers 2) = .ok p ∧ p.jumpAt? 2 = some 7 ∧
        p.jumpAt? 7 = some 2 := by
  have h : Program.parse "[>[[-]." = .error ⟨2⟩ := rfl
  obtain ⟨-, -, hopener⟩ := refused_doomed_or_unfinished h
  obtain ⟨k, p, -, -, hp, hunique, hforth, hback⟩ := hopener rfl
  obtain rfl : 2 = k := hunique 2 _ rfl
  exact ⟨h, rfl, hunique, p, hp, hforth, hback⟩

end ByteTape
