import ByteTape.Proofs.Acceptance

/-! # The nesting of brackets

    The jumps of a linked program are the one proper way to pair its brackets.

    * `Matches` — an opener and a later closer with a balanced text between;
    * `Linked` — code in which every bracket carries the index of its match;
    * `ProperNesting` — what is asked of any assignment of partners: each
      bracket has one, the relation is mutual, openers come first, pairs are
      balanced inside and do not cross;
    * `parse_nesting` — the jumps of an accepted text are such an assignment,
      and there is no other.

    That a bracket has at most one match is a matter of depths alone: from the
    opener on the depth stays above its level, and right after the closer it is
    back at it.  That it has one at all is an induction over blocks. -/

namespace ByteTape

/-- An opener and a closer after it, with balanced brackets between them. -/
structure Matches (f : List Symbol) (i j : Nat) : Prop where
  lt : i < j
  opener : f[i]? = some .opener
  closer : f[j]? = some .closer
  inside : Balanced (between f i j)

namespace Matches

variable {f : List Symbol} {i j k a b c e : Nat}

/-- From the opener to the closer the depth is above its level before. -/
theorem above (h : Matches f i j) (hk : i < k) (hkj : k ≤ j) : depth f i + 1 ≤ depth f k := by
  have hj := (List.getElem?_eq_some_iff.mp h.closer).1
  have hlow := ((balanced_between_iff h.lt (by omega)).mp h.inside).1 k hk hkj
  rw [depth_succ h.opener] at hlow
  exact hlow

/-- Right after the closer the depth is back where it was. -/
theorem back (h : Matches f i j) : depth f (j + 1) = depth f i := by
  have hj := (List.getElem?_eq_some_iff.mp h.closer).1
  have heq := ((balanced_between_iff h.lt (by omega)).mp h.inside).2
  rw [depth_succ h.closer, heq, depth_succ h.opener]
  show depth f i + 1 + -1 = depth f i
  omega

/-- The closer of an opener cannot come after another of its closers. -/
private theorem not_lt_right (h : Matches f i j) (h' : Matches f i k) : ¬ j < k := by
  intro hlt
  have hlow := h'.above (k := j + 1) (by have := h.lt; omega) (by omega)
  rw [h.back] at hlow
  omega

/-- An opener has one closer. -/
theorem right_unique (h : Matches f i j) (h' : Matches f i k) : j = k :=
  Nat.le_antisymm (Nat.not_lt.mp (h'.not_lt_right h)) (Nat.not_lt.mp (h.not_lt_right h'))

/-- The opener of a closer cannot come after another of its openers. -/
private theorem not_lt_left (h : Matches f i j) (h' : Matches f k j) : ¬ i < k := by
  intro hlt
  have hlow := h.above hlt (Nat.le_of_lt h'.lt)
  rw [← h'.back, h.back] at hlow
  omega

/-- A closer has one opener. -/
theorem left_unique (h : Matches f i j) (h' : Matches f k j) : i = k :=
  Nat.le_antisymm (Nat.not_lt.mp (h'.not_lt_left h)) (Nat.not_lt.mp (h.not_lt_left h'))

/-- Two pairs are apart, or the later one lies inside the other. -/
theorem nested (h : Matches f a b) (h' : Matches f c e) (hac : a < c) : b < c ∨ e < b := by
  rcases Nat.lt_or_ge b c with hbc | hcb
  · exact Or.inl hbc
  · refine Or.inr ?_
    rcases Nat.lt_or_ge e b with heb | hbe
    · exact heb
    · -- a pair that crossed would have to dip below its own level at `b`
      exfalso
      have hc := h.above hac hcb
      have hb : b ≠ e := by
        rintro rfl
        exact Nat.ne_of_lt hac (h.left_unique h')
      have hback := h'.above (k := b + 1) (by omega) (by omega)
      rw [h.back] at hback
      omega

/-- What stands around a pair does not matter. -/
theorem embed (h : Matches f i j) (pre post : List Symbol) :
    Matches (pre ++ f ++ post) (pre.length + i) (pre.length + j) := by
  have hi := (List.getElem?_eq_some_iff.mp h.opener).1
  have hj := (List.getElem?_eq_some_iff.mp h.closer).1
  refine ⟨by have := h.lt; omega, ?_, ?_, ?_⟩
  · rw [List.append_assoc, List.getElem?_append_right (by omega),
      List.getElem?_append_left (by omega), Nat.add_sub_cancel_left]
    exact h.opener
  · rw [List.append_assoc, List.getElem?_append_right (by omega),
      List.getElem?_append_left (by omega), Nat.add_sub_cancel_left]
    exact h.closer
  · rw [between_append pre f post (Nat.le_of_lt hj)]
    exact h.inside

end Matches

/-! ## Partners -/

/-- Each of the two brackets is the match of the other. -/
def Partners (f : List Symbol) (i j : Nat) : Prop := Matches f i j ∨ Matches f j i

namespace Partners

variable {f : List Symbol} {i j k : Nat}

theorem symm (h : Partners f i j) : Partners f j i := h.elim Or.inr Or.inl

/-- A bracket has one partner. -/
theorem unique (h : Partners f i j) (h' : Partners f i k) : j = k := by
  rcases h with h | h
  · rcases h' with h' | h'
    · exact h.right_unique h'
    · exact nomatch h.opener.symm.trans h'.closer
  · rcases h' with h' | h'
    · exact nomatch h.closer.symm.trans h'.opener
    · exact h.left_unique h'

theorem lt_length (h : Partners f i j) : i < f.length := by
  rcases h with h | h
  · exact (List.getElem?_eq_some_iff.mp h.opener).1
  · exact (List.getElem?_eq_some_iff.mp h.closer).1

/-- Only brackets have partners. -/
theorem bracket (h : Partners f i j) : f[i]? = some .opener ∨ f[i]? = some .closer := by
  rcases h with h | h
  · exact Or.inl h.opener
  · exact Or.inr h.closer

/-- The opener is the one that comes first. -/
theorem lt_iff (h : Partners f i j) : i < j ↔ f[i]? = some .opener := by
  rcases h with h | h
  · exact iff_of_true h.lt h.opener
  · refine iff_of_false (Nat.not_lt_of_lt h.lt) ?_
    rw [h.closer]
    exact fun hs => nomatch hs

/-- Of two partners the first one is the opener. -/
theorem matches_of_lt (h : Partners f i j) (hij : i < j) : Matches f i j :=
  h.elim id fun h' => absurd hij (Nat.not_lt_of_lt h'.lt)

theorem embed (h : Partners f i j) (pre post : List Symbol) :
    Partners (pre ++ f ++ post) (pre.length + i) (pre.length + j) :=
  h.imp (fun h' => h'.embed pre post) fun h' => h'.embed pre post

end Partners

/-! ## Code whose brackets carry their partners -/

/-- Where the instruction at an index jumps to, if it is a jump. -/
def targetAt? (code : List Instr) (i : Nat) : Option Int := code[i]?.bind Instr.target?

/-- Code for the symbols `f`, the first instruction having index `base`: every
    bracket jumps to its partner. -/
structure Linked (f : List Symbol) (base : Nat) (code : List Instr) : Prop where
  /-- One instruction for each symbol. -/
  symbols : code.map Instr.symbol = f
  /-- Each bracket has a partner, and carries its index. -/
  partner : ∀ i, f[i]? = some .opener ∨ f[i]? = some .closer →
    ∃ j, Partners f i j ∧ targetAt? code i = some ((base + j : Nat) : Int)

namespace Linked

variable {f g : List Symbol} {base : Nat} {cf cg : List Instr}

theorem length_eq (h : Linked f base cf) : cf.length = f.length := by
  rw [← h.symbols, List.length_map]

/-- Linked code can be put one after the other. -/
theorem append (hf : Linked f base cf) (hg : Linked g (base + f.length) cg) :
    Linked (f ++ g) base (cf ++ cg) := by
  have hlen := hf.length_eq
  refine ⟨by rw [List.map_append, hf.symbols, hg.symbols], ?_⟩
  intro i hi
  rcases Nat.lt_or_ge i f.length with hlt | hge
  · rw [List.getElem?_append_left hlt] at hi
    obtain ⟨j, hp, ht⟩ := hf.partner i hi
    refine ⟨j, by simpa using hp.embed [] g, ?_⟩
    rw [targetAt?, List.getElem?_append_left (by omega)]
    exact ht
  · obtain ⟨i', rfl⟩ := Nat.exists_eq_add_of_le hge
    rw [List.getElem?_append_right (by omega), Nat.add_sub_cancel_left] at hi
    obtain ⟨j, hp, ht⟩ := hg.partner i' hi
    refine ⟨f.length + j, by simpa using hp.embed f [], ?_⟩
    rw [targetAt?, List.getElem?_append_right (by omega), hlen, Nat.add_sub_cancel_left,
      ← Nat.add_assoc]
    exact ht

theorem act (a : Action) (base : Nat) : Linked [.act a] base [.act a] := by
  refine ⟨rfl, ?_⟩
  intro i hi
  cases i with
  | zero => simp at hi
  | succ i => simp at hi

/-- The outer brackets match when what they enclose is balanced. -/
theorem matches_enclose (hb : Balanced f) :
    Matches (.opener :: (f ++ [.closer])) 0 (f.length + 1) := by
  refine ⟨by omega, rfl, by simp, ?_⟩
  have hin : between (.opener :: (f ++ [.closer])) 0 (f.length + 1) = f := by
    simp [between]
  rw [hin]
  exact hb

/-- Linked code inside a pair of brackets that name each other is linked. -/
theorem enclose (hf : Linked f (base + 1) cf) (hb : Balanced f) :
    Linked (.opener :: (f ++ [.closer])) base
      (.jumpIfZero ((base + (f.length + 1) : Nat) : Int)
        :: (cf ++ [.jumpIfNonzero (base : Int)])) := by
  have hlen := hf.length_eq
  have hout := matches_enclose hb
  refine ⟨by simp [hf.symbols, Instr.symbol], ?_⟩
  intro i hi
  cases i with
  | zero => exact ⟨f.length + 1, Or.inl hout, rfl⟩
  | succ i =>
      rw [List.getElem?_cons_succ] at hi
      rw [targetAt?, List.getElem?_cons_succ]
      -- in the body, at the closer, or past it
      rcases Nat.lt_trichotomy i f.length with hlt | rfl | hgt
      · rw [List.getElem?_append_left hlt] at hi
        obtain ⟨j, hp, ht⟩ := hf.partner i hi
        refine ⟨j + 1, by simpa [Nat.add_comm] using hp.embed [.opener] [.closer], ?_⟩
        rw [List.getElem?_append_left (by omega), show base + (j + 1) = base + 1 + j by omega]
        exact ht
      · refine ⟨0, Or.inr hout, ?_⟩
        rw [← hlen]
        simp [Instr.target?]
      · rw [List.getElem?_eq_none (by simp; omega)] at hi
        rcases hi with hi | hi
        · cases hi
        · cases hi

end Linked

/-- **The code of a block is linked.** -/
theorem Block.linked_code (t : Block) (base : Nat) : Linked t.symbols base (t.code base) := by
  induction t generalizing base with
  | done => exact ⟨rfl, fun i hi => by simp [Block.symbols] at hi⟩
  | act a rest ih => exact (Linked.act a base).append (ih (base + 1))
  | loop body rest ihb ihr =>
      have hloop := (ihb (base + 1)).enclose body.balanced_symbols
      have hrest : Linked rest.symbols
          (base + (.opener :: (body.symbols ++ [.closer]) : List Symbol).length)
          (rest.code (base + body.size + 2)) := by
        rw [show base + (.opener :: (body.symbols ++ [.closer]) : List Symbol).length
          = base + body.size + 2 by simp; omega]
        exact ihr _
      have h := hloop.append hrest
      rw [show .opener :: (body.symbols ++ [.closer]) ++ rest.symbols
        = (Block.loop body rest).symbols by simp [Block.symbols]] at h
      rw [show (Block.loop body rest).code base
        = .jumpIfZero ((base + (body.symbols.length + 1) : Nat) : Int)
          :: (body.code (base + 1) ++ [.jumpIfNonzero (base : Int)])
          ++ rest.code (base + body.size + 2) by simp [Block.code, Nat.add_assoc]]
      exact h

/-! ## The jumps of a program -/

/-- The jumps among instructions of which the first has index `n`. -/
def jumpsFrom (n : Nat) (code : List Instr) : List (Nat × Int) :=
  (code.zipIdx n).filterMap fun (instr, k) => instr.target?.map fun t => (k, t)

private theorem jumpsFrom_act (n : Nat) (a : Action) (code : List Instr) :
    jumpsFrom n (.act a :: code) = jumpsFrom (n + 1) code := rfl

private theorem jumpsFrom_jump (n : Nat) {instr : Instr} {t : Int} (h : instr.target? = some t)
    (code : List Instr) : jumpsFrom n (instr :: code) = (n, t) :: jumpsFrom (n + 1) code := by
  rw [jumpsFrom, List.zipIdx_cons, List.filterMap_cons_some (b := (n, t)) (by simp [h])]
  rfl

/-- Looking an index up among the jumps is looking at the instruction there. -/
theorem lookup_jumpsFrom (n k : Nat) (code : List Instr) :
    (jumpsFrom n code).lookup k = if n ≤ k then targetAt? code (k - n) else none := by
  induction code generalizing n k with
  | nil => simp [jumpsFrom, targetAt?]
  | cons instr code ih =>
      -- only at `n` itself does the first instruction matter
      have hnext : n ≠ k → (jumpsFrom (n + 1) code).lookup k
          = if n ≤ k then targetAt? (instr :: code) (k - n) else none := by
        intro hne
        rw [ih]
        by_cases hle : n ≤ k
        · rw [if_pos hle, if_pos (by omega), targetAt?, targetAt?,
            show k - n = k - (n + 1) + 1 by omega, List.getElem?_cons_succ]
        · rw [if_neg hle, if_neg (by omega)]
      have hhere : (jumpsFrom (n + 1) code).lookup n = none := by
        rw [ih, if_neg (by omega)]
      cases ht : instr.target? with
      | none =>
          obtain ⟨a, rfl⟩ : ∃ a, instr = .act a := by
            cases instr with
            | act a => exact ⟨a, rfl⟩
            | jumpIfZero t => exact nomatch ht
            | jumpIfNonzero t => exact nomatch ht
          rw [jumpsFrom_act]
          by_cases hne : n = k
          · subst hne
            rw [hhere, if_pos (Nat.le_refl n), Nat.sub_self]
            rfl
          · exact hnext hne
      | some t =>
          rw [jumpsFrom_jump n ht, List.lookup_cons]
          by_cases hne : n = k
          · subst hne
            rw [if_pos (Nat.le_refl n), Nat.sub_self]
            simp [targetAt?, ht]
          · rw [show (k == n) = false by simpa using Ne.symm hne]
            exact hnext hne

/-- There are as many jumps as brackets. -/
theorem length_jumpsFrom (n : Nat) (code : List Instr) :
    (jumpsFrom n code).length
      = (code.map Instr.symbol).count .opener + (code.map Instr.symbol).count .closer := by
  induction code generalizing n with
  | nil => rfl
  | cons instr code ih =>
      cases instr with
      | act a =>
          rw [jumpsFrom_act, ih]
          simp [Instr.symbol]
      | jumpIfZero t =>
          rw [jumpsFrom_jump n rfl, List.length_cons, ih, List.map_cons, Instr.symbol,
            List.count_cons_self, List.count_cons_of_ne (by decide)]
          omega
      | jumpIfNonzero t =>
          rw [jumpsFrom_jump n rfl, List.length_cons, ih, List.map_cons, Instr.symbol,
            List.count_cons_self, List.count_cons_of_ne (by decide)]
          omega

namespace Program

/-- The target of the jump at an index, looked up among all jumps. -/
def jumpAt? (p : Program) (i : Nat) : Option Int := p.jumps.lookup i

theorem jumpAt?_eq (p : Program) (i : Nat) : p.jumpAt? i = targetAt? p.code.toList i := by
  rw [jumpAt?, show p.jumps = jumpsFrom 0 p.code.toList from rfl, lookup_jumpsFrom,
    if_pos (Nat.zero_le i), Nat.sub_zero]

theorem mem_jumps_iff {p : Program} {i : Nat} {t : Int} :
    (i, t) ∈ p.jumps ↔ p.jumpAt? i = some t := by
  rw [jumpAt?_eq, targetAt?, jumps, List.mem_filterMap]
  constructor
  · rintro ⟨⟨instr, k⟩, hmem, hk⟩
    rw [List.mk_mem_zipIdx_iff_getElem?] at hmem
    obtain ⟨t', ht', heq⟩ := Option.map_eq_some_iff.mp hk
    cases heq
    rw [hmem]
    exact ht'
  · intro h
    obtain ⟨instr, hi, ht⟩ := Option.bind_eq_some_iff.mp h
    refine ⟨(instr, i), List.mk_mem_zipIdx_iff_getElem?.mpr hi, ?_⟩
    show instr.target?.map (fun t => (i, t)) = _
    rw [ht]
    rfl

/-- A jump has a target, and only brackets are jumps. -/
theorem exists_jumpAt?_iff (p : Program) (i : Nat) :
    (∃ t, p.jumpAt? i = some t) ↔
      p.symbols[i]? = some .opener ∨ p.symbols[i]? = some .closer := by
  rw [jumpAt?_eq, targetAt?, symbols, List.getElem?_map]
  cases p.code.toList[i]? with
  | none => simp
  | some instr => cases instr <;> simp [Instr.target?, Instr.symbol]

end Program

/-! ## The one proper nesting -/

/-- What is asked of an assignment of partners to the brackets of a list. -/
structure ProperNesting (f : List Symbol) (partner : Nat → Option Int) : Prop where
  /-- Exactly the brackets have a partner. -/
  entry_iff : ∀ i, (∃ t, partner i = some t) ↔ f[i]? = some .opener ∨ f[i]? = some .closer
  /-- A partner is a symbol of the list. -/
  inRange : ∀ i t, partner i = some t → 0 ≤ t ∧ t < f.length
  /-- A bracket is the partner of its partner. -/
  symm : ∀ i t, partner i = some t → partner t.toNat = some (i : Int)
  /-- Openers, and only they, have their partner after them. -/
  forward_iff : ∀ i t, partner i = some t → ((i : Int) < t ↔ f[i]? = some .opener)
  /-- Between a bracket and its partner the brackets are balanced. -/
  inside : ∀ i t, partner i = some t → (i : Int) < t → Balanced (between f i t.toNat)
  /-- Pairs do not cross. -/
  nested : ∀ a b c d, partner a = some b → partner c = some d → (a : Int) < b → (c : Int) < d →
    a < c → b < c ∨ d < b

namespace ProperNesting

variable {f : List Symbol} {partner : Nat → Option Int}

/-- In a proper nesting an opener is assigned its match. -/
theorem matches_of_opener (h : ProperNesting f partner) {i : Nat} (hi : f[i]? = some .opener) :
    ∃ j : Nat, partner i = some (j : Int) ∧ Matches f i j := by
  obtain ⟨t, ht⟩ := (h.entry_iff i).mpr (Or.inl hi)
  have hlt := (h.forward_iff i t ht).mpr hi
  obtain ⟨j, rfl⟩ := Int.eq_ofNat_of_zero_le (h.inRange i t ht).1
  have hback := h.symm i j ht
  rw [Int.toNat_natCast] at hback
  refine ⟨j, ht, Int.ofNat_lt.mp hlt, hi, ?_, h.inside i j ht hlt⟩
  rcases (h.entry_iff j).mp ⟨_, hback⟩ with hopen | hclose
  · have := (h.forward_iff j i hback).mpr hopen
    omega
  · exact hclose

/-- Where every bracket has a partner by depth, a proper nesting assigns it. -/
theorem eq_some_of_partners (h : ProperNesting f partner) {i j : Nat} (hp : Partners f i j) :
    partner i = some (j : Int) := by
  rcases hp with hm | hm
  · obtain ⟨k, hk, hm'⟩ := h.matches_of_opener hm.opener
    rw [hk, hm.right_unique hm']
  · obtain ⟨k, hk, hm'⟩ := h.matches_of_opener hm.opener
    have hback := h.symm j k hk
    rw [Int.toNat_natCast, ← hm.right_unique hm'] at hback
    exact hback

end ProperNesting

theorem Linked.size_eq {f : List Symbol} {p : Program} (h : Linked f 0 p.code.toList) :
    p.size = f.length := by
  rw [← h.length_eq, Array.length_toList, Program.size]

/-- The jumps of linked code lead to the partners. -/
theorem Linked.jumpAt?_eq_some_iff {f : List Symbol} {p : Program}
    (h : Linked f 0 p.code.toList) {i : Nat} {t : Int} :
    p.jumpAt? i = some t ↔ ∃ j : Nat, Partners f i j ∧ t = j := by
  have hsym : p.symbols = f := h.symbols
  constructor
  · intro ht
    have hbr := (p.exists_jumpAt?_iff i).mp ⟨t, ht⟩
    rw [hsym] at hbr
    obtain ⟨j, hp, hj⟩ := h.partner i hbr
    rw [← p.jumpAt?_eq, ht, Nat.zero_add] at hj
    exact ⟨j, hp, Option.some.inj hj⟩
  · rintro ⟨j, hp, rfl⟩
    obtain ⟨k, hp', hk⟩ := h.partner i hp.bracket
    rw [p.jumpAt?_eq, hk, Nat.zero_add, hp.unique hp']

/-- The jumps of linked code are a proper nesting of its brackets. -/
theorem Linked.properNesting {f : List Symbol} {p : Program} (h : Linked f 0 p.code.toList) :
    ProperNesting f p.jumpAt? := by
  have hiff := fun i t => h.jumpAt?_eq_some_iff (i := i) (t := t)
  refine ⟨?_, ?_, ?_, ?_, ?_, ?_⟩
  · intro i
    rw [p.exists_jumpAt?_iff, show p.symbols = f from h.symbols]
  · intro i t ht
    obtain ⟨j, hp, rfl⟩ := (hiff i t).mp ht
    have := hp.symm.lt_length
    omega
  · intro i t ht
    obtain ⟨j, hp, rfl⟩ := (hiff i t).mp ht
    exact (hiff _ _).mpr ⟨i, hp.symm, rfl⟩
  · intro i t ht
    obtain ⟨j, hp, rfl⟩ := (hiff i t).mp ht
    rw [← hp.lt_iff]
    exact Int.ofNat_lt
  · intro i t ht hlt
    obtain ⟨j, hp, rfl⟩ := (hiff i t).mp ht
    exact (hp.matches_of_lt (Int.ofNat_lt.mp hlt)).inside
  · intro a b c d hb hd hab hcd hac
    obtain ⟨j, hp, rfl⟩ := (hiff a b).mp hb
    obtain ⟨k, hq, rfl⟩ := (hiff c d).mp hd
    have hm := hp.matches_of_lt (Int.ofNat_lt.mp hab)
    have hn := hq.matches_of_lt (Int.ofNat_lt.mp hcd)
    -- two pairs are apart, or one lies inside the other
    rcases hm.nested hn hac with hlt | hlt
    · exact Or.inl (Int.ofNat_lt.mpr hlt)
    · exact Or.inr (Int.ofNat_lt.mpr hlt)

/-- **The code of an accepted text is linked,** each bracket to its partner. -/
theorem linked_of_parse {text : String} {p : Program} (h : Program.parse text = .ok p) :
    Linked (scan text) 0 p.code.toList := by
  obtain ⟨t, ht, rfl⟩ := link_eq_ok_iff.mp h
  rw [← ht]
  exact t.linked_code 0

/-- **The jumps of an accepted text are the one proper nesting of its
    brackets.**  The program has one instruction for each symbol, the jumps
    pair the brackets properly, no other assignment does, and there is one pair
    for each opener. -/
theorem parse_nesting {text : String} {p : Program} (h : Program.parse text = .ok p) :
    p.size = (scan text).length ∧
    (∀ i : Nat, p.code[i]?.map Instr.symbol = (scan text)[i]?) ∧
    ProperNesting (scan text) p.jumpAt? ∧
    (∀ partner, ProperNesting (scan text) partner → partner = p.jumpAt?) ∧
    p.jumps.length = 2 * (scan text).count .opener := by
  have hl := linked_of_parse h
  refine ⟨?_, ?_, hl.properNesting, ?_, ?_⟩
  · rw [← hl.length_eq]
    simp [Program.size]
  · intro i
    rw [← hl.symbols]
    simp
  · intro partner hpn
    funext i
    by_cases hbr : (scan text)[i]? = some .opener ∨ (scan text)[i]? = some .closer
    · obtain ⟨j, hp, -⟩ := hl.partner i hbr
      rw [hpn.eq_some_of_partners hp, hl.properNesting.eq_some_of_partners hp]
    · -- away from the brackets no nesting assigns anything
      have hnone : ∀ {q : Nat → Option Int}, ProperNesting (scan text) q → q i = none := by
        intro q hq
        cases hqi : q i with
        | none => rfl
        | some t => exact absurd ((hq.entry_iff i).mp ⟨t, hqi⟩) hbr
      rw [hnone hpn, hnone hl.properNesting]
  · obtain ⟨t, ht, -⟩ := link_eq_ok_iff.mp h
    have hnet := t.balanced_symbols.net_eq_zero
    rw [ht, net] at hnet
    rw [show p.jumps = jumpsFrom 0 p.code.toList from rfl, length_jumpsFrom, hl.symbols]
    omega

/-- One pair stands inside the other, with all six other characters around it. -/
theorem parse_nesting_two_pairs :
    ∃ p, Program.parse "[[]>-.,<+]" = .ok p ∧ p.jumps = [(0, 9), (1, 2), (2, 1), (9, 0)] ∧
      ProperNesting (scan "[[]>-.,<+]") p.jumpAt? :=
  ⟨_, rfl, rfl, (parse_nesting rfl).2.2.1⟩

end ByteTape
