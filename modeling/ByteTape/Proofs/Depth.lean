import ByteTape.Symbol

/-! # Nesting depth

    The depth of a position in a list of symbols is the number of openers
    before it less the number of closers before it.  A list is balanced when
    its depth never goes below zero and ends at zero.

    * `net` — openers less closers in a whole list;
    * `depth` — the same among the first `i` symbols;
    * `Balanced` — never below zero, and zero at the end;
    * `between` — the symbols strictly between two positions.

    Nothing here knows of a stack: these are counts only.  The lemmas say how
    the counts behave when lists are joined and cut, down to
    `balanced_between_iff`, which reads balance of a stretch off the depths of
    the whole list. -/

namespace ByteTape

/-- Openers less closers. -/
def net (f : List Symbol) : Int := (f.count .opener : Int) - (f.count .closer : Int)

/-- Openers less closers among the first `i` symbols. -/
def depth (f : List Symbol) (i : Nat) : Int := net (f.take i)

/-- Every closer has an opener before it, and every opener a closer after it,
    as far as counting can tell. -/
structure Balanced (f : List Symbol) : Prop where
  /-- No part of the list from its start has more closers than openers. -/
  nonneg : ∀ i, 0 ≤ depth f i
  /-- The whole list has as many of both. -/
  closed : depth f f.length = 0

/-- What one symbol adds to the depth. -/
def Symbol.weight : Symbol → Int
  | .act _ => 0
  | .opener => 1
  | .closer => -1

/-! ## Counting -/

@[simp] theorem net_nil : net [] = 0 := rfl

@[simp] theorem net_cons (s : Symbol) (f : List Symbol) : net (s :: f) = s.weight + net f := by
  cases s with
  | act a => simp [net, Symbol.weight]
  | opener =>
      rw [net, net, List.count_cons_self, List.count_cons_of_ne (by decide), Symbol.weight]
      omega
  | closer =>
      rw [net, net, List.count_cons_self, List.count_cons_of_ne (by decide), Symbol.weight]
      omega

/-- Nets add up. -/
@[simp] theorem net_append (f g : List Symbol) : net (f ++ g) = net f + net g := by
  induction f with
  | nil => simp
  | cons s f ih => rw [List.cons_append, net_cons, net_cons, ih]; omega

@[simp] theorem depth_zero (f : List Symbol) : depth f 0 = 0 := rfl

/-- Past the end nothing is added. -/
theorem depth_of_length_le {f : List Symbol} {i : Nat} (h : f.length ≤ i) : depth f i = net f := by
  rw [depth, List.take_of_length_le h]

/-- At the end of a text its depth is its net. -/
theorem depth_length (f : List Symbol) : depth f f.length = net f :=
  depth_of_length_le (Nat.le_refl _)

/-- The depth behind a symbol is its weight and the depth of the rest. -/
@[simp] theorem depth_cons_succ (s : Symbol) (f : List Symbol) (i : Nat) :
    depth (s :: f) (i + 1) = s.weight + depth f i := by
  rw [depth, List.take_succ_cons, net_cons, depth]

/-- A later text does not change the depth before it. -/
theorem depth_append_of_le {f : List Symbol} (g : List Symbol) {i : Nat} (h : i ≤ f.length) :
    depth (f ++ g) i = depth f i := by
  rw [depth, List.take_append_of_le_length h, depth]

/-- The depth in the second part starts where the first part ends. -/
theorem depth_append_add (f g : List Symbol) (i : Nat) :
    depth (f ++ g) (f.length + i) = net f + depth g i := by
  rw [depth, List.take_length_add_append, net_append, depth]

/-- One symbol further, the depth has changed by its weight. -/
theorem depth_succ {f : List Symbol} {i : Nat} {s : Symbol} (h : f[i]? = some s) :
    depth f (i + 1) = depth f i + s.weight := by
  rw [depth, List.take_add_one, h, net_append, depth]
  simp

/-- The depth of a beginning stays at its last value. -/
theorem depth_take (f : List Symbol) (n i : Nat) : depth (f.take n) i = depth f (min i n) := by
  rw [depth, List.take_take, depth]

/-- The depths of a part up to the end are those of the whole, from the cut on. -/
theorem depth_drop (f : List Symbol) (n i : Nat) :
    depth (f.drop n) i = depth f (n + i) - depth f n := by
  have h : net (f.take (n + i)) = net (f.take n) + net ((f.drop n).take i) := by
    rw [List.take_add, net_append]
  rw [depth, depth, depth, h]
  omega

/-! ## Balanced lists -/

/-- A balanced text returns to where it began. -/
theorem Balanced.net_eq_zero {f : List Symbol} (h : Balanced f) : net f = 0 := by
  rw [← depth_length]
  exact h.closed

theorem balanced_nil : Balanced [] := ⟨fun i => by simp [depth], rfl⟩

theorem Balanced.cons_act (a : Action) {f : List Symbol} (h : Balanced f) :
    Balanced (.act a :: f) := by
  refine ⟨?_, ?_⟩
  · intro i
    cases i with
    | zero => exact Int.le_refl 0
    | succ i =>
        have := h.nonneg i
        rw [depth_cons_succ, Symbol.weight]
        omega
  · rw [depth_length, net_cons, h.net_eq_zero]
    rfl

/-- Without brackets there is nothing to balance. -/
theorem balanced_of_actions {f : List Symbol} (h : ∀ x ∈ f, ∃ a, x = .act a) : Balanced f := by
  induction f with
  | nil => exact balanced_nil
  | cons x f ih =>
      obtain ⟨a, rfl⟩ := h x List.mem_cons_self
      exact (ih fun y hy => h y (List.mem_cons_of_mem _ hy)).cons_act a

/-- Balanced texts joined are balanced. -/
theorem Balanced.append {f g : List Symbol} (hf : Balanced f) (hg : Balanced g) :
    Balanced (f ++ g) := by
  refine ⟨?_, ?_⟩
  · intro i
    rcases Nat.le_total i f.length with hle | hle
    · rw [depth_append_of_le g hle]
      exact hf.nonneg i
    · obtain ⟨j, rfl⟩ := Nat.exists_eq_add_of_le hle
      rw [depth_append_add, hf.net_eq_zero]
      have := hg.nonneg j
      omega
  · rw [depth_length, net_append, hf.net_eq_zero, hg.net_eq_zero]
    rfl

/-- A balanced list stays balanced inside a pair of brackets. -/
theorem Balanced.enclose {f : List Symbol} (h : Balanced f) :
    Balanced (.opener :: (f ++ [.closer])) := by
  refine ⟨?_, ?_⟩
  · intro i
    cases i with
    | zero => exact Int.le_refl 0
    | succ i =>
        rw [depth_cons_succ, Symbol.weight]
        rcases Nat.le_total i f.length with hle | hle
        · rw [depth_append_of_le _ hle]
          have := h.nonneg i
          omega
        · obtain ⟨j, rfl⟩ := Nat.exists_eq_add_of_le hle
          rw [depth_append_add, h.net_eq_zero]
          cases j with
          | zero => rw [depth_zero]; omega
          | succ j => simp [depth, Symbol.weight]
  · rw [depth_length, net_cons, net_append, h.net_eq_zero]
    rfl

/-! ## Stretches -/

/-- The symbols strictly between two positions. -/
def between (f : List Symbol) (i j : Nat) : List Symbol := (f.take j).drop (i + 1)

/-- A stretch is balanced exactly when the depth at its start is that at its
    end and is nowhere undercut. -/
theorem balanced_between_iff {f : List Symbol} {i j : Nat} (hij : i < j) (hj : j ≤ f.length) :
    Balanced (between f i j) ↔
      (∀ k, i < k → k ≤ j → depth f (i + 1) ≤ depth f k) ∧ depth f j = depth f (i + 1) := by
  -- the depths of a stretch are those of the list, measured from its start
  have hdepth : ∀ k, depth (between f i j) k = depth f (min (i + 1 + k) j) - depth f (i + 1) := by
    intro k
    rw [between, depth_drop, depth_take, depth_take, Nat.min_eq_left (Nat.succ_le_of_lt hij)]
  have hend : depth (between f i j) (between f i j).length = depth f j - depth f (i + 1) := by
    have hlen : (between f i j).length = j - (i + 1) := by
      rw [between, List.length_drop, List.length_take, Nat.min_eq_left hj]
    rw [hdepth, hlen, show i + 1 + (j - (i + 1)) = j by omega, Nat.min_self]
  constructor
  · intro h
    refine ⟨?_, ?_⟩
    · intro k hk hkj
      have hn := h.nonneg (k - (i + 1))
      rw [hdepth, show min (i + 1 + (k - (i + 1))) j = k by omega] at hn
      omega
    · have hc := h.closed
      rw [hend] at hc
      omega
  · rintro ⟨hlow, heq⟩
    refine ⟨?_, by rw [hend]; omega⟩
    intro k
    rw [hdepth]
    have := hlow (min (i + 1 + k) j) (by omega) (by omega)
    omega

/-- What stands around a stretch does not matter. -/
theorem between_append (pre f post : List Symbol) {i j : Nat} (hj : j ≤ f.length) :
    between (pre ++ f ++ post) (pre.length + i) (pre.length + j) = between f i j := by
  rw [between, between, List.append_assoc, List.take_length_add_append,
    List.take_append_of_le_length hj, Nat.add_assoc, List.drop_length_add_append]

end ByteTape
