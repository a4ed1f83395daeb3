import ByteTape.Proofs.Nesting

/-! # Something put into a text

    When symbols are put in somewhere, everything behind them moves.  If they are
    balanced nothing else changes for the brackets around: the depths are what they
    were, and a pair stays a pair, even one that is stretched.

    * `moved` — where a place is after something was put in;
    * `depth_insert`, `le_depth_insert` — the depths at the places that were there
      before, and at those put in;
    * `Balanced.insert`, `Matches.insert` — balance and pairs. -/

namespace ByteTape

/-! ## Places -/

/-- Where place `i` is after `l` symbols were put in at place `a`. -/
def moved (a l i : Nat) : Nat := if i < a then i else i + l

section Moved

variable {a l i j : Nat}

theorem moved_of_lt (h : i < a) : moved a l i = i := if_pos h

theorem moved_of_le (h : a ≤ i) : moved a l i = i + l := if_neg (Nat.not_lt.mpr h)

theorem moved_lt_moved (h : i < j) : moved a l i < moved a l j := by
  unfold moved
  split <;> split <;> omega

/-- Only at `a` is one step on not one step on. -/
theorem moved_succ (h : i + 1 ≠ a) : moved a l (i + 1) = moved a l i + 1 := by
  unfold moved
  split <;> split <;> omega

/-- Every place is one that was there before, or one of those put in. -/
theorem exists_moved_or (a l k : Nat) : (∃ i, k = moved a l i) ∨ ∃ t, t < l ∧ k = a + t := by
  rcases Nat.lt_or_ge k a with hlt | hge
  · exact Or.inl ⟨k, (moved_of_lt hlt).symm⟩
  rcases Nat.lt_or_ge k (a + l) with hlt | hge'
  · exact Or.inr ⟨k - a, by omega, by omega⟩
  · refine Or.inl ⟨k - l, ?_⟩
    rw [moved_of_le (by omega)]
    omega

end Moved

/-! ## Brackets -/

section Insert

variable {y : List Symbol}

/-- Every symbol is found where it was moved to. -/
theorem getElem?_insert (x y z : List Symbol) (i : Nat) :
    (x ++ y ++ z)[moved x.length y.length i]? = (x ++ z)[i]? := by
  rcases Nat.lt_or_ge i x.length with hlt | hge
  · rw [moved_of_lt hlt, List.append_assoc, List.getElem?_append_left hlt,
      List.getElem?_append_left hlt]
  · obtain ⟨j, rfl⟩ := Nat.exists_eq_add_of_le hge
    rw [moved_of_le hge, show x.length + j + y.length = (x ++ y).length + j by simp; omega,
      List.getElem?_append_right (by omega), List.getElem?_append_right (by omega),
      Nat.add_sub_cancel_left, Nat.add_sub_cancel_left]

/-- A balanced text put in changes no depth elsewhere. -/
theorem depth_insert (hy : Balanced y) (x z : List Symbol) (i : Nat) :
    depth (x ++ y ++ z) (moved x.length y.length i) = depth (x ++ z) i := by
  rcases Nat.lt_or_ge i x.length with hlt | hge
  · rw [moved_of_lt hlt, List.append_assoc, depth_append_of_le _ (Nat.le_of_lt hlt),
      depth_append_of_le _ (Nat.le_of_lt hlt)]
  · obtain ⟨j, rfl⟩ := Nat.exists_eq_add_of_le hge
    rw [moved_of_le hge, show x.length + j + y.length = (x ++ y).length + j by simp; omega,
      depth_append_add, depth_append_add, net_append, hy.net_eq_zero, Int.add_zero]

/-- Within it the depth is never below that of the place where it was put. -/
theorem le_depth_insert (hy : Balanced y) (x z : List Symbol) {t : Nat} (ht : t < y.length) :
    depth (x ++ z) x.length ≤ depth (x ++ y ++ z) (x.length + t) := by
  have hnonneg := hy.nonneg t
  rw [depth_append_of_le z (Nat.le_refl _), depth_length, List.append_assoc, depth_append_add,
    depth_append_of_le z (Nat.le_of_lt ht)]
  omega

/-- A balanced text stays so when another one is put into it. -/
theorem Balanced.insert {x z : List Symbol} (h : Balanced (x ++ z)) (hy : Balanced y) :
    Balanced (x ++ y ++ z) := by
  refine ⟨?_, ?_⟩
  · intro k
    rcases exists_moved_or x.length y.length k with ⟨i, rfl⟩ | ⟨t, ht, rfl⟩
    · rw [depth_insert hy]
      exact h.nonneg i
    · exact Int.le_trans (h.nonneg x.length) (le_depth_insert hy x z ht)
  · have hnet := h.net_eq_zero
    rw [net_append] at hnet
    rw [depth_length, net_append, net_append, hy.net_eq_zero]
    omega

/-- **Pairs stay pairs** when a balanced text is put before, between or behind
    them. -/
theorem Matches.insert {x z : List Symbol} {o c : Nat} (h : Matches (x ++ z) o c)
    (hy : Balanced y) :
    Matches (x ++ y ++ z) (moved x.length y.length o) (moved x.length y.length c) := by
  have hopener : (x ++ y ++ z)[moved x.length y.length o]? = some .opener := by
    rw [getElem?_insert]
    exact h.opener
  have hcloser : (x ++ y ++ z)[moved x.length y.length c]? = some .closer := by
    rw [getElem?_insert]
    exact h.closer
  have hlt := moved_lt_moved (a := x.length) (l := y.length) h.lt
  have hc := (List.getElem?_eq_some_iff.mp h.closer).1
  obtain ⟨hlow, heq⟩ := (balanced_between_iff h.lt (Nat.le_of_lt hc)).mp h.inside
  -- behind the opener the depth is what it was there
  have hstart : depth (x ++ y ++ z) (moved x.length y.length o + 1) = depth (x ++ z) (o + 1) := by
    rw [depth_succ hopener, depth_insert hy, depth_succ h.opener]
  refine ⟨hlt, hopener, hcloser, (balanced_between_iff hlt ?_).mpr ⟨?_, ?_⟩⟩
  · exact Nat.le_of_lt (List.getElem?_eq_some_iff.mp hcloser).1
  · intro k hk hkc
    rw [hstart]
    rcases exists_moved_or x.length y.length k with ⟨i, rfl⟩ | ⟨t, ht, rfl⟩
    · rw [depth_insert hy]
      refine hlow i ?_ ?_
      · by_contra hio
        rcases Nat.eq_or_lt_of_le (Nat.not_lt.mp hio) with rfl | hlt'
        · omega
        · have := moved_lt_moved (a := x.length) (l := y.length) hlt'
          omega
      · by_contra hci
        have := moved_lt_moved (a := x.length) (l := y.length) (Nat.not_le.mp hci)
        omega
    · -- a place put in lies between the brackets only if it was put between them
      have ho : o < x.length := by
        by_contra hox
        rw [moved_of_le (Nat.not_lt.mp hox)] at hk
        omega
      have hxc : x.length ≤ c := by
        by_contra hcx
        rw [moved_of_lt (Nat.not_le.mp hcx)] at hkc
        omega
      exact Int.le_trans (hlow x.length ho hxc) (le_depth_insert hy x z ht)
  · rw [depth_insert hy, hstart]
    exact heq

end Insert

end ByteTape
