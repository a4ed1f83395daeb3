/-! # Signed positions and slices

    A position in a sequence of `size` items is an integer: `0 … size - 1`
    count from the front and `-size … -1` from the back.  All other integers
    address nothing.

    * `resolve?` — the item a signed position addresses;
    * `PositionError` — why a position or a slice picks nothing;
    * `Slice` — a start, a stop and a step, each of which may be left out;
    * `Slice.positions` — the items a slice picks, in the order it picks them. -/

namespace ByteTape

/-- The index that a signed position addresses among `size` items. -/
def resolve? (size : Nat) (i : Int) : Option Nat :=
  if 0 ≤ i then
    if i < size then some i.toNat else none
  else if -(size : Int) ≤ i then some (i + size).toNat
  else none

/-- What a position resolves to is an index. -/
theorem resolve?_lt {size k : Nat} {i : Int} (h : resolve? size i = some k) : k < size := by
  unfold resolve? at h
  split at h
  · split at h
    · have := Option.some.inj h
      omega
    · exact nomatch h
  · split at h
    · have := Option.some.inj h
      omega
    · exact nomatch h

/-- Exactly the integers of `[-size, size)` address an item. -/
theorem resolve?_isSome_iff {size : Nat} {i : Int} :
    (resolve? size i).isSome ↔ -(size : Int) ≤ i ∧ i < size := by
  unfold resolve?
  split
  · split <;> simp <;> omega
  · split <;> simp <;> omega

/-- A position inside `[0, size)` addresses the item of that index. -/
theorem resolve?_of_nonneg {size : Nat} {i : Int} (h0 : 0 ≤ i) (h1 : i < size) :
    resolve? size i = some i.toNat := by
  unfold resolve?
  rw [if_pos h0, if_pos h1]

/-- A position inside `[-size, 0)` addresses the item that many from the end. -/
theorem resolve?_of_neg {size : Nat} {i : Int} (h0 : -(size : Int) ≤ i) (h1 : i < 0) :
    resolve? size i = some (i + size).toNat := by
  unfold resolve?
  rw [if_neg (by omega), if_pos h0]

/-- Why a position or a slice picks nothing. -/
inductive PositionError where
  /-- The position addresses no item. -/
  | outside
  /-- The slice does not advance. -/
  | zeroStep
deriving DecidableEq, Repr

/-- The text of a refusal. -/
def PositionError.message : PositionError → String
  | .outside => "position out of range"
  | .zeroStep => "slice step cannot be zero"

/-- A range of positions with a stride.  A part left out takes its natural
    value: the whole sequence, in the direction of the step, one at a time. -/
structure Slice where
  start : Option Int
  stop : Option Int
  step : Option Int
deriving DecidableEq, Repr

namespace Slice

/-- A bound of a slice, moved into `[low, high]`: a negative one counts from
    the end of the sequence first. -/
def clamp (size : Nat) (low high i : Int) : Int :=
  if i < 0 then max (i + size) low else min i high

/-- The positions `start, start + step, …` before `stop`, `count` of them. -/
def progression (start step : Int) (count : Nat) : List Nat :=
  (List.range count).map fun (k : Nat) => (start + step * (k : Int)).toNat

/-- The items a slice picks out of `size` items, in order. -/
def positions (s : Slice) (size : Nat) : Except PositionError (List Nat) :=
  let step := s.step.getD 1
  if step = 0 then .error .zeroStep
  else if 0 < step then
    let start := (s.start.map (clamp size 0 size)).getD 0
    let stop := (s.stop.map (clamp size 0 size)).getD size
    if start < stop then
      .ok (progression start step ((stop - start - 1) / step + 1).toNat)
    else .ok []
  else
    let last : Int := (size : Int) - 1
    let start := (s.start.map (clamp size (-1) last)).getD last
    let stop := (s.stop.map (clamp size (-1) last)).getD (-1)
    if stop < start then
      .ok (progression start step ((start - stop - 1) / (-step) + 1).toNat)
    else .ok []

end Slice

end ByteTape
