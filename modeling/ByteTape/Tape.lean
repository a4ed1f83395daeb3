import ByteTape.Position

/-! # The tape

    A tape is a fixed number of byte cells.  A cell is addressed by a signed
    position, so the last cell is also cell `-1`; arithmetic on a cell wraps
    at 256.

    * `Tape.blank` — all cells zero;
    * `Tape.get?` — the byte at a signed position;
    * `Tape.put`, `Tape.shift` — overwrite a cell, or add to it. -/

namespace ByteTape

/-- A row of byte cells. -/
structure Tape where
  cells : Array UInt8
deriving DecidableEq, Repr

namespace Tape

/-- A tape of `n` zero cells. -/
def blank (n : Nat) : Tape := ⟨Array.replicate n 0⟩

/-- The number of cells. -/
def size (t : Tape) : Nat := t.cells.size

/-- The index of the cell that a signed position addresses. -/
def index? (t : Tape) (i : Int) : Option Nat := resolve? t.size i

/-- The byte in the cell that a signed position addresses. -/
def get? (t : Tape) (i : Int) : Option UInt8 :=
  match t.index? i with
  | some k => t.cells[k]?
  | none => none

/-- Overwrite the cell of index `k`. -/
def put (t : Tape) (k : Nat) (b : UInt8) : Tape := ⟨t.cells.setIfInBounds k b⟩

/-- Add an integer to the cell of index `k`, modulo 256. -/
def shift (t : Tape) (k : Nat) (d : Int) : Tape :=
  ⟨t.cells.modify k fun b => b + UInt8.ofInt d⟩

@[simp] theorem size_blank (n : Nat) : (blank n).size = n := by
  simp [blank, size]

/-- Overwriting a cell leaves the length. -/
@[simp] theorem size_put (t : Tape) (k : Nat) (b : UInt8) : (t.put k b).size = t.size := by
  simp [put, size]

/-- So does adding to one. -/
@[simp] theorem size_shift (t : Tape) (k : Nat) (d : Int) : (t.shift k d).size = t.size := by
  simp [shift, size]

end Tape

end ByteTape
