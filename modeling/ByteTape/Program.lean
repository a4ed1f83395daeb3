import ByteTape.Symbol
import ByteTape.Position

/-! # Programs

    A program is a sequence of instructions.  The six actions are their own
    instructions; a bracket carries the index of the instruction it jumps to.

    * `Instr` — an action, or a jump with its target;
    * `Program` — the sequence, with positions counted from zero;
    * `Program.jumps` — every jump with its index and target;
    * `Program.text` — the symbols of the program, targets left out.

    Nothing here asks for the targets to make sense: `Program.parse` produces
    the programs whose jumps are matched brackets, and `Program.firstBadJump?`
    finds a jump that leads nowhere. -/

namespace ByteTape

/-- One instruction of a program. -/
inductive Instr where
  /-- One of the six actions. -/
  | act (a : Action)
  /-- An opening bracket: on a zero cell, go to `target`. -/
  | jumpIfZero (target : Int)
  /-- A closing bracket: on a non-zero cell, go to `target`. -/
  | jumpIfNonzero (target : Int)
deriving DecidableEq, Repr

namespace Instr

/-- The target of a jump that has not been given one. -/
def unresolved : Int := -1

/-- The symbol an instruction is written as. -/
def symbol : Instr → Symbol
  | .act a => .act a
  | .jumpIfZero _ => .opener
  | .jumpIfNonzero _ => .closer

/-- Where a jump leads. -/
def target? : Instr → Option Int
  | .act _ => none
  | .jumpIfZero t => some t
  | .jumpIfNonzero t => some t

/-- The instruction of a symbol, with the given target if it is a bracket. -/
def ofSymbol (target : Int) : Symbol → Instr
  | .act a => .act a
  | .opener => .jumpIfZero target
  | .closer => .jumpIfNonzero target

end Instr

/-- A sequence of instructions. -/
structure Program where
  code : Array Instr
deriving DecidableEq, Repr

namespace Program

/-- The number of instructions. -/
def size (p : Program) : Nat := p.code.size

/-- The instruction at a signed position. -/
def get? (p : Program) (i : Int) : Option Instr :=
  match resolve? p.size i with
  | some k => p.code[k]?
  | none => none

/-- The instruction at a signed position, or the reason there is none. -/
def get (p : Program) (i : Int) : Except PositionError Instr :=
  match p.get? i with
  | some instr => .ok instr
  | none => .error .outside

/-- The instructions a slice picks. -/
def slice (p : Program) (s : Slice) : Except PositionError (List Instr) :=
  match s.positions p.size with
  | .ok picked => .ok (picked.filterMap fun k => p.code[k]?)
  | .error e => .error e

/-- The symbols of the program, in order. -/
def symbols (p : Program) : List Symbol :=
  p.code.toList.map Instr.symbol

/-- The program written out: one character per instruction. -/
def text (p : Program) : String :=
  spell p.symbols

/-- Every jump as its index and its target, in order of index. -/
def jumps (p : Program) : List (Nat × Int) :=
  p.code.toList.zipIdx.filterMap fun (instr, k) => instr.target?.map fun t => (k, t)

/-- For each jump in order, whether it has been given a target. -/
def resolved (p : Program) : List Bool :=
  p.jumps.map fun (_, t) => decide (t ≠ Instr.unresolved)

/-- Whether a target is an index of the program.  The target of a jump that
    has none is not. -/
def inRange (p : Program) (t : Int) : Bool := decide (0 ≤ t ∧ t < p.size)

/-- The first jump that leads nowhere, as its index and its target. -/
def firstBadJump? (p : Program) : Option (Nat × Int) :=
  p.jumps.find? fun (_, t) => !p.inRange t

/-- A target is in range if it is the index of an instruction. -/
@[simp] theorem inRange_iff {p : Program} {t : Int} :
    p.inRange t = true ↔ 0 ≤ t ∧ t < p.size :=
  decide_eq_true_iff

/-- Every index of a program resolves to its instruction. -/
theorem get?_of_nonneg (p : Program) {i : Int} (h0 : 0 ≤ i) (h1 : i < p.size) :
    p.get? i = p.code[i.toNat]? := by
  unfold get?
  rw [resolve?_of_nonneg h0 h1]

/-- Only a position before the end holds an instruction. -/
theorem lt_size_of_get? {p : Program} {i : Int} {instr : Instr}
    (h : p.get? i = some instr) : i < p.size := by
  rw [get?] at h
  cases hr : resolve? p.size i with
  | none => rw [hr] at h; exact nomatch h
  | some j => exact (resolve?_isSome_iff.mp (by rw [hr]; rfl)).2

end Program

end ByteTape
