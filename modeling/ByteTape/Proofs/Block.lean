import ByteTape.Program.Linking
import ByteTape.Proofs.Depth
import Mathlib.Data.List.Induction

/-! # Blocks

    A block is a source text with its loops made visible: a sequence of
    actions and of loops over blocks.

    * `Block` — the syntax trees;
    * `Block.symbols`, `Block.text` — a block written out;
    * `Block.code` — the instructions of a block that starts at a given index,
      each bracket with the index of its partner;
    * `layers` — what surrounds an unfinished block: blocks, each with an
      opener after it that no closer has met.

    Two facts carry everything said about linking.  `feedAll_symbols`: fed the
    symbols of a block, a linker lays down the code of the block and is left
    waiting for what it was waiting for before.  `exists_layers`: a list whose
    depth is never negative is a block inside such layers, as many as its depth
    is at the end; so `balanced_iff_exists_block`. -/

namespace ByteTape

/-- A sequence of actions and of loops over such sequences. -/
inductive Block where
  /-- Nothing is left to do. -/
  | done
  /-- An action, and what follows it. -/
  | act (a : Action) (rest : Block)
  /-- A loop, and what follows it. -/
  | loop (body rest : Block)
deriving DecidableEq, Repr

namespace Block

/-- A block written as symbols. -/
def symbols : Block → List Symbol
  | .done => []
  | .act a rest => .act a :: rest.symbols
  | .loop body rest => .opener :: (body.symbols ++ .closer :: rest.symbols)

/-- A block written as text. -/
def text (t : Block) : String := spell t.symbols

/-- The number of symbols of a block. -/
def size : Block → Nat
  | .done => 0
  | .act _ rest => rest.size + 1
  | .loop body rest => body.size + rest.size + 2

/-- One block after the other. -/
def append : Block → Block → Block
  | .done, u => u
  | .act a rest, u => .act a (rest.append u)
  | .loop body rest, u => .loop body (rest.append u)

/-- The instructions of a block whose first one has index `base`. -/
def code (base : Nat) : Block → List Instr
  | .done => []
  | .act a rest => .act a :: rest.code (base + 1)
  | .loop body rest =>
      .jumpIfZero ((base + body.size + 1 : Nat) : Int)
        :: (body.code (base + 1)
          ++ .jumpIfNonzero (base : Int) :: rest.code (base + body.size + 2))

/-- A block has as many symbols as its size says. -/
@[simp] theorem length_symbols (t : Block) : t.symbols.length = t.size := by
  induction t with
  | done => rfl
  | act a rest ih => simp [symbols, size, ih]
  | loop body rest ihb ihr =>
      rw [symbols, List.length_cons, List.length_append, List.length_cons, ihb, ihr, size]
      omega

@[simp] theorem length_code (t : Block) (base : Nat) : (t.code base).length = t.size := by
  induction t generalizing base with
  | done => rfl
  | act a rest ih => simp [code, size, ih]
  | loop body rest ihb ihr =>
      rw [code, List.length_cons, List.length_append, List.length_cons, ihb, ihr, size]
      omega

@[simp] theorem symbols_append (t u : Block) : (t.append u).symbols = t.symbols ++ u.symbols := by
  induction t with
  | done => rfl
  | act a rest ih => simp [append, symbols, ih]
  | loop body rest _ ihr => simp [append, symbols, ihr]

@[simp] theorem scan_text (t : Block) : scan t.text = t.symbols := scan_spell t.symbols

/-- The brackets of a block are balanced. -/
theorem balanced_symbols (t : Block) : Balanced t.symbols := by
  induction t with
  | done => exact balanced_nil
  | act a rest ih => exact ih.cons_act a
  | loop body rest ihb ihr =>
      have h := ihb.enclose.append ihr
      rw [show .opener :: (body.symbols ++ [.closer]) ++ rest.symbols
        = (Block.loop body rest).symbols by simp [symbols]] at h
      exact h

end Block

/-! ## Linking a block -/

namespace Linker

/-- Giving the opener in the middle of an array its target touches only it. -/
private theorem setIfInBounds_push_append (c : Array Instr) (x y : Instr) (zs : List Instr) :
    ((c.push x) ++ zs.toArray).setIfInBounds c.size y = (c.push y) ++ zs.toArray := by
  apply Array.toList_inj.mp
  simp

/-- **A block is linked where it stands.**  Whatever was laid down before and
    whatever is waiting, the symbols of a block lay down the code of the block
    and leave the waiting openers as they were. -/
theorem feedAll_symbols (t : Block) (l : Linker) :
    l.feedAll t.symbols = .ok ⟨l.code ++ (t.code l.code.size).toArray, l.pending⟩ := by
  induction t generalizing l with
  | done => simp [Block.symbols, Block.code, feedAll]
  | act a rest ih =>
      rw [Block.symbols, feedAll_cons]
      show feedAll ⟨l.code.push (.act a), l.pending⟩ rest.symbols = _
      rw [ih]
      simp [Block.code]
  | loop body rest ihb ihr =>
      rw [Block.symbols, feedAll_cons]
      show feedAll ⟨l.code.push (.jumpIfZero Instr.unresolved), l.code.size :: l.pending⟩
        (body.symbols ++ .closer :: rest.symbols) = _
      rw [feedAll_append, ihb]
      -- the closer finds the opener of this very loop on top
      show feedAll ⟨_, _⟩ rest.symbols = _
      rw [ihr, setIfInBounds_push_append]
      simp [Block.code, Nat.add_assoc]

/-- A closer that is taken meets the innermost waiting opener. -/
theorem feed_closer {l l' : Linker} (h : l.feed .closer = .ok l') :
    ∃ o outer, l.pending = o :: outer ∧
      l' = ⟨(l.code.setIfInBounds o (.jumpIfZero l.code.size)).push (.jumpIfNonzero o), outer⟩ := by
  rw [feed] at h
  cases hp : l.pending with
  | nil =>
      rw [hp] at h
      cases h
  | cons o outer =>
      rw [hp] at h
      exact ⟨o, outer, rfl, (Except.ok.inj h).symm⟩

/-- What can be fed to its end begins with a symbol that can be fed. -/
theorem exists_feed_of_feedAll {l l' : Linker} {s : Symbol} {rest : List Symbol}
    (h : l.feedAll (s :: rest) = .ok l') :
    ∃ next, l.feed s = .ok next ∧ next.feedAll rest = .ok l' := by
  rw [feedAll_cons] at h
  cases hs : l.feed s with
  | error e =>
      rw [hs] at h
      cases h
  | ok next =>
      rw [hs] at h
      exact ⟨next, rfl, h⟩

/-- Each symbol laid down is one instruction. -/
theorem size_of_feed {l l' : Linker} {s : Symbol} (h : l.feed s = .ok l') :
    l'.code.size = l.code.size + 1 := by
  cases s with
  | act a =>
      obtain rfl := Except.ok.inj h
      exact Array.size_push _
  | opener =>
      obtain rfl := Except.ok.inj h
      exact Array.size_push _
  | closer =>
      obtain ⟨o, outer, -, rfl⟩ := feed_closer h
      rw [Array.size_push, Array.size_setIfInBounds]

/-- Each symbol that is fed adds one instruction. -/
theorem size_of_feedAll {l l' : Linker} {f : List Symbol} (h : l.feedAll f = .ok l') :
    l'.code.size = l.code.size + f.length := by
  induction f generalizing l with
  | nil =>
      obtain rfl := Except.ok.inj h
      rfl
  | cons s rest ih =>
      obtain ⟨next, hs, hrest⟩ := exists_feed_of_feedAll h
      rw [ih hrest, size_of_feed hs, List.length_cons]
      omega

end Linker

/-- **The symbols of a block link to its code.** -/
theorem link_symbols (t : Block) : link t.symbols = .ok ⟨(t.code 0).toArray⟩ := by
  rw [link, Linker.feedAll_symbols]
  simp [Linker.empty, Linker.finish]

/-! ## Every list of symbols is a block in layers, as far as it goes -/

/-- The blocks around an unfinished one, innermost first, each followed by an
    opener that no closer has met. -/
def layers : List Block → List Symbol
  | [] => []
  | u :: us => layers us ++ (u.symbols ++ [.opener])

/-- A list whose depth is never negative is a block inside as many layers as
    its depth is at the end. -/
theorem exists_layers (f : List Symbol) (h : ∀ i, 0 ≤ depth f i) :
    ∃ (us : List Block) (t : Block), f = layers us ++ t.symbols ∧ net f = us.length := by
  -- reading from the left, so the induction takes the last symbol off
  induction f using List.reverseRecOn with
  | nil => exact ⟨[], .done, rfl, rfl⟩
  | append_singleton f s ih =>
      have hf : ∀ i, 0 ≤ depth f i := by
        intro i
        rcases Nat.le_total i f.length with hle | hle
        · have := h i
          rwa [depth_append_of_le _ hle] at this
        · have := h f.length
          rwa [depth_append_of_le _ (Nat.le_refl _), depth_length,
            ← depth_of_length_le hle] at this
      obtain ⟨us, t, rfl, hnet⟩ := ih hf
      cases s with
      | act a =>
          refine ⟨us, t.append (.act a .done), ?_, ?_⟩
          · simp [Block.symbols]
          · rw [net_append, hnet]
            simp [Symbol.weight]
      | opener =>
          refine ⟨t :: us, .done, ?_, ?_⟩
          · simp [layers, Block.symbols]
          · rw [net_append, hnet]
            simp [Symbol.weight]
      | closer =>
          cases us with
          | nil =>
              -- a closer at depth zero would go below
              have hneg := h ((layers [] ++ t.symbols) ++ [Symbol.closer]).length
              rw [depth_length, net_append, hnet] at hneg
              simp [Symbol.weight] at hneg
          | cons u us =>
              refine ⟨us, u.append (.loop t .done), ?_, ?_⟩
              · simp [layers, Block.symbols]
              · rw [net_append, hnet]
                show ((us.length + 1 : Nat) : Int) + (-1) = us.length
                omega

/-- The balanced lists are exactly the blocks, written out. -/
theorem balanced_iff_exists_block {f : List Symbol} :
    Balanced f ↔ ∃ t : Block, t.symbols = f := by
  constructor
  · intro h
    obtain ⟨us, t, rfl, hnet⟩ := exists_layers f h.nonneg
    rw [h.net_eq_zero] at hnet
    cases us with
    | nil => exact ⟨t, rfl⟩
    | cons u us => simp at hnet; omega
  · rintro ⟨t, rfl⟩
    exact t.balanced_symbols

end ByteTape
