import ByteTape.Proofs.Acceptance
import ByteTape.Proofs.Structured

/-! # Programs put together

    Two constructions make programs out of programs: one after the other, and one
    inside a pair of brackets.  Either moves instructions to another place, so every
    target has to move along with them.

    * `Instr.relocate` — an instruction whose program starts further on;
    * `Program.join`, `Program.enclose` — the two constructions;
    * `Program.Composed` — what they make out of nothing and the six actions.

    Parsing does to texts what the constructions do to programs
    (`parse_compositional`), although the linker counts from the start of the whole
    text.  Both halves go through blocks: the code of a block depends on the place
    where it stands only by the targets (`Block.code_add`), and a block is put together
    the way its program is (`Block.program_append`, `Block.program_loop`). -/

namespace ByteTape

/-- The instruction in a program that starts `n` places further on. -/
def Instr.relocate (n : Int) : Instr → Instr
  | .act a => .act a
  | .jumpIfZero t => .jumpIfZero (t + n)
  | .jumpIfNonzero t => .jumpIfNonzero (t + n)

namespace Program

/-- The program without instructions. -/
def empty : Program := ⟨#[]⟩

/-- The program of one action. -/
def single (a : Action) : Program := ⟨#[.act a]⟩

/-- One program, and behind it another. -/
def join (p q : Program) : Program := ⟨p.code ++ q.code.map (Instr.relocate p.size)⟩

/-- A program between two brackets that lead to each other. -/
def enclose (p : Program) : Program :=
  ⟨#[.jumpIfZero (p.size + 1)] ++ p.code.map (Instr.relocate 1) ++ #[.jumpIfNonzero 0]⟩

/-- The programs put together out of nothing and the six actions. -/
inductive Composed : Program → Prop where
  | empty : Composed .empty
  | single (a : Action) : Composed (.single a)
  | join {p q : Program} (hp : Composed p) (hq : Composed q) : Composed (p.join q)
  | enclose {p : Program} (hp : Composed p) : Composed p.enclose

end Program

/-! ## Blocks -/

namespace Block

/-- **The place of a block shows in its targets only.** -/
theorem code_add (t : Block) (base n : Nat) :
    t.code (base + n) = (t.code base).map (Instr.relocate n) := by
  induction t generalizing base with
  | done => rfl
  | act a rest ih =>
      rw [code, code, List.map_cons, Nat.add_right_comm, ih]
      rfl
  | loop body rest ihb ihr =>
      have hopener : (Instr.jumpIfZero ((base + body.size + 1 : Nat) : Int)).relocate n
          = .jumpIfZero ((base + n + body.size + 1 : Nat) : Int) :=
        congrArg Instr.jumpIfZero (by omega)
      have hcloser : (Instr.jumpIfNonzero (base : Int)).relocate n
          = .jumpIfNonzero ((base + n : Nat) : Int) := rfl
      rw [code, code, List.map_cons, List.map_append, List.map_cons, hopener, hcloser, ← ihb,
        ← ihr, Nat.add_right_comm base 1,
        show base + body.size + 2 + n = base + n + body.size + 2 by omega]

theorem code_append (t u : Block) (base : Nat) :
    (t.append u).code base = t.code base ++ u.code (base + t.size) := by
  induction t generalizing base with
  | done => rfl
  | act a rest ih =>
      rw [append, code, code, ih, List.cons_append, size, Nat.add_assoc, Nat.add_comm 1]
  | loop body rest _ ihr =>
      rw [append, code, code, ihr, List.cons_append, List.append_assoc, List.cons_append, size,
        show base + body.size + 2 + rest.size = base + (body.size + rest.size + 2) by omega]

/-- One block after the other is one program after the other. -/
theorem program_append (t u : Block) : (t.append u).program = t.program.join u.program := by
  have hcode : (t.append u).code 0 = t.code 0 ++ (u.code 0).map (Instr.relocate t.size) := by
    rw [code_append, code_add]
  rw [Program.join, size_program, program, program, program, hcode]
  simp

/-- A loop is the program of its body, enclosed. -/
theorem program_loop (t : Block) : (Block.loop t .done).program = t.program.enclose := by
  have hcode : (Block.loop t .done).code 0
      = .jumpIfZero ((t.size : Int) + 1)
        :: ((t.code 0).map (Instr.relocate 1) ++ [.jumpIfNonzero 0]) := by
    rw [code, code_add, Nat.zero_add]
    rfl
  rw [Program.enclose, size_program, program, program, hcode]
  simp

/-- The program of a block is put together the way the block is. -/
theorem composed_program (t : Block) : t.program.Composed := by
  induction t with
  | done => exact .empty
  | act a rest ih =>
      have h := program_append (.act a .done) rest
      rw [show (Block.act a .done).append rest = .act a rest from rfl] at h
      rw [h]
      exact .join (.single a) ih
  | loop body rest ihb ihr =>
      have h := program_append (.loop body .done) rest
      rw [show (Block.loop body .done).append rest = .loop body rest from rfl, program_loop] at h
      rw [h]
      exact .join (.enclose ihb) ihr

end Block

/-- What is put together is the program of a block. -/
theorem Program.Composed.exists_block {p : Program} (h : p.Composed) :
    ∃ t : Block, t.program = p := by
  induction h with
  | empty => exact ⟨.done, rfl⟩
  | single a => exact ⟨.act a .done, rfl⟩
  | join _ _ ihp ihq =>
      obtain ⟨t, rfl⟩ := ihp
      obtain ⟨u, rfl⟩ := ihq
      exact ⟨t.append u, t.program_append u⟩
  | enclose _ ih =>
      obtain ⟨t, rfl⟩ := ih
      exact ⟨.loop t .done, t.program_loop⟩

/-! ## Texts -/

/-- **Accepted are the texts of blocks,** each as the program of its block. -/
theorem parse_eq_ok_iff {text : String} {p : Program} :
    Program.parse text = .ok p ↔ ∃ t : Block, t.symbols = scan text ∧ p = t.program :=
  link_eq_ok_iff

/-- A text is scanned between its brackets. -/
theorem scan_enclose (text : String) :
    scan ("[" ++ text ++ "]") = .opener :: (scan text ++ [.closer]) := by
  rw [scan_append, scan_append, show scan "[" = [.opener] from rfl,
    show scan "]" = [.closer] from rfl]
  rfl

/-- **Parsing is compositional.**  Of two accepted texts the one behind the other gives
    their programs joined, and an accepted text in brackets gives its program enclosed.
    And a program comes from some text exactly when it is put together out of nothing
    and the six actions by these two constructions. -/
theorem parse_compositional :
    (∀ s t p q, Program.parse s = .ok p → Program.parse t = .ok q →
      Program.parse (s ++ t) = .ok (p.join q)) ∧
    (∀ s p, Program.parse s = .ok p → Program.parse ("[" ++ s ++ "]") = .ok p.enclose) ∧
    ∀ p, (∃ s, Program.parse s = .ok p) ↔ p.Composed := by
  refine ⟨?_, ?_, ?_⟩
  · intro s t p q hp hq
    obtain ⟨b, hb, rfl⟩ := parse_eq_ok_iff.mp hp
    obtain ⟨c, hc, rfl⟩ := parse_eq_ok_iff.mp hq
    refine parse_eq_ok_iff.mpr ⟨b.append c, ?_, (b.program_append c).symm⟩
    rw [Block.symbols_append, hb, hc, scan_append]
  · intro s p hp
    obtain ⟨b, hb, rfl⟩ := parse_eq_ok_iff.mp hp
    refine parse_eq_ok_iff.mpr ⟨.loop b .done, ?_, b.program_loop.symm⟩
    rw [scan_enclose, Block.symbols, hb]
    rfl
  · intro p
    constructor
    · rintro ⟨s, hp⟩
      obtain ⟨b, -, rfl⟩ := parse_eq_ok_iff.mp hp
      exact b.composed_program
    · intro hp
      obtain ⟨b, rfl⟩ := hp.exists_block
      exact ⟨b.text, b.parse_text⟩

/-- A loop behind a loop moves by three places, and both in brackets by one more. -/
theorem parse_compositional_two_loops :
    ∃ p, Program.parse "[-]" = .ok p ∧ p.code = #[.jumpIfZero 2, .act .dec, .jumpIfNonzero 0] ∧
      Program.parse ("[-]" ++ "[-]") = .ok (p.join p) ∧
      Program.parse ("[" ++ ("[-]" ++ "[-]") ++ "]") = .ok (p.join p).enclose ∧
      (p.join p).enclose.code = #[.jumpIfZero 7, .jumpIfZero 3, .act .dec, .jumpIfNonzero 1,
        .jumpIfZero 6, .act .dec, .jumpIfNonzero 4, .jumpIfNonzero 0] ∧
      (p.join p).enclose.Composed := by
  obtain ⟨hjoin, henclose, hall⟩ := parse_compositional
  have hp : Program.parse "[-]" = .ok ⟨#[.jumpIfZero 2, .act .dec, .jumpIfNonzero 0]⟩ := rfl
  have htwo := hjoin _ _ _ _ hp hp
  have hloop := henclose _ _ htwo
  refine ⟨_, hp, rfl, htwo, hloop, ?_, (hall _).mp ⟨_, hloop⟩⟩
  simp [Program.join, Program.enclose, Program.size, Instr.relocate]

end ByteTape
