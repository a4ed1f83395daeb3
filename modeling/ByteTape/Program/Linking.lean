import ByteTape.Program

/-! # Linking brackets

    One pass over the symbols lays down the code and joins each closing
    bracket to the innermost opening bracket still waiting for one.

    * `Linker` — the code so far, and the waiting openers, innermost first;
    * `Linker.feed` — lay down one symbol;
    * `link` — all symbols, and no opener left waiting;
    * `Program.parse` — the same for a source text.

    An opener is laid down without a target and receives it when its closer
    comes.  A text is refused at the first closer that finds no opener waiting,
    or, when the text ends too early, at the innermost opener left waiting. -/

namespace ByteTape

/-- A bracket without a partner, given by its index among the symbols. -/
structure Unbalanced where
  position : Nat
deriving DecidableEq, Repr

/-- The text of the refusal. -/
def Unbalanced.message (e : Unbalanced) : String :=
  "Unbalanced brackets at instruction " ++ toString e.position

/-- The state of the pass: the code laid down so far, and the indices of the
    openers without a closer, innermost first. -/
structure Linker where
  code : Array Instr
  pending : List Nat
deriving DecidableEq, Repr

namespace Linker

/-- Before the first symbol. -/
def empty : Linker := ⟨#[], []⟩

/-- Lay down one symbol. -/
def feed (l : Linker) : Symbol → Except Unbalanced Linker
  | .act a => .ok ⟨l.code.push (.act a), l.pending⟩
  | .opener => .ok ⟨l.code.push (.jumpIfZero Instr.unresolved), l.code.size :: l.pending⟩
  | .closer =>
      match l.pending with
      | [] => .error ⟨l.code.size⟩
      | o :: rest =>
          let here := l.code.size
          .ok ⟨(l.code.setIfInBounds o (.jumpIfZero here)).push (.jumpIfNonzero o), rest⟩

/-- Lay down symbols from left to right, up to the first that is refused. -/
def feedAll : Linker → List Symbol → Except Unbalanced Linker
  | l, [] => .ok l
  | l, s :: rest =>
      match l.feed s with
      | .ok next => next.feedAll rest
      | .error e => .error e

/-- The program, if no opener is left waiting. -/
def finish (l : Linker) : Except Unbalanced Program :=
  match l.pending with
  | [] => .ok ⟨l.code⟩
  | o :: _ => .error ⟨o⟩

/-- Feeding stops at the first symbol that is refused. -/
theorem feedAll_cons (l : Linker) (s : Symbol) (rest : List Symbol) :
    l.feedAll (s :: rest)
      = match l.feed s with
        | .ok next => next.feedAll rest
        | .error e => .error e := rfl

/-- Feeding two lists in turn is feeding them joined. -/
theorem feedAll_append (l : Linker) (ss ts : List Symbol) :
    l.feedAll (ss ++ ts)
      = match l.feedAll ss with
        | .ok next => next.feedAll ts
        | .error e => .error e := by
  induction ss generalizing l with
  | nil => rfl
  | cons s rest ih =>
      rw [List.cons_append, feedAll_cons, feedAll_cons]
      cases l.feed s with
      | ok next => exact ih next
      | error e => rfl

end Linker

/-- The program of a list of symbols, each bracket joined to its partner. -/
def link (symbols : List Symbol) : Except Unbalanced Program :=
  match Linker.empty.feedAll symbols with
  | .ok l => l.finish
  | .error e => .error e

/-- The program of a source text; characters that are no symbols are ignored. -/
def Program.parse (text : String) : Except Unbalanced Program :=
  link (scan text)

end ByteTape
