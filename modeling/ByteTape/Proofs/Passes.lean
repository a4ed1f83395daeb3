import ByteTape.Proofs.Block

/-! # Assembly in two passes

    A program can also be put together in two passes over the filtered text.
    The first lays down every instruction with its target left open and only
    keeps count of the waiting openers; the second walks over what was laid
    down and fills the two slots of each pair when it meets the closer.

    * `firstPass` — lay down, and refuse what is not balanced;
    * `secondPass` — join the pairs;
    * `assemble` — filter, lay down, join.

    Either pass could stop for a reason of its own: a character without an
    instruction, or a closer that finds the stack of openers empty.  The route
    to `assemble_eq_parse`, which says that this never happens and that the
    result is the one of the linker:

    * the first pass does what the linker does, targets left out
      (`firstPass_eq_feedAll`);
    * the second pass, walking over the symbols that the linker is fed, holds
      the code of the linker followed by the part not yet reached, and the
      linker's waiting openers as its stack (`secondPass_of_feedAll`). -/

namespace ByteTape

/-- Why assembly could stop. -/
inductive AssemblyError where
  /-- A bracket has no partner. -/
  | unbalanced (e : Unbalanced)
  /-- There is no instruction for a character of the filtered text. -/
  | noInstruction (c : Char)
  /-- The second pass meets a closer while no opener is waiting. -/
  | noOpener (index : Nat)
deriving DecidableEq, Repr

/-- The characters that the filter lets through. -/
def isSymbolChar (c : Char) : Bool := "><+-.,[]".toList.contains c

/-- The instruction of a character that is not a bracket. -/
def simpleInstr? : Char → Option Instr
  | '+' => some (.act .inc)
  | '-' => some (.act .dec)
  | '>' => some (.act .right)
  | '<' => some (.act .left)
  | '.' => some (.act .emit)
  | ',' => some (.act .poll)
  | _ => none

/-- Lay down one instruction per character, no bracket with a target yet. -/
def firstPass (laid : Array Instr) (pending : List Nat) :
    List Char → Except AssemblyError (Array Instr)
  | [] =>
      match pending with
      | [] => .ok laid
      | o :: _ => .error (.unbalanced ⟨o⟩)
  | c :: rest =>
      if c = '[' then
        firstPass (laid.push (.jumpIfZero Instr.unresolved)) (laid.size :: pending) rest
      else if c = ']' then
        match pending with
        | [] => .error (.unbalanced ⟨laid.size⟩)
        | _ :: outer => firstPass (laid.push (.jumpIfNonzero Instr.unresolved)) outer rest
      else
        match simpleInstr? c with
        | some instr => firstPass (laid.push instr) pending rest
        | none => .error (.noInstruction c)

/-- Walk over the instructions from `index` on and fill in, at each closer, the
    slot of the innermost opener and its own. -/
def secondPass (slots : Array Instr) (openers : List Nat) (index : Nat) :
    List Instr → Except AssemblyError Program
  | [] => .ok ⟨slots⟩
  | .act _ :: rest => secondPass slots openers (index + 1) rest
  | .jumpIfZero _ :: rest => secondPass slots (index :: openers) (index + 1) rest
  | .jumpIfNonzero _ :: rest =>
      match openers with
      | [] => .error (.noOpener index)
      | o :: outer =>
          let opened := slots.setIfInBounds o (.jumpIfZero index)
          secondPass (opened.setIfInBounds index (.jumpIfNonzero o)) outer (index + 1) rest

/-- Filter a text, lay its instructions down, and join the brackets. -/
def assemble (text : String) : Except AssemblyError Program :=
  match firstPass #[] [] (text.toList.filter isSymbolChar) with
  | .ok laid => secondPass laid [] 0 laid.toList
  | .error e => .error e

/-! ## The filter -/

/-- The filter lets exactly the eight characters through. -/
theorem isSymbolChar_iff (c : Char) : isSymbolChar c = true ↔ (Symbol.ofChar? c).isSome := by
  constructor
  · intro h
    have hc : c = '>' ∨ c = '<' ∨ c = '+' ∨ c = '-' ∨ c = '.' ∨ c = ',' ∨ c = '[' ∨ c = ']' := by
      simpa [isSymbolChar] using h
    rcases hc with rfl | rfl | rfl | rfl | rfl | rfl | rfl | rfl <;> rfl
  · intro h
    obtain ⟨s, hs⟩ := Option.isSome_iff_exists.mp h
    obtain rfl := Symbol.toChar_of_ofChar? hs
    cases s with
    | act a => cases a <;> decide
    | opener => decide
    | closer => decide

/-- What the filter lets through is the text of the symbols. -/
theorem filter_isSymbolChar (cs : List Char) :
    cs.filter isSymbolChar = (scanChars cs).map Symbol.toChar := by
  induction cs with
  | nil => rfl
  | cons c cs ih =>
      cases hc : Symbol.ofChar? c with
      | none =>
          have hf : ¬ isSymbolChar c = true := by
            rw [isSymbolChar_iff, hc]
            exact Bool.false_ne_true
          have hs : scanChars (c :: cs) = scanChars cs := List.filterMap_cons_none hc
          rw [List.filter_cons_of_neg hf, ih, hs]
      | some s =>
          have ht : isSymbolChar c = true := by
            rw [isSymbolChar_iff, hc]
            rfl
          have hs : scanChars (c :: cs) = s :: scanChars cs := List.filterMap_cons_some hc
          rw [List.filter_cons_of_pos ht, ih, hs, List.map_cons, Symbol.toChar_of_ofChar? hc]

/-! ## The waiting openers -/

namespace Linker

/-- Every waiting index is that of an opener laid down before. -/
def Sound (l : Linker) : Prop := ∀ o ∈ l.pending, l.code[o]?.map Instr.symbol = some .opener

theorem sound_empty : empty.Sound := fun _ ho => nomatch ho

theorem Sound.lt_size {l : Linker} (h : l.Sound) {o : Nat} (ho : o ∈ l.pending) :
    o < l.code.size := by
  obtain ⟨i, hi, -⟩ := Option.map_eq_some_iff.mp (h o ho)
  exact (Array.getElem?_eq_some_iff.mp hi).1

private theorem symbol_push {code : Array Instr} {o : Nat} {s : Symbol}
    (h : code[o]?.map Instr.symbol = some s) (i : Instr) :
    (code.push i)[o]?.map Instr.symbol = some s := by
  obtain ⟨j, hj, hs⟩ := Option.map_eq_some_iff.mp h
  obtain ⟨hlt, -⟩ := Array.getElem?_eq_some_iff.mp hj
  rw [Array.getElem?_push, if_neg (Nat.ne_of_lt hlt), hj]
  exact congrArg some hs

/-- What was laid down keeps its symbol when an opener receives its target. -/
private theorem symbol_setTarget {code : Array Instr} {o : Nat}
    (ho : code[o]?.map Instr.symbol = some .opener) (t : Int) (k : Nat) :
    (code.setIfInBounds o (.jumpIfZero t))[k]?.map Instr.symbol = code[k]?.map Instr.symbol := by
  by_cases hk : o = k
  · subst hk
    obtain ⟨j, hj, -⟩ := Option.map_eq_some_iff.mp ho
    obtain ⟨hlt, -⟩ := Array.getElem?_eq_some_iff.mp hj
    rw [Array.getElem?_setIfInBounds_self_of_lt hlt, ho]
    rfl
  · rw [Array.getElem?_setIfInBounds_ne hk]

/-- One symbol more keeps the waiting openers openers. -/
theorem Sound.feed {l l' : Linker} {s : Symbol} (h : l.Sound) (hs : l.feed s = .ok l') :
    l'.Sound := by
  cases s with
  | act a =>
      obtain rfl := Except.ok.inj hs
      intro o ho
      exact symbol_push (h o ho) _
  | opener =>
      obtain rfl := Except.ok.inj hs
      intro o ho
      rcases List.mem_cons.mp ho with rfl | hmem
      · simp [Instr.symbol]
      · exact symbol_push (h o hmem) _
  | closer =>
      obtain ⟨p, outer, hp, rfl⟩ := feed_closer hs
      intro o ho
      have hmem : o ∈ l.pending := by rw [hp]; exact List.mem_cons_of_mem _ ho
      have hpmem : p ∈ l.pending := by rw [hp]; exact List.mem_cons_self
      -- the opener that is met keeps its symbol: only its target changes
      refine symbol_push ?_ _
      rw [symbol_setTarget (h p hpmem)]
      exact h o hmem

/-- A linker that can finish has its program laid down already. -/
theorem eq_of_finish {l : Linker} {p : Program} (h : l.finish = .ok p) :
    p = ⟨l.code⟩ := by
  rw [finish] at h
  cases hp : l.pending with
  | nil =>
      rw [hp] at h
      exact (Except.ok.inj h).symm
  | cons o outer =>
      rw [hp] at h
      cases h

end Linker

/-! ## The first pass -/

/-- An instruction as it is first laid down: without a target. -/
def Instr.unlinked (i : Instr) : Instr := Instr.ofSymbol Instr.unresolved i.symbol

/-- Symbols as the first pass lays them down. -/
def provisional (f : List Symbol) : List Instr := f.map (Instr.ofSymbol Instr.unresolved)

/-- The target that an opener receives is not seen when targets are left out. -/
private theorem map_unlinked_setTarget {code : Array Instr} {o : Nat}
    (ho : code[o]?.map Instr.symbol = some .opener) (t : Int) :
    (code.setIfInBounds o (.jumpIfZero t)).map Instr.unlinked = code.map Instr.unlinked := by
  apply Array.ext_getElem?
  intro k
  have hk := congrArg (Option.map (Instr.ofSymbol Instr.unresolved))
    (Linker.symbol_setTarget ho t k)
  rw [Option.map_map, Option.map_map] at hk
  rw [Array.getElem?_map, Array.getElem?_map]
  exact hk

/-- Targets left out, the linker lays down its symbols and nothing else. -/
theorem Linker.map_unlinked_of_feed {l l' : Linker} {s : Symbol} (hl : l.Sound)
    (hs : l.feed s = .ok l') :
    l'.code.map Instr.unlinked
      = (l.code.map Instr.unlinked).push (Instr.ofSymbol Instr.unresolved s) := by
  cases s with
  | act a =>
      obtain rfl := Except.ok.inj hs
      exact Array.map_push
  | opener =>
      obtain rfl := Except.ok.inj hs
      exact Array.map_push
  | closer =>
      obtain ⟨o, outer, hp, rfl⟩ := feed_closer hs
      have ho := hl o (by rw [hp]; exact List.mem_cons_self)
      rw [Array.map_push, map_unlinked_setTarget ho]
      rfl

/-- The first pass lays down what the linker does, but for the targets. -/
theorem Linker.map_unlinked_of_feedAll {l l' : Linker} {f : List Symbol} (hl : l.Sound)
    (h : l.feedAll f = .ok l') :
    l'.code.map Instr.unlinked = l.code.map Instr.unlinked ++ (provisional f).toArray := by
  induction f generalizing l with
  | nil =>
      obtain rfl := Except.ok.inj h
      simp [provisional]
  | cons s rest ih =>
      obtain ⟨next, hs, hrest⟩ := exists_feed_of_feedAll h
      rw [ih (hl.feed hs) hrest, map_unlinked_of_feed hl hs]
      simp [provisional]

/-- One character of the first pass is one symbol of the linker. -/
private theorem firstPass_of_feed {l l' : Linker} {s : Symbol} (hs : l.feed s = .ok l')
    {laid : Array Instr} (hsize : laid.size = l.code.size) (rest : List Char) :
    firstPass laid l.pending (s.toChar :: rest)
      = firstPass (laid.push (Instr.ofSymbol Instr.unresolved s)) l'.pending rest := by
  cases s with
  | act a =>
      obtain rfl := Except.ok.inj hs
      cases a <;> rfl
  | opener =>
      obtain rfl := Except.ok.inj hs
      show firstPass _ (laid.size :: l.pending) rest = firstPass _ (l.code.size :: l.pending) rest
      rw [hsize]
      rfl
  | closer =>
      obtain ⟨o, outer, hp, rfl⟩ := Linker.feed_closer hs
      rw [hp]
      rfl

/-- A symbol that the linker refuses stops the first pass with the same report. -/
private theorem firstPass_of_feed_error {l : Linker} {s : Symbol} {e : Unbalanced}
    (hs : l.feed s = .error e) {laid : Array Instr} (hsize : laid.size = l.code.size)
    (rest : List Char) :
    firstPass laid l.pending (s.toChar :: rest) = .error (.unbalanced e) := by
  cases s with
  | act a => cases hs
  | opener => cases hs
  | closer =>
      rw [Linker.feed] at hs
      cases hp : l.pending with
      | cons o outer =>
          rw [hp] at hs
          cases hs
      | nil =>
          rw [hp] at hs
          obtain rfl := Except.error.inj hs
          rw [← hsize]
          rfl

/-- The first pass runs through the same openers as the linker, and stops where
    the linker stops. -/
theorem firstPass_eq_feedAll (f : List Symbol) {l : Linker} (hl : l.Sound) :
    firstPass (l.code.map Instr.unlinked) l.pending (f.map Symbol.toChar)
      = match l.feedAll f with
        | .error e => .error (.unbalanced e)
        | .ok l' =>
            match l'.finish with
            | .error e => .error (.unbalanced e)
            | .ok p => .ok (p.code.map Instr.unlinked) := by
  -- the waiting openers are the same at each character, and the code but for the targets
  induction f generalizing l with
  | nil =>
      show firstPass (l.code.map Instr.unlinked) l.pending []
        = match l.finish with
          | .error e => .error (.unbalanced e)
          | .ok p => .ok (p.code.map Instr.unlinked)
      rw [Linker.finish]
      cases l.pending with
      | nil => rfl
      | cons o outer => rfl
  | cons s rest ih =>
      rw [List.map_cons, Linker.feedAll_cons]
      cases hs : l.feed s with
      | error e => exact firstPass_of_feed_error hs Array.size_map _
      | ok next =>
          rw [firstPass_of_feed hs Array.size_map, ← Linker.map_unlinked_of_feed hl hs]
          exact ih (hl.feed hs)

/-! ## The second pass -/

private theorem push_append_toArray (c : Array Instr) (x : Instr) (zs : List Instr) :
    c ++ (x :: zs).toArray = c.push x ++ zs.toArray := by
  apply Array.toList_inj.mp
  simp

/-- Filling both slots of a pair: the opener's inside the part already final,
    the closer's right after it. -/
private theorem setIfInBounds_pair {c : Array Instr} {o : Nat} (ho : o < c.size)
    (x y w : Instr) (zs : List Instr) :
    ((c ++ (x :: zs).toArray).setIfInBounds o y).setIfInBounds c.size w
      = ((c.setIfInBounds o y).push w) ++ zs.toArray := by
  apply Array.toList_inj.mp
  have hset : (c.toList ++ x :: zs).set o y = c.toList.set o y ++ x :: zs :=
    List.set_append_left _ _ (by simpa using ho)
  have hlast : (c.toList.set o y ++ x :: zs).set c.size w = c.toList.set o y ++ w :: zs := by
    rw [List.set_append_right _ _ (by simp)]
    simp
  simp [hset, hlast]

/-- The second pass holds the code of the linker, followed by what it has not
    reached, and the linker's waiting openers; so it ends with that code. -/
theorem secondPass_of_feedAll (f : List Symbol) {l l' : Linker} (hl : l.Sound)
    (h : l.feedAll f = .ok l') :
    secondPass (l.code ++ (provisional f).toArray) l.pending l.code.size (provisional f)
      = .ok ⟨l'.code⟩ := by
  induction f generalizing l with
  | nil =>
      obtain rfl := Except.ok.inj h
      simp [provisional, secondPass]
  | cons s rest ih =>
      obtain ⟨next, hs, hrest⟩ := Linker.exists_feed_of_feedAll h
      have hnext := ih (hl.feed hs) hrest
      rw [Linker.size_of_feed hs] at hnext
      -- one step of the pass leads to where the linker stands after the symbol
      refine Eq.trans ?_ hnext
      rw [show provisional (s :: rest)
        = Instr.ofSymbol Instr.unresolved s :: provisional rest from rfl]
      cases s with
      | act a =>
          obtain rfl := Except.ok.inj hs
          rw [push_append_toArray]
          rfl
      | opener =>
          obtain rfl := Except.ok.inj hs
          rw [push_append_toArray]
          rfl
      | closer =>
          obtain ⟨o, outer, hp, rfl⟩ := Linker.feed_closer hs
          have ho := hl.lt_size (o := o) (by rw [hp]; exact List.mem_cons_self)
          rw [← setIfInBounds_pair ho (.jumpIfNonzero Instr.unresolved), hp]
          rfl

/-! ## Both passes -/

/-- **Two passes give what one gives.**  The only reason for which assembly in
    two passes stops is a bracket without a partner, and then it is the one
    that the linker names; every character that the filter lets through has an
    instruction, and the second pass never finds its stack empty. -/
theorem assemble_eq_parse (text : String) :
    assemble text
      = match Program.parse text with
        | .ok p => .ok p
        | .error e => .error (.unbalanced e) := by
  have hfirst := firstPass_eq_feedAll (scan text) Linker.sound_empty
  have hempty : Linker.empty.code.map Instr.unlinked = #[] := Array.map_empty
  rw [hempty] at hfirst
  rw [assemble, filter_isSymbolChar, Program.parse, link]
  show (match firstPass #[] Linker.empty.pending ((scan text).map Symbol.toChar) with
    | .ok laid => secondPass laid [] 0 laid.toList
    | .error e => .error e) = _
  rw [hfirst]
  cases hfeed : Linker.empty.feedAll (scan text) with
  | error e => rfl
  | ok l =>
      cases hfin : l.finish with
      | error e => simp only [hfin]
      | ok p =>
          -- the second pass starts from what the first has laid down, and has nothing to refuse
          have hlaid := Linker.map_unlinked_of_feedAll Linker.sound_empty hfeed
          have hsecond := secondPass_of_feedAll (scan text) Linker.sound_empty hfeed
          obtain rfl := Linker.eq_of_finish hfin
          have hlist : (l.code.map Instr.unlinked).toList = provisional (scan text) := by
            rw [hlaid, hempty]
            simp
          simp only [hfin]
          rw [hlist, hlaid, hempty]
          exact hsecond

end ByteTape
