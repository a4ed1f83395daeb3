/-! # The eight symbols

    A source text is read for eight characters only: six actions and the two
    brackets.  Every other character is a comment.

    * `Action` — the six symbols that stand for one effect each;
    * `Symbol` — an action or a bracket;
    * `scan` — the symbols of a text, in order;
    * `spell` — the text of a list of symbols.

    `scan_spell` says that spelling and scanning lose nothing. -/

namespace ByteTape

/-- The symbols without a partner: each is one effect on the machine. -/
inductive Action where
  /-- Add one to the current cell. -/
  | inc
  /-- Take one from the current cell. -/
  | dec
  /-- Move to the next cell. -/
  | right
  /-- Move to the cell before. -/
  | left
  /-- Write the current cell out. -/
  | emit
  /-- Ask for one byte of input. -/
  | poll
deriving DecidableEq, Repr

/-- One significant character of a source text. -/
inductive Symbol where
  /-- One of the six actions. -/
  | act (a : Action)
  /-- The start of a loop. -/
  | opener
  /-- The end of a loop. -/
  | closer
deriving DecidableEq, Repr

/-- The character that stands for an action. -/
def Action.toChar : Action → Char
  | .inc => '+'
  | .dec => '-'
  | .right => '>'
  | .left => '<'
  | .emit => '.'
  | .poll => ','

namespace Symbol

/-- The character that stands for a symbol. -/
def toChar : Symbol → Char
  | .act a => a.toChar
  | .opener => '['
  | .closer => ']'

/-- The symbol a character stands for, if it is one of the eight. -/
def ofChar? : Char → Option Symbol
  | '+' => some (.act .inc)
  | '-' => some (.act .dec)
  | '>' => some (.act .right)
  | '<' => some (.act .left)
  | '.' => some (.act .emit)
  | ',' => some (.act .poll)
  | '[' => some .opener
  | ']' => some .closer
  | _ => none

/-- Reading a symbol's own character gives the symbol back. -/
@[simp] theorem ofChar?_toChar (s : Symbol) : ofChar? s.toChar = some s := by
  cases s with
  | act a => cases a <;> rfl
  | opener => rfl
  | closer => rfl

/-- A character that reads as a symbol is that symbol's character. -/
theorem toChar_of_ofChar? {c : Char} {s : Symbol} (h : ofChar? c = some s) :
    s.toChar = c := by
  unfold ofChar? at h
  split at h <;> cases h <;> rfl

end Symbol

/-- The symbols among some characters, in order. -/
def scanChars (cs : List Char) : List Symbol :=
  cs.filterMap Symbol.ofChar?

/-- The symbols of a text, in order: all other characters are dropped. -/
def scan (text : String) : List Symbol :=
  scanChars text.toList

/-- The text that holds the given symbols and nothing else. -/
def spell (symbols : List Symbol) : String :=
  String.ofList (symbols.map Symbol.toChar)

/-- What remains of a text when its comments are dropped. -/
def stripComments (text : String) : String :=
  spell (scan text)

/-- Characters are scanned piece by piece. -/
@[simp] theorem scanChars_append (cs ds : List Char) :
    scanChars (cs ++ ds) = scanChars cs ++ scanChars ds :=
  List.filterMap_append

/-- Spelling loses nothing. -/
@[simp] theorem scan_spell (symbols : List Symbol) : scan (spell symbols) = symbols := by
  unfold scan spell scanChars
  rw [String.toList_ofList, List.filterMap_map]
  induction symbols with
  | nil => rfl
  | cons s rest ih =>
      rw [List.filterMap_cons_some (b := s) (by exact Symbol.ofChar?_toChar s), ih]

/-- A text is scanned piece by piece. -/
theorem scan_append (s t : String) : scan (s ++ t) = scan s ++ scan t := by
  unfold scan
  rw [String.toList_append, scanChars_append]

end ByteTape
