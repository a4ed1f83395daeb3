/-! # Line ends

    A line may end in a line feed, in a carriage return, or in the two
    together, carriage return first.  Reading makes each of them one line
    feed.

    * `Unifier.feed` — read one character, knowing whether the one before was
      a carriage return;
    * `unify` — read them all. -/

namespace ByteTape.Newline

/-- The text so far, and whether it came to a carriage return just now. -/
structure Unifier where
  text : Array Char
  afterReturn : Bool
deriving DecidableEq, Repr

namespace Unifier

/-- Before the first character. -/
def empty : Unifier := ⟨#[], false⟩

/-- Read one character.  A line feed right after a carriage return belongs to
    the line end already written. -/
def feed (u : Unifier) (c : Char) : Unifier :=
  if c = '\r' then ⟨u.text.push '\n', true⟩
  else if c = '\n' ∧ u.afterReturn then ⟨u.text, false⟩
  else ⟨u.text.push c, false⟩

end Unifier

/-- A text with every line end made a line feed. -/
def unify (cs : List Char) : List Char :=
  (cs.foldl Unifier.feed Unifier.empty).text.toList

end ByteTape.Newline
