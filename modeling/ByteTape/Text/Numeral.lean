import ByteTape.Text.Blank
import ByteTape.Text.Digit

/-! # Whole numbers in text

    A numeral is an optional sign and decimal digits of any script, where
    single underscores may stand between two digits.  Blanks around it are
    ignored.  A numeral of more than `maxDigits` digits is refused, leading
    zeros counted.

    * `digits?` — the values of the digits of an unsigned numeral;
    * `int?` — the number a text stands for, if it is a numeral. -/

namespace ByteTape.Text

/-- The most digits a numeral may have. -/
def maxDigits : Nat := 4300

/-- A text without the blanks at its two ends. -/
def trimBlanks (cs : List Char) : List Char :=
  ((cs.dropWhile isBlank).reverse.dropWhile isBlank).reverse

/-- The digits of an unsigned numeral, last first, added in front of those
    already read.  `needDigit` says that a digit must come next. -/
def digitsFrom (read : List Nat) (needDigit : Bool) : List Char → Option (List Nat)
  | [] => if needDigit then none else some read
  | c :: rest =>
      match digit? c with
      | some d => digitsFrom (d :: read) false rest
      | none => if c = '_' ∧ needDigit = false then digitsFrom read true rest else none

/-- The values of the digits of an unsigned numeral, last first. -/
def digits? (cs : List Char) : Option (List Nat) := digitsFrom [] true cs

/-- The number with the given digits, last first. -/
def ofDigits : List Nat → Nat
  | [] => 0
  | d :: rest => d + 10 * ofDigits rest

/-- The number an unsigned numeral stands for. -/
def nat? (cs : List Char) : Option Nat :=
  match digits? cs with
  | some ds => if ds.length ≤ maxDigits then some (ofDigits ds) else none
  | none => none

/-- The number a text stands for. -/
def int? (text : String) : Option Int :=
  match trimBlanks text.toList with
  | '-' :: rest => (nat? rest).map fun n => -(n : Int)
  | '+' :: rest => (nat? rest).map fun n => (n : Int)
  | cs => (nat? cs).map fun n => (n : Int)

end ByteTape.Text
