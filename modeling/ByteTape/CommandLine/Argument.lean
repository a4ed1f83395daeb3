import ByteTape.Text.Digit

/-! # Arguments

    The command line knows five options.  Three are flags, two take a value;
    all but one also have a short name.  Before anything acts, each argument
    is classified by its text alone.

    * `Flag`, `Setting`, `Opt` — the options;
    * `Argument` — what an argument is taken for;
    * `Argument.classify` — one argument;
    * `Argument.classifyAll` — all of them, up to a bare `--`, after which
      everything is plain.

    A long option may be shortened as long as one option remains that it can
    mean, and may carry its value behind an equals sign.  A short option may
    carry text right behind its letter. -/

namespace ByteTape.CommandLine

/-- The characters of one argument. -/
abbrev Word := List Char

/-- The options that take no value. -/
inductive Flag where
  | help
  | verbose
  | version
deriving DecidableEq, Repr

/-- The options that take a value. -/
inductive Setting where
  | source
  | tape
deriving DecidableEq, Repr

/-- An option. -/
inductive Opt where
  | flag (f : Flag)
  | setting (s : Setting)
deriving DecidableEq, Repr

namespace Opt

/-- All options, in the order in which they are listed. -/
def all : List Opt :=
  [.flag .help, .setting .source, .setting .tape, .flag .verbose, .flag .version]

/-- The long name, without its dashes. -/
def long : Opt → Word
  | .flag .help => ['h', 'e', 'l', 'p']
  | .setting .source => ['s', 'r', 'c']
  | .setting .tape => ['a', 'r', 'r']
  | .flag .verbose => ['v', 'e', 'r', 'b', 'o', 's', 'e']
  | .flag .version => ['v', 'e', 'r', 's', 'i', 'o', 'n']

/-- The short name, without its dash. -/
def short? : Opt → Option Char
  | .flag .help => some 'h'
  | .setting .source => some 's'
  | .setting .tape => some 'a'
  | .flag .verbose => some 'v'
  | .flag .version => none

/-- The option of a short name. -/
def ofShort? (c : Char) : Option Opt := all.find? fun o => o.short? == some c

/-- The options whose long name begins with the given characters. -/
def matching (name : Word) : List Opt := all.filter fun o => name.isPrefixOf o.long

/-- The long name as it is typed. -/
def longSpelling (o : Opt) : String := String.ofList ('-' :: '-' :: o.long)

/-- All names of the option as messages show them. -/
def label (o : Opt) : String :=
  match o.short? with
  | some c => String.ofList ['-', c, '/'] ++ o.longSpelling
  | none => o.longSpelling

end Opt

/-- A shortened option that could mean more than one. -/
structure Ambiguity where
  typed : Word
  candidates : List Opt
deriving DecidableEq, Repr

/-- What an argument is taken for. -/
inductive Argument where
  /-- No option: it may be the value of one. -/
  | plain
  /-- The bare `--`. -/
  | marker
  /-- It looks like an option, but is none. -/
  | unknown
  /-- A long option, with the text behind its equals sign. -/
  | long (o : Opt) (text : Option Word)
  /-- A short option, with the text attached to it. -/
  | short (o : Opt) (text : Option Word)
deriving DecidableEq, Repr

namespace Argument

/-- One or more decimal digits and nothing else. -/
def isDigits (w : Word) : Bool :=
  !w.isEmpty && w.all fun c => (Text.digit? c).isSome

/-- Decimal digits, with a point in front of the last of them or before. -/
def isDecimal (w : Word) : Bool :=
  match w.dropWhile fun c => (Text.digit? c).isSome with
  | '.' :: fraction => isDigits fraction
  | _ => false

/-- A text without the line feed at its end, if there is one. -/
def dropFinalNewline (w : Word) : Word :=
  if w.getLast? = some '\n' then w.dropLast else w

/-- Whether an argument is a negative number rather than an option. -/
def isNegative : Word → Bool
  | '-' :: rest =>
      let number := dropFinalNewline rest
      isDigits number || isDecimal number
  | _ => false

/-- An argument that starts with a dash and names no option: negative numbers
    and anything with a space in it are plain. -/
def classifyOther (w : Word) : Argument :=
  if isNegative w || w.contains ' ' then .plain else .unknown

/-- The part of a text before its first equals sign. -/
def nameBeforeEquals (w : Word) : Word := w.takeWhile fun c => c != '='

/-- The part of a text behind its first equals sign. -/
def textBehindEquals (w : Word) : Option Word :=
  match w.dropWhile fun c => c != '=' with
  | _ :: text => some text
  | [] => none

/-- Classify an argument with two dashes, given whole and without them. -/
def classifyLong (w body : Word) : Except Ambiguity Argument :=
  match Opt.matching (nameBeforeEquals body) with
  | [] => .ok (classifyOther w)
  | [o] => .ok (.long o (textBehindEquals body))
  | several => .error ⟨w, several⟩

/-- The text attached to a short option: an equals sign right behind the
    letter does not belong to it. -/
def attachedText : Word → Option Word
  | [] => none
  | '=' :: text => some text
  | text => some text

/-- Classify an argument with one dash, given whole and as its letter and the
    rest. -/
def classifyShort (w : Word) (letter : Char) (rest : Word) : Argument :=
  match Opt.ofShort? letter with
  | some o => .short o (attachedText rest)
  | none => classifyOther w

/-- Classify an argument by its text. -/
def classify : Word → Except Ambiguity Argument
  | '-' :: '-' :: body => classifyLong ('-' :: '-' :: body) body
  | '-' :: letter :: rest => .ok (classifyShort ('-' :: letter :: rest) letter rest)
  | _ => .ok .plain

/-- The bare `--`. -/
def markerWord : Word := ['-', '-']

/-- Classify all arguments; the first ambiguous one is reported. -/
def classifyAll : List Word → Except Ambiguity (List (Word × Argument))
  | [] => .ok []
  | w :: rest =>
      if w = markerWord then .ok ((w, .marker) :: rest.map fun v => (v, .plain))
      else
        match classify w with
        | .error e => .error e
        | .ok arg =>
            match classifyAll rest with
            | .error e => .error e
            | .ok others => .ok ((w, arg) :: others)

end Argument

end ByteTape.CommandLine
