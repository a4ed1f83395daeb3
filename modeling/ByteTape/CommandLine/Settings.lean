import ByteTape.CommandLine.Usage
import ByteTape.Machine.Run
import ByteTape.Path
import ByteTape.Text.Numeral

/-! # Settings

    The classified arguments act from left to right.  Help and version end
    everything as soon as they act; the last value given for a setting counts,
    but every value is checked; what belongs to no option is set aside and
    reported at the end.

    * `Bundle` — what one argument stands for: some flags, then perhaps a
      setting;
    * `Draft` — what the arguments so far have settled;
    * `interpret` — let the arguments act;
    * `parseArgs` — the settings of a command line. -/

namespace ByteTape.CommandLine

/-- What one argument stands for: flags in order, and then perhaps a setting
    with the value attached to it. -/
structure Bundle where
  flags : List Flag
  setting : Option (Setting × Option Word)
deriving DecidableEq, Repr

namespace Bundle

/-- A short option with letters attached: behind a setting they are its value,
    behind a flag the first of them is a further short option. -/
def ofLetters : Opt → List Char → Except UsageError Bundle
  | .flag f, [] => .ok ⟨[f], none⟩
  | .setting s, [] => .ok ⟨[], some (s, none)⟩
  | .setting s, text => .ok ⟨[], some (s, some text)⟩
  | .flag f, c :: rest =>
      match Opt.ofShort? c with
      | none => .error (.ignoredValue f (c :: rest))
      | some next =>
          match ofLetters next rest with
          | .ok b => .ok { b with flags := f :: b.flags }
          | .error e => .error e

/-- A short option with the text attached to it. -/
def ofShort : Opt → Option Word → Except UsageError Bundle
  | .flag f, some [] => .error (.ignoredValue f [])
  | .setting s, some [] => .ok ⟨[], some (s, some [])⟩
  | o, some text => ofLetters o text
  | o, none => ofLetters o []

/-- A long option with the text behind its equals sign. -/
def ofLong : Opt → Option Word → Except UsageError Bundle
  | .flag f, none => .ok ⟨[f], none⟩
  | .flag f, some text => .error (.ignoredValue f text)
  | .setting s, text => .ok ⟨[], some (s, text)⟩

end Bundle

/-- What the arguments so far have settled.  A setting that was given the bare
    `--` as its value counts as given, but has none. -/
structure Draft where
  source : Option (Option String)
  tapeLen : Option (Option Int)
  verbose : Bool
  leftovers : Array Word
deriving DecidableEq, Repr

namespace Draft

/-- Nothing is settled. -/
def empty : Draft := ⟨none, none, false, #[]⟩

/-- Set an argument aside. -/
def leave (d : Draft) (w : Word) : Draft := { d with leftovers := d.leftovers.push w }

/-- Let a flag act. -/
def raise (d : Draft) : Flag → Except Stop Draft
  | .help => .error .help
  | .version => .error .version
  | .verbose => .ok { d with verbose := true }

/-- Let flags act in order. -/
def raiseAll : Draft → List Flag → Except Stop Draft
  | d, [] => .ok d
  | d, f :: rest =>
      match d.raise f with
      | .ok next => next.raiseAll rest
      | .error stop => .error stop

end Draft

/-- The number of cells that a text asks for. -/
def readLength (text : Word) : Except UsageError Int :=
  match Text.int? (String.ofList text) with
  | none => .error (.invalidLength text)
  | some n => if n < 1 then .error (.lengthNotPositive n) else .ok n

/-- Give a setting its value. -/
def Draft.assign (d : Draft) (text : Word) : Setting → Except Stop Draft
  | .source =>
      if text = Argument.markerWord then .ok { d with source := some none }
      else .ok { d with source := some (some (normalPath (String.ofList text))) }
  | .tape =>
      if text = Argument.markerWord then .ok { d with tapeLen := some none }
      else
        match readLength text with
        | .ok n => .ok { d with tapeLen := some (some n) }
        | .error e => .error (.misused e)

/-- Let flags act and then give a setting its value. -/
def Draft.apply (d : Draft) (flags : List Flag) (s : Setting) (text : Word) :
    Except Stop Draft :=
  match d.raiseAll flags with
  | .ok next => next.assign text s
  | .error stop => .error stop

/-- What an argument that is an option stands for. -/
def Argument.bundle? : Argument → Option (Except UsageError Bundle)
  | .long o text => some (Bundle.ofLong o text)
  | .short o text => some (Bundle.ofShort o text)
  | .plain => none
  | .marker => none
  | .unknown => none

/-- Let the arguments act from left to right.  A setting without attached
    value takes the next argument, which must be plain; that it is missing is
    noticed before the flags of the same argument act. -/
def interpret : Draft → List (Word × Argument) → Except Stop Draft
  | d, [] => .ok d
  | d, (w, arg) :: rest =>
      match arg.bundle? with
      | none => interpret (d.leave w) rest
      | some (.error e) => .error (.misused e)
      | some (.ok ⟨flags, none⟩) =>
          match d.raiseAll flags with
          | .ok next => interpret next rest
          | .error stop => .error stop
      | some (.ok ⟨flags, some (s, some text)⟩) =>
          match d.apply flags s text with
          | .ok next => interpret next rest
          | .error stop => .error stop
      | some (.ok ⟨flags, some (s, none)⟩) =>
          match rest with
          | (text, .plain) :: others =>
              match d.apply flags s text with
              | .ok next => interpret next others
              | .error stop => .error stop
          | _ => .error (.misused (.expectedValue s))

/-- What a command line asks for.  A setting given the bare `--` has no value
    at all. -/
structure Settings where
  /-- The path of the source, in normal form. -/
  source : Option String
  /-- The number of cells on the tape. -/
  tapeLen : Option Int
  /-- Whether to log. -/
  verbose : Bool
deriving DecidableEq, Repr

/-- The settings, once a source is given and nothing is left over. -/
def Draft.settle (d : Draft) : Except Stop Settings :=
  match d.source with
  | none => .error (.misused .sourceRequired)
  | some source =>
      if d.leftovers.isEmpty then .ok ⟨source, d.tapeLen.getD (some defaultTapeLen), d.verbose⟩
      else .error (.misused (.unrecognized d.leftovers.toList))

/-- The settings of a command line. -/
def parseArgs (argv : List String) : Except Stop Settings :=
  match Argument.classifyAll (argv.map String.toList) with
  | .error a => .error (.misused (.ambiguous a))
  | .ok args =>
      match interpret Draft.empty args with
      | .ok d => d.settle
      | .error stop => .error stop

end ByteTape.CommandLine
