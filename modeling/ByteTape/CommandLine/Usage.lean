import ByteTape.CommandLine.Argument
import ByteTape.Text.Quoted

/-! # What the command line says

    The fixed texts of the program, and the reasons for which it does not get
    as far as running anything.

    * `UsageError` — a command line that makes no sense, and why;
    * `Stop` — an error, or one of the two requests that are answered at once;
    * `Stop.exitCode`, `Stop.stdout`, `Stop.stderr` — how the program ends. -/

namespace ByteTape.CommandLine

/-- The name the program goes by. -/
def programName : String := "pybf"

/-- The version the program reports. -/
def versionNumber : String := "0.1.0"

/-- The one line that sums the options up. -/
def usageLine : String := "usage: " ++ programName ++ " [-h] -s SRC [-a ARR] [-v] [--version]\n"

/-- The answer to a call for help. -/
def helpText : String :=
  usageLine
    ++ "\nRun a program written in the eight-symbol byte-tape language.\n"
    ++ "\noptions:\n"
    ++ "  -h, --help         show this help message and exit\n"
    ++ "  -s SRC, --src SRC  Path of the source file to interpret.\n"
    ++ "  -a ARR, --arr ARR  Number of cells on the tape (default: 30000).\n"
    ++ "  -v, --verbose      Log parse and run details to stderr.\n"
    ++ "  --version          show program's version number and exit\n"

/-- The answer to a question for the version. -/
def versionText : String := programName ++ " " ++ versionNumber ++ "\n"

/-- What is wrong with a command line. -/
inductive UsageError where
  /-- A shortened option that could mean more than one. -/
  | ambiguous (a : Ambiguity)
  /-- A setting without its value. -/
  | expectedValue (s : Setting)
  /-- A flag with a value it does not take. -/
  | ignoredValue (f : Flag) (text : Word)
  /-- A tape length that is no number. -/
  | invalidLength (text : Word)
  /-- A tape length below one. -/
  | lengthNotPositive (n : Int)
  /-- No source is given. -/
  | sourceRequired
  /-- Arguments that belong to no option. -/
  | unrecognized (words : List Word)
deriving DecidableEq, Repr

/-- A complaint about the use of one option. -/
def complaint (o : Opt) (text : String) : String := "argument " ++ o.label ++ ": " ++ text

/-- The text of a usage error. -/
def UsageError.message : UsageError → String
  | .ambiguous a =>
      "ambiguous option: " ++ String.ofList a.typed ++ " could match "
        ++ String.intercalate ", " (a.candidates.map Opt.longSpelling)
  | .expectedValue s => complaint (.setting s) "expected one argument"
  | .ignoredValue f text =>
      complaint (.flag f) ("ignored explicit argument " ++ Text.quoted (String.ofList text))
  | .invalidLength text =>
      complaint (.setting .tape) ("Invalid tape length " ++ Text.quoted (String.ofList text))
  | .lengthNotPositive n =>
      complaint (.setting .tape) ("Tape length must be a positive integer, got " ++ toString n)
  | .sourceRequired =>
      "the following arguments are required: " ++ (Opt.setting .source).label
  | .unrecognized words =>
      "unrecognized arguments: " ++ String.intercalate " " (words.map String.ofList)

/-- A command line that runs nothing. -/
inductive Stop where
  | help
  | version
  | misused (e : UsageError)
deriving DecidableEq, Repr

namespace Stop

/-- The exit status: two for an error. -/
def exitCode : Stop → Nat
  | .help => 0
  | .version => 0
  | .misused _ => 2

/-- What is written to standard output. -/
def stdout : Stop → String
  | .help => helpText
  | .version => versionText
  | .misused _ => ""

/-- What is written to standard error. -/
def stderr : Stop → String
  | .help => ""
  | .version => ""
  | .misused e => usageLine ++ programName ++ ": error: " ++ e.message ++ "\n"

end Stop

end ByteTape.CommandLine
