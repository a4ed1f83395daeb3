import ByteTape.CommandLine.Settings
import ByteTape.Directory

/-! # Sessions

    A session is one call of the program from its command line: read the
    settings, load and parse the source, run it between standard input and
    standard output, and report how it went.

    * `Entry` — a line of the log, with the part of the program it is from;
    * `Ending` — an exit status, or a failure that no part of the program
      catches;
    * `Report` — the ending and everything that was written;
    * `Session.start` — what a loaded source comes to: a report at once, or a
      run about to begin;
    * `Session.conclude` — what the run comes to;
    * `Session.run` — the report of a session.

    A source that cannot be loaded or parsed and a pointer that leaves the
    tape are reported on standard error, under a label each, and end the
    session with status 1.  Bytes emitted before stay written. -/

namespace ByteTape

/-- The parts of the program that log. -/
inductive Channel where
  | parsing
  | session
  | engine
deriving DecidableEq, Repr

/-- A line of the log. -/
structure Entry where
  channel : Channel
  text : String
deriving DecidableEq, Repr

/-- A failure that ends the program outright. -/
inductive Crash where
  /-- The path of the source holds the character NUL. -/
  | nulInPath
  /-- The source setting has no value. -/
  | noSource
  /-- The tape setting has no value. -/
  | noTapeLen
  /-- No machine can be set up. -/
  | setup (e : SetupError)
  /-- The machine failed in a way that is not a pointer off the tape. -/
  | engine (why : Fault)
deriving DecidableEq, Repr

/-- The text of a crash. -/
def Crash.message : Crash → String
  | .nulInPath => LoadError.nulInPath.message
  | .noSource => "expected str, bytes or os.PathLike object, not list"
  | .noTapeLen => "'<' not supported between instances of 'list' and 'int'"
  | .setup e => e.message
  | .engine why => why.message

/-- How a session ends. -/
inductive Ending where
  | exit (code : Nat)
  | crash (why : Crash)
deriving DecidableEq, Repr

/-- Everything a session leaves behind. -/
structure Report where
  ending : Ending
  stdout : Array UInt8
  stderr : String
  log : List Entry
deriving DecidableEq, Repr

namespace Session

/-- The line about a parsed source. -/
def parsedEntry (p : Program) (text : String) : Entry :=
  ⟨.parsing, "Parsed " ++ toString p.size ++ " instructions (" ++ toString (p.jumps.length / 2)
    ++ " bracket pairs) from " ++ toString text.length ++ " characters"⟩

/-- The line about a loaded file. -/
def loadedEntry (path : String) : Entry := ⟨.session, "Loaded " ++ path⟩

/-- The line at the start of a run. -/
def runningEntry (p : Program) (tapeLen : Nat) : Entry :=
  ⟨.engine, "Running " ++ toString p.size ++ " instructions on " ++ toString tapeLen ++ " cells"⟩

/-- The line at the end of a run. -/
def haltedEntry (steps : Nat) : Entry :=
  ⟨.engine, "Halted after " ++ toString steps ++ " steps"⟩

/-- A failure as it is shown to the user. -/
def errorLine (label message : String) : String := label ++ ": " ++ message ++ "\n"

/-- The line for a source that cannot be loaded. -/
def sourceError (message : String) : String := errorLine "source error" message

/-- The line for a source that cannot be parsed. -/
def parseError (e : Unbalanced) : String := errorLine "parse error" e.message

/-- The line for a run that failed. -/
def runtimeError (why : Fault) : String := errorLine "runtime error" why.message

/-- A report with a log only if it was asked for. -/
def report (verbose : Bool) (ending : Ending) (stdout : Array UInt8) (stderr : String)
    (log : List Entry) : Report :=
  ⟨ending, stdout, stderr, if verbose then log else []⟩

/-- Standard input is read byte by byte, standard output flushed after every
    byte. -/
def devices (stdin : Array UInt8) : Devices := ⟨Source.ofStream stdin, .stream true⟩

/-- The report of a session whose source setting has no value. -/
def sourceless (verbose : Bool) : Report := report verbose (.crash .noSource) #[] "" []

/-- The report of a session whose source cannot be read, with the reason in
    words. -/
def unavailable (verbose : Bool) (path reason : String) : Report :=
  report verbose (.exit 1) #[] (sourceError (unavailableMessage path reason)) []

/-- The report of a session whose source cannot be loaded. -/
def unloaded (verbose : Bool) : LoadError → Report
  | .nulInPath => report verbose (.crash .nulInPath) #[] "" []
  | .unavailable path obstacle => unavailable verbose path obstacle.reason

/-- A run about to begin. -/
structure Start where
  /-- What is run. -/
  program : Program
  /-- The machine that runs it. -/
  machine : Machine
  /-- The log up to here. -/
  log : List Entry
deriving DecidableEq, Repr

/-- Set up the machine for a parsed source, or end the session. -/
def startProgram (verbose : Bool) (log : List Entry) (p : Program) (tapeLen : Option Int) :
    Except Report Start :=
  match tapeLen with
  | none => .error (report verbose (.crash .noTapeLen) #[] "" log)
  | some n =>
      match Machine.boot p n with
      | .error e => .error (report verbose (.crash (.setup e)) #[] "" log)
      | .ok m => .ok ⟨p, m, log ++ [runningEntry p m.tape.size]⟩

/-- Parse a loaded source and set up its machine, or end the session. -/
def start (s : CommandLine.Settings) (path text : String) : Except Report Start :=
  match Program.parse text with
  | .error e => .error (report s.verbose (.exit 1) #[] (parseError e) [])
  | .ok p => startProgram s.verbose [parsedEntry p text, loadedEntry path] p s.tapeLen

/-- The report of a run; `none` while it is still going on. -/
def conclude (verbose : Bool) (log : List Entry) : Progress → Option Report
  | .running _ => none
  | .halted m =>
      some (report verbose (.exit 0) m.traffic.accepted "" (log ++ [haltedEntry m.steps]))
  | .failed (.outOfBounds pointer tapeLen ip output) m =>
      some (report verbose (.exit 1) m.traffic.accepted
        (runtimeError (.outOfBounds pointer tapeLen ip output)) log)
  | .failed why m => some (report verbose (.crash (.engine why)) m.traffic.accepted "" log)

/-- Begin a run, if the session comes to one, and let it go for at most `fuel`
    steps. -/
def proceed (fuel : Nat) (verbose : Bool) (stdin : Array UInt8) :
    Except Report Start → Option Report
  | .error r => some r
  | .ok st => conclude verbose st.log (st.machine.runFor (devices stdin) st.program fuel)

/-- Load, parse and run. -/
def runSettings (fuel : Nat) (s : CommandLine.Settings) (d : Directory) (stdin : Array UInt8) :
    Option Report :=
  match s.source with
  | none => some (sourceless s.verbose)
  | some path =>
      match load d path with
      | .error e => some (unloaded s.verbose e)
      | .ok text => proceed fuel s.verbose stdin (start s path text)

/-- The report of a command line that runs nothing. -/
def stopped (stop : CommandLine.Stop) : Report :=
  ⟨.exit stop.exitCode, stop.stdout.toUTF8.data, stop.stderr, []⟩

/-- The report of a session, if its run ends within `fuel` steps. -/
def run (fuel : Nat) (argv : List String) (d : Directory) (stdin : Array UInt8) :
    Option Report :=
  match CommandLine.parseArgs argv with
  | .error stop => some (stopped stop)
  | .ok s => runSettings fuel s d stdin

end Session

end ByteTape
