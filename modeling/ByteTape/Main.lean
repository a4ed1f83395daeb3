import ByteTape.Session

/-! # The program

    The outermost layer: files, standard input and standard output.  A byte of
    input is read when the machine is about to ask for one, and a byte of
    output is written and flushed before the next step.  What a session comes
    to is decided by `Session.start` and `Session.conclude`; here their reports
    are written out, and the operating system is asked in place of a directory. -/

namespace ByteTape.Console

/-- The obstacle that an error number of the operating system stands for.  The
    number may come negated. -/
def obstacleOf? (code : UInt32) : Option Obstacle :=
  match (min code (0 - code)).toNat with
  | 2 => some .noSuchFile
  | 20 => some .notDirectory
  | 21 => some .isDirectory
  | 36 => some .nameTooLong
  | _ => none

/-- The words for an error number, or else those that came with it. -/
def reasonOfCode (code : UInt32) (details : String) : String :=
  match obstacleOf? code with
  | some obstacle => obstacle.reason
  | none => details

/-- The words for a failed file operation. -/
def reasonOf : IO.Error → String
  | .noFileOrDirectory _ code details => reasonOfCode code details
  | .invalidArgument _ code details => reasonOfCode code details
  | .inappropriateType _ code details => reasonOfCode code details
  | .permissionDenied _ code details => reasonOfCode code details
  | .resourceExhausted _ code details => reasonOfCode code details
  | .noSuchThing _ code details => reasonOfCode code details
  | .otherError code details => reasonOfCode code details
  | e => toString e

/-- Read one byte of input if the next instruction asks for it. -/
def nextReply (p : Program) (input : IO.FS.Stream) (m : Machine) : IO Reply := do
  if p.get? m.ip = some (.act .poll) then
    return Source.ofStream (← input.read 1).data 0
  else
    return .nothing

/-- Write lines of the log. -/
def note (log : List Entry) : IO Unit := do
  let stderr ← IO.getStderr
  log.forM fun e => stderr.putStrLn e.text

/-- Write out what a report holds, and end as it says.  A crash is shown by its
    text. -/
def finish (r : Report) : IO UInt32 := do
  note r.log
  (← IO.getStdout).write ⟨r.stdout⟩
  let stderr ← IO.getStderr
  stderr.putStr r.stderr
  match r.ending with
  | .exit code => return UInt32.ofNat code
  | .crash why =>
      stderr.putStrLn why.message
      return 1

/-- Run to the end.  What has passed between machine and devices is written
    out and forgotten after each step. -/
partial def drive (verbose : Bool) (p : Program) (input output : IO.FS.Stream) (m : Machine) :
    IO UInt32 := do
  let reply ← nextReply p input m
  let progress := m.step { Session.devices #[] with source := fun _ => reply } p
  match Session.conclude verbose [] progress with
  | some r => finish r
  | none =>
      let next := progress.machine
      if next.traffic.events.isEmpty then
        drive verbose p input output next
      else
        output.write ⟨next.traffic.accepted⟩
        output.flush
        drive verbose p input output { next with traffic := Traffic.empty }

/-- Load the source that the settings name and run it.  An argument of a process
    holds no NUL, so the path need not be searched for one. -/
def runSettings (s : CommandLine.Settings) : IO UInt32 := do
  match s.source with
  | none => finish (Session.sourceless s.verbose)
  | some path =>
      match ← (IO.FS.readBinFile path).toBaseIO with
      | .error e => finish (Session.unavailable s.verbose path (reasonOf e))
      | .ok content =>
          match Session.start s path (sourceText content.toList) with
          | .error r => finish r
          | .ok st =>
              if s.verbose then note st.log
              drive s.verbose st.program (← IO.getStdin) (← IO.getStdout) st.machine

end ByteTape.Console

/-- The program, called with its arguments. -/
def main (argv : List String) : IO UInt32 := do
  match ByteTape.CommandLine.parseArgs argv with
  | .error stop => ByteTape.Console.finish (ByteTape.Session.stopped stop)
  | .ok settings => ByteTape.Console.runSettings settings
