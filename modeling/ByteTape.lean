import ByteTape.Symbol
import ByteTape.Position
import ByteTape.Program
import ByteTape.Program.Linking
import ByteTape.Tape
import ByteTape.Device
import ByteTape.Machine
import ByteTape.Machine.Operation
import ByteTape.Machine.Run
import ByteTape.Snapshot
import ByteTape.Text.Utf8
import ByteTape.Text.Newline
import ByteTape.Text.Ranges
import ByteTape.Text.Blank
import ByteTape.Text.Digit
import ByteTape.Text.Printable
import ByteTape.Text.Quoted
import ByteTape.Text.Numeral
import ByteTape.Path
import ByteTape.Directory
import ByteTape.CommandLine.Argument
import ByteTape.CommandLine.Usage
import ByteTape.CommandLine.Settings
import ByteTape.Session
import ByteTape.Main
import ByteTape.Proofs.Block
import ByteTape.Proofs.Passes
import ByteTape.Proofs.Acceptance
import ByteTape.Proofs.Nesting
import ByteTape.Proofs.Run
import ByteTape.Proofs.Store
import ByteTape.Proofs.Walk
import ByteTape.Proofs.Safety
import ByteTape.Proofs.Structured
import ByteTape.Proofs.Loading
import ByteTape.Proofs.Composition
import ByteTape.Proofs.RoundTrip
import ByteTape.Proofs.Completion
import ByteTape.Proofs.Lockstep
import ByteTape.Proofs.LongerTape
import ByteTape.Proofs.Resumption
import ByteTape.Proofs.Delivery
import ByteTape.Proofs.Polling
import ByteTape.Proofs.InputForms
import ByteTape.Proofs.Accounting
import ByteTape.Proofs.LoopExit
import ByteTape.Proofs.StraightLine
import ByteTape.Proofs.CountedLoop
import ByteTape.Proofs.Insertion
import ByteTape.Proofs.CommentLoop
import ByteTape.Proofs.Settings
import ByteTape.Proofs.Session
import ByteTape.Proofs.Atomicity
import ByteTape.Proofs.Frame
import ByteTape.Proofs.TapeEnd
import ByteTape.Proofs.FullSink
import ByteTape.Proofs.Displacement
import ByteTape.Proofs.Replay
import ByteTape.Proofs.Aliasing
import ByteTape.Proofs.Encoding
import ByteTape.Proofs.Options
import ByteTape.Proofs.NormalPath
