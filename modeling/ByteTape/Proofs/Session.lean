import ByteTape.Session
import ByteTape.Proofs.Delivery
import ByteTape.Proofs.InputForms
import ByteTape.Proofs.Settings

/-! # What sessions come to

    A session loads, parses and runs, and each of these may end it.  What it
    writes is what the parts say when they are called one by one, on the bytes of
    standard input, with the emitted bytes kept.

    * `Session.Reports` — what a session reports of a run that keeps its bytes;
    * `Crash.Arises` — what goes wrong for accepted settings without being
      reported as an error;
    * `Session.Course` — the ways of a session: a crash, a source that cannot be
      loaded or parsed, or a run that is reported;
    * `Session.course` — each session of an accepted command line goes one of
      these ways.

    The machine of a session writes its bytes to a stream, so `runFor_devices`
    rests on the comparison with a machine that keeps them; that a run ends in no
    other way than `Reports` says rests on the safety of runs, whose tape length
    the command line has looked at. -/

namespace ByteTape

/-! ## Loading -/

theorem load_of_nul {d : Directory} {path : String} (h : Char.ofNat 0 ∈ path.toList) :
    load d path = .error .nulInPath := by
  rw [load, if_pos (by simpa using h)]

theorem exists_obstacle_of_load {d : Directory} {path : String} {e : LoadError}
    (hnul : ¬ Char.ofNat 0 ∈ path.toList) (h : load d path = .error e) :
    ∃ obstacle, e = .unavailable path obstacle := by
  rw [load, if_neg (by simpa using hnul)] at h
  split at h
  · cases h
  · cases h
    exact ⟨_, rfl⟩

/-- What goes wrong for accepted settings without being reported as an error. -/
inductive Crash.Arises (s : CommandLine.Settings) (d : Directory) : Crash → Prop where
  | noSource (h : s.source = none) : Arises s d .noSource
  | nulInPath {path : String} (h : s.source = some path) (hnul : Char.ofNat 0 ∈ path.toList) :
      Arises s d .nulInPath
  | noTapeLen {path text : String} {p : Program} (h : s.source = some path)
      (hload : load d path = .ok text) (hparse : Program.parse text = .ok p)
      (htape : s.tapeLen = none) : Arises s d .noTapeLen
  | tapeTooLong {path text : String} {p : Program} {n : Int} (h : s.source = some path)
      (hload : load d path = .ok text) (hparse : Program.parse text = .ok p)
      (htape : s.tapeLen = some n) (hn : wordBound ≤ n) : Arises s d (.setup .tapeTooLong)

namespace Crash.Arises

variable {s : CommandLine.Settings} {d : Directory} {why why' : Crash}

/-- At most one thing goes wrong: each stands in the way of the next. -/
theorem unique (h : Arises s d why) (h' : Arises s d why') : why = why' := by
  cases h with
  | noSource hsource => cases h' <;> grind
  | nulInPath hsource hnul =>
      -- such a source does not load
      cases h' <;> grind [load_of_nul]
  | noTapeLen hsource hload hparse htape => cases h' <;> grind [load_of_nul]
  | tapeTooLong hsource hload hparse htape hn => cases h' <;> grind [load_of_nul]

/-- What goes wrong after the path was looked at goes wrong with a program in
    hand. -/
theorem exists_parsed {path : String} (h : Arises s d why) (hsource : s.source = some path)
    (hpath : load d path ≠ .error .nulInPath) :
    ∃ text p, load d path = .ok text ∧ Program.parse text = .ok p := by
  cases h with
  | noSource h => exact nomatch h.symm.trans hsource
  | nulInPath h hnul =>
      cases h.symm.trans hsource
      exact absurd (load_of_nul hnul) hpath
  | noTapeLen h hload hparse _ =>
      cases h.symm.trans hsource
      exact ⟨_, _, hload, hparse⟩
  | tapeTooLong h hload hparse _ _ =>
      cases h.symm.trans hsource
      exact ⟨_, _, hload, hparse⟩

/-- Nothing goes wrong for a source and a tape length that are in order. -/
theorem not_of_settings {path : String} {n : Int} (hsource : s.source = some path)
    (hnul : ¬ Char.ofNat 0 ∈ path.toList) (htape : s.tapeLen = some n) (hn : n < wordBound) :
    ¬ Arises s d why := by
  intro h
  cases h with
  | noSource h => exact nomatch h.symm.trans hsource
  | nulInPath h hnul' =>
      cases h.symm.trans hsource
      exact hnul hnul'
  | noTapeLen _ _ _ h => exact nomatch h.symm.trans htape
  | tapeTooLong _ _ _ h hlong =>
      cases h.symm.trans htape
      omega

end Crash.Arises

namespace Session

/-! ## Runs -/

/-- The devices of a run on the same input that keeps its bytes. -/
def keeping (stdin : Array UInt8) : Devices := ⟨Source.ofBytes stdin, .collect⟩

theorem runFor_devices (stdin : Array UInt8) (p : Program) (n k : Nat) :
    (Machine.fresh n).runFor (devices stdin) p k
      = ((Machine.fresh n).runFor (keeping stdin) p k).handOver (.stream true) := by
  have hrun := Machine.runFor_handOver (Sink.willing_stream true) (Source.ofBytes stdin) p
    (Machine.fresh n) k
  rw [Machine.handOver_fresh] at hrun
  rw [devices, Source.ofStream_eq_ofBytes]
  exact hrun

/-- What a session reports of a run that keeps its bytes. -/
inductive Reports (verbose : Bool) : Progress → Option Report → Prop where
  | running (m : Machine) : Reports verbose (.running m) none
  | halted (m : Machine) (log : List Entry) :
      Reports verbose (.halted m) (some (report verbose (.exit 0) m.output "" log))
  | outOfBounds (pointer : Int) (tapeLen : Nat) (ip : Int) (m : Machine) (log : List Entry) :
      Reports verbose (.failed (.outOfBounds pointer tapeLen ip m.output) m)
        (some (report verbose (.exit 1) m.output
          (runtimeError (.outOfBounds pointer tapeLen ip m.output)) log))

/-- The report without a log, for each way a run may have gone. -/
theorem Reports.quiet {r : Progress} {o : Option Report} (h : Reports false r o) :
    (∀ m, r = .running m → o = none) ∧
    (∀ m, r = .halted m → o = some ⟨.exit 0, m.snapshot.output, "", []⟩) ∧
    ∀ why m, r = .failed why m → ∃ pointer tapeLen ip output,
      why = .outOfBounds pointer tapeLen ip output ∧
      o = some ⟨.exit 1, output, "runtime error: " ++ why.message ++ "\n", []⟩ := by
  refine ⟨?_, ?_, ?_⟩
  · rintro m rfl
    cases h with
    | running => rfl
  · rintro m rfl
    cases h with
    | halted _ log => rfl
  · rintro why m rfl
    cases h with
    | outOfBounds pointer tapeLen ip _ log => exact ⟨pointer, tapeLen, ip, m.output, rfl, rfl⟩

/-- Input bytes never fail and kept bytes are never refused, so a run that fails
    has left the tape. -/
theorem exists_outOfBounds_of_failed {stdin : Array UInt8} {p : Program} {n k : Nat} {why : Fault}
    {m : Machine} (hp : p.Closed) (hn : 0 < n)
    (h : (Machine.fresh n).runFor (keeping stdin) p k = .failed why m) :
    ∃ pointer ip, why = .outOfBounds pointer n ip m.output := by
  have hexp := (Machine.safe_fresh p hn).expected_of_failed hp h
  cases hexp with
  | @outOfBounds pointer ip output _ =>
      obtain ⟨-, -, rfl⟩ := Machine.eq_of_runFor_outOfBounds h
      exact ⟨pointer, ip, rfl⟩
  | @source polls why hfail =>
      rw [keeping] at hfail
      dsimp only [Source.ofBytes] at hfail
      split at hfail <;> cases hfail
  | sink hd _ => exact nomatch hd

theorem reports_conclude {p : Program} {n : Nat} (hp : p.Closed) (hn : 0 < n) (verbose : Bool)
    (log : List Entry) (stdin : Array UInt8) (fuel : Nat) :
    Reports verbose ((Machine.fresh n).runFor (keeping stdin) p fuel)
      (conclude verbose log ((Machine.fresh n).runFor (devices stdin) p fuel)) := by
  rw [runFor_devices]
  cases hr : (Machine.fresh n).runFor (keeping stdin) p fuel with
  | running m => exact .running m
  | halted m => exact .halted m _
  | failed why m =>
      -- the text of the fault does not show the bytes kept, so it is the same
      obtain ⟨pointer, ip, rfl⟩ := exists_outOfBounds_of_failed hp hn hr
      exact .outOfBounds pointer n ip m log

/-! ## Sessions -/

/-- The ways of a session with the given settings. -/
inductive Course (fuel : Nat) (s : CommandLine.Settings) (d : Directory) (stdin : Array UInt8) :
    Option Report → Prop where
  | crashed {why : Crash} (h : why.Arises s d) (log : List Entry) :
      Course fuel s d stdin (some (report s.verbose (.crash why) #[] "" log))
  | unavailable {path : String} {obstacle : Obstacle} (hsource : s.source = some path)
      (hload : load d path = .error (.unavailable path obstacle)) :
      Course fuel s d stdin (some (report s.verbose (.exit 1) #[]
        (sourceError (LoadError.unavailable path obstacle).message) []))
  | unbalanced {path text : String} {e : Unbalanced} (hsource : s.source = some path)
      (hload : load d path = .ok text) (hparse : Program.parse text = .error e) :
      Course fuel s d stdin (some (report s.verbose (.exit 1) #[] (parseError e) []))
  | ran {path text : String} {p : Program} {n : Int} {r : Option Report}
      (hsource : s.source = some path) (hload : load d path = .ok text)
      (hparse : Program.parse text = .ok p) (htape : s.tapeLen = some n)
      (hboot : Machine.boot p n = .ok (Machine.fresh n.toNat))
      (h : Reports s.verbose ((Machine.fresh n.toNat).runFor (keeping stdin) p fuel) r) :
      Course fuel s d stdin r

/-- From a parsed source on, only the tape can be missing or too long. -/
theorem course_startProgram {s : CommandLine.Settings} {d : Directory} {path text : String}
    {p : Program} (hsource : s.source = some path) (hload : load d path = .ok text)
    (hparse : Program.parse text = .ok p) (hlen : ∀ n, s.tapeLen = some n → 1 ≤ n) (fuel : Nat)
    (log : List Entry) (stdin : Array UInt8) :
    Course fuel s d stdin
      (proceed fuel s.verbose stdin (startProgram s.verbose log p s.tapeLen)) := by
  have hp := Program.closed_of_parse hparse
  cases htape : s.tapeLen with
  | none => exact .crashed (.noTapeLen hsource hload hparse htape) log
  | some n =>
      have hn := hlen n htape
      rw [startProgram]
      by_cases hlong : wordBound ≤ n
      · have hboot : Machine.boot p n = .error .tapeTooLong := by
          rw [Machine.boot, Program.firstBadJump?_eq_none_iff.mpr hp]
          show Machine.blank n = _
          rw [Machine.blank, if_neg (by omega), if_pos hlong]
        rw [hboot]
        exact .crashed (.tapeTooLong hsource hload hparse htape hlong) log
      · have hboot : Machine.boot p n = .ok (Machine.fresh n.toNat) :=
          Machine.boot_eq_ok_iff.mpr ⟨hp, hn, by omega, rfl⟩
        rw [hboot]
        exact .ran hsource hload hparse htape hboot
          (reports_conclude hp (by omega) s.verbose _ stdin fuel)

/-- **A session goes one of these ways,** if its command line is accepted. -/
theorem course {argv : List String} {s : CommandLine.Settings}
    (hargs : CommandLine.parseArgs argv = .ok s) (fuel : Nat) (d : Directory)
    (stdin : Array UInt8) : Course fuel s d stdin (run fuel argv d stdin) := by
  rw [run, hargs]
  dsimp only
  rw [runSettings]
  -- the decisions come in the order in which the session takes them
  cases hsource : s.source with
  | none => exact .crashed (.noSource hsource) []
  | some path =>
      dsimp only
      by_cases hnul : Char.ofNat 0 ∈ path.toList
      · rw [load_of_nul hnul]
        exact .crashed (.nulInPath hsource hnul) []
      cases hload : load d path with
      | error e =>
          obtain ⟨obstacle, rfl⟩ := exists_obstacle_of_load hnul hload
          exact .unavailable hsource hload
      | ok text =>
          dsimp only
          rw [start]
          cases hparse : Program.parse text with
          | error e => exact .unbalanced hsource hload hparse
          | ok p =>
              exact course_startProgram hsource hload hparse
                (fun n hn => CommandLine.one_le_tapeLen hargs hn) fuel _ stdin

/-- A session that has ended has exited or crashed, and crashed only if something
    went wrong. -/
theorem exits_or_crashes {argv : List String} {s : CommandLine.Settings}
    (hargs : CommandLine.parseArgs argv = .ok s) {d : Directory} {stdin : Array UInt8}
    {fuel : Nat} {r : Report} (hrun : run fuel argv d stdin = some r) :
    ((r.ending = .exit 0 ∨ r.ending = .exit 1) ∧ ∀ why, ¬ Crash.Arises s d why) ∨
    ∃ why, r.ending = .crash why ∧ Crash.Arises s d why := by
  have hcourse := course hargs fuel d stdin
  rw [hrun] at hcourse
  cases hcourse with
  | crashed h log => exact Or.inr ⟨_, rfl, h⟩
  | unavailable hsource hload =>
      refine Or.inl ⟨Or.inr rfl, ?_⟩
      -- a crash from here on needs a text that was loaded
      intro why h
      obtain ⟨_, _, hload', -⟩ := h.exists_parsed hsource (by rw [hload]; simp)
      exact nomatch hload.symm.trans hload'
  | unbalanced hsource hload hparse =>
      refine Or.inl ⟨Or.inr rfl, ?_⟩
      intro why h
      obtain ⟨_, _, hload', hparse'⟩ := h.exists_parsed hsource (by rw [hload]; simp)
      cases hload.symm.trans hload'
      exact nomatch hparse.symm.trans hparse'
  | @ran path text p n _ hsource hload hparse htape hboot h =>
      obtain ⟨-, -, hn, -⟩ := Machine.boot_eq_ok_iff.mp hboot
      have hnul : ¬ Char.ofNat 0 ∈ path.toList :=
        fun hnul => nomatch (load_of_nul hnul).symm.trans hload
      refine Or.inl ⟨?_, fun why => Crash.Arises.not_of_settings hsource hnul htape hn⟩
      generalize (Machine.fresh n.toNat).runFor (keeping stdin) p fuel = progress at h
      cases h with
      | halted m log => exact Or.inl rfl
      | outOfBounds pointer tapeLen ip m log => exact Or.inr rfl

end Session

/-- **A session does what its parts do.**  Let a command line be accepted without
    logging, with a path that can be one and a tape that can be had.  If the
    source cannot be loaded, or its text cannot be parsed, the session says so on
    standard error, writes nothing else and ends with status 1.  Otherwise it
    goes as far as the run of the program on the bytes of standard input, with no
    sink: while that run is going, so is the session; if it halts, the session
    writes its output and ends with status 0; if it fails, it has left the tape,
    and the session writes the output that the fault shows, says so on standard
    error and ends with status 1. -/
theorem session_matches_parts {argv : List String} {path : String} {n : Int}
    (hargs : CommandLine.parseArgs argv = .ok ⟨some path, some n, false⟩)
    (hnul : ¬ Char.ofNat 0 ∈ path.toList) (hn : n < wordBound) (d : Directory)
    (stdin : Array UInt8) (fuel : Nat) :
    (∀ e, load d path = .error e → ∃ obstacle, e = .unavailable path obstacle ∧
      Session.run fuel argv d stdin = some ⟨.exit 1, #[],
        "source error: " ++ ("Source unavailable: " ++ path ++ ": " ++ obstacle.reason) ++ "\n",
        []⟩) ∧
    (∀ text e, load d path = .ok text → Program.parse text = .error e →
      Session.run fuel argv d stdin = some ⟨.exit 1, #[],
        "parse error: " ++ ("Unbalanced brackets at instruction " ++ toString e.position) ++ "\n",
        []⟩) ∧
    ∀ text p, load d path = .ok text → Program.parse text = .ok p →
      ∃ r, execute fuel ⟨Source.ofBytes stdin, .collect⟩ p n = .ok r ∧
        (∀ m, r = .running m → Session.run fuel argv d stdin = none) ∧
        (∀ m, r = .halted m →
          Session.run fuel argv d stdin = some ⟨.exit 0, m.snapshot.output, "", []⟩) ∧
        ∀ why m, r = .failed why m → ∃ pointer tapeLen ip output,
          why = .outOfBounds pointer tapeLen ip output ∧
          Session.run fuel argv d stdin
            = some ⟨.exit 1, output, "runtime error: " ++ why.message ++ "\n", []⟩ := by
  have hcourse := Session.course hargs fuel d stdin
  generalize Session.run fuel argv d stdin = report at hcourse ⊢
  -- each course that a session can take settles one of the three cases
  cases hcourse with
  | crashed h log => exact absurd h (Crash.Arises.not_of_settings rfl hnul rfl hn)
  | @unavailable path' obstacle hsource hload =>
      cases hsource
      refine ⟨?_, ?_, ?_⟩
      · intro e he
        cases hload.symm.trans he
        exact ⟨obstacle, rfl, rfl⟩
      · intro text e ht
        exact nomatch hload.symm.trans ht
      · intro text p ht
        exact nomatch hload.symm.trans ht
  | @unbalanced path' text e hsource hload hparse =>
      cases hsource
      refine ⟨?_, ?_, ?_⟩
      · intro e' he
        exact nomatch hload.symm.trans he
      · intro text' e' ht he
        cases hload.symm.trans ht
        cases hparse.symm.trans he
        rfl
      · intro text' p ht hp
        cases hload.symm.trans ht
        exact nomatch hparse.symm.trans hp
  | @ran path' text p n' r hsource hload hparse htape hboot h =>
      cases hsource
      cases htape
      refine ⟨?_, ?_, ?_⟩
      · intro e he
        exact nomatch hload.symm.trans he
      · intro text' e ht he
        cases hload.symm.trans ht
        exact nomatch hparse.symm.trans he
      · intro text' p' ht hp
        cases hload.symm.trans ht
        cases hparse.symm.trans hp
        exact ⟨_, by rw [execute, hboot]; rfl, h.quiet⟩

/-- A byte is echoed and then the tape left: the session has written the byte, and
    names the place. -/
theorem session_matches_parts_off_tape :
    ∃ d, d = Directory.ofListing [] [("p.b", [0x2C, 0x2E, 0x3C])] ∧
      CommandLine.parseArgs ["--src=./p.b", "-a", "2"] = .ok ⟨some "p.b", some 2, false⟩ ∧
      load d "p.b" = .ok ",.<" ∧
      Session.run 3 ["--src=./p.b", "-a", "2"] d #[65] = some ⟨.exit 1, #[65],
        "runtime error: " ++ "Data pointer out of bounds: -1 not in [0, 2) at instruction 2" ++ "\n",
        []⟩ := by
  have hargs : CommandLine.parseArgs ["--src=./p.b", "-a", "2"]
      = .ok ⟨some "p.b", some 2, false⟩ := rfl
  have hload : load (Directory.ofListing [] [("p.b", [0x2C, 0x2E, 0x3C])]) "p.b" = .ok ",.<" := rfl
  have hexec : ∃ m, execute 3 ⟨Source.ofBytes #[65], .collect⟩
      ⟨#[.act .poll, .act .emit, .act .left]⟩ 2
      = .ok (.failed (.outOfBounds (-1) 2 2 #[65]) m) := ⟨_, rfl⟩
  obtain ⟨-, -, hrun⟩ := session_matches_parts hargs (by decide) (by decide)
    (Directory.ofListing [] [("p.b", [0x2C, 0x2E, 0x3C])]) #[65] 3
  obtain ⟨r, hr, -, -, hfails⟩ := hrun _ _ hload rfl
  obtain ⟨m, hm⟩ := hexec
  obtain ⟨_, _, _, _, hwhy, hreport⟩ := hfails _ m (Except.ok.inj (hr.symm.trans hm))
  cases hwhy
  have hmessage : (Fault.outOfBounds (-1) 2 2 #[65]).message
      = "Data pointer out of bounds: -1 not in [0, 2) at instruction 2" := by decide +kernel
  rw [hmessage] at hreport
  exact ⟨_, rfl, hargs, hload, hreport⟩

/-- **Which accepted command lines crash.**  A session whose command line is
    accepted ends with status 0 or 1, except in four cases: the source was given
    the bare `--`, its path holds the character NUL, or, once it is loaded and
    parsed, the tape length was given the bare `--` or is more than a tape can
    have.  In each of them it ends with the crash named for it. -/
theorem session_exits_unless_crashed {argv : List String} {s : CommandLine.Settings}
    (hargs : CommandLine.parseArgs argv = .ok s) (d : Directory) (stdin : Array UInt8)
    {fuel : Nat} {r : Report} (hrun : Session.run fuel argv d stdin = some r) :
    ((r.ending = .exit 0 ∨ r.ending = .exit 1) ↔ ∀ why, ¬ Crash.Arises s d why) ∧
    ∀ why, r.ending = .crash why ↔ Crash.Arises s d why := by
  rcases Session.exits_or_crashes hargs hrun with ⟨hexit, hnone⟩ | ⟨why, hcrash, harises⟩
  · refine ⟨⟨fun _ => hnone, fun _ => hexit⟩, ?_⟩
    intro why
    refine ⟨?_, fun h => absurd h (hnone why)⟩
    intro hcrash
    rcases hexit with h | h
    · exact nomatch h.symm.trans hcrash
    · exact nomatch h.symm.trans hcrash
  · refine ⟨⟨?_, fun h => absurd harises (h why)⟩, ?_⟩
    · rintro (h | h)
      · exact nomatch h.symm.trans hcrash
      · exact nomatch h.symm.trans hcrash
    · intro why'
      constructor
      · intro h
        cases hcrash.symm.trans h
        exact harises
      · intro h
        rw [hcrash, harises.unique h]

/-- A run that leaves its tape of one cell ends with status 1, and nothing else
    has gone wrong. -/
theorem session_exits_unless_crashed_one_cell :
    ∃ d s r, d = Directory.ofListing [] [("p.b", [0x3E])] ∧
      CommandLine.parseArgs ["-s", "p.b", "-a1"] = .ok s ∧
      Session.run 1 ["-s", "p.b", "-a1"] d #[] = some r ∧ r.ending = .exit 1 ∧
      ∀ why, ¬ Crash.Arises s d why := by
  have hargs : CommandLine.parseArgs ["-s", "p.b", "-a1"] = .ok ⟨some "p.b", some 1, false⟩ := rfl
  obtain ⟨r, hrun, hending⟩ : ∃ r, Session.run 1 ["-s", "p.b", "-a1"]
      (Directory.ofListing [] [("p.b", [0x3E])]) #[] = some r ∧ r.ending = .exit 1 := ⟨_, rfl, rfl⟩
  obtain ⟨hexits, -⟩ := session_exits_unless_crashed hargs _ _ hrun
  exact ⟨_, _, r, rfl, hargs, hrun, hending, hexits.mp (Or.inr hending)⟩

/-- One cell more than a tape can have: the command line is accepted, the source
    loads and parses, and the session crashes. -/
theorem accepted_tape_too_long :
    CommandLine.parseArgs ["-s", "p.b", "-a", "9223372036854775808"]
      = .ok ⟨some "p.b", some 9223372036854775808, false⟩ ∧
    ∃ r, Session.run 0 ["-s", "p.b", "-a", "9223372036854775808"]
        (Directory.ofListing [] [("p.b", [0x2B, 0x2E])]) #[] = some r ∧
      r.ending = .crash (.setup .tapeTooLong) ∧ ¬ (r.ending = .exit 0 ∨ r.ending = .exit 1) := by
  refine ⟨rfl, _, rfl, rfl, ?_⟩
  rintro (h | h)
  · exact nomatch h
  · exact nomatch h

end ByteTape
