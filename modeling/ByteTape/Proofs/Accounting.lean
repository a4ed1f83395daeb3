import ByteTape.Proofs.Polling

/-! # Accounts of a run

    A machine counts its steps, its record of traffic counts the polls and keeps
    the bytes and the exchanges, and the sink keeps what it was given.  Here all of
    them are compared with one journal of the run, which has an entry for each
    instruction that was completed.

    * `JournalEntry`, `Machine.journal` — the instruction and the byte in the current cell
      when it began;
    * `emissions`, `exchanges` — the bytes that the entries emit, and what they
      exchange with the devices, each exchange with the number of instructions
      completed before it;
    * `Machine.Accounts` — a machine has exchanged what a journal says, and what one
      more instruction says that was tried and not completed.

    What an instruction exchanges does not depend on whether it succeeds
    (`exec_exchanged`); what is counted and what is emitted does.  So a step adds
    one entry, or leaves it as the one that was tried (`Accounts.step`). -/

namespace ByteTape

/-- An instruction, and the byte in the current cell when it began. -/
structure JournalEntry where
  instr : Instr
  cell : UInt8
deriving DecidableEq, Repr

namespace JournalEntry

/-- Whether the instruction polls the source. -/
def isPoll : JournalEntry → Bool
  | ⟨.act .poll, _⟩ => true
  | _ => false

/-- The byte that the instruction emits. -/
def emission? : JournalEntry → Option UInt8
  | ⟨.act .emit, b⟩ => some b
  | _ => none

/-- What the instruction exchanges with the devices, after so many polls. -/
def exchange? (source : Source) (polled : Nat) : JournalEntry → Option Exchange
  | ⟨.act .poll, _⟩ => some (.polled (source polled))
  | ⟨.act .emit, b⟩ => some (.emitted b)
  | _ => none

/-- The instruction neither polls nor emits. -/
structure Quiet (e : JournalEntry) : Prop where
  isPoll : e.isPoll = false
  emission? : e.emission? = none
  exchange? : ∀ source polled, e.exchange? source polled = none

/-- Whether the instruction can fail where there is a current cell: a move, a poll,
    or an emission that somebody else takes. -/
def MayFail (sink : Sink) : JournalEntry → Prop
  | ⟨.act .right, _⟩ => True
  | ⟨.act .left, _⟩ => True
  | ⟨.act .poll, _⟩ => True
  | ⟨.act .emit, _⟩ => sink ≠ .collect
  | _ => False

end JournalEntry

/-- The number of polls. -/
def pollCount (es : List JournalEntry) : Nat := es.countP JournalEntry.isPoll

/-- The bytes emitted, in order. -/
def emissions (es : List JournalEntry) : List UInt8 := es.filterMap JournalEntry.emission?

/-- Every exchange with the devices, in order, and the number of instructions
    completed before it; `polled` and `done` count what came earlier. -/
def exchanges (source : Source) (polled done : Nat) : List JournalEntry → List (Exchange × Nat)
  | [] => []
  | e :: es =>
      ((e.exchange? source polled).map (·, done)).toList
        ++ exchanges source (polled + pollCount [e]) (done + 1) es

/-- The bytes of which a sink hears, when these are emitted. -/
def Sink.hears : Sink → List UInt8 → List UInt8
  | .collect, _ => []
  | .stream _, bytes => bytes
  | .consumer _, bytes => bytes

/-- An event as the exchange and the number of instructions completed before. -/
def Event.stamp (e : Event) : Exchange × Nat := (e.exchange, e.steps)

namespace Machine

/-- The entry of the instruction at the pointer. -/
def current? (p : Program) (m : Machine) : Option JournalEntry :=
  match p.get? m.ip, m.cell? with
  | some instr, some b => some ⟨instr, b⟩
  | _, _ => none

/-- The entries of the instructions completed in at most so many steps. -/
def journal (d : Devices) (p : Program) : Nat → Machine → List JournalEntry
  | 0, _ => []
  | fuel + 1, m =>
      match m.step d p with
      | .running next => (m.current? p).toList ++ journal d p fuel next
      | .halted _ => []
      | .failed _ _ => []

/-- The bytes emitted: those kept, or those the sink has taken. -/
def emitted (sink : Sink) (m : Machine) : Array UInt8 :=
  match sink with
  | .collect => m.output
  | .stream _ => m.traffic.accepted
  | .consumer _ => m.traffic.accepted

/-- The machine has completed the entries `es`, and has tried those of `tried`
    without completing them: what was exchanged accounts for both, what is counted
    and what was emitted for `es` alone. -/
structure Accounts (d : Devices) (es tried : List JournalEntry) (m : Machine) : Prop where
  steps : m.steps = es.length
  emitted : (m.emitted d.sink).toList = emissions es
  polls : m.traffic.polls = pollCount es + pollCount tried
  offered : m.traffic.offered.toList = d.sink.hears (emissions es ++ emissions tried)
  events : m.traffic.events.toList.map Event.stamp = exchanges d.source 0 0 (es ++ tried)

end Machine

/-! ## Entries one by one -/

@[simp] theorem pollCount_append (es fs : List JournalEntry) :
    pollCount (es ++ fs) = pollCount es + pollCount fs :=
  List.countP_append

@[simp] theorem emissions_append (es fs : List JournalEntry) :
    emissions (es ++ fs) = emissions es ++ emissions fs :=
  List.filterMap_append

/-- What a second part of a journal exchanges depends on the polls and the entries
    before it. -/
theorem exchanges_append (source : Source) (polled done : Nat) (es fs : List JournalEntry) :
    exchanges source polled done (es ++ fs)
      = exchanges source polled done es
        ++ exchanges source (polled + pollCount es) (done + es.length) fs := by
  induction es generalizing polled done with
  | nil => rfl
  | cons e es ih =>
      have hcount : pollCount (e :: es) = pollCount [e] + pollCount es := pollCount_append [e] es
      rw [List.cons_append, exchanges, exchanges, ih, List.append_assoc, hcount, Nat.add_assoc,
        Nat.add_assoc, List.length_cons, Nat.add_comm 1]

/-- Taking bytes in two parts is taking them in one. -/
theorem Sink.hears_append (sink : Sink) (bs cs : List UInt8) :
    sink.hears (bs ++ cs) = sink.hears bs ++ sink.hears cs := by
  cases sink with
  | collect => rfl
  | stream flush => rfl
  | consumer judge => rfl

namespace JournalEntry.Quiet

variable {e : JournalEntry}

/-- A quiet entry counts no poll. -/
theorem pollCount_eq (h : e.Quiet) : pollCount [e] = 0 := by
  simp [pollCount, h.isPoll]

/-- It emits nothing. -/
theorem emissions_eq (h : e.Quiet) : emissions [e] = [] := by
  simp [emissions, h.emission?]

/-- So it exchanges nothing. -/
theorem exchanges_eq (h : e.Quiet) (source : Source) (polled done : Nat) :
    exchanges source polled done [e] = [] := by
  simp [exchanges, h.exchange?]

end JournalEntry.Quiet

/-! ## What one instruction exchanges -/

namespace Machine

/-- What has passed between the two machines is what the entry exchanges. -/
structure Exchanged (d : Devices) (e : JournalEntry) (m next : Machine) : Prop where
  steps : next.steps = m.steps
  polls : next.traffic.polls = m.traffic.polls + pollCount [e]
  offered : next.traffic.offered.toList
    = m.traffic.offered.toList ++ d.sink.hears (emissions [e])
  events : next.traffic.events.toList.map Event.stamp
    = m.traffic.events.toList.map Event.stamp ++ exchanges d.source m.traffic.polls m.steps [e]

/-- An attempt at the instruction of the entry: it exchanges the same either way,
    but only a success emits, and a failure leaves the machine where it stood. -/
def Tries (d : Devices) (e : JournalEntry) (m : Machine) : Attempt → Prop
  | .done next => Exchanged d e m next ∧
      (next.emitted d.sink).toList = (m.emitted d.sink).toList ++ emissions [e]
  | .failed _ next => Exchanged d e m next ∧ next.emitted d.sink = m.emitted d.sink ∧
      next.ip = m.ip ∧ next.cell? = m.cell? ∧ e.MayFail d.sink

/-- The two machines differ in cells and pointers only. -/
structure SameBooks (m next : Machine) : Prop where
  steps : next.steps = m.steps
  output : next.output = m.output
  traffic : next.traffic = m.traffic

variable {d : Devices} {m next : Machine} {b : UInt8} {e : JournalEntry}

/-- Machines with the same books have emitted the same. -/
theorem SameBooks.emitted_eq (h : SameBooks m next) (sink : Sink) :
    next.emitted sink = m.emitted sink := by
  cases sink with
  | collect => exact h.output
  | stream flush => exact congrArg Traffic.accepted h.traffic
  | consumer judge => exact congrArg Traffic.accepted h.traffic

/-- A quiet entry may be written where the books have not changed. -/
theorem SameBooks.exchanged (h : SameBooks m next) (he : e.Quiet) : Exchanged d e m next := by
  have hhears : d.sink.hears [] = [] := by cases d.sink <;> rfl
  refine ⟨h.steps, ?_, ?_, ?_⟩
  · rw [h.traffic, he.pollCount_eq]
    rfl
  · rw [h.traffic, he.emissions_eq, hhears, List.append_nil]
  · rw [h.traffic, he.exchanges_eq, List.append_nil]

/-- An operation that leaves the books alone is a quiet try. -/
theorem SameBooks.tries_done (h : SameBooks m next) (he : e.Quiet) : m.Tries d e (.done next) := by
  refine ⟨h.exchanged he, ?_⟩
  rw [h.emitted_eq, he.emissions_eq, List.append_nil]

theorem index?_of_cell? (h : m.cell? = some b) : ∃ k, m.tape.index? m.dp = some k := by
  rw [cell?, Tape.get?] at h
  cases hk : m.tape.index? m.dp with
  | none => rw [hk] at h; cases h
  | some k => exact ⟨k, rfl⟩

/-- Adding is a quiet try. -/
theorem tries_add (hb : m.cell? = some b) (n : Int) (he : e.Quiet) : m.Tries d e (m.add n) := by
  obtain ⟨k, hk⟩ := index?_of_cell? hb
  rw [add, hk]
  exact SameBooks.tries_done ⟨rfl, rfl, rfl⟩ he

/-- So is a move, which may fail. -/
theorem tries_move (n : Int) (he : e.Quiet) (hfail : e.MayFail d.sink) :
    m.Tries d e (m.move n) := by
  rw [move]
  by_cases h : 0 ≤ m.dp + n ∧ m.dp + n < m.tape.size
  · rw [if_pos h]
    exact SameBooks.tries_done ⟨rfl, rfl, rfl⟩ he
  · rw [if_neg h]
    exact ⟨SameBooks.exchanged ⟨rfl, rfl, rfl⟩ he, rfl, rfl, rfl, hfail⟩

/-- So is a test with its jump. -/
theorem tries_jumpIf (hb : m.cell? = some b) (test : UInt8 → Bool) (target : Int) (he : e.Quiet) :
    m.Tries d e (m.jumpIf test target) := by
  rw [jumpIf, hb]
  dsimp only
  cases test b with
  | true => exact SameBooks.tries_done ⟨rfl, rfl, rfl⟩ he
  | false => exact SameBooks.tries_done ⟨rfl, rfl, rfl⟩ he

/-- The sink hears of the byte whether or not it takes it. -/
theorem tries_emit (hb : m.cell? = some b) : m.Tries d ⟨.act .emit, b⟩ (m.emit d.sink) := by
  obtain ⟨source, sink⟩ := d
  have hpush : ∀ bytes : Array UInt8, (bytes.push b).toList = bytes.toList ++ [b] :=
    fun bytes => Array.toList_push
  have hevent : (m.traffic.events.push (m.event (.emitted b))).toList.map Event.stamp
      = m.traffic.events.toList.map Event.stamp ++ [(.emitted b, m.steps)] := by
    rw [Array.toList_push, List.map_append]
    rfl
  rw [emit, hb]
  cases sink with
  | collect => exact ⟨⟨rfl, rfl, (List.append_nil _).symm, hevent⟩, hpush _⟩
  | stream flush => exact ⟨⟨rfl, rfl, hpush _, hevent⟩, hpush _⟩
  | consumer judge =>
      dsimp only
      cases judge m.traffic.offered b with
      | accepted => exact ⟨⟨rfl, rfl, hpush _, hevent⟩, hpush _⟩
      | refused why =>
          refine ⟨⟨rfl, rfl, hpush _, hevent⟩, rfl, rfl, rfl, ?_⟩
          intro h
          cases h

/-- The source was asked whatever comes of its reply. -/
theorem exchanged_heard {next : Machine} (h : SameBooks (m.heard (d.source m.traffic.polls)) next) :
    Exchanged d ⟨.act .poll, b⟩ m next := by
  have hhears : d.sink.hears [] = [] := by cases d.sink <;> rfl
  refine ⟨h.steps, ?_, ?_, ?_⟩
  · rw [h.traffic]
    rfl
  · rw [h.traffic]
    show m.traffic.offered.toList = m.traffic.offered.toList ++ d.sink.hears []
    rw [hhears, List.append_nil]
  · rw [h.traffic, heard, Array.toList_push, List.map_append]
    rfl

/-- A reply that is heard emits nothing. -/
theorem emitted_heard (m : Machine) (reply : Reply) (sink : Sink) :
    (m.heard reply).emitted sink = m.emitted sink := by
  cases sink <;> rfl

/-- A poll is one poll in the journal, and its reply the one exchange. -/
theorem tries_poll (hb : m.cell? = some b) : m.Tries d ⟨.act .poll, b⟩ (m.poll d.source) := by
  have hdone : ∀ {next}, SameBooks (m.heard (d.source m.traffic.polls)) next →
      m.Tries d ⟨.act .poll, b⟩ (.done next) := by
    intro next h
    refine ⟨exchanged_heard h, ?_⟩
    rw [h.emitted_eq, emitted_heard]
    exact (List.append_nil _).symm
  rw [poll]
  cases hr : d.source m.traffic.polls with
  | nothing =>
      rw [hr] at hdone
      exact hdone ⟨rfl, rfl, rfl⟩
  | failure why =>
      refine ⟨exchanged_heard ?_, emitted_heard m _ _, rfl, rfl, trivial⟩
      rw [hr]
      exact ⟨rfl, rfl, rfl⟩
  | value n =>
      obtain ⟨k, hk⟩ := index?_of_cell? hb
      have hindex : (m.heard (.value n)).tape.index? (m.heard (.value n)).dp = some k := hk
      rw [hr] at hdone
      dsimp only
      rw [hindex]
      exact hdone ⟨rfl, rfl, rfl⟩

/-- **Every instruction exchanges what its entry says.** -/
theorem tries_exec (hb : m.cell? = some b) (d : Devices) (instr : Instr) :
    m.Tries d ⟨instr, b⟩ (m.exec d instr) := by
  cases instr with
  | jumpIfZero target => exact tries_jumpIf hb _ target ⟨rfl, rfl, fun _ _ => rfl⟩
  | jumpIfNonzero target => exact tries_jumpIf hb _ target ⟨rfl, rfl, fun _ _ => rfl⟩
  | act a =>
      cases a with
      | inc => exact tries_add hb 1 ⟨rfl, rfl, fun _ _ => rfl⟩
      | dec => exact tries_add hb (-1) ⟨rfl, rfl, fun _ _ => rfl⟩
      | right => exact tries_move 1 ⟨rfl, rfl, fun _ _ => rfl⟩ trivial
      | left => exact tries_move (-1) ⟨rfl, rfl, fun _ _ => rfl⟩ trivial
      | emit => exact tries_emit hb
      | poll => exact tries_poll hb

/-! ## Steps and runs -/

variable {p : Program} {es : List JournalEntry}

/-- One more entry has been exchanged, and possibly completed as well. -/
theorem Accounts.exchanged (h : m.Accounts d es []) (hx : Exchanged d e m next) :
    next.traffic.polls = pollCount es + pollCount [e] ∧
    next.traffic.offered.toList = d.sink.hears (emissions es ++ emissions [e]) ∧
    next.traffic.events.toList.map Event.stamp = exchanges d.source 0 0 (es ++ [e]) := by
  have hpolls : m.traffic.polls = pollCount es := h.polls
  have hoffered : m.traffic.offered.toList = d.sink.hears (emissions es) := by
    rw [h.offered, show emissions [] = [] from rfl, List.append_nil]
  have hevents := h.events
  rw [List.append_nil] at hevents
  refine ⟨?_, ?_, ?_⟩
  · rw [hx.polls, hpolls]
  · rw [hx.offered, hoffered, Sink.hears_append]
  · rw [hx.events, hevents, hpolls, h.steps, exchanges_append, Nat.zero_add, Nat.zero_add]

/-- A machine that has not halted stands at an entry. -/
theorem Safe.exists_entry {n : Nat} (h : m.Safe p n) (hlt : m.ip < p.size) :
    ∃ e : JournalEntry, m.current? p = some e ∧ p.get? m.ip = some e.instr ∧
      m.cell? = some e.cell := by
  obtain ⟨s, i, hs, -, -⟩ := h.exists_stands
  have hi : m.ip.toNat < p.code.size := by
    have h0 := h.ip.1
    rw [Program.size] at hlt
    omega
  have hget : p.get? m.ip = some p.code[m.ip.toNat] := by
    rw [p.get?_of_nonneg h.ip.1 hlt]
    exact Array.getElem?_eq_getElem hi
  refine ⟨⟨p.code[m.ip.toNat], s.cell⟩, ?_, hget, hs.holds.cell?⟩
  rw [current?, hget, hs.holds.cell?]

/-- **A step adds one entry to the accounts**, or leaves it as the one tried. -/
theorem Accounts.step {n : Nat} (hsafe : m.Safe p n) (h : m.Accounts d es []) :
    match m.step d p with
    | .running next => ∃ e, m.current? p = some e ∧ next.Accounts d (es ++ [e]) []
    | .halted next => next = m
    | .failed _ next => ∃ e, next.current? p = some e ∧ e.MayFail d.sink ∧
        next.Accounts d es [e] := by
  rw [Machine.step]
  by_cases hend : (p.size : Int) ≤ m.ip
  · rw [if_pos hend]
  rw [if_neg hend]
  obtain ⟨e, he, hget, hcell⟩ := hsafe.exists_entry (by omega)
  have htries := tries_exec hcell d e.instr
  rw [hget]
  dsimp only
  cases hx : m.exec d e.instr with
  | done next =>
      -- the instruction is done, and its entry joins the others
      rw [hx] at htries
      obtain ⟨hexch, hemitted⟩ := htries
      obtain ⟨hpolls, hoffered, hevents⟩ := h.exchanged hexch
      refine ⟨e, he, ?_, ?_, ?_, ?_, ?_⟩
      · show next.steps + 1 = _
        rw [hexch.steps, h.steps, List.length_append]
        rfl
      · rw [emissions_append, ← h.emitted]
        exact hemitted
      · rw [pollCount_append]
        exact hpolls
      · rw [emissions_append, show emissions [] = [] from rfl, List.append_nil]
        exact hoffered
      · rw [List.append_nil]
        exact hevents
  | failed why next =>
      -- what it has exchanged stays behind as an open entry
      rw [hx] at htries
      obtain ⟨hexch, hemitted, hip, hsame, hfail⟩ := htries
      obtain ⟨hpolls, hoffered, hevents⟩ := h.exchanged hexch
      refine ⟨e, ?_, hfail, ?_, ?_, hpolls, hoffered, hevents⟩
      · rw [current?, hip, hsame]
        exact he
      · rw [hexch.steps, h.steps]
      · rw [hemitted, h.emitted]

end Machine

/-- A run that has completed the entries `es`; if it has failed, it has also tried
    the entry at which it stands. -/
def Progress.Accounts (d : Devices) (p : Program) (es : List JournalEntry) : Progress → Prop
  | .running m => m.Accounts d es []
  | .halted m => m.Accounts d es []
  | .failed _ m => ∃ e, m.current? p = some e ∧ e.MayFail d.sink ∧ m.Accounts d es [e]

/-- **A run keeps the accounts of its journal.** -/
theorem Machine.Accounts.runFor {d : Devices} {p : Program} {n : Nat} (hp : p.Closed) (k : Nat)
    {m : Machine} {es : List JournalEntry} (hsafe : m.Safe p n) (h : m.Accounts d es []) :
    (m.runFor d p k).Accounts d p (es ++ m.journal d p k) := by
  -- a machine that runs on has no open entry, so the next step may add its own
  induction k generalizing m es with
  | zero =>
      rw [journal, List.append_nil]
      exact h
  | succ k ih =>
      have hstep := h.step hsafe
      have hnext := hsafe.step hp (d := d)
      rw [runFor_succ, journal]
      cases hs : m.step d p with
      | running next =>
          rw [hs] at hstep hnext
          obtain ⟨e, he, hacc⟩ := hstep
          have hrun := ih hnext hacc
          rw [List.append_assoc] at hrun
          dsimp only
          rw [he]
          exact hrun
      | halted next =>
          rw [hs] at hstep
          obtain rfl := hstep
          dsimp only
          rw [List.append_nil]
          exact h
      | failed why next =>
          rw [hs] at hstep
          dsimp only
          rw [List.append_nil]
          exact hstep

/-- **The accounts of a run agree with its journal.**  After any number of steps of
    a machine set up for a program: the steps counted are the entries of the
    journal; the source was polled once for each poll in it; the bytes emitted, kept
    or taken by the sink, are the cells at its emissions, in order; the sink heard of
    these bytes and no others; and all exchanges were made in the order of the
    journal, each at its own entry.  If the run has failed, the instruction at which
    it stands is a move, a poll or an emission to a sink.  It is not counted and has
    emitted nothing; but a poll has asked once more, and of an emission the sink has
    heard once more. -/
theorem run_accounts (d : Devices) {p : Program} {n : Int} {m : Machine}
    (hboot : Machine.boot p n = .ok m) (k : Nat) :
    (m.runFor d p k).Accounts d p (m.journal d p k) := by
  obtain ⟨hp, hn, -, rfl⟩ := Machine.boot_eq_ok_iff.mp hboot
  have hfresh : (Machine.fresh n.toNat).Accounts d [] [] := by
    refine ⟨rfl, ?_, rfl, ?_, rfl⟩
    · cases d.sink <;> rfl
    · cases d.sink <;> rfl
  exact hfresh.runFor hp k (Machine.safe_fresh p (by omega))

/-- A poll is answered, the sink takes one byte and refuses the next: two steps are
    counted, and the sink has heard of a byte that was not emitted. -/
theorem run_accounts_refused :
    ∃ p m left, Program.parse ",..+" = .ok p ∧ Machine.boot p 1 = .ok m ∧
      m.runFor ⟨Source.ofBytes #[7], .limited 1 "full"⟩ p 4 = .failed (.sink "full") left ∧
      m.journal ⟨Source.ofBytes #[7], .limited 1 "full"⟩ p 4
        = [⟨.act .poll, 0⟩, ⟨.act .emit, 7⟩] ∧
      left.steps = 2 ∧ left.traffic.polls = 1 ∧ left.traffic.accepted.toList = [7] ∧
      left.traffic.offered.toList = [7, 7] ∧
      left.traffic.events.toList.map Event.stamp
        = [(.polled (.value 7), 0), (.emitted 7, 1), (.emitted 7, 2)] := by
  have hboot : Machine.boot ⟨#[.act .poll, .act .emit, .act .emit, .act .inc]⟩ 1
      = .ok (Machine.fresh 1) := by decide
  have hacc := run_accounts ⟨Source.ofBytes #[7], .limited 1 "full"⟩ hboot 4
  have hjournal : (Machine.fresh 1).journal ⟨Source.ofBytes #[7], .limited 1 "full"⟩
      ⟨#[.act .poll, .act .emit, .act .emit, .act .inc]⟩ 4
      = [⟨.act .poll, 0⟩, ⟨.act .emit, 7⟩] := by decide +kernel
  obtain ⟨left, hleft, hentry⟩ : ∃ left, (Machine.fresh 1).runFor
      ⟨Source.ofBytes #[7], .limited 1 "full"⟩
      ⟨#[.act .poll, .act .emit, .act .emit, .act .inc]⟩ 4 = .failed (.sink "full") left ∧
      left.current? ⟨#[.act .poll, .act .emit, .act .emit, .act .inc]⟩
        = some ⟨.act .emit, 7⟩ := ⟨_, rfl, by decide +kernel⟩
  rw [hleft, hjournal] at hacc
  obtain ⟨e, he, -, hacc⟩ := hacc
  obtain rfl := Option.some.inj (hentry.symm.trans he)
  exact ⟨_, _, left, rfl, hboot, hleft, hjournal, hacc.steps, hacc.polls, hacc.emitted,
    hacc.offered, hacc.events⟩

end ByteTape
