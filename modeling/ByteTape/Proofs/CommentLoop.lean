import ByteTape.Proofs.LoopExit
import ByteTape.Proofs.Accounting
import ByteTape.Proofs.RoundTrip
import ByteTape.Proofs.Insertion

/-! # Comment loops

    A loop that is only ever met with a zero in the current cell is passed over,
    whatever it holds: it may as well hold a comment.  At the start of a program, and
    right behind another loop, every loop is of this kind.

    * `CommentLoop` — the code of a text, and that of the text with a loop put in
      where the cell is zero;
    * `Machine.Records` — where a machine stands, and what it has polled and emitted;
    * `Machine.InStep`, `Machine.Waits` — the two machines at corresponding places,
      and one of them with the loop still before it.

    Places move and pairs stretch, but the instructions at corresponding places do
    the same, so the two runs go in step (`CommentLoop.step_inStep`).  Now and then one
    of them stands before the loop, and needs one step more than the other to pass it
    (`CommentLoop.step_waits`). -/

namespace ByteTape

/-! ## Faults that have moved -/

/-- The same fault of a machine in whose program `l` symbols were put in at `a`. -/
def Fault.moved (a l : Nat) : Fault → Fault
  | .outOfBounds pointer tapeLen ip output =>
      .outOfBounds pointer tapeLen (if ip < a then ip else ip + l) output
  | why => why

theorem Cause.fault_moved (why : Cause) (a l i : Nat) (s : Store) :
    why.fault (ByteTape.moved a l i) s = (why.fault i s).moved a l := by
  cases why with
  | source why => rfl
  | sink why => rfl
  | offTape pointer =>
      rw [fault, fault, Fault.moved]
      rcases Nat.lt_or_ge i a with hlt | hge
      · rw [moved_of_lt hlt, if_pos (Int.ofNat_lt.mpr hlt)]
      · rw [moved_of_le hge, if_neg (Int.not_lt.mpr (Int.ofNat_le.mpr hge))]
        rfl

/-! ## What a machine has exchanged -/

/-- What an action exchanges with the devices. -/
def Store.dealings (d : Devices) (a : Action) (s : Store) : List Exchange :=
  (JournalEntry.exchange? d.source s.polls ⟨.act a, s.cell⟩).toList

namespace Machine

/-- Everything exchanged with the devices, in order. -/
def dealings (m : Machine) : List Exchange := m.traffic.events.toList.map Event.exchange

/-- Two machines in the state of one store, that have polled and emitted the same, in
    the same order. -/
structure SameDealings (m m' : Machine) : Prop extends SameStore m m' where
  dealings : m'.dealings = m.dealings

/-- The machine is in the state of the store, at instruction `i`, and has exchanged
    `xs` with its devices. -/
structure Records (m : Machine) (s : Store) (i : Nat) (xs : List Exchange) : Prop where
  stands : ∃ k, m.Stands s i k
  dealings : m.dealings = xs

/-- The dealings grow by what the journal entry exchanges. -/
theorem Exchanged.dealings_eq {d : Devices} {e : JournalEntry} {m next : Machine}
    (h : Exchanged d e m next) :
    next.dealings = m.dealings ++ (e.exchange? d.source m.traffic.polls).toList := by
  have hfst := congrArg (List.map Prod.fst) h.events
  rw [List.map_append, List.map_map, List.map_map] at hfst
  refine hfst.trans (congrArg (m.dealings ++ ·) ?_)
  rw [exchanges, exchanges, List.append_nil]
  cases e.exchange? d.source m.traffic.polls <;> rfl

namespace Records

variable {p : Program} {m m' : Machine} {s : Store} {i : Nat} {xs : List Exchange}

theorem sameDealings {j : Nat} (h : m.Records s i xs) (h' : m'.Records s j xs) :
    m.SameDealings m' := by
  obtain ⟨⟨k, hs⟩, hd⟩ := h
  obtain ⟨⟨k', hs'⟩, hd'⟩ := h'
  exact ⟨hs.holds.sameStore hs'.holds, hd'.trans hd.symm⟩

/-- What one step adds to the dealings. -/
theorem dealings_step (h : m.Records s i xs) {instr : Instr} (hi : p.code[i]? = some instr)
    (d : Devices) :
    (m.step d p).machine.dealings
      = xs ++ (JournalEntry.exchange? d.source s.polls ⟨instr, s.cell⟩).toList := by
  obtain ⟨⟨k, hs⟩, rfl⟩ := h
  have htries := tries_exec hs.holds.cell? d instr
  rw [← hs.holds.polls]
  cases hx : m.exec d instr with
  | done next =>
      rw [hx] at htries
      rw [step_of_done hs.ip hi hx]
      exact htries.1.dealings_eq
  | failed why next =>
      rw [hx] at htries
      rw [step_of_failed hs.ip hi hx]
      exact htries.1.dealings_eq

theorem step_act (h : m.Records s i xs) {a : Action} (hi : p.code[i]? = some (.act a))
    (d : Devices) :
    match s.act d a with
    | .done s' => ∃ m', m.step d p = .running m' ∧ m'.Records s' (i + 1) (xs ++ s.dealings d a)
    | .failed why s' => ∃ m', m.step d p = .failed (why.fault i s') m' ∧
        m'.Records s' i (xs ++ s.dealings d a) := by
  have hdealings := h.dealings_step hi d
  obtain ⟨⟨k, hs⟩, -⟩ := h
  have hstep := hs.step_act hi d
  cases he : s.act d a with
  | done s' =>
      rw [he] at hstep
      obtain ⟨m', hm', hs'⟩ := hstep
      rw [hm'] at hdealings
      exact ⟨m', hm', ⟨_, hs'⟩, hdealings⟩
  | failed why s' =>
      rw [he] at hstep
      obtain ⟨m', hm', hs'⟩ := hstep
      rw [hm'] at hdealings
      exact ⟨m', hm', ⟨_, hs'⟩, hdealings⟩

/-- Brackets exchange nothing. -/
theorem step_bracket {f : List Symbol} {o c : Nat} (h : m.Records s i xs)
    (hl : Linked f 0 p.code.toList) (hm : Matches f o c) (hi : i = o ∨ i = c) (d : Devices) :
    ∃ m', m.step d p = .running m' ∧ m'.Records s (if s.cell = 0 then c + 1 else o + 1) xs := by
  have hquiet : (m.step d p).machine.dealings = xs := by
    rcases hi with rfl | rfl
    · exact (h.dealings_step (hl.opener_at hm) d).trans (List.append_nil xs)
    · exact (h.dealings_step (hl.closer_at hm) d).trans (List.append_nil xs)
  obtain ⟨⟨k, hs⟩, -⟩ := h
  obtain ⟨m', hm', hs'⟩ := hl.step_bracket hm hs hi d
  rw [hm'] at hquiet
  exact ⟨m', hm', ⟨_, hs'⟩, hquiet⟩

end Records

/-! ## The two machines -/

/-- Both machines are at the same place, which behind `pre` has moved by the length of
    the loop. -/
inductive InStep (pre body post : List Symbol) (m m' : Machine) : Prop where
  | mk {s : Store} {i : Nat} {xs : List Exchange} (here : m.Records s i xs)
      (there : m'.Records s (moved pre.length (body.length + 2) i) xs)
      (within : i ≤ (pre ++ post).length)

/-- Both machines are behind `pre`, and one has the loop still before it. -/
inductive Waits (pre : List Symbol) (m m' : Machine) : Prop where
  | mk {s : Store} {xs : List Exchange} (here : m.Records s pre.length xs)
      (there : m'.Records s pre.length xs) (zero : s.cell = 0)

/-- In step, or with the loop still before one of them. -/
def Beside (pre body post : List Symbol) (m m' : Machine) : Prop :=
  InStep pre body post m m' ∨ Waits pre m m'

/-- Both have failed in step. -/
def FailedInStep (pre body post : List Symbol) (why : Fault) (m : Machine) (why' : Fault)
    (m' : Machine) : Prop :=
  why' = why.moved pre.length (body.length + 2) ∧ InStep pre body post m m'

namespace Beside

variable {pre body post : List Symbol} {m m' : Machine}

theorem sameDealings (h : Beside pre body post m m') : m.SameDealings m' := by
  rcases h with ⟨hm, hm', -⟩ | ⟨hm, hm', -⟩
  · exact hm.sameDealings hm'
  · exact hm.sameDealings hm'

/-- Neither is ever between the brackets of the loop. -/
theorem outside (h : Beside pre body post m m') :
    m'.ip ≤ pre.length ∨ (pre.length + (body.length + 2) : Int) ≤ m'.ip := by
  rcases h with @⟨s, i, xs, -, hm', -⟩ | ⟨-, hm', -⟩
  · obtain ⟨k, hs⟩ := hm'.stands
    rw [hs.ip]
    rcases Nat.lt_or_ge i pre.length with hlt | hge
    · rw [moved_of_lt hlt]
      omega
    · rw [moved_of_le hge]
      omega
  · obtain ⟨k, hs⟩ := hm'.stands
    rw [hs.ip]
    omega

/-- A fresh machine is in step with itself, or has the loop right before it. -/
theorem fresh (pre body post : List Symbol) {n : Nat} (hn : 0 < n) :
    Beside pre body post (Machine.fresh n) (Machine.fresh n) := by
  obtain ⟨s, hs, hzero⟩ := exists_stands_fresh hn
  have hrec : (Machine.fresh n).Records s 0 [] := ⟨⟨0, hs⟩, rfl⟩
  cases pre with
  | nil => exact Or.inr ⟨hrec, hrec, hzero⟩
  | cons x pre =>
      refine Or.inl ⟨hrec, ?_, Nat.zero_le _⟩
      rw [moved_of_lt (by simp)]
      exact hrec

end Beside

end Machine

/-- The code of a text, and of the same text with a loop put in at its start or right
    behind another loop. -/
structure CommentLoop (pre body post : List Symbol) (short long : Program) : Prop where
  short : Linked (pre ++ post) 0 short.code.toList
  long : Linked (pre ++ .opener :: (body ++ [.closer]) ++ post) 0 long.code.toList
  body : Balanced body
  place : pre = [] ∨ pre.getLast? = some .closer

namespace CommentLoop

open Machine

variable {pre body post : List Symbol} {short long : Program} {m m' : Machine}

/-- The symbol before the loop, if there is one. -/
theorem closer_before (h : CommentLoop pre body post short long) {i : Nat}
    (hi : i + 1 = pre.length) : (pre ++ post)[i]? = some .closer := by
  rw [List.getElem?_append_left (by omega)]
  rcases h.place with rfl | hlast
  · exact nomatch hi
  · rw [List.getLast?_eq_getElem?, ← hi] at hlast
    exact hlast

private theorem length_loop (body : List Symbol) :
    (.opener :: (body ++ [.closer]) : List Symbol).length = body.length + 2 := by
  simp

/-- The brackets of the loop. -/
theorem pair (h : CommentLoop pre body post short long) :
    Matches (pre ++ .opener :: (body ++ [.closer]) ++ post) pre.length
      (pre.length + (body.length + 1)) :=
  (Linked.matches_enclose h.body).embed pre post

/-- Any other pair. -/
theorem pair_moved (h : CommentLoop pre body post short long) {o c : Nat}
    (hm : Matches (pre ++ post) o c) :
    Matches (pre ++ .opener :: (body ++ [.closer]) ++ post)
      (moved pre.length (body.length + 2) o) (moved pre.length (body.length + 2) c) := by
  have hmoved := hm.insert h.body.enclose
  rw [length_loop] at hmoved
  exact hmoved

/-- Any action. -/
theorem action_moved (h : CommentLoop pre body post short long) {i : Nat} {a : Action}
    (ha : (pre ++ post)[i]? = some (.act a)) :
    long.code[moved pre.length (body.length + 2) i]? = some (.act a) := by
  have hg := getElem?_insert pre (.opener :: (body ++ [.closer])) post i
  rw [length_loop, ha] at hg
  exact h.long.action_at hg

/-- The loop is passed over in one step. -/
theorem step_waits (h : CommentLoop pre body post short long) (d : Devices)
    (hw : Waits pre m m') :
    ∃ next, m'.step d long = .running next ∧ InStep pre body post m next := by
  obtain ⟨hm, hm', hzero⟩ := hw
  obtain ⟨next, hnext, hs⟩ := hm'.step_bracket h.long h.pair (Or.inl rfl) d
  rw [if_pos hzero] at hs
  refine ⟨next, hnext, hm, ?_, by simp⟩
  rw [moved_of_le (Nat.le_refl _)]
  exact hs

section Step

variable {s : Store} {i : Nat} {xs : List Exchange}

/-- At the end of the one text is the end of the other. -/
theorem step_end (h : CommentLoop pre body post short long) (d : Devices)
    (hm : m.Records s (pre ++ post).length xs)
    (hm' : m'.Records s (moved pre.length (body.length + 2) (pre ++ post).length) xs) :
    m.step d short = .halted m ∧ m'.step d long = .halted m' := by
  have hend : moved pre.length (body.length + 2) (pre ++ post).length = long.size := by
    rw [h.long.size_eq, moved_of_le (by simp), List.length_append, List.length_append,
      List.length_append, length_loop]
    omega
  obtain ⟨k, hs⟩ := hm.stands
  obtain ⟨k', hs'⟩ := hm'.stands
  rw [← h.short.size_eq] at hs
  rw [hend] at hs'
  exact ⟨hs.step_end d, hs'.step_end d⟩

/-- An action, wherever it has moved.  The loop is not behind it. -/
theorem step_action (h : CommentLoop pre body post short long) (d : Devices) {a : Action}
    (ha : (pre ++ post)[i]? = some (.act a)) (hcode : short.code[i]? = some (.act a))
    (hm : m.Records s i xs) (hm' : m'.Records s (moved pre.length (body.length + 2) i) xs) :
    Progress.Related (Beside pre body post) (FailedInStep pre body post)
      (m.step d short) (m'.step d long) := by
  have hi := (List.getElem?_eq_some_iff.mp ha).1
  have hstep := hm.step_act hcode d
  have hstep' := hm'.step_act (h.action_moved ha) d
  cases he : s.act d a with
  | done s' =>
      rw [he] at hstep hstep'
      obtain ⟨x, hx, hs⟩ := hstep
      obtain ⟨x', hx', hs'⟩ := hstep'
      have hne : i + 1 ≠ pre.length := fun hi' => nomatch ha.symm.trans (h.closer_before hi')
      rw [← moved_succ hne] at hs'
      rw [hx, hx']
      exact .running (Or.inl ⟨hs, hs', hi⟩)
  | failed why s' =>
      rw [he] at hstep hstep'
      obtain ⟨x, hx, hs⟩ := hstep
      obtain ⟨x', hx', hs'⟩ := hstep'
      rw [hx, hx']
      exact .failed ⟨why.fault_moved _ _ i s', hs, hs', Nat.le_of_lt hi⟩

/-- Either bracket of a pair.  Only behind a closer does a machine come to stand before
    the loop, and it has found a zero there. -/
theorem step_pair (h : CommentLoop pre body post short long) (d : Devices) {o c : Nat}
    (hpair : Matches (pre ++ post) o c) (hoc : i = o ∨ i = c) (hm : m.Records s i xs)
    (hm' : m'.Records s (moved pre.length (body.length + 2) i) xs) :
    Progress.Related (Beside pre body post) (FailedInStep pre body post)
      (m.step d short) (m'.step d long) := by
  have hoc' : moved pre.length (body.length + 2) i = moved pre.length (body.length + 2) o ∨
      moved pre.length (body.length + 2) i = moved pre.length (body.length + 2) c :=
    hoc.imp (congrArg _) (congrArg _)
  have ho := (List.getElem?_eq_some_iff.mp hpair.opener).1
  have hc := (List.getElem?_eq_some_iff.mp hpair.closer).1
  obtain ⟨x, hx, hs⟩ := hm.step_bracket h.short hpair hoc d
  obtain ⟨x', hx', hs'⟩ := hm'.step_bracket h.long (h.pair_moved hpair) hoc' d
  rw [hx, hx']
  refine .running ?_
  by_cases hzero : s.cell = 0
  · rw [if_pos hzero] at hs hs'
    -- if the comment loop stands behind this closer, the longer program has come to it
    by_cases hbehind : c + 1 = pre.length
    · rw [hbehind] at hs
      rw [moved_of_lt (by omega), hbehind] at hs'
      exact Or.inr ⟨hs, hs', hzero⟩
    · rw [← moved_succ hbehind] at hs'
      exact Or.inl ⟨hs, hs', hc⟩
  · rw [if_neg hzero] at hs hs'
    have hne : o + 1 ≠ pre.length :=
      fun ho' => nomatch hpair.opener.symm.trans (h.closer_before ho')
    rw [← moved_succ hne] at hs'
    exact Or.inl ⟨hs, hs', ho⟩

end Step

/-- **Machines in step do the same,** up to where the loop is before one of them. -/
theorem step_inStep (h : CommentLoop pre body post short long) (d : Devices)
    (hr : InStep pre body post m m') :
    Progress.Related (Beside pre body post) (FailedInStep pre body post)
      (m.step d short) (m'.step d long) := by
  obtain @⟨s, i, xs, hm, hm', hi⟩ := hr
  rcases Nat.eq_or_lt_of_le hi with rfl | hlt
  · obtain ⟨hhalt, hhalt'⟩ := h.step_end d hm hm'
    rw [hhalt, hhalt']
    exact .halted (Or.inl ⟨hm, hm', hi⟩)
  rcases h.short.cases_at hlt with ⟨a, ha, hcode⟩ | ⟨o, c, hpair, hoc⟩
  · exact h.step_action d ha hcode hm hm'
  · exact h.step_pair d hpair hoc hm hm'

/-! ## Whole runs -/

/-- The run of the longer text comes as far, with more steps. -/
theorem ahead (h : CommentLoop pre body post short long) (d : Devices)
    (hm : Beside pre body post m m') (k : Nat) :
    ∃ j, k ≤ j ∧ Progress.Related (Beside pre body post) (FailedInStep pre body post)
      (m.runFor d short k) (m'.runFor d long j) :=
  exists_runFor_ahead (fun _ _ => h.step_inStep d) (fun _ _ => h.step_waits d) k hm

/-- It comes to nothing else. -/
theorem behind (h : CommentLoop pre body post short long) (d : Devices)
    (hm : Beside pre body post m m') (j : Nat) :
    ∃ k, k ≤ j ∧ Progress.Related (Beside pre body post) (FailedInStep pre body post)
      (m.runFor d short k) (m'.runFor d long j) :=
  exists_runFor_behind (fun _ _ => h.step_inStep d) (fun _ _ => h.step_waits d) j hm

end CommentLoop

/-- The text with the comment loop in it is accepted whenever both of its parts are. -/
theorem exists_commentLoop {p c s : String} {q short : Program} (hc : Program.parse c = .ok q)
    (hshort : Program.parse (p ++ s) = .ok short)
    (hp : scan p = [] ∨ (scan p).getLast? = some .closer) :
    ∃ long, Program.parse (p ++ "[" ++ c ++ "]" ++ s) = .ok long ∧
      CommentLoop (scan p) (scan c) (scan s) short long := by
  have hbody : Balanced (scan c) := exists_link_iff.mp ⟨q, hc⟩
  have hwhole : Balanced (scan p ++ scan s) := by
    rw [← scan_append]
    exact exists_link_iff.mp ⟨short, hshort⟩
  have hscan : scan (p ++ "[" ++ c ++ "]" ++ s)
      = scan p ++ .opener :: (scan c ++ [.closer]) ++ scan s := by
    rw [scan_append, scan_append, scan_append, scan_append, show scan "[" = [.opener] from rfl,
      show scan "]" = [.closer] from rfl]
    simp
  obtain ⟨long, hlong⟩ := exists_link_iff.mpr (hwhole.insert hbody.enclose)
  rw [← hscan] at hlong
  have hl := linked_of_parse hlong
  have hs := linked_of_parse hshort
  rw [hscan] at hl
  rw [scan_append] at hs
  exact ⟨long, hlong, hs, hl, hbody, hp⟩

/-- The two faults are the same, but for a place that has moved, and both machines have
    come to the same. -/
def Machine.FailedMoved (a l : Nat) (why : Fault) (m : Machine) (why' : Fault) (m' : Machine) :
    Prop :=
  why' = why.moved a l ∧ m.SameDealings m'

/-- **Comment loops are harmless.**  Let an accepted text be cut in two, the first part
    having no symbols or ending with a closer, and put any accepted text in brackets
    between the parts.  The whole is accepted, and a machine can be set up for it as for
    the text without the loop.  Both runs halt with the same cells and bytes, or both fail
    with the same fault, whose place has moved if it is behind the loop, or both go on
    forever.  Whatever one run polls and emits the other does, in the same order; and no
    run ever stands at a place between the brackets, nor at the closer. -/
theorem comment_loop_harmless {p c s : String} {q short : Program} (hc : Program.parse c = .ok q)
    (hshort : Program.parse (p ++ s) = .ok short)
    (hp : scan p = [] ∨ (scan p).getLast? = some .closer) :
    ∃ long, Program.parse (p ++ "[" ++ c ++ "]" ++ s) = .ok long ∧
      ∀ (d : Devices) (n : Int), Machine.boot long n = Machine.boot short n ∧
        ∀ m, Machine.boot short n = .ok m →
          Machine.EndAlike Machine.SameDealings
            (Machine.FailedMoved (scan p).length ((scan c).length + 2)) d short long m m ∧
          (∀ k, ∃ j, k ≤ j ∧
            (m.runFor d short k).machine.SameDealings (m.runFor d long j).machine) ∧
          (∀ j, ∃ k, k ≤ j ∧
            (m.runFor d short k).machine.SameDealings (m.runFor d long j).machine) ∧
          ∀ j, (m.runFor d long j).machine.ip ≤ (scan p).length ∨
            ((scan p).length + ((scan c).length + 2) : Int) ≤ (m.runFor d long j).machine.ip := by
  obtain ⟨long, hlong, h⟩ := exists_commentLoop hc hshort hp
  have hclosed := Program.firstBadJump?_eq_none_iff.mpr (Program.closed_of_parse hshort)
  have hclosed' := Program.firstBadJump?_eq_none_iff.mpr (Program.closed_of_parse hlong)
  refine ⟨long, hlong, ?_⟩
  intro d n
  refine ⟨by rw [Machine.boot, Machine.boot, hclosed, hclosed'], ?_⟩
  intro m hboot
  obtain ⟨-, hn, -, rfl⟩ := Machine.boot_eq_ok_iff.mp hboot
  have hstart := Machine.Beside.fresh (scan p) (scan c) (scan s) (n := n.toNat) (by omega)
  have hfailed : ∀ why x why' x', Machine.FailedInStep (scan p) (scan c) (scan s) why x why' x' →
      Machine.Beside (scan p) (scan c) (scan s) x x' := fun _ _ _ _ hx => Or.inl hx.2
  -- `ahead` says what the longer program does, and `behind` that it does nothing else
  refine ⟨Machine.endAlike_of_runFor ?_, ?_, ?_, ?_⟩
  · intro k
    obtain ⟨j, hj, hrel⟩ := h.ahead d hstart k
    refine ⟨j, hj, hrel.mono (fun _ _ hx => hx.sameDealings) ?_⟩
    rintro why x why' x' ⟨hwhy, hx⟩
    exact ⟨hwhy, Machine.Beside.sameDealings (Or.inl hx)⟩
  · intro k
    obtain ⟨j, hj, hrel⟩ := h.ahead d hstart k
    exact ⟨j, hj, (hrel.machine hfailed).sameDealings⟩
  · intro j
    obtain ⟨k, hk, hrel⟩ := h.behind d hstart j
    exact ⟨k, hk, (hrel.machine hfailed).sameDealings⟩
  · intro j
    obtain ⟨k, -, hrel⟩ := h.behind d hstart j
    exact (hrel.machine hfailed).outside

/-- A loop put into a loop, behind one that clears the cell.  The run fails at a move
    off the tape, of which the place moves by seven, and has emitted the same. -/
theorem comment_loop_harmless_nested :
    ∃ short long m left left', Program.parse ("+[[-]" ++ "+.>]") = .ok short ∧
      Program.parse ("+[[-]" ++ "[" ++ "<.[,]" ++ "]" ++ "+.>]") = .ok long ∧
      Machine.boot short 1 = .ok m ∧ Machine.boot long 1 = .ok m ∧
      m.Fails ⟨Source.exhausted, .collect⟩ short (.outOfBounds 1 1 7 #[1]) left ∧
      m.Fails ⟨Source.exhausted, .collect⟩ long (.outOfBounds 1 1 14 #[1]) left' ∧
      left.SameDealings left' := by
  have hc : Program.parse "<.[,]" = .ok ⟨#[.act .left, .act .emit, .jumpIfZero 4, .act .poll,
      .jumpIfNonzero 2]⟩ := rfl
  have hshort : Program.parse ("+[[-]" ++ "+.>]") = .ok ⟨#[.act .inc, .jumpIfZero 8,
      .jumpIfZero 4, .act .dec, .jumpIfNonzero 2, .act .inc, .act .emit, .act .right,
      .jumpIfNonzero 1]⟩ := rfl
  have hboot : Machine.boot ⟨#[.act .inc, .jumpIfZero 8, .jumpIfZero 4, .act .dec,
      .jumpIfNonzero 2, .act .inc, .act .emit, .act .right, .jumpIfNonzero 1]⟩ 1
      = .ok (Machine.fresh 1) := by decide
  obtain ⟨left, hleft⟩ : ∃ left, (Machine.fresh 1).Fails ⟨Source.exhausted, .collect⟩
      ⟨#[.act .inc, .jumpIfZero 8, .jumpIfZero 4, .act .dec, .jumpIfNonzero 2, .act .inc,
        .act .emit, .act .right, .jumpIfNonzero 1]⟩ (.outOfBounds 1 1 7 #[1]) left :=
    ⟨_, 8, rfl⟩
  obtain ⟨long, hlong, hruns⟩ := comment_loop_harmless hc hshort (Or.inr rfl)
  obtain ⟨hsame, hrun⟩ := hruns ⟨Source.exhausted, .collect⟩ 1
  obtain ⟨hend, -⟩ := hrun _ hboot
  cases hend with
  | halt hhalts => exact absurd hleft hhalts.not_fails
  | forever hforever =>
      obtain ⟨k, hk⟩ := hleft
      obtain ⟨x, hx⟩ := hforever k
      exact nomatch hx.symm.trans hk
  | fail hfails hfails' hmoved =>
      obtain ⟨rfl, rfl⟩ := hfails.unique hleft
      obtain ⟨rfl, hdealings⟩ := hmoved
      exact ⟨_, long, _, _, _, hshort, hlong, hboot, hsame.trans hboot, hleft, hfails', hdealings⟩

end ByteTape
