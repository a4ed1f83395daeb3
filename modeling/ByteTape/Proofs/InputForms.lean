import ByteTape.Proofs.Polling
import ByteTape.Snapshot

/-! # Forms of input

    The same bytes may be supplied as they are, as a buffer, wrapped as a source,
    through a stream, or by somebody who answers with integers that have them as
    their low eight bits.  Each form is read in its own way, and no program can
    tell which of them it was given.

    * `Reader` — a device with a state of its own, read one reply at a time, and
      `Input.reader`, the one behind each form;
    * `Machine.readFor` — a machine and a reader run side by side.  The state of
      the reader is always the one after as many readings as the machine has made
      polls (`readFor_after`), so the reader may be replaced by its replies;
    * `Reply.low` — what a machine makes of a reply, and `Store.poll_low`: it
      makes no more of it;
    * `Input.forms` — the forms in which given integers can be supplied, all with
      the same replies as far as a machine can tell (`low_source_of_mem_forms`).

    So two machines fed with two of the forms are abreast, in equal stores. -/

namespace ByteTape

/-- The chunk of length one at a place holds the byte there, if there is one. -/
theorem toList_chunk (bytes : Array UInt8) (n : Nat) :
    (bytes.extract n (n + 1)).toList = bytes[n]?.toList := by
  rw [Array.toList_extract, List.extract_eq_take_drop, Nat.add_sub_cancel_left, List.take_one,
    List.head?_drop, Array.getElem?_toList]

/-- A stream gives the bytes it holds. -/
theorem Source.ofStream_eq_ofBytes (bytes : Array UInt8) : ofStream bytes = ofBytes bytes := by
  funext n
  rw [ofStream, ofBytes, toList_chunk]
  cases bytes[n]? with
  | none => rfl
  | some b => rfl

/-! ## Readers -/

/-- A device that is read one reply at a time, each reading changing its state. -/
structure Reader where
  State : Type
  start : State
  read : State → Reply × State

namespace Reader

/-- Items handed out one after the other: the state is what is left of them. -/
def ofList {α : Type} (reply : α → Reply) (items : List α) : Reader where
  State := List α
  start := items
  read
    | [] => (.nothing, [])
    | x :: rest => (reply x, rest)

/-- A stream: the state is the place reached, which an empty chunk leaves where
    it is. -/
def ofStream (bytes : Array UInt8) : Reader where
  State := Nat
  start := 0
  read place :=
    let chunk := bytes.extract place (place + 1)
    match chunk.toList with
    | b :: _ => (.value b.toNat, place + chunk.size)
    | [] => (.nothing, place)

/-- The state after so many readings. -/
def after (r : Reader) : Nat → r.State
  | 0 => r.start
  | n + 1 => (r.read (r.after n)).2

/-- The replies to the readings, in turn. -/
def source (r : Reader) : Source := fun n => (r.read (r.after n)).1

/-- Reading a list drops its first item. -/
theorem after_ofList {α : Type} (reply : α → Reply) (items : List α) (n : Nat) :
    (ofList reply items).after n = items.drop n := by
  induction n with
  | zero => rfl
  | succ n ih =>
      rw [after, ih, ← List.tail_drop]
      cases items.drop n with
      | nil => rfl
      | cons x rest => rfl

theorem source_ofList {α : Type} (reply : α → Reply) (items : List α) (n : Nat) :
    (ofList reply items).source n = (items[n]?.map reply).getD .nothing := by
  rw [source, after_ofList, ← List.head?_drop]
  cases items.drop n with
  | nil => rfl
  | cons x rest => rfl

/-- Before its end a stream hands out one byte and moves on. -/
theorem read_ofStream_of_lt {bytes : Array UInt8} {n : Nat} (h : n < bytes.size) :
    (ofStream bytes).read n = (.value bytes[n].toNat, n + 1) := by
  have hsize : (bytes.extract n (n + 1)).size = 1 := by
    rw [← Array.length_toList, toList_chunk, Array.getElem?_eq_getElem h]
    rfl
  simp only [ofStream, toList_chunk, Array.getElem?_eq_getElem h, hsize, Option.toList_some]

/-- At its end it stays where it is. -/
theorem read_ofStream_of_le {bytes : Array UInt8} {n : Nat} (h : bytes.size ≤ n) :
    (ofStream bytes).read n = (.nothing, n) := by
  simp only [ofStream, toList_chunk, Array.getElem?_eq_none h, Option.toList_none]

/-- Read byte by byte, a stream has come as far as it was read, but never past
    its end. -/
theorem after_ofStream (bytes : Array UInt8) (n : Nat) :
    (ofStream bytes).after n = min n bytes.size := by
  induction n with
  | zero => exact (Nat.zero_min _).symm
  | succ n ih =>
      rw [after, ih]
      rcases Nat.lt_or_ge n bytes.size with hlt | hge
      · rw [Nat.min_eq_left (Nat.le_of_lt hlt), read_ofStream_of_lt hlt, Nat.min_eq_left hlt]
      · rw [Nat.min_eq_right hge, read_ofStream_of_le (Nat.le_refl _),
          Nat.min_eq_right (Nat.le_succ_of_le hge)]

/-- **A stream replies with its bytes, in order.** -/
theorem source_ofStream (bytes : Array UInt8) : (ofStream bytes).source = Source.ofBytes bytes := by
  funext n
  rw [source, after_ofStream, Source.ofBytes]
  rcases Nat.lt_or_ge n bytes.size with hlt | hge
  · rw [Nat.min_eq_left (Nat.le_of_lt hlt), read_ofStream_of_lt hlt, Array.getElem?_eq_getElem hlt]
  · rw [Nat.min_eq_right hge, read_ofStream_of_le (Nat.le_refl _), Array.getElem?_eq_none hge]

/-- A list of bytes gives the replies of the bytes. -/
theorem source_ofBytes (bytes : Array UInt8) :
    (ofList (fun b : UInt8 => .value b.toNat) bytes.toList).source = Source.ofBytes bytes := by
  funext n
  rw [source_ofList, Array.getElem?_toList, Source.ofBytes]
  cases bytes[n]? with
  | none => rfl
  | some b => rfl

end Reader

/-- The reader behind each form of input: bytes are handed out from a list, in
    whatever wrapping, a script likewise, and a stream is read place by place. -/
def Input.reader : Input → Reader
  | .absent => .ofList id []
  | .bytes data => .ofList (fun b => .value b.toNat) data.toList
  | .buffer data => .ofList (fun b => .value b.toNat) data.toList
  | .wrapped data => .ofList (fun b => .value b.toNat) data.toList
  | .stream data => .ofStream data
  | .replies items => .ofList id items.toList

/-- A form of input has the replies of its reader. -/
theorem Input.source_reader (i : Input) : i.reader.source = i.source := by
  cases i with
  | absent =>
      funext n
      exact Reader.source_ofList id [] n
  | bytes data => exact Reader.source_ofBytes data
  | buffer data => exact Reader.source_ofBytes data
  | wrapped data => exact Reader.source_ofBytes data
  | stream data => exact (Reader.source_ofStream data).trans (Source.ofStream_eq_ofBytes data).symm
  | replies items =>
      funext n
      rw [reader, Reader.source_ofList, Array.getElem?_toList, Option.map_id_apply]
      rfl

namespace Machine

/-- A machine and a reader side by side, for at most so many steps: the reader is
    read where the machine polls, and nowhere else. -/
def readFor (r : Reader) (sink : Sink) (p : Program) : Nat → r.State → Machine → Progress
  | 0, _, m => .running m
  | fuel + 1, st, m =>
      match m.step ⟨fun _ => (r.read st).1, sink⟩ p with
      | .running next => readFor r sink p fuel (if m.Polls p then (r.read st).2 else st) next
      | .halted next => .halted next
      | .failed why next => .failed why next

/-- **The reader keeps step with the machine**: read as often as the machine has
    polled, it answers the next poll as its replies say. -/
theorem readFor_after (r : Reader) (sink : Sink) (p : Program) (fuel : Nat) (m : Machine) :
    m.readFor r sink p fuel (r.after m.traffic.polls) = m.runFor ⟨r.source, sink⟩ p fuel := by
  -- the state of the reader is that after as many readings as there were polls
  induction fuel generalizing m with
  | zero => rfl
  | succ fuel ih =>
      have hstep : m.step ⟨fun _ => (r.read (r.after m.traffic.polls)).1, sink⟩ p
          = m.step ⟨r.source, sink⟩ p := by
        apply step_congr_source
        intro _
        rfl
      have hpolls := polls_step ⟨r.source, sink⟩ p m
      rw [readFor, runFor_succ, hstep]
      cases hs : m.step ⟨r.source, sink⟩ p with
      | halted next => rfl
      | failed why next => rfl
      | running next =>
          rw [hs] at hpolls
          have hafter : (if m.Polls p then (r.read (r.after m.traffic.polls)).2
              else r.after m.traffic.polls) = r.after next.traffic.polls := by
            rw [show next.traffic.polls = _ from hpolls]
            by_cases hp : m.Polls p
            · rw [if_pos hp, if_pos hp]
              rfl
            · rw [if_neg hp, if_neg hp]
              rfl
          dsimp only
          rw [hafter]
          exact ih next

end Machine

/-! ## What a machine makes of a reply -/

theorem ofInt_toNat (b : UInt8) : UInt8.ofInt b.toNat = b := by
  have hlt := b.toNat_lt
  have hmod : ((b.toNat : Int) % 2 ^ 8).toNat = b.toNat := by omega
  exact (congrArg UInt8.ofNat hmod).trans UInt8.ofNat_toNat

/-- A reply with the low eight bits of its value only. -/
def Reply.low : Reply → Reply
  | .value n => .value (UInt8.ofInt n).toNat
  | .nothing => .nothing
  | .failure why => .failure why

/-- A source of which every reply has the low eight bits of its value only. -/
def Source.low (source : Source) : Source := fun n => (source n).low

theorem Source.low_ofBytes (bytes : Array UInt8) : (ofBytes bytes).low = ofBytes bytes := by
  funext n
  rw [low, ofBytes]
  cases bytes[n]? with
  | none => rfl
  | some b =>
      show Reply.value _ = _
      rw [ofInt_toNat]

/-- Nothing but the low bits of a reply reaches the store. -/
theorem Store.poll_low (source : Source) (s : Store) : s.poll source.low = s.poll source := by
  rw [poll, poll, Source.low]
  cases source s.polls with
  | nothing => rfl
  | failure why => rfl
  | value n =>
      dsimp only [Reply.low]
      rw [ofInt_toNat]

/-- Sources with the same low bits act on a store alike. -/
theorem Store.act_congr_low {source source' : Source} (h : source.low = source'.low) (sink : Sink)
    (a : Action) (s : Store) : s.act ⟨source, sink⟩ a = s.act ⟨source', sink⟩ a := by
  cases a with
  | inc => rfl
  | dec => rfl
  | right => rfl
  | left => rfl
  | emit => rfl
  | poll =>
      show s.poll source = s.poll source'
      rw [← poll_low, h, poll_low]

theorem Effect.Related.refl (e : Effect) : Effect.Related Eq e e := by
  cases e with
  | done s => exact .done rfl
  | failed why s => exact .failed why rfl

namespace Machine

/-- Two machines in the same state, at the same place and after as many steps.
    Only the record of what the source replied is left out. -/
structure SameState (m m' : Machine) : Prop extends SameStore m m' where
  ip : m'.ip = m.ip
  steps : m'.steps = m.steps

theorem Stands.sameState {m m' : Machine} {s : Store} {i c : Nat} (h : m.Stands s i c)
    (h' : m'.Stands s i c) : m.SameState m' :=
  ⟨h.holds.sameStore h'.holds, h'.ip.trans h.ip.symm, h'.steps.trans h.steps.symm⟩

theorem SameState.snapshot_eq {m m' : Machine} (h : m.SameState m') :
    m'.snapshot = m.snapshot := by
  rw [snapshot, snapshot, h.output, h.tape, h.dp, h.steps]

/-- Both runs have failed alike. -/
def FailedAlike (why : Fault) (m : Machine) (why' : Fault) (m' : Machine) : Prop :=
  why' = why ∧ m.SameState m'

/-- **Sources with the same low bits give the same run.** -/
theorem runFor_congr_low {source source' : Source} (h : source.low = source'.low) (sink : Sink)
    {p : Program} (hp : p.Closed) {n : Nat} {m : Machine} (hm : m.Safe p n) (k : Nat) :
    Progress.Related SameState FailedAlike
      (m.runFor ⟨source, sink⟩ p k) (m.runFor ⟨source', sink⟩ p k) := by
  have hact : ∀ a (s s' : Store), s = s' →
      Effect.Related Eq (s.act ⟨source, sink⟩ a) (s'.act ⟨source', sink⟩ a) ∨ False := by
    rintro a s _ rfl
    rw [Store.act_congr_low h]
    exact Or.inl (.refl _)
  obtain ⟨s, i, hs, -, hi⟩ := hm.exists_stands
  rcases runFor_abreast hp (fun _ _ hst => congrArg Store.cell hst) hact k ⟨rfl, hs, hs, hi⟩ with
    hrel | ⟨_, _, _, _, _, _, hbreak⟩
  · generalize m.runFor ⟨source, sink⟩ p k = r at hrel ⊢
    generalize m.runFor ⟨source', sink⟩ p k = r' at hrel ⊢
    cases hrel with
    | running h =>
        obtain ⟨rfl, hx, hx', -⟩ := h
        exact .running (hx.sameState hx')
    | halted h =>
        obtain ⟨rfl, hx, hx', -⟩ := h
        exact .halted (hx.sameState hx')
    | failed h =>
        obtain ⟨cause, rfl, hx, hx'⟩ := h
        exact .failed ⟨rfl, hx.sameState hx'⟩
  · obtain ⟨hfalse, -, -, -⟩ := hbreak
    exact hfalse.elim

/-- The machine after so many polls in a row. -/
def pollFor (source : Source) : Nat → Machine → Attempt
  | 0, m => .done m
  | k + 1, m =>
      match m.poll source with
      | .done next => pollFor source k next
      | .failed why next => .failed why next

/-- Polls of an exhausted source are counted, and do nothing else to the cells. -/
theorem pollFor_of_exhausted {source : Source} {m : Machine}
    (h : ∀ n, m.traffic.polls ≤ n → source n = .nothing) (k : Nat) :
    ∃ m', m.pollFor source k = .done m' ∧ m'.tape = m.tape ∧ m'.dp = m.dp ∧
      m'.traffic.polls = m.traffic.polls + k := by
  induction k generalizing m with
  | zero => exact ⟨m, rfl, rfl, rfl, rfl⟩
  | succ k ih =>
      have hpoll : m.poll source = .done (m.heard .nothing) := by
        rw [poll, h _ (Nat.le_refl _)]
      obtain ⟨m', hm', htape, hdp, hpolls⟩ := ih (m := m.heard .nothing)
        fun n hn => h n (Nat.le_of_succ_le hn)
      refine ⟨m', ?_, htape, hdp, ?_⟩
      · rw [pollFor, hpoll]
        exact hm'
      · rw [hpolls, show (m.heard .nothing).traffic.polls = m.traffic.polls + 1 from rfl]
        omega

end Machine

/-! ## The forms -/

/-- Integers as bytes: each of them modulo 256. -/
def lowBytes (xs : List Int) : Array UInt8 :=
  (xs.map fun x => UInt8.ofNat (x % 256).toNat).toArray

/-- The forms in which integers can be supplied: answered one by one as they are,
    or as bytes. -/
def Input.forms (xs : List Int) : List Input :=
  [.replies (xs.map .value).toArray, .bytes (lowBytes xs), .buffer (lowBytes xs),
    .wrapped (lowBytes xs), .stream (lowBytes xs)]

theorem Source.low_ofReplies (xs : List Int) :
    (ofReplies (xs.map .value).toArray).low = ofBytes (lowBytes xs) := by
  funext n
  rw [low, ofReplies, ofBytes, lowBytes, List.getElem?_toArray, List.getElem?_toArray,
    List.getElem?_map, List.getElem?_map]
  cases xs[n]? with
  | none => rfl
  | some x => rfl

/-- **All forms have the same replies,** as far as a machine can tell. -/
theorem Input.low_source_of_mem_forms {xs : List Int} {i : Input} (h : i ∈ forms xs) :
    i.source.low = Source.ofBytes (lowBytes xs) := by
  rw [forms] at h
  rcases List.mem_cons.mp h with rfl | h
  · exact Source.low_ofReplies xs
  rcases List.mem_cons.mp h with rfl | h
  · exact Source.low_ofBytes _
  rcases List.mem_cons.mp h with rfl | h
  · exact Source.low_ofBytes _
  rcases List.mem_cons.mp h with rfl | h
  · exact Source.low_ofBytes _
  · obtain rfl := List.mem_singleton.mp h
    rw [source, Source.ofStream_eq_ofBytes, Source.low_ofBytes]

/-- Past the end no form has anything more to give. -/
theorem Input.source_eq_nothing {xs : List Int} {i : Input} (h : i ∈ forms xs) {n : Nat}
    (hn : xs.length ≤ n) : i.source n = .nothing := by
  have hlow : (i.source n).low = .nothing := by
    have hbytes : (lowBytes xs)[n]? = none := by
      rw [Array.getElem?_eq_none_iff, lowBytes, List.size_toArray, List.length_map]
      exact hn
    rw [show (i.source n).low = i.source.low n from rfl, low_source_of_mem_forms h, Source.ofBytes,
      hbytes]
  cases hr : i.source n with
  | nothing => rfl
  | value x => rw [hr] at hlow; exact nomatch hlow
  | failure why => rw [hr] at hlow; exact nomatch hlow

namespace Machine

/-- Two runs of a machine that nobody can tell apart: after any number of steps
    they have come equally far, to the same state; so they halt with the same
    record, fail with the same fault, or both go on forever. -/
structure Indistinguishable (d d' : Devices) (p : Program) (m : Machine) : Prop where
  lockstep : ∀ k, Progress.Related SameState FailedAlike (m.runFor d p k) (m.runFor d' p k)
  halts : ∀ a, m.Halts d p a → ∃ b, m.Halts d' p b ∧ b.snapshot = a.snapshot
  fails : ∀ why a, m.Fails d p why a → ∃ b, m.Fails d' p why b ∧ a.SameState b
  forever : m.RunsForever d p → m.RunsForever d' p

/-- **Runs in lockstep cannot be told apart:** they end alike, because they have come
    equally far after each number of steps. -/
theorem indistinguishable_of_lockstep {d d' : Devices} {p : Program} {m : Machine}
    (h : ∀ k, Progress.Related SameState FailedAlike (m.runFor d p k) (m.runFor d' p k)) :
    m.Indistinguishable d d' p := by
  refine ⟨h, ?_, ?_, ?_⟩
  · rintro a ⟨k, hk⟩
    have hrel := h k
    rw [hk] at hrel
    generalize hk' : m.runFor d' p k = r' at hrel
    cases hrel with
    | halted hsame => exact ⟨_, ⟨k, hk'⟩, hsame.snapshot_eq⟩
  · rintro why a ⟨k, hk⟩
    have hrel := h k
    rw [hk] at hrel
    generalize hk' : m.runFor d' p k = r' at hrel
    cases hrel with
    | failed hfail =>
        obtain ⟨rfl, hsame⟩ := hfail
        exact ⟨_, ⟨k, hk'⟩, hsame⟩
  · intro hforever k
    obtain ⟨a, hk⟩ := hforever k
    have hrel := h k
    rw [hk] at hrel
    generalize m.runFor d' p k = r' at hrel ⊢
    cases hrel with
    | running _ => exact ⟨_, rfl⟩

end Machine

/-- **All forms of input are interchangeable.**  Let integers be supplied in any
    two of the forms: answered one by one, or as bytes, each modulo 256, given as
    they are, as a buffer, wrapped, or in a stream.  Of a machine set up for a
    program, run side by side with the reader of the form, the run is that on the
    replies of the form; the two runs cannot be told apart; and once all is read,
    any number of further polls leaves the cells as they are. -/
theorem input_forms_interchangeable (xs : List Int) (sink : Sink) {p : Program} {n : Int}
    {m : Machine} (hboot : Machine.boot p n = .ok m) {i j : Input} (hi : i ∈ Input.forms xs)
    (hj : j ∈ Input.forms xs) :
    (∀ k, m.readFor i.reader sink p k i.reader.start = m.runFor ⟨i.source, sink⟩ p k) ∧
    m.Indistinguishable ⟨i.source, sink⟩ ⟨j.source, sink⟩ p ∧
    ∀ (x : Machine) (k : Nat), xs.length ≤ x.traffic.polls →
      ∃ y, x.pollFor i.source k = .done y ∧ y.cell? = x.cell? ∧ y.tape = x.tape ∧ y.dp = x.dp := by
  obtain ⟨hp, hn, -, rfl⟩ := Machine.boot_eq_ok_iff.mp hboot
  have hsafe := Machine.safe_fresh p (n := n.toNat) (by omega)
  have hlow : i.source.low = j.source.low :=
    (Input.low_source_of_mem_forms hi).trans (Input.low_source_of_mem_forms hj).symm
  refine ⟨?_, ?_, ?_⟩
  · intro k
    rw [← i.source_reader]
    exact Machine.readFor_after i.reader sink p k (Machine.fresh n.toNat)
  · exact Machine.indistinguishable_of_lockstep (Machine.runFor_congr_low hlow sink hp hsafe)
  · intro x k hx
    have hnothing : ∀ q, x.traffic.polls ≤ q → i.source q = .nothing :=
      fun q hq => Input.source_eq_nothing hi (Nat.le_trans hx hq)
    obtain ⟨y, hy, htape, hdp, -⟩ := Machine.pollFor_of_exhausted hnothing k
    exact ⟨y, hy, by rw [Machine.cell?, Machine.cell?, htape, hdp], htape, hdp⟩

/-- Two integers that are no bytes, polled three times: answered one by one or
    read from a stream, they come out as the same bytes, the last one twice. -/
theorem input_forms_interchangeable_past_end :
    ∃ p m a b, Program.parse ",.,.,." = .ok p ∧ Machine.boot p 1 = .ok m ∧
      Input.replies #[.value (-1), .value 321] ∈ Input.forms [-1, 321] ∧
      Input.stream #[255, 65] ∈ Input.forms [-1, 321] ∧
      m.Halts ⟨(Input.replies #[.value (-1), .value 321]).source, .collect⟩ p a ∧
      m.Halts ⟨(Input.stream #[255, 65]).source, .collect⟩ p b ∧
      b.snapshot = a.snapshot ∧ a.snapshot = ⟨#[255, 65, 65], #[65], 0, 6⟩ := by
  have hboot : Machine.boot ⟨#[.act .poll, .act .emit, .act .poll, .act .emit, .act .poll,
      .act .emit]⟩ 1 = .ok (Machine.fresh 1) := by decide
  have hi : Input.replies #[.value (-1), .value 321] ∈ Input.forms [-1, 321] := by decide
  have hj : Input.stream #[255, 65] ∈ Input.forms [-1, 321] := by decide
  obtain ⟨a, ha, hsnap⟩ : ∃ a, (Machine.fresh 1).runFor
      ⟨(Input.replies #[.value (-1), .value 321]).source, .collect⟩
      ⟨#[.act .poll, .act .emit, .act .poll, .act .emit, .act .poll, .act .emit]⟩ 7 = .halted a ∧
      a.snapshot = ⟨#[255, 65, 65], #[65], 0, 6⟩ := ⟨_, rfl, by decide +kernel⟩
  obtain ⟨-, hsame, -⟩ := input_forms_interchangeable [-1, 321] .collect hboot hi hj
  obtain ⟨b, hb, hba⟩ := hsame.halts a ⟨7, ha⟩
  exact ⟨_, _, a, b, rfl, hboot, hi, hj, ⟨7, ha⟩, hb, hba, hsnap⟩

end ByteTape
