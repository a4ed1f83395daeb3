import ByteTape.Proofs.Atomicity
import ByteTape.Proofs.InputForms
import ByteTape.Proofs.Safety
import ByteTape.Proofs.Walk

/-! # What an operation changes

    Each operation is about one thing: a cell, one of the two pointers, or the bytes
    kept.  What it is about is told here by five partial functions, each of which is
    defined for the few operations that have to do with it.

    * `Operation.place?`, `Operation.stores?` — the cell that an operation may change,
      and the integer of which it keeps the low eight bits;
    * `Operation.leads?`, `Operation.jumps?` — where it takes the data pointer, and
      where the instruction pointer;
    * `Operation.keeps?` — the byte that the machine keeps;
    * `Machine.Changed` — a machine after an operation that succeeded: it differs in
      what these say, and in nothing else;
    * `Machine.performAll` — operations one after the other, failures passed over.

    A success changes what it is about (`changed_of_perform`), a failure nothing
    (`Refuses.untouched`); so much is true of each operation in a sequence, and the
    length of the tape is the same throughout. -/

namespace ByteTape

namespace Tape

/-- Adding to a cell stores the sum. -/
theorem shift_eq_put {t : Tape} {k : Nat} {b : UInt8} (hb : t.cells[k]? = some b) (n : Int) :
    t.shift k n = t.put k (UInt8.ofInt (b.toNat + n)) := by
  have hk := (Array.getElem?_eq_some_iff.mp hb).1
  rw [shift, put, UInt8.ofInt_add, ofInt_toNat]
  congr 1
  apply Array.ext_getElem?
  intro j
  rw [Array.getElem?_modify, Array.getElem?_setIfInBounds, if_pos hk]
  by_cases hj : k = j
  · rw [if_pos hj, if_pos hj, ← hj, hb]
    rfl
  · rw [if_neg hj, if_neg hj]

/-- Two additions to a cell are one of their sum. -/
theorem shift_shift (t : Tape) (k : Nat) (a b : Int) :
    (t.shift k a).shift k b = t.shift k (a + b) := by
  rw [shift, shift, shift, UInt8.ofInt_add]
  congr 1
  apply Array.ext_getElem?
  intro j
  rw [Array.getElem?_modify, Array.getElem?_modify, Array.getElem?_modify]
  by_cases hj : k = j
  · rw [if_pos hj, if_pos hj, if_pos hj, Option.map_map]
    exact congrArg (Option.map · _) (funext fun c => UInt8.add_assoc c _ _)
  · rw [if_neg hj, if_neg hj, if_neg hj]

end Tape

namespace Operation

/-- The index of the cell that the operation may change: the assigned one, or else the
    current one. -/
def place? (m : Machine) : Operation → Option Nat
  | .assign i _ => m.tape.index? i
  | _ => m.tape.index? m.dp

/-- The integer that the operation stores. -/
def stores? (d : Devices) (m : Machine) : Operation → Option Int
  | .add n => m.cell?.map fun b => b.toNat + n
  | .poll =>
      match d.source m.traffic.polls with
      | .value v => some v
      | _ => none
  | .assign _ v => some v
  | _ => none

/-- Where the operation takes the data pointer. -/
def leads? (m : Machine) : Operation → Option Int
  | .move n => some (m.dp + n)
  | .setDp i => some i
  | _ => none

/-- Where the operation takes the instruction pointer; a bracket does so only when its
    jump is taken. -/
def jumps? (m : Machine) : Operation → Option Int
  | .jump target => some target
  | .setIp i => some i
  | .exec (.jumpIfZero target) => if m.cell? = some 0 then some target else none
  | .exec (.jumpIfNonzero target) => if m.cell? = some 0 then none else some target
  | _ => none

/-- The byte that the machine keeps: the current one, when it is emitted and there is
    no sink to take it. -/
def keeps? (sink : Sink) (m : Machine) : Operation → Option UInt8
  | .emit =>
      match sink with
      | .collect => m.cell?
      | _ => none
  | _ => none

end Operation

namespace Machine

variable {d : Devices} {m next : Machine} {op : Operation}

/-- The machine after an operation has succeeded. -/
structure Changed (d : Devices) (op : Operation) (m next : Machine) : Prop where
  size : next.tape.size = m.tape.size
  /-- Every cell but one is as it was. -/
  others : ∀ k, op.place? m ≠ some k → next.snapshot.tape[k]? = m.snapshot.tape[k]?
  /-- That one holds the low eight bits of what is stored. -/
  written : ∀ k v, op.place? m = some k → op.stores? d m = some v →
    next.snapshot.tape[k]? = some (v % 256)
  /-- If nothing is stored, it is as it was too. -/
  spared : op.stores? d m = none → next.tape = m.tape
  dp : next.dp = (op.leads? m).getD m.dp
  ip : next.ip = (op.jumps? m).getD m.ip
  output : next.output.toList = m.output.toList ++ (op.keeps? d.sink m).toList

/-- An operation that stores nothing leaves the tape as it is. -/
theorem Changed.of_tape_eq (hstores : op.stores? d m = none) (htape : next.tape = m.tape)
    (hdp : next.dp = (op.leads? m).getD m.dp) (hip : next.ip = (op.jumps? m).getD m.ip)
    (hout : next.output.toList = m.output.toList ++ (op.keeps? d.sink m).toList) :
    m.Changed d op next where
  size := by rw [htape]
  others := fun k _ => by rw [snapshot, snapshot, htape]
  written := fun k v _ hv => by rw [hstores] at hv; cases hv
  spared := fun _ => htape
  dp := hdp
  ip := hip
  output := hout

/-- An operation that stores a value replaces one cell. -/
theorem Changed.of_put {k : Nat} {v : Int} (hplace : op.place? m = some k)
    (hk : k < m.tape.size) (hstores : op.stores? d m = some v)
    (htape : next.tape = m.tape.put k (UInt8.ofInt v))
    (hdp : next.dp = (op.leads? m).getD m.dp) (hip : next.ip = (op.jumps? m).getD m.ip)
    (hout : next.output.toList = m.output.toList ++ (op.keeps? d.sink m).toList) :
    m.Changed d op next where
  size := by rw [htape, Tape.size_put]
  others := by
    intro j hj
    have hne : k ≠ j := by
      rintro rfl
      exact hj hplace
    rw [snapshot, snapshot, Array.getElem?_map, Array.getElem?_map, htape, Tape.put,
      Array.getElem?_setIfInBounds_ne hne]
  written := by
    intro j w hj hw
    obtain rfl := Option.some.inj (hplace.symm.trans hj)
    obtain rfl := Option.some.inj (hstores.symm.trans hw)
    rw [snapshot, Array.getElem?_map, htape, Tape.put, Array.getElem?_setIfInBounds_self_of_lt hk,
      Option.map_some, toNat_ofInt]
  spared := fun hnone => by rw [hstores] at hnone; cases hnone
  dp := hdp
  ip := hip
  output := hout

/-! ## One operation -/

theorem changed_add {n : Int} (h : m.add n = .done next) : m.Changed d (.add n) next := by
  rw [add] at h
  cases hk : m.tape.index? m.dp with
  | none => rw [hk] at h; cases h
  | some k =>
      rw [hk] at h
      cases h
      have hlt : k < m.tape.size := resolve?_lt hk
      have hb : m.tape.cells[k]? = some m.tape.cells[k] := Array.getElem?_eq_getElem hlt
      have hcell : m.cell? = some m.tape.cells[k] := by
        rw [cell?, Tape.get?, hk]
        exact hb
      refine .of_put hk hlt ?_ (Tape.shift_eq_put hb n) rfl rfl (List.append_nil _).symm
      rw [Operation.stores?, hcell]
      rfl

/-- A move changes the data pointer only. -/
theorem changed_move {n : Int} (h : m.move n = .done next) : m.Changed d (.move n) next := by
  rw [move] at h
  split at h
  · cases h
    exact .of_tape_eq rfl rfl rfl rfl (List.append_nil _).symm
  · cases h

/-- A bracket that is not taken changes nothing, and one that is only the instruction
    pointer. -/
theorem changed_jumpIf {test : UInt8 → Bool} {target : Int}
    (h : m.jumpIf test target = .done next) (hstores : op.stores? d m = none)
    (hleads : op.leads? m = none) (hkeeps : op.keeps? d.sink m = none)
    (hjumps : ∀ b, m.cell? = some b → op.jumps? m = if test b then some target else none) :
    m.Changed d op next := by
  rw [jumpIf] at h
  cases hb : m.cell? with
  | none => rw [hb] at h; cases h
  | some b =>
      rw [hb] at h
      cases h
      refine .of_tape_eq hstores ?_ ?_ ?_ ?_
      · cases test b <;> rfl
      · rw [hleads]
        cases test b <;> rfl
      · rw [hjumps b hb]
        cases test b <;> rfl
      · rw [hkeeps]
        cases test b <;> exact (List.append_nil _).symm

theorem changed_look (h : m.perform d .look = .done next) : m.Changed d .look next := by
  rw [perform] at h
  split at h
  · cases h
    exact .of_tape_eq rfl rfl rfl rfl (List.append_nil _).symm
  · cases h

/-- A poll stores the value of the reply, and nothing if there is none. -/
theorem changed_poll (h : m.poll d.source = .done next) : m.Changed d .poll next := by
  have hnil : ∀ bytes : Array UInt8, bytes.toList = bytes.toList ++ (none : Option UInt8).toList :=
    fun bytes => (List.append_nil _).symm
  rw [poll] at h
  cases hreply : d.source m.traffic.polls with
  | nothing =>
      rw [hreply] at h
      cases h
      exact .of_tape_eq (by rw [Operation.stores?, hreply]) rfl rfl rfl (hnil _)
  | failure text => rw [hreply] at h; cases h
  | value v =>
      rw [hreply] at h
      dsimp only at h
      cases hk : (m.heard (.value v)).tape.index? (m.heard (.value v)).dp with
      | none => rw [hk] at h; cases h
      | some k =>
          rw [hk] at h
          cases h
          exact .of_put hk (resolve?_lt hk) (by rw [Operation.stores?, hreply]) rfl rfl rfl (hnil _)

/-- An emission changes the output at most, and that only if nothing else takes the
    byte. -/
theorem changed_emit (h : m.emit d.sink = .done next) : m.Changed d .emit next := by
  obtain ⟨source, sink⟩ := d
  rw [emit] at h
  cases hb : m.cell? with
  | none => rw [hb] at h; cases h
  | some b =>
      rw [hb] at h
      cases sink with
      | collect =>
          cases h
          refine .of_tape_eq rfl rfl rfl rfl ?_
          rw [Operation.keeps?, hb]
          exact Array.toList_push
      | stream flush =>
          cases h
          exact .of_tape_eq rfl rfl rfl rfl (List.append_nil _).symm
      | consumer judge =>
          dsimp only at h
          cases hverdict : judge m.traffic.offered b with
          | refused text => rw [hverdict] at h; cases h
          | accepted =>
              rw [hverdict] at h
              cases h
              exact .of_tape_eq rfl rfl rfl rfl (List.append_nil _).symm

/-- An assignment stores its value where it says. -/
theorem changed_assign {i v : Int} (h : m.assign i v = .done next) :
    m.Changed d (.assign i v) next := by
  rw [assign] at h
  split at h
  · cases h
  split at h
  · cases h
  cases hk : m.tape.index? i with
  | none => rw [hk] at h; cases h
  | some k =>
      rw [hk] at h
      cases h
      exact .of_put hk (resolve?_lt hk) rfl rfl rfl rfl (List.append_nil _).symm

/-- **A success changes what the operation is about,** and nothing else. -/
theorem changed_of_perform (h : m.perform d op = .done next) : m.Changed d op.plain next := by
  cases op with
  | exec instr =>
      cases instr with
      | jumpIfZero target =>
          refine changed_jumpIf h rfl rfl rfl ?_
          intro b hb
          simp [Operation.plain, Operation.jumps?, hb]
      | jumpIfNonzero target =>
          refine changed_jumpIf h rfl rfl rfl ?_
          intro b hb
          by_cases hzero : b = 0 <;> simp [Operation.plain, Operation.jumps?, hb, hzero]
      | act a =>
          cases a with
          | inc => exact changed_add h
          | dec => exact changed_add h
          | right => exact changed_move h
          | left => exact changed_move h
          | emit => exact changed_emit h
          | poll => exact changed_poll h
  | add n => exact changed_add h
  | move n => exact changed_move h
  | look => exact changed_look h
  | poll => exact changed_poll h
  | emit => exact changed_emit h
  | assign i v => exact changed_assign h
  | jump target => cases h; exact .of_tape_eq rfl rfl rfl rfl (List.append_nil _).symm
  | setIp i => cases h; exact .of_tape_eq rfl rfl rfl rfl (List.append_nil _).symm
  | setDp i => cases h; exact .of_tape_eq rfl rfl rfl rfl (List.append_nil _).symm

end Machine

/-- What becomes of a machine by one operation: a success changes what the operation is
    about, a failure nothing. -/
def Attempt.Framed (d : Devices) (op : Operation) (m : Machine) : Attempt → Prop
  | .done next => m.Changed d op.plain next
  | .failed _ left => m.Untouched left

namespace Machine

variable {d : Devices} {m : Machine}

theorem framed_perform (d : Devices) (op : Operation) (m : Machine) :
    (m.perform d op).Framed d op m := by
  cases h : m.perform d op with
  | done next => exact changed_of_perform h
  | failed why left => exact (perform_eq_failed_iff.mp h).untouched

/-- The bytes kept are never given up, only added to. -/
theorem output_prefix_perform (d : Devices) (op : Operation) (m : Machine) :
    m.output.toList <+: (m.perform d op).machine.output.toList := by
  have hframed := framed_perform d op m
  cases h : m.perform d op with
  | done next =>
      rw [h] at hframed
      exact ⟨_, hframed.output.symm⟩
  | failed why left =>
      rw [h] at hframed
      have hout : m.output.toList = left.output.toList := congrArg Array.toList hframed.output.symm
      exact ⟨[], (List.append_nil _).trans hout⟩

theorem output_perform_of_keeps? {op : Operation} (hkeeps : op.plain.keeps? d.sink m = none) :
    (m.perform d op).machine.output = m.output := by
  have hframed := framed_perform d op m
  cases h : m.perform d op with
  | done next =>
      rw [h] at hframed
      have hout : next.output.toList = m.output.toList ++ _ := hframed.output
      rw [hkeeps] at hout
      exact Array.toList_inj.mp (hout.trans (List.append_nil _))
  | failed why left =>
      rw [h] at hframed
      exact hframed.output

/-! ## Operations in a row -/

/-- Carry out operations one after the other.  The next one is carried out whether or
    not the last one failed. -/
def performAll (d : Devices) : List Operation → Machine → Machine
  | [], m => m
  | op :: ops, m => performAll d ops (m.perform d op).machine

theorem size_perform (d : Devices) (op : Operation) (m : Machine) :
    (m.perform d op).machine.tape.size = m.tape.size := by
  have hframed := framed_perform d op m
  cases h : m.perform d op with
  | done next => rw [h] at hframed; exact hframed.size
  | failed why left => rw [h] at hframed; exact congrArg Tape.size hframed.tape

/-- No sequence of operations changes the length of the tape. -/
theorem size_performAll (d : Devices) (ops : List Operation) (m : Machine) :
    (m.performAll d ops).tape.size = m.tape.size := by
  induction ops generalizing m with
  | nil => rfl
  | cons op ops ih => exact (ih _).trans (size_perform d op m)

/-- Adding twice is adding the sum, if there is a current cell. -/
theorem exists_add_add (hcell : m.cell? ≠ none) (a b : Int) :
    ∃ x y, m.add a = .done x ∧ x.add b = .done y ∧ m.add (a + b) = .done y := by
  cases hk : m.tape.index? m.dp with
  | none => exact absurd (cell?_eq_none_iff_index?.mpr hk) hcell
  | some k =>
      have hk' : (m.tape.shift k a).index? m.dp = some k := by
        rw [Tape.index?, Tape.size_shift]
        exact hk
      refine ⟨_, _, by rw [add, hk], ?_, by rw [add, hk]⟩
      rw [add]
      dsimp only
      rw [hk']
      dsimp only
      rw [Tape.shift_shift]

/-- Where there is no sink, a byte to emit is kept. -/
theorem emit_collect {b : UInt8} (hb : m.cell? = some b) (hsink : d.sink = .collect) :
    m.emit d.sink = .done (m.kept b) := by
  rw [emit, hb, hsink]

end Machine

/-- **Operations change what they are about, and keep the cells in order.**  Carry out
    operations in a row on any machine, whether or not they fail.  The tape keeps its
    length and its cells stay in `0 … 255`.  The next operation, if it succeeds, changes no
    cell but one, the assigned or else the current one, which receives the low eight bits
    of what is stored; it takes the data pointer elsewhere only if it moves or assigns
    it, the instruction pointer only if it jumps, is a bracket whose jump is taken, or
    assigns it, and it adds to the bytes kept only if it emits where there is no sink,
    and then the current byte.  If it fails it changes none of these.  And where there is a
    current cell, adding `a` and then `b` to it is adding `a + b`, and emitting without a sink
    succeeds and keeps its byte. -/
theorem operations_framed (d : Devices) (m : Machine) (ops : List Operation) :
    (m.performAll d ops).tape.size = m.tape.size ∧
    (∀ v ∈ (m.performAll d ops).snapshot.tape, 0 ≤ v ∧ v ≤ 255) ∧
    (∀ op, ((m.performAll d ops).perform d op).Framed d op (m.performAll d ops)) ∧
    (-(m.tape.size : Int) ≤ (m.performAll d ops).dp →
      (m.performAll d ops).dp < m.tape.size →
        (∀ a b, ∃ x y,
          (m.performAll d ops).perform d (.add a) = .done x ∧
          x.perform d (.add b) = .done y ∧
          (m.performAll d ops).perform d (.add (a + b)) = .done y) ∧
        (d.sink = .collect → ∃ b x, (m.performAll d ops).cell? = some b ∧
          (m.performAll d ops).perform d .emit = .done x ∧
          x.output = (m.performAll d ops).output.push b)) := by
  have hsize := Machine.size_performAll d ops m
  refine ⟨hsize, Machine.snapshot_tape_range _, fun op => Machine.framed_perform d op _, ?_⟩
  intro hlow hhigh
  have hcell : (m.performAll d ops).cell? ≠ none := by
    rw [Ne, Machine.cell?_eq_none_iff, hsize]
    exact fun hoff => hoff ⟨hlow, hhigh⟩
  refine ⟨Machine.exists_add_add hcell, fun hsink => ?_⟩
  obtain ⟨b, hb⟩ := Option.ne_none_iff_exists'.mp hcell
  exact ⟨b, _, hb, Machine.emit_collect hb hsink, rfl⟩

/-- The pointer is put on the last cell from behind, a move fails and changes nothing, and
    numbers that are no bytes are added: the cell holds what is left modulo 256, and that is
    what is emitted. -/
theorem operations_framed_last_cell :
    ∃ m x y z, m = (Machine.fresh 2).performAll ⟨Source.exhausted, .collect⟩
        [.setDp (-1), .move (-4), .add 300] ∧
      m.tape.size = 2 ∧ m.dp = -1 ∧
      m.perform ⟨Source.exhausted, .collect⟩ (.add (-1000)) = .done x ∧
      x.perform ⟨Source.exhausted, .collect⟩ (.add 10) = .done y ∧
      m.perform ⟨Source.exhausted, .collect⟩ (.add (-1000 + 10)) = .done y ∧
      y.snapshot.tape[1]? = some 78 ∧
      m.perform ⟨Source.exhausted, .collect⟩ .emit = .done z ∧ z.output = #[44] := by
  obtain ⟨hsize, -, hframed, hcurrent⟩ := operations_framed ⟨Source.exhausted, .collect⟩
    (Machine.fresh 2) [.setDp (-1), .move (-4), .add 300]
  obtain ⟨hadd, hemit⟩ := hcurrent (by decide) (by decide)
  obtain ⟨x, y, hx, hy, hsum⟩ := hadd (-1000) 10
  obtain ⟨b, z, hb, hz, houtput⟩ := hemit rfl
  have hchanged := hframed (.add (-1000 + 10))
  rw [hsum] at hchanged
  have hcell := hchanged.written 1 (-946) (by decide +kernel) (by decide +kernel)
  rw [show (-946 : Int) % 256 = 78 by decide] at hcell
  obtain rfl : (44 : UInt8) = b := Option.some.inj hb
  exact ⟨_, x, y, z, rfl, hsize, rfl, hx, hy, hsum, hcell, hz, houtput⟩

end ByteTape
