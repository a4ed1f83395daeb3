import ByteTape.Machine

/-! # Snapshots

    A snapshot is the record of a machine at halt: what it emitted, its cells,
    its data pointer and its step count.  It is a value of its own and does
    not follow the machine any further.

    A snapshot can also be put together by hand, field by field.  There the
    fields are given by name and the values carry their own kind, so both may
    be wrong; `Snapshot.set` and `Snapshot.ofFields` say how.  The numbers are
    taken as they are: no range is imposed on a record made by hand. -/

namespace ByteTape

/-- The record of a machine at halt. -/
structure Snapshot where
  output : Array UInt8
  tape : Array Int
  dataPointer : Int
  steps : Int
deriving DecidableEq, Repr

/-- What a machine shows when it halts. -/
def Machine.snapshot (m : Machine) : Snapshot :=
  ⟨m.output, m.tape.cells.map fun b => (b.toNat : Int), m.dp, m.steps⟩

namespace Snapshot

/-- Nothing emitted, no cells, and both numbers zero. -/
def empty : Snapshot := ⟨#[], #[], 0, 0⟩

/-- The output read as text, one character per byte. -/
def text (s : Snapshot) : String :=
  String.ofList (s.output.toList.map fun b => Char.ofNat b.toNat)

/-- The four fields of a snapshot. -/
inductive Field where
  | output
  | tape
  | dataPointer
  | steps
deriving DecidableEq, Repr

/-- The field of a given name. -/
def Field.ofName? : String → Option Field
  | "output" => some .output
  | "tape" => some .tape
  | "data_pointer" => some .dataPointer
  | "steps" => some .steps
  | _ => none

/-- A value offered for a field. -/
inductive Value where
  | bytes (data : Array UInt8)
  | integer (n : Int)
  | cells (values : Array Int)
  /-- A value of a kind that no field takes. -/
  | foreign (kind : String)
deriving DecidableEq, Repr

/-- Why a value cannot be put into a snapshot. -/
inductive FieldError where
  /-- There is no field of that name. -/
  | unknown
  /-- The field does not take values of that kind. -/
  | wrongKind
deriving DecidableEq, Repr

/-- Put a value into a field that takes its kind. -/
def put (s : Snapshot) : Field → Value → Except FieldError Snapshot
  | .output, .bytes data => .ok { s with output := data }
  | .tape, .cells values => .ok { s with tape := values }
  | .dataPointer, .integer n => .ok { s with dataPointer := n }
  | .steps, .integer n => .ok { s with steps := n }
  | _, _ => .error .wrongKind

/-- Put a value into the field of a given name. -/
def set (s : Snapshot) (name : String) (v : Value) : Except FieldError Snapshot :=
  match Field.ofName? name with
  | some f => s.put f v
  | none => .error .unknown

/-- Put every value into the field it names; names that are no field are
    passed over. -/
def putKnown (s : Snapshot) : List (String × Value) → Except FieldError Snapshot
  | [] => .ok s
  | (name, v) :: rest =>
      match Field.ofName? name with
      | none => s.putKnown rest
      | some f =>
          match s.put f v with
          | .ok next => next.putKnown rest
          | .error e => .error e

/-- The snapshot with the given fields, and the others empty.  A value of the
    wrong kind is reported before a name that is no field. -/
def ofFields (fields : List (String × Value)) : Except FieldError Snapshot :=
  match empty.putKnown fields with
  | .error e => .error e
  | .ok s => if fields.all fun f => (Field.ofName? f.1).isSome then .ok s else .error .unknown

end Snapshot

end ByteTape
