/-! # Reading bytes as UTF-8

    Every byte string reads as a text.  Well-formed sequences become their
    characters; what is not well formed becomes the replacement character,
    one for each longest start of a sequence that the next byte cannot
    continue, and one for each byte that starts no sequence.

    * `Unfinished` — a sequence whose last bytes are still to come;
    * `lead` — what a byte means at the start of a sequence;
    * `Decoder.feed` — read one byte;
    * `decode` — read them all.

    A byte that breaks a sequence is not lost: it is read again as the start
    of the next one.  In particular a byte below 128 always stands for
    itself. -/

namespace ByteTape.Utf8

/-- What stands in a text for bytes that are no character. -/
def replacement : Char := Char.ofNat 0xFFFD

/-- A sequence that has begun well: how many bytes are missing, the range the
    next of them must lie in, and the bits read so far. -/
structure Unfinished where
  missing : Nat
  low : UInt8
  high : UInt8
  bits : Nat
deriving DecidableEq, Repr

/-- The meaning of a byte at the start of a sequence. -/
inductive Lead where
  /-- It is a character by itself. -/
  | single (c : Char)
  /-- It starts a longer sequence. -/
  | opens (u : Unfinished)
  /-- It starts no sequence. -/
  | stray
deriving DecidableEq, Repr

/-- Read a byte as the start of a sequence.  The range of the second byte
    leaves out overlong forms, surrogates and everything past the last code
    point. -/
def lead (b : UInt8) : Lead :=
  if b < 0x80 then .single (Char.ofNat b.toNat)
  else if b < 0xC2 then .stray
  else if b < 0xE0 then .opens ⟨1, 0x80, 0xBF, b.toNat % 32⟩
  else if b < 0xF0 then
    .opens ⟨2, if b = 0xE0 then 0xA0 else 0x80, if b = 0xED then 0x9F else 0xBF, b.toNat % 16⟩
  else if b < 0xF5 then
    .opens ⟨3, if b = 0xF0 then 0x90 else 0x80, if b = 0xF4 then 0x8F else 0xBF, b.toNat % 8⟩
  else .stray

/-- The text read so far, and the sequence that is under way. -/
structure Decoder where
  text : Array Char
  pending : Option Unfinished
deriving DecidableEq, Repr

namespace Decoder

/-- Before the first byte. -/
def empty : Decoder := ⟨#[], none⟩

/-- Read a byte with no sequence under way. -/
def start (text : Array Char) (b : UInt8) : Decoder :=
  match lead b with
  | .single c => ⟨text.push c, none⟩
  | .opens u => ⟨text, some u⟩
  | .stray => ⟨text.push replacement, none⟩

/-- Read a byte that continues a sequence. -/
def extend (text : Array Char) (u : Unfinished) (b : UInt8) : Decoder :=
  let bits := u.bits * 64 + b.toNat % 64
  if u.missing ≤ 1 then ⟨text.push (Char.ofNat bits), none⟩
  else ⟨text, some ⟨u.missing - 1, 0x80, 0xBF, bits⟩⟩

/-- Read one byte. -/
def feed (d : Decoder) (b : UInt8) : Decoder :=
  match d.pending with
  | none => start d.text b
  | some u =>
      if u.low ≤ b ∧ b ≤ u.high then extend d.text u b
      else start (d.text.push replacement) b

/-- After the last byte: a sequence still under way is broken off. -/
def finish (d : Decoder) : Array Char :=
  match d.pending with
  | none => d.text
  | some _ => d.text.push replacement

end Decoder

/-- The text of a byte string. -/
def decode (bytes : List UInt8) : List Char :=
  (bytes.foldl Decoder.feed Decoder.empty).finish.toList

end ByteTape.Utf8
