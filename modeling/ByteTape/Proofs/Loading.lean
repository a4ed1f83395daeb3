import ByteTape.Directory
import ByteTape.Proofs.Passes
import Mathlib.Algebra.Group.Nat.Defs

/-! # What loading leaves of a file

    A file is any byte string.  Loading reads it as UTF-8, puts a replacement
    character where it is none, and unifies the line ends; so the text may be
    shorter than the file, and its characters other ones.  None of this touches
    a symbol:

    * the decoder takes a byte below 128 for itself, wherever it comes: in the
      middle of a sequence it ends the sequence and is read again
      (`Decoder.scan_feed`);
    * what it makes of longer sequences, and of what is no sequence, is never a
      symbol, because a sequence that has begun stands for a code point from 128
      on (`Unfinished.Sound`);
    * a line end is no symbol (`Unifier.scan_feed`).

    So the symbols of a loaded text are those of the bytes read one by one
    (`scan_sourceText`), and `load_keeps_symbols` says what this means for
    loading and parsing. -/

namespace ByteTape

/-- The byte is the code of one of the eight characters. -/
def isSymbolByte (b : UInt8) : Bool := "><+-.,[]".toList.any fun c => c.toNat == b.toNat

/-- The character whose code point is the byte. -/
def charOfByte (b : UInt8) : Char := Char.ofNat b.toNat

/-- A byte string read one character for each byte. -/
def latin1 (content : List UInt8) : String := String.ofList (content.map charOfByte)

/-! ## Characters that are no symbols -/

theorem Symbol.toNat_toChar_lt (s : Symbol) : s.toChar.toNat < 128 := by
  cases s with
  | act a => cases a <;> decide
  | opener => decide
  | closer => decide

/-- All symbols are ASCII characters. -/
theorem Symbol.ofChar?_eq_none_of_le {c : Char} (h : 128 ≤ c.toNat) : ofChar? c = none := by
  cases hs : ofChar? c with
  | none => rfl
  | some s =>
      have hlt := s.toNat_toChar_lt
      rw [toChar_of_ofChar? hs] at hlt
      omega

/-- A number that is no code point stands for the character zero. -/
theorem Symbol.ofChar?_ofNat_of_le {n : Nat} (h : 128 ≤ n) : ofChar? (Char.ofNat n) = none := by
  by_cases hn : n.isValidChar
  · rw [Char.ofNat, dif_pos hn]
    exact ofChar?_eq_none_of_le h
  · rw [Char.ofNat, dif_neg hn]
    rfl

/-- A character that is no symbol can be added unnoticed. -/
theorem scanChars_push {text : Array Char} {c : Char} (h : Symbol.ofChar? c = none) :
    scanChars (text.push c).toList = scanChars text.toList := by
  rw [Array.toList_push, scanChars_append]
  simp [scanChars, h]

/-! ## Decoding -/

namespace Utf8

theorem ofChar?_replacement : Symbol.ofChar? replacement = none := rfl

/-- The next byte of the sequence is no ASCII character, and neither is the
    character that its bytes will make. -/
structure Unfinished.Sound (u : Unfinished) : Prop where
  low : 128 ≤ u.low.toNat
  high : u.high.toNat ≤ 191
  beyond : 128 ≤ (u.bits * 64 + (u.low.toNat - 128)) * 64 ^ (u.missing - 1)

/-- Where the first byte brings no bits, the range of the second makes up for it. -/
private theorem sound_ranges {b zero last lo hi : UInt8} {missing bits : Nat}
    (hm : 2 ≤ missing) (hlo : 128 ≤ lo.toNat) (hhi : hi.toNat ≤ 191)
    (hzero : 128 ≤ (lo.toNat - 128) * 64 ^ (missing - 1)) (hbits : b ≠ zero → 0 < bits) :
    Unfinished.Sound
      ⟨missing, if b = zero then lo else 0x80, if b = last then hi else 0xBF, bits⟩ := by
  refine ⟨?_, ?_, ?_⟩
  · dsimp only
    split
    · exact hlo
    · exact Nat.le_refl 128
  · dsimp only
    split
    · exact hhi
    · exact Nat.le_refl 191
  · dsimp only
    by_cases hb : b = zero
    · rw [if_pos hb]
      exact Nat.le_trans hzero (Nat.mul_le_mul_right _ (Nat.le_add_left _ _))
    · rw [if_neg hb]
      have hone := hbits hb
      calc 128 ≤ 64 * 64 ^ 1 := by decide
        _ ≤ (bits * 64 + 0) * 64 ^ (missing - 1) :=
            Nat.mul_le_mul (by omega) (Nat.pow_le_pow_right (by decide) (by omega))

/-- A byte that opens a sequence opens a sound one. -/
theorem sound_of_lead {b : UInt8} {u : Unfinished} (h : lead b = .opens u) : u.Sound := by
  have hne : ∀ {c : UInt8}, b ≠ c → b.toNat ≠ c.toNat := fun hb heq => hb (UInt8.toNat_inj.mp heq)
  unfold lead at h
  simp only [UInt8.lt_iff_toNat_lt] at h
  split at h
  · cases h
  split at h
  · cases h
  split at h
  · -- two bytes: `C0` and `C1` are no lead bytes, so there are bits enough
    next hlow hhigh =>
    cases h
    refine ⟨Nat.le_refl 128, Nat.le_refl 191, ?_⟩
    simp only [UInt8.reduceToNat] at *
    omega
  split at h
  · -- three bytes, of which `E0` brings no bits
    next hlow hhigh =>
    cases h
    refine sound_ranges (Nat.le_refl 2) (by decide) (by decide) (by decide) fun hb => ?_
    have hb' := hne hb
    simp only [UInt8.reduceToNat] at *
    omega
  split at h
  · -- four bytes, of which `F0` brings none
    next hlow hhigh =>
    cases h
    refine sound_ranges (by decide) (by decide) (by decide) (by decide) fun hb => ?_
    have hb' := hne hb
    simp only [UInt8.reduceToNat] at *
    omega
  · cases h

/-- The bytes that are characters by themselves are those below 128. -/
theorem lead_eq_single_iff {b : UInt8} {c : Char} :
    lead b = .single c ↔ b.toNat < 128 ∧ c = charOfByte b := by
  rw [lead]
  by_cases hb : b < 0x80
  · rw [if_pos hb]
    constructor
    · intro h
      exact ⟨UInt8.lt_iff_toNat_lt.mp hb, (Lead.single.inj h).symm⟩
    · rintro ⟨-, rfl⟩
      rfl
  · rw [if_neg hb]
    constructor
    · intro h
      split at h
      · cases h
      split at h
      · cases h
      split at h
      · cases h
      split at h <;> cases h
    · rintro ⟨hlt, -⟩
      exact absurd (UInt8.lt_iff_toNat_lt.mpr hlt) hb

/-- Bytes from 128 on are no symbols. -/
theorem scanChars_of_le {b : UInt8} (h : 128 ≤ b.toNat) : scanChars [charOfByte b] = [] :=
  List.filterMap_cons_none (Symbol.ofChar?_ofNat_of_le h)

namespace Decoder

/-- The sequence under way is a sound one. -/
def Sound (d : Decoder) : Prop := ∀ u, d.pending = some u → u.Sound

theorem sound_empty : empty.Sound := fun _ h => nomatch h

theorem sound_start (text : Array Char) (b : UInt8) : (start text b).Sound := by
  intro u hu
  rw [start] at hu
  cases hl : lead b with
  | single c => rw [hl] at hu; exact nomatch hu
  | opens v =>
      rw [hl] at hu
      obtain rfl := Option.some.inj hu
      exact sound_of_lead hl
  | stray => rw [hl] at hu; exact nomatch hu

/-- With no sequence under way, a byte is read for the symbol it is. -/
theorem scan_start (text : Array Char) (b : UInt8) :
    scanChars (start text b).text.toList
      = scanChars text.toList ++ scanChars [charOfByte b] := by
  have hge : (∀ c, lead b ≠ .single c) → scanChars [charOfByte b] = [] := by
    intro hne
    refine scanChars_of_le (Nat.not_lt.mp fun hlt => ?_)
    exact hne _ (lead_eq_single_iff.mpr ⟨hlt, rfl⟩)
  rw [start]
  cases hl : lead b with
  | single c =>
      obtain ⟨-, rfl⟩ := lead_eq_single_iff.mp hl
      rw [Array.toList_push, scanChars_append]
  | opens u =>
      rw [hge (by rw [hl]; intro c hc; exact nomatch hc), List.append_nil]
  | stray =>
      rw [hge (by rw [hl]; intro c hc; exact nomatch hc), List.append_nil]
      exact scanChars_push ofChar?_replacement

/-- The bits of a sequence after one more byte of it. -/
private theorem le_bits {u : Unfinished} (hu : u.Sound) {b : UInt8}
    (hb : u.low ≤ b ∧ b ≤ u.high) :
    128 ≤ b.toNat ∧ 128 ≤ (u.bits * 64 + b.toNat % 64) * 64 ^ (u.missing - 1) := by
  have hlow := UInt8.le_iff_toNat_le.mp hb.1
  have hhigh := UInt8.le_iff_toNat_le.mp hb.2
  have h0 := hu.low
  have h1 := hu.high
  refine ⟨by omega, Nat.le_trans hu.beyond (Nat.mul_le_mul_right _ ?_)⟩
  omega

theorem sound_extend (text : Array Char) {u : Unfinished} (hu : u.Sound) {b : UInt8}
    (hb : u.low ≤ b ∧ b ≤ u.high) : (extend text u b).Sound := by
  intro v hv
  rw [extend] at hv
  by_cases hm : u.missing ≤ 1
  · rw [if_pos hm] at hv
    exact nomatch hv
  · rw [if_neg hm] at hv
    obtain rfl := Option.some.inj hv
    refine ⟨Nat.le_refl 128, Nat.le_refl 191, ?_⟩
    have hpow : 64 ^ (u.missing - 1) = 64 * 64 ^ (u.missing - 1 - 1) := by
      rw [← Nat.pow_succ', show (u.missing - 1 - 1).succ = u.missing - 1 by omega]
    have hbits := (le_bits hu hb).2
    rw [hpow, ← Nat.mul_assoc] at hbits
    dsimp only
    rw [show (0x80 : UInt8).toNat - 128 = 0 from rfl, Nat.add_zero]
    exact hbits

/-- A byte that continues a sequence is no symbol, and neither is the character
    it may complete. -/
theorem scan_extend (text : Array Char) {u : Unfinished} (hu : u.Sound) {b : UInt8}
    (hb : u.low ≤ b ∧ b ≤ u.high) :
    scanChars (extend text u b).text.toList
      = scanChars text.toList ++ scanChars [charOfByte b] := by
  obtain ⟨hge, hbits⟩ := le_bits hu hb
  rw [scanChars_of_le hge, List.append_nil, extend]
  by_cases hm : u.missing ≤ 1
  · rw [if_pos hm]
    rw [show u.missing - 1 = 0 by omega, Nat.pow_zero, Nat.mul_one] at hbits
    exact scanChars_push (Symbol.ofChar?_ofNat_of_le hbits)
  · rw [if_neg hm]

/-- **No byte leads out of the sound states.** -/
theorem Sound.feed {d : Decoder} (hd : d.Sound) (b : UInt8) : (d.feed b).Sound := by
  rw [Decoder.feed]
  cases hp : d.pending with
  | none => exact sound_start _ _
  | some u =>
      dsimp only
      by_cases hb : u.low ≤ b ∧ b ≤ u.high
      · rw [if_pos hb]
        exact sound_extend _ (hd u hp) hb
      · rw [if_neg hb]
        exact sound_start _ _

/-- **A byte adds the symbol it is,** whatever sequence is under way. -/
theorem scan_feed {d : Decoder} (hd : d.Sound) (b : UInt8) :
    scanChars (d.feed b).text.toList
      = scanChars d.text.toList ++ scanChars [charOfByte b] := by
  rw [feed]
  cases hp : d.pending with
  | none => exact scan_start _ _
  | some u =>
      dsimp only
      by_cases hb : u.low ≤ b ∧ b ≤ u.high
      · rw [if_pos hb]
        exact scan_extend _ (hd u hp) hb
      · -- the sequence breaks off, and the byte is read again
        rw [if_neg hb, scan_start, scanChars_push ofChar?_replacement]

/-- Of many bytes the symbols are those that the bytes are by themselves. -/
theorem scan_foldl_feed (bytes : List UInt8) {d : Decoder} (hd : d.Sound) :
    scanChars (bytes.foldl feed d).text.toList
      = scanChars d.text.toList ++ scanChars (bytes.map charOfByte) := by
  induction bytes generalizing d with
  | nil => exact (List.append_nil _).symm
  | cons b rest ih =>
      rw [List.foldl_cons, ih (hd.feed b), scan_feed hd, List.append_assoc, ← scanChars_append]
      rfl

/-- What a sequence broken off leaves behind is no symbol. -/
theorem scan_finish (d : Decoder) : scanChars d.finish.toList = scanChars d.text.toList := by
  rw [finish]
  cases d.pending with
  | none => rfl
  | some u => exact scanChars_push ofChar?_replacement

end Decoder

/-- **Decoding keeps the symbols.** -/
theorem scan_decode (bytes : List UInt8) :
    scanChars (decode bytes) = scanChars (bytes.map charOfByte) := by
  rw [decode, Decoder.scan_finish, Decoder.scan_foldl_feed bytes Decoder.sound_empty]
  rfl

end Utf8

/-! ## Line ends -/

namespace Newline

/-- A character adds the symbol it is, wherever it stands in a line end. -/
theorem Unifier.scan_feed (u : Unifier) (c : Char) :
    scanChars (u.feed c).text.toList = scanChars u.text.toList ++ scanChars [c] := by
  rw [feed]
  by_cases hr : c = '\r'
  · subst hr
    rw [if_pos rfl, scanChars_push rfl]
    exact (List.append_nil _).symm
  · rw [if_neg hr]
    by_cases hn : c = '\n' ∧ u.afterReturn = true
    · rw [if_pos hn, hn.1]
      exact (List.append_nil _).symm
    · rw [if_neg hn, Array.toList_push, scanChars_append]

/-- Newlines can be unified as the characters come, and no symbol is lost. -/
theorem Unifier.scan_foldl_feed (cs : List Char) (u : Unifier) :
    scanChars (cs.foldl feed u).text.toList = scanChars u.text.toList ++ scanChars cs := by
  induction cs generalizing u with
  | nil => exact (List.append_nil _).symm
  | cons c rest ih =>
      rw [List.foldl_cons, ih, scan_feed, List.append_assoc, ← scanChars_append]
      rfl

theorem scan_unify (cs : List Char) : scanChars (unify cs) = scanChars cs :=
  Unifier.scan_foldl_feed cs Unifier.empty

end Newline

/-! ## Loading -/

/-- The symbols of a loaded text are those of the bytes of its file. -/
theorem scan_sourceText (content : List UInt8) :
    scan (sourceText content) = scan (latin1 content) := by
  rw [scan, scan, sourceText, latin1, String.toList_ofList, String.toList_ofList,
    Newline.scan_unify, Utf8.scan_decode]

theorem toNat_charOfByte (b : UInt8) : (charOfByte b).toNat = b.toNat := by
  have hv : b.toNat.isValidChar := Or.inl (Nat.lt_trans b.toNat_lt (by decide))
  rw [charOfByte, Char.ofNat, dif_pos hv]
  rfl

theorem isSymbolByte_eq (b : UInt8) : isSymbolByte b = isSymbolChar (charOfByte b) := by
  rw [isSymbolByte, isSymbolChar, List.contains_eq_any_beq]
  congr 1
  funext c
  rw [Bool.eq_iff_iff, beq_iff_eq, beq_iff_eq, ← toNat_charOfByte]
  exact ⟨fun h => Char.toNat_inj.mp h.symm, fun h => congrArg Char.toNat h.symm⟩

/-- Bytes read one by one, comments dropped: the bytes that are symbols. -/
theorem stripComments_latin1 (content : List UInt8) :
    (stripComments (latin1 content)).toList = (content.filter isSymbolByte).map charOfByte := by
  rw [stripComments, spell, scan, latin1, String.toList_ofList, String.toList_ofList,
    ← filter_isSymbolChar, List.filter_map]
  congr 2
  funext b
  exact (isSymbolByte_eq b).symm

/-- **Loading neither loses nor invents an instruction.**  A file that can be
    read loads, whatever its bytes are; what the comments leave of the text are
    the bytes of the file that are symbols, in order; and the text parses to
    the program, or is refused at the place, of the bytes read one by one. -/
theorem load_keeps_symbols {d : Directory} {path : String} {content : List UInt8}
    (hnul : ¬ Char.ofNat 0 ∈ path.toList) (hread : d.read (Path.parse path) = .ok content) :
    ∃ text, load d path = .ok text ∧
      (stripComments text).toList = (content.filter isSymbolByte).map charOfByte ∧
      Program.parse text = Program.parse (latin1 content) := by
  refine ⟨sourceText content, ?_, ?_, ?_⟩
  · rw [load, if_neg (by simpa using hnul), hread]
  · rw [← stripComments_latin1, stripComments, stripComments, scan_sourceText]
  · rw [Program.parse, Program.parse, scan_sourceText]

/-- Three sequences that break off, each at a symbol, and a line end. -/
theorem load_keeps_symbols_broken_off :
    ∃ d text p, d = Directory.ofListing [] [("a.b",
        [0xE0, 0x2B, 0xF0, 0x9F, 0x98, 0x5B, 0xC2, 0x5D, 0x0D, 0x2E])] ∧
      load d "a.b" = .ok text ∧ (stripComments text).toList = ['+', '[', ']', '.'] ∧
      Program.parse text = .ok p ∧ p.jumps = [(1, 2), (2, 1)] := by
  have hread : (Directory.ofListing [] [("a.b",
      [0xE0, 0x2B, 0xF0, 0x9F, 0x98, 0x5B, 0xC2, 0x5D, 0x0D, 0x2E])]).read (Path.parse "a.b")
      = .ok [0xE0, 0x2B, 0xF0, 0x9F, 0x98, 0x5B, 0xC2, 0x5D, 0x0D, 0x2E] := rfl
  obtain ⟨text, hload, hstrip, hparse⟩ := load_keeps_symbols (by decide) hread
  exact ⟨_, text, _, rfl, hload, hstrip, hparse.trans rfl, rfl⟩

end ByteTape
