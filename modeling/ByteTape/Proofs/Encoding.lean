import ByteTape.Proofs.Loading

/-! # What loading makes of a text

    A file may hold a text in UTF-8.  Reading it back must undo the encoding, whatever the
    length of the sequences and wherever they stand; only the line ends come out otherwise.

    * `Utf8.lead_two`, `Utf8.lead_three`, `Utf8.lead_four` — what the first byte of a longer
      sequence promises;
    * `Utf8.Decoder.foldl_encodeChar` — the bytes of one character add this character to the
      text, and leave no sequence under way;
    * `Newline.mergePairs`, `Newline.asLineFeed` — the two replacements that unifying line
      ends amounts to: first of the pairs, then of the returns that remain
      (`Newline.unify_eq`).

    Where a first byte brings no bits, or could lead to a code point that is no character, the
    range of the second byte is narrower; the characters there are encoded by bytes within
    it.  `load_undoes_encoding` puts the two halves together. -/

namespace ByteTape

/-! ## Decoding -/

namespace Utf8

/-- A choice between bytes, as one between numbers. -/
theorem toNat_ite_eq (b x y z : UInt8) :
    (if b = x then y else z).toNat = if b.toNat = x.toNat then y.toNat else z.toNat := by
  rw [apply_ite UInt8.toNat]
  simp only [← UInt8.toNat_inj]

/-- A lead byte of two: five bits, and any tail byte may follow. -/
theorem lead_two {b : UInt8} (hlow : 0xC2 ≤ b.toNat) (hhigh : b.toNat < 0xE0) :
    lead b = .opens ⟨1, 0x80, 0xBF, b.toNat % 32⟩ := by
  simp only [lead, UInt8.lt_iff_toNat_lt, UInt8.reduceToNat]
  rw [if_neg (by omega), if_neg (by omega), if_pos hhigh]

/-- A lead byte of three: four bits.  Behind `E0` and `ED` the range of the next byte is
    cut. -/
theorem lead_three {b : UInt8} (hlow : 0xE0 ≤ b.toNat) (hhigh : b.toNat < 0xF0) :
    lead b = .opens ⟨2, if b = 0xE0 then 0xA0 else 0x80, if b = 0xED then 0x9F else 0xBF,
      b.toNat % 16⟩ := by
  simp only [lead, UInt8.lt_iff_toNat_lt, UInt8.reduceToNat]
  rw [if_neg (by omega), if_neg (by omega), if_neg (by omega), if_pos hhigh]

/-- A lead byte of four: three bits.  Behind `F0` and `F4` the range of the next byte is
    cut. -/
theorem lead_four {b : UInt8} (hlow : 0xF0 ≤ b.toNat) (hhigh : b.toNat < 0xF5) :
    lead b = .opens ⟨3, if b = 0xF0 then 0x90 else 0x80, if b = 0xF4 then 0x8F else 0xBF,
      b.toNat % 8⟩ := by
  simp only [lead, UInt8.lt_iff_toNat_lt, UInt8.reduceToNat]
  rw [if_neg (by omega), if_neg (by omega), if_neg (by omega), if_neg (by omega), if_pos hhigh]

namespace Decoder

/-- A lead byte puts its sequence under way. -/
theorem feed_opens (text : Array Char) {b : UInt8} {u : Unfinished} (h : lead b = .opens u) :
    feed ⟨text, none⟩ b = ⟨text, some u⟩ := by
  rw [feed, start, h]

theorem toNat_tail (v : Nat) : (UInt8.ofNat (v % 64 + 128)).toNat = v % 64 + 128 :=
  UInt8.toNat_ofNat_of_lt' (by show _ < 256; omega)

/-- A byte within the range continues the sequence. -/
theorem feed_tail (text : Array Char) {u : Unfinished} {v : Nat}
    (hlow : u.low.toNat ≤ v % 64 + 128) (hhigh : v % 64 + 128 ≤ u.high.toNat) :
    feed ⟨text, some u⟩ (UInt8.ofNat (v % 64 + 128))
      = if u.missing ≤ 1 then ⟨text.push (Char.ofNat (u.bits * 64 + v % 64)), none⟩
        else ⟨text, some ⟨u.missing - 1, 0x80, 0xBF, u.bits * 64 + v % 64⟩⟩ := by
  rw [← toNat_tail] at hlow hhigh
  rw [feed]
  dsimp only
  rw [if_pos ⟨UInt8.le_iff_toNat_le.mpr hlow, UInt8.le_iff_toNat_le.mpr hhigh⟩, extend,
    toNat_tail, show (v % 64 + 128) % 64 = v % 64 by omega]

/-- A tail byte in range adds six bits, and the sequence goes on. -/
theorem feed_more (text : Array Char) {n : Nat} {low high : UInt8} (bits : Nat) {v : Nat}
    (hlow : low.toNat ≤ v % 64 + 128) (hhigh : v % 64 + 128 ≤ high.toNat) :
    feed ⟨text, some ⟨n + 2, low, high, bits⟩⟩ (UInt8.ofNat (v % 64 + 128))
      = ⟨text, some ⟨n + 1, 0x80, 0xBF, bits * 64 + v % 64⟩⟩ := by
  rw [feed_tail text hlow hhigh, if_neg (by dsimp only; omega)]
  rfl

/-- The last tail byte completes the character. -/
theorem feed_last (text : Array Char) (bits v : Nat) :
    feed ⟨text, some ⟨1, 0x80, 0xBF, bits⟩⟩ (UInt8.ofNat (v % 64 + 128))
      = ⟨text.push (Char.ofNat (bits * 64 + v % 64)), none⟩ := by
  rw [feed_tail text (Nat.le_add_left 128 _) (by show _ ≤ 191; omega), if_pos (Nat.le_refl 1)]

section Sequences

variable {v : Nat}

/-- A code point below 128 is read from its one byte. -/
theorem foldl_one (text : Array Char) (h : v ≤ 0x7F) :
    [UInt8.ofNat v].foldl feed ⟨text, none⟩ = ⟨text.push (Char.ofNat v), none⟩ := by
  have hb : (UInt8.ofNat v).toNat = v := UInt8.toNat_ofNat_of_lt' (by show _ < 256; omega)
  have hlead : lead (UInt8.ofNat v) = .single (Char.ofNat v) :=
    lead_eq_single_iff.mpr ⟨by omega, by rw [charOfByte, hb]⟩
  rw [List.foldl_cons, feed, start, hlead]
  rfl

/-- A code point below 2048 is read from its two bytes. -/
theorem foldl_two (text : Array Char) (hlow : 0x80 ≤ v) (hhigh : v ≤ 0x7FF) :
    [UInt8.ofNat (v / 64 % 32 + 192), UInt8.ofNat (v % 64 + 128)].foldl feed ⟨text, none⟩
      = ⟨text.push (Char.ofNat v), none⟩ := by
  have hb : (UInt8.ofNat (v / 64 % 32 + 192)).toNat = v / 64 % 32 + 192 :=
    UInt8.toNat_ofNat_of_lt' (by show _ < 256; omega)
  rw [List.foldl_cons, feed_opens text (lead_two (by omega) (by omega)), hb,
    List.foldl_cons, feed_last, List.foldl_nil]
  congr 3
  omega

/-- The second byte is high enough after `E0`, as two bytes would have done for less; and low
    enough after `ED`, as there are no characters from `D800` to `DFFF`. -/
theorem foldl_three (text : Array Char) (hlow : 0x800 ≤ v) (hhigh : v ≤ 0xFFFF)
    (hv : v < 0xD800 ∨ 0xDFFF < v) :
    [UInt8.ofNat (v / 4096 % 16 + 224), UInt8.ofNat (v / 64 % 64 + 128),
      UInt8.ofNat (v % 64 + 128)].foldl feed ⟨text, none⟩
      = ⟨text.push (Char.ofNat v), none⟩ := by
  have hb : (UInt8.ofNat (v / 4096 % 16 + 224)).toNat = v / 4096 % 16 + 224 :=
    UInt8.toNat_ofNat_of_lt' (by show _ < 256; omega)
  rw [List.foldl_cons, feed_opens text (lead_three (by omega) (by omega)),
    List.foldl_cons, feed_more text _
      (by rw [toNat_ite_eq, hb]; simp only [UInt8.reduceToNat]; split <;> omega)
      (by rw [toNat_ite_eq, hb]; simp only [UInt8.reduceToNat]; split <;> omega), hb,
    List.foldl_cons, feed_last, List.foldl_nil]
  congr 3
  omega

/-- Likewise after `F0`, and after `F4`, as there are no characters past `10FFFF`. -/
theorem foldl_four (text : Array Char) (hlow : 0x10000 ≤ v) (hhigh : v < 0x110000) :
    [UInt8.ofNat (v / 262144 % 8 + 240), UInt8.ofNat (v / 4096 % 64 + 128),
      UInt8.ofNat (v / 64 % 64 + 128), UInt8.ofNat (v % 64 + 128)].foldl feed ⟨text, none⟩
      = ⟨text.push (Char.ofNat v), none⟩ := by
  have hb : (UInt8.ofNat (v / 262144 % 8 + 240)).toNat = v / 262144 % 8 + 240 :=
    UInt8.toNat_ofNat_of_lt' (by show _ < 256; omega)
  rw [List.foldl_cons, feed_opens text (lead_four (by omega) (by omega)),
    List.foldl_cons, feed_more text _
      (by rw [toNat_ite_eq, hb]; simp only [UInt8.reduceToNat]; split <;> omega)
      (by rw [toNat_ite_eq, hb]; simp only [UInt8.reduceToNat]; split <;> omega), hb,
    List.foldl_cons, feed_more text _ (Nat.le_add_left 128 _) (by show _ ≤ 191; omega),
    List.foldl_cons, feed_last, List.foldl_nil]
  congr 3
  omega

end Sequences

/-- **The bytes of a character are read as this character.** -/
theorem foldl_encodeChar (text : Array Char) (c : Char) :
    (String.utf8EncodeChar c).foldl feed ⟨text, none⟩ = ⟨text.push c, none⟩ := by
  have hc : Char.ofNat c.val.toNat = c := Char.ofNat_toNat c
  have hvalid : c.val.toNat < 0xD800 ∨ 0xDFFF < c.val.toNat ∧ c.val.toNat < 0x110000 := c.valid
  rw [String.utf8EncodeChar]
  -- one case for each length of a sequence
  split
  · next h => rw [foldl_one text h, hc]
  split
  · next h₁ h₂ => rw [foldl_two text (by omega) h₂, hc]
  split
  · next h₁ h₂ h₃ => rw [foldl_three text (by omega) h₃ (by omega), hc]
  · next h₁ h₂ h₃ => rw [foldl_four text (by omega) (by omega), hc]

/-- The bytes of characters are read back one character after the other. -/
theorem foldl_encode (cs : List Char) (text : Array Char) :
    (cs.flatMap String.utf8EncodeChar).foldl feed ⟨text, none⟩ = ⟨text ++ cs.toArray, none⟩ := by
  induction cs generalizing text with
  | nil => simp
  | cons c rest ih =>
      rw [List.flatMap_cons, List.foldl_append, foldl_encodeChar, ih]
      simp

end Decoder

/-- **Decoding undoes encoding.** -/
theorem decode_encode (cs : List Char) : decode (cs.flatMap String.utf8EncodeChar) = cs := by
  rw [decode, Decoder.empty, Decoder.foldl_encode]
  simp [Decoder.finish]

/-- The bytes of a text decode to its characters. -/
theorem decode_toUTF8 (text : String) : decode text.toUTF8.data.toList = text.toList := by
  have hbytes : text.toUTF8.data.toList = text.toList.flatMap String.utf8EncodeChar := by
    rw [String.toUTF8, ← String.ofList_toList (s := text), String.toByteArray_ofList,
      List.utf8Encode, List.data_toByteArray, String.toList_ofList]
  rw [hbytes, decode_encode]

end Utf8

/-! ## Line ends -/

namespace Newline

/-- Every carriage return with a line feed behind it is dropped, so that the line feed stands
    for both. -/
def mergePairs : List Char → List Char
  | [] => []
  | '\r' :: '\n' :: rest => '\n' :: mergePairs rest
  | c :: rest => c :: mergePairs rest

/-- A carriage return becomes a line feed. -/
def asLineFeed (c : Char) : Char := if c = '\r' then '\n' else c

/-- A character that is no carriage return begins no pair. -/
theorem mergePairs_cons_of_ne {c : Char} (h : c ≠ '\r') (rest : List Char) :
    mergePairs (c :: rest) = c :: mergePairs rest := by
  rw [mergePairs]
  rintro tail rfl
  exact absurd rfl h

/-- A carriage return with anything but a line feed behind it is no pair. -/
theorem mergePairs_return_of_ne {c : Char} (h : c ≠ '\n') (rest : List Char) :
    mergePairs ('\r' :: c :: rest) = '\r' :: mergePairs (c :: rest) := by
  rw [mergePairs]
  intro tail _ heq
  exact h (List.cons.inj heq).1

theorem asLineFeed_of_ne {c : Char} (h : c ≠ '\r') : asLineFeed c = c := if_neg h

/-- A line end is never written as a carriage return. -/
theorem asLineFeed_ne (c : Char) : asLineFeed c ≠ '\r' := by
  rw [asLineFeed]
  split
  · decide
  · assumption

namespace Unifier

/-- A carriage return is a line end, whether or not a line feed follows. -/
theorem feed_return (u : Unifier) : u.feed '\r' = ⟨u.text.push '\n', true⟩ := if_pos rfl

/-- The line feed behind a carriage return belongs to the same line end. -/
theorem feed_pair (text : Array Char) : feed ⟨text, true⟩ '\n' = ⟨text, false⟩ := rfl

/-- Any other character stands for itself. -/
theorem feed_other {u : Unifier} {c : Char} (hr : c ≠ '\r')
    (hn : c = '\n' → u.afterReturn = false) : u.feed c = ⟨u.text.push c, false⟩ := by
  rw [feed, if_neg hr, if_neg]
  rintro ⟨rfl, h⟩
  rw [hn rfl] at h
  cases h

/-- After a carriage return its line end is written, as if nothing were to follow; the line
    feed that completes a pair is then skipped. -/
theorem foldl_feed (cs : List Char) : ∀ text : Array Char,
    (cs.foldl feed ⟨text, false⟩).text.toList = text.toList ++ (mergePairs cs).map asLineFeed ∧
    (cs.foldl feed ⟨text.push '\n', true⟩).text.toList
      = text.toList ++ (mergePairs ('\r' :: cs)).map asLineFeed := by
  induction cs with
  | nil => exact fun text => ⟨(List.append_nil _).symm, Array.toList_push⟩
  | cons c rest ih =>
      intro text
      -- a return takes the first statement to the second, all else takes the second back
      by_cases hr : c = '\r'
      · subst hr
        refine ⟨?_, ?_⟩
        · rw [List.foldl_cons, feed_return, (ih text).2]
        · rw [List.foldl_cons, feed_return, (ih _).2, mergePairs_return_of_ne (by decide),
            Array.toList_push, List.append_assoc]
          rfl
      · refine ⟨?_, ?_⟩
        · rw [List.foldl_cons, feed_other hr fun _ => rfl, (ih _).1, mergePairs_cons_of_ne hr,
            List.map_cons, asLineFeed_of_ne hr, Array.toList_push, List.append_assoc]
          rfl
        · by_cases hn : c = '\n'
          · subst hn
            rw [List.foldl_cons, feed_pair, (ih _).1, Array.toList_push, List.append_assoc]
            rfl
          · rw [List.foldl_cons, feed_other hr fun h => absurd h hn, (ih _).1,
              mergePairs_return_of_ne hn, mergePairs_cons_of_ne hr, List.map_cons, List.map_cons,
              asLineFeed_of_ne hr, Array.toList_push, Array.toList_push, List.append_assoc,
              List.append_assoc]
            rfl

end Unifier

/-- **Unifying line ends replaces the pairs, and then the returns that remain.** -/
theorem unify_eq (cs : List Char) : unify cs = (mergePairs cs).map asLineFeed := by
  rw [unify, Unifier.empty, (Unifier.foldl_feed cs #[]).1]
  rfl

/-- Unified text has no carriage returns. -/
theorem return_notMem_unify (cs : List Char) : '\r' ∉ unify cs := by
  rw [unify_eq]
  intro h
  obtain ⟨c, -, hc⟩ := List.mem_map.mp h
  exact asLineFeed_ne c hc

/-- Text without carriage returns is unified already. -/
theorem unify_of_notMem {cs : List Char} (h : '\r' ∉ cs) : unify cs = cs := by
  rw [unify_eq]
  induction cs with
  | nil => rfl
  | cons c rest ih =>
      have hc : c ≠ '\r' := Ne.symm (List.ne_of_not_mem_cons h)
      rw [mergePairs_cons_of_ne hc, List.map_cons, asLineFeed_of_ne hc,
        ih (List.not_mem_of_not_mem_cons h)]

end Newline

/-! ## Loading -/

/-- **Loading loses nothing of a text in UTF-8 but the kind of its line ends.**  A file that
    can be read loads, and there is no carriage return in what it loads to; if the file holds
    a text, this text is loaded, with every pair of return and line feed, and every return
    that remains, made one line feed: the very text, if there is no return in it. -/
theorem load_undoes_encoding {d : Directory} {path : String} {content : List UInt8}
    (hnul : ¬ Char.ofNat 0 ∈ path.toList) (hread : d.read (Path.parse path) = .ok content) :
    ∃ loaded, load d path = .ok loaded ∧ '\r' ∉ loaded.toList ∧
      ∀ text : String, content = text.toUTF8.data.toList →
        loaded.toList = (Newline.mergePairs text.toList).map Newline.asLineFeed ∧
        ('\r' ∉ text.toList → loaded = text) := by
  refine ⟨sourceText content, ?_, ?_, ?_⟩
  · rw [load, if_neg (by simpa using hnul), hread]
  · rw [sourceText, String.toList_ofList]
    exact Newline.return_notMem_unify _
  · rintro text rfl
    rw [sourceText, Utf8.decode_toUTF8, String.toList_ofList]
    refine ⟨Newline.unify_eq _, fun h => ?_⟩
    rw [Newline.unify_of_notMem h, String.ofList_toList]

/-- A byte order mark, sequences of all lengths, among them the last before the surrogates and
    the last of all, and line ends of each kind. -/
theorem load_undoes_encoding_all_lengths :
    ∃ d loaded, d = Directory.ofListing [] [("a.b",
        [0xEF, 0xBB, 0xBF, 0x0D, 0x0D, 0x0A, 0xC2, 0x80, 0xED, 0x9F, 0xBF, 0xF4, 0x8F, 0xBF,
          0xBF, 0x0A, 0x0D])] ∧
      load d "a.b" = .ok loaded ∧
      loaded.toList
        = ['\uFEFF', '\n', '\n', '\u0080', '\uD7FF', Char.ofNat 0x10FFFF, '\n', '\n'] := by
  have hread : (Directory.ofListing [] [("a.b",
      [0xEF, 0xBB, 0xBF, 0x0D, 0x0D, 0x0A, 0xC2, 0x80, 0xED, 0x9F, 0xBF, 0xF4, 0x8F, 0xBF,
        0xBF, 0x0A, 0x0D])]).read (Path.parse "a.b")
      = .ok [0xEF, 0xBB, 0xBF, 0x0D, 0x0D, 0x0A, 0xC2, 0x80, 0xED, 0x9F, 0xBF, 0xF4, 0x8F, 0xBF,
        0xBF, 0x0A, 0x0D] := rfl
  obtain ⟨loaded, hload, -, htext⟩ := load_undoes_encoding (by decide) hread
  refine ⟨_, loaded, rfl, hload, (htext (String.ofList ['\uFEFF', '\r', '\r', '\n', '\u0080',
    '\uD7FF', Char.ofNat 0x10FFFF, '\n', '\r']) (by decide)).1.trans ?_⟩
  rw [String.toList_ofList]
  decide

end ByteTape
