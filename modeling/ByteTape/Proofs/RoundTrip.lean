import ByteTape.Proofs.Nesting

/-! # Writing a program out and parsing it again

    `Program.text` writes the symbols of a program and leaves the targets of its
    jumps out, so parsing it again has to find them all.  It does so exactly for
    the programs that parsing makes in the first place:

    * an instruction is its symbol and its target (`Instr.eq_of_symbol_of_target?`),
      so programs with the same symbols differ in targets only
      (`Program.getElem?_eq_of_jumpAt?`);
    * `Program.Matched` — every jump leads to the partner of its bracket;
    * a bracket has one partner, so no two matched programs have the same symbols
      (`Program.Matched.eq_of_symbols_eq`), and one that links is matched
      (`Program.matched_of_link`).

    Nothing is asked of the targets of a program put together by hand: they may
    be missing, negative, or lead past its end. -/

namespace ByteTape

theorem Instr.eq_of_symbol_of_target? {i j : Instr} (hs : i.symbol = j.symbol)
    (ht : i.target? = j.target?) : i = j := by
  cases i with
  | act a =>
      cases j with
      | act b => exact congrArg Instr.act (Symbol.act.inj hs)
      | jumpIfZero t => exact nomatch hs
      | jumpIfNonzero t => exact nomatch hs
  | jumpIfZero t =>
      cases j with
      | act b => exact nomatch hs
      | jumpIfZero u => exact congrArg Instr.jumpIfZero (Option.some.inj ht)
      | jumpIfNonzero u => exact nomatch hs
  | jumpIfNonzero t =>
      cases j with
      | act b => exact nomatch hs
      | jumpIfZero u => exact nomatch hs
      | jumpIfNonzero u => exact congrArg Instr.jumpIfNonzero (Option.some.inj ht)

/-- Comments are stripped alike exactly when the symbols are the same. -/
theorem stripComments_eq_iff {s t : String} :
    stripComments s = stripComments t ↔ scan s = scan t := by
  constructor
  · intro h
    have hscan := congrArg scan h
    rw [stripComments, stripComments, scan_spell, scan_spell] at hscan
    exact hscan
  · intro h
    rw [stripComments, stripComments, h]

/-- **Exactly the balanced texts can be linked.** -/
theorem exists_link_iff {f : List Symbol} : (∃ p, link f = .ok p) ↔ Balanced f := by
  rw [balanced_iff_exists_block]
  constructor
  · rintro ⟨p, hp⟩
    obtain ⟨t, ht, -⟩ := link_eq_ok_iff.mp hp
    exact ⟨t, ht⟩
  · rintro ⟨t, ht⟩
    exact ⟨_, link_eq_ok_iff.mpr ⟨t, ht, rfl⟩⟩

namespace Program

variable {p q : Program}

/-- What is written out is parsed for its symbols. -/
theorem parse_text_eq_link (q : Program) : parse q.text = link q.symbols := by
  rw [parse, text, scan_spell]

/-- Where two programs with the same symbols jump alike, they are alike. -/
theorem getElem?_eq_of_jumpAt? (hs : p.symbols = q.symbols) {i : Nat}
    (hj : p.jumpAt? i = q.jumpAt? i) : p.code[i]? = q.code[i]? := by
  have hsym : p.code[i]?.map Instr.symbol = q.code[i]?.map Instr.symbol := by
    have h := congrArg (fun f : List Symbol => f[i]?) hs
    simpa [symbols] using h
  rw [jumpAt?_eq, jumpAt?_eq, targetAt?, targetAt?, Array.getElem?_toList,
    Array.getElem?_toList] at hj
  cases hp : p.code[i]? with
  | none =>
      rw [hp] at hsym
      exact (Option.map_eq_none_iff.mp hsym.symm).symm
  | some a =>
      rw [hp] at hsym hj
      obtain ⟨b, hb, hab⟩ := Option.map_eq_some_iff.mp hsym.symm
      rw [hb] at hj
      rw [hb, Instr.eq_of_symbol_of_target? hab.symm hj]

/-- Two programs with the same symbols have their jumps at the same places. -/
theorem jumpAt?_cases (hs : p.symbols = q.symbols) (i : Nat) :
    p.jumpAt? i = q.jumpAt? i ∨ ∃ t u, p.jumpAt? i = some t ∧ q.jumpAt? i = some u := by
  have hbr := p.exists_jumpAt?_iff i
  rw [hs, ← q.exists_jumpAt?_iff i] at hbr
  cases ht : p.jumpAt? i with
  | none =>
      cases hu : q.jumpAt? i with
      | none => exact Or.inl rfl
      | some u =>
          obtain ⟨t, ht'⟩ := hbr.mpr ⟨u, hu⟩
          exact nomatch ht.symm.trans ht'
  | some t =>
      obtain ⟨u, hu⟩ := hbr.mp ⟨t, ht⟩
      exact Or.inr ⟨t, u, rfl, hu⟩

/-- Every jump leads to the partner of its bracket. -/
def Matched (q : Program) : Prop :=
  ∀ i t, q.jumpAt? i = some t → ∃ j : Nat, t = j ∧ Partners q.symbols i j

/-- The symbols of a matched program determine it. -/
theorem Matched.eq_of_symbols_eq (hp : p.Matched) (hq : q.Matched) (hs : p.symbols = q.symbols) :
    p = q := by
  have hjump : ∀ i, p.jumpAt? i = q.jumpAt? i := by
    intro i
    rcases jumpAt?_cases hs i with heq | ⟨t, u, ht, hu⟩
    · exact heq
    · -- both targets are the one partner
      obtain ⟨j, rfl, hj⟩ := hp i t ht
      obtain ⟨k, rfl, hk⟩ := hq i u hu
      rw [hs] at hj
      rw [ht, hu, hj.unique hk]
  have hcode : p.code = q.code := Array.ext_getElem? fun i => getElem?_eq_of_jumpAt? hs (hjump i)
  cases p
  cases q
  exact congrArg Program.mk hcode

/-- What links has the symbols it is linked from, and is matched. -/
theorem matched_of_link {f : List Symbol} (h : link f = .ok p) : p.symbols = f ∧ p.Matched := by
  obtain ⟨t, rfl, rfl⟩ := link_eq_ok_iff.mp h
  have hl := t.linked_code 0
  have hs : Program.symbols ⟨(t.code 0).toArray⟩ = t.symbols := hl.symbols
  refine ⟨hs, ?_⟩
  intro i u hu
  obtain ⟨j, hj, rfl⟩ := hl.jumpAt?_eq_some_iff.mp hu
  rw [hs]
  exact ⟨j, rfl, hj⟩

/-- A program comes back from its text exactly when it is balanced and matched. -/
theorem parse_text_eq_ok_iff : parse q.text = .ok q ↔ Balanced q.symbols ∧ q.Matched := by
  rw [parse_text_eq_link]
  constructor
  · intro h
    exact ⟨exists_link_iff.mp ⟨q, h⟩, (matched_of_link h).2⟩
  · rintro ⟨hb, hm⟩
    obtain ⟨p, hp⟩ := exists_link_iff.mpr hb
    obtain ⟨hs, hpm⟩ := matched_of_link hp
    rw [hp, hpm.eq_of_symbols_eq hm hs]

end Program

/-- **Writing out and parsing undo each other exactly on what parsing makes.**
    An accepted text comes back without its comments, and that text gives the
    same program; accepted texts give the same program exactly when they are
    the same without comments.  A program put together by hand comes back from
    its text exactly when its brackets are balanced and every jump leads to the
    partner of its bracket; when the brackets are balanced, what comes back
    differs from it in targets only. -/
theorem text_parse_inverse :
    (∀ s p, Program.parse s = .ok p → p.text = stripComments s ∧ Program.parse p.text = .ok p) ∧
    (∀ s t p q, Program.parse s = .ok p → Program.parse t = .ok q →
      (p = q ↔ stripComments s = stripComments t)) ∧
    (∀ q : Program, Program.parse q.text = .ok q ↔ Balanced q.symbols ∧ q.Matched) ∧
    ∀ q : Program, Balanced q.symbols →
      ∃ p, Program.parse q.text = .ok p ∧ p.symbols = q.symbols ∧
        ∀ i, p.code[i]? ≠ q.code[i]? →
          ∃ t u, p.jumpAt? i = some t ∧ q.jumpAt? i = some u ∧ t ≠ u := by
  refine ⟨?_, ?_, fun q => Program.parse_text_eq_ok_iff, ?_⟩
  · intro s p hp
    have hs := (Program.matched_of_link hp).1
    refine ⟨by rw [Program.text, hs, stripComments], ?_⟩
    rw [Program.parse_text_eq_link, hs]
    exact hp
  · intro s t p q hp hq
    obtain ⟨hps, hpm⟩ := Program.matched_of_link hp
    obtain ⟨hqs, hqm⟩ := Program.matched_of_link hq
    rw [stripComments_eq_iff, ← hps, ← hqs]
    constructor
    · rintro rfl
      rfl
    · intro h
      exact hpm.eq_of_symbols_eq hqm h
  · intro q hb
    obtain ⟨p, hp⟩ := exists_link_iff.mpr hb
    obtain ⟨hs, -⟩ := Program.matched_of_link hp
    refine ⟨p, by rw [Program.parse_text_eq_link, hp], hs, ?_⟩
    -- instructions with one symbol can differ in their targets only
    intro i hne
    have hjne : p.jumpAt? i ≠ q.jumpAt? i := fun hj => hne (Program.getElem?_eq_of_jumpAt? hs hj)
    rcases Program.jumpAt?_cases hs i with heq | ⟨t, u, ht, hu⟩
    · exact absurd heq hjne
    · rw [ht, hu] at hjne
      exact ⟨t, u, ht, hu, fun htu => hjne (congrArg some htu)⟩

/-- A loop whose jumps lead before the start and past the end of the program:
    its text gives the jumps of the text with comments, and so another program. -/
theorem text_parse_inverse_stray_jumps :
    ∃ p q : Program, Program.parse "clear [-]" = .ok p ∧ p.text = stripComments "clear [-]" ∧
      q = ⟨#[.jumpIfZero (-7), .act .dec, .jumpIfNonzero 40]⟩ ∧
      Program.parse q.text = .ok p ∧ Program.parse q.text ≠ .ok q := by
  have hp : Program.parse "clear [-]"
      = .ok ⟨#[.jumpIfZero 2, .act .dec, .jumpIfNonzero 0]⟩ := rfl
  obtain ⟨himage, -, hiff, -⟩ := text_parse_inverse
  refine ⟨_, _, hp, (himage _ _ hp).1, rfl, rfl, ?_⟩
  intro hq
  obtain ⟨j, hj, -⟩ := ((hiff _).mp hq).2 0 (-7) rfl
  omega

end ByteTape
