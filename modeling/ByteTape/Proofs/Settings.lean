import ByteTape.CommandLine.Settings

/-! # What accepted command lines have in common

    Arguments act on a draft one after the other, in three ways: a flag is
    raised, a setting is given its value, or an argument is set aside.

    * `Draft.Invariant` — a property of drafts that all three keep;
    * `Draft.Invariant.interpret` — so the arguments of a whole command line
      keep it.

    Every tape length is looked at when it is given, also one that a later value
    replaces; hence the length that an accepted command line comes to, if it has
    one, is positive (`one_le_tapeLen`). -/

namespace ByteTape.CommandLine

/-- A property of drafts that no argument destroys. -/
structure Draft.Invariant (P : Draft → Prop) : Prop where
  leave : ∀ d w, P d → P (d.leave w)
  raise : ∀ d f d', d.raise f = .ok d' → P d → P d'
  assign : ∀ d text s d', d.assign text s = .ok d' → P d → P d'

namespace Draft.Invariant

variable {P : Draft → Prop} {d d' : Draft}

/-- An invariant survives the flags of a bundle, one after the other. -/
theorem raiseAll (hP : Invariant P) {flags : List Flag} (h : d.raiseAll flags = .ok d')
    (hd : P d) : P d' := by
  induction flags generalizing d with
  | nil =>
      cases h
      exact hd
  | cons f rest ih =>
      rw [Draft.raiseAll] at h
      cases hf : d.raise f with
      | ok next =>
          rw [hf] at h
          exact ih h (hP.raise d f next hf hd)
      | error stop =>
          rw [hf] at h
          exact nomatch h

/-- An invariant survives a bundle with a setting: its flags first, then its value. -/
theorem apply (hP : Invariant P) {flags : List Flag} {s : Setting} {text : Word}
    (h : d.apply flags s text = .ok d') (hd : P d) : P d' := by
  rw [Draft.apply] at h
  cases hf : d.raiseAll flags with
  | ok next =>
      rw [hf] at h
      exact hP.assign next text s d' h (hP.raiseAll hf hd)
  | error stop =>
      rw [hf] at h
      exact nomatch h

/-- **What no argument destroys, no command line destroys.** -/
theorem interpret (hP : Invariant P) {args : List (Word × Argument)}
    (h : interpret d args = .ok d') (hd : P d) : P d' := by
  -- along the arguments, of which a setting may take two at once
  fun_induction CommandLine.interpret d args with
  | case1 d =>
      cases h
      exact hd
  | case2 d w arg rest _ ih => exact ih h (hP.leave d w hd)
  | case3 => exact nomatch h
  | case4 d w arg rest flags _ next hnext ih => exact ih h (hP.raiseAll hnext hd)
  | case5 => exact nomatch h
  | case6 d w arg rest flags s text _ next hnext ih => exact ih h (hP.apply hnext hd)
  | case7 => exact nomatch h
  | case8 d w arg flags s _ text others next hnext ih => exact ih h (hP.apply hnext hd)
  | case9 => exact nomatch h
  | case10 => exact nomatch h

end Draft.Invariant

/-- A tape length that is read is at least one, whatever the text. -/
theorem one_le_of_readLength {text : Word} {n : Int} (h : readLength text = .ok n) : 1 ≤ n := by
  rw [readLength] at h
  split at h
  · cases h
  · split at h
    · cases h
    · cases h
      omega

/-- A tape length that was given is positive. -/
def Draft.Sized (d : Draft) : Prop := ∀ n, d.tapeLen = some (some n) → 1 ≤ n

/-- Only the tape setting can write a length, and it has looked at what it writes. -/
theorem Draft.sized_assign {d d' : Draft} {text : Word} {s : Setting}
    (h : d.assign text s = .ok d') (hd : d.Sized) : d'.Sized := by
  cases s with
  | source =>
      rw [Draft.assign] at h
      split at h <;> cases h <;> exact hd
  | tape =>
      rw [Draft.assign] at h
      split at h
      · cases h
        exact fun n hn => nomatch hn
      · cases hr : readLength text with
        | error e =>
            rw [hr] at h
            exact nomatch h
        | ok l =>
            rw [hr] at h
            cases h
            rintro n hn
            cases hn
            exact one_le_of_readLength hr

theorem Draft.invariant_sized : Draft.Invariant Draft.Sized where
  leave := fun _ _ hd => hd
  raise := by
    intro d f d' h hd
    cases f with
    | help => exact nomatch h
    | version => exact nomatch h
    | verbose =>
        cases h
        exact hd
  assign := fun _ _ _ _ h hd => Draft.sized_assign h hd

/-- Settling hands on the length in the draft, or else the default one. -/
theorem Draft.Sized.settle {d : Draft} {s : Settings} {n : Int} (hd : d.Sized)
    (h : d.settle = .ok s) (hn : s.tapeLen = some n) : 1 ≤ n := by
  rw [Draft.settle] at h
  split at h
  · cases h
  split at h
  · cases h
    cases hlen : d.tapeLen with
    | none =>
        rw [hlen] at hn
        obtain rfl : defaultTapeLen = n := Option.some.inj hn
        decide
    | some given =>
        rw [hlen] at hn
        obtain rfl : given = some n := hn
        exact hd n hlen
  · cases h

/-- **Accepted tape lengths are positive,** the default one included. -/
theorem one_le_tapeLen {argv : List String} {s : Settings} {n : Int}
    (h : parseArgs argv = .ok s) (hn : s.tapeLen = some n) : 1 ≤ n := by
  rw [parseArgs] at h
  split at h
  · cases h
  split at h
  · next d hd =>
      have hsized : d.Sized := Draft.invariant_sized.interpret hd fun n hn => nomatch hn
      exact hsized.settle h hn
  · cases h

end ByteTape.CommandLine
