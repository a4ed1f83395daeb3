import ByteTape.Proofs.Lockstep

/-! # Runs resumed after the source has failed

    A source that fails ends the run and consumes the failure; the next run asks
    again.  So a machine that is run again and again on a script of replies ends
    up where one run ends up on the script without the failures.

    * `failures`, `cleared` — the failures of a script, and what else it holds;
    * `Machine.Retries` — run after run ends with a failure of the source, each
      run starting where the one before left off;
    * `Ahead` — two stores that differ in the number of polls only, the one on
      the script, the other on the cleared script, with the same replies still to
      come but for the failures.

    The two machines are in lockstep until the first one meets a failure.  There
    it stays where it is, with one failure less to come, so they are abreast
    again: by induction on the failures to come, there is a last one, after which
    the next run is in lockstep for good (`exists_retries`). -/

namespace ByteTape

/-- The text of a reply that is a failure. -/
def Reply.failure? : Reply → Option String
  | .value _ => none
  | .nothing => none
  | .failure why => some why

/-- The failures in a script, in order. -/
def failures (items : List Reply) : List String := items.filterMap Reply.failure?

/-- The replies in a script that are no failures, in order. -/
def answers (items : List Reply) : List Reply := items.filter fun r => r.failure?.isNone

/-- A script without its failures. -/
def cleared (items : Array Reply) : Array Reply := (answers items.toList).toArray

/-- The devices of a machine that is fed a script. -/
def scripted (items : Array Reply) (sink : Sink) : Devices := ⟨Source.ofReplies items, sink⟩

/-- Run after run ends with a failure of the source, and `m'` is what the last
    of them leaves behind. -/
inductive Machine.Retries (d : Devices) (p : Program) :
    List String → Machine → Machine → Prop where
  | refl (m : Machine) : Retries d p [] m m
  | again {m m₁ m' : Machine} {why : String} {whys : List String}
      (h : m.Fails d p (.source why) m₁) (hs : Retries d p whys m₁ m') :
      Retries d p (why :: whys) m m'

/-! ## Scripts -/

theorem Source.ofReplies_of_drop_eq_nil {items : Array Reply} {n : Nat}
    (h : items.toList.drop n = []) : ofReplies items n = .nothing := by
  have hle : items.size ≤ n := by simpa using h
  rw [ofReplies, Array.getElem?_eq_none hle]
  rfl

theorem Source.ofReplies_of_drop_eq_cons {items : Array Reply} {n : Nat} {r : Reply}
    {rest : List Reply} (h : items.toList.drop n = r :: rest) :
    ofReplies items n = r ∧ items.toList.drop (n + 1) = rest := by
  constructor
  · have hhead : (items.toList.drop n).head? = some r := by rw [h]; rfl
    rw [List.head?_drop, Array.getElem?_toList] at hhead
    rw [ofReplies, hhead]
    rfl
  · rw [← List.tail_drop, h]
    rfl

namespace Store

/-- The store after another number of polls. -/
def withPolls (q : Nat) (s : Store) : Store := { s with polls := q }

/-- The action that polls the source is the only one that looks at the polls. -/
theorem act_withPolls {a : Action} (ha : a ≠ .poll) (source source' : Source) (sink : Sink)
    (s : Store) (q : Nat) :
    Effect.Related (fun t t' => t' = t.withPolls q ∧ t.polls = s.polls)
      (s.act ⟨source, sink⟩ a) ((s.withPolls q).act ⟨source', sink⟩ a) := by
  -- no other action looks at the number of polls
  cases a with
  | poll => exact absurd rfl ha
  | inc => exact .done ⟨rfl, rfl⟩
  | dec => exact .done ⟨rfl, rfl⟩
  | right =>
      show Effect.Related _ s.right (s.withPolls q).right
      rw [right, right]
      by_cases h : s.dp + 1 < s.tape.size
      · rw [dif_pos h, dif_pos (show (s.withPolls q).dp + 1 < (s.withPolls q).tape.size from h)]
        exact .done ⟨rfl, rfl⟩
      · rw [dif_neg h, dif_neg (show ¬ (s.withPolls q).dp + 1 < (s.withPolls q).tape.size from h)]
        exact .failed _ ⟨rfl, rfl⟩
  | left =>
      show Effect.Related _ s.left (s.withPolls q).left
      rw [left, left]
      by_cases h : 0 < s.dp
      · rw [if_pos h, if_pos (show 0 < (s.withPolls q).dp from h)]
        exact .done ⟨rfl, rfl⟩
      · rw [if_neg h, if_neg (show ¬ 0 < (s.withPolls q).dp from h)]
        exact .failed _ ⟨rfl, rfl⟩
  | emit =>
      cases sink with
      | collect => exact .done ⟨rfl, rfl⟩
      | stream flush => exact .done ⟨rfl, rfl⟩
      | consumer judge =>
          show Effect.Related _ (s.emit (.consumer judge)) ((s.withPolls q).emit (.consumer judge))
          rw [emit, emit, show (s.withPolls q).offered = s.offered from rfl,
            show (s.withPolls q).cell = s.cell from rfl]
          cases judge s.offered s.cell with
          | accepted => exact .done ⟨rfl, rfl⟩
          | refused why => exact .failed _ ⟨rfl, rfl⟩

end Store

/-- Two stores that differ in the number of polls only: the script has the
    failures `fs` still to come, and apart from them the same replies as the
    cleared script. -/
structure Ahead (items : Array Reply) (fs : List String) (s s' : Store) : Prop where
  eq : s' = s.withPolls s'.polls
  answers : answers (items.toList.drop s.polls) = (cleared items).toList.drop s'.polls
  failures : failures (items.toList.drop s.polls) = fs

namespace Ahead

variable {items : Array Reply} {fs : List String} {s s' : Store}

theorem cell (h : Ahead items fs s s') : s.cell = s'.cell := by
  rw [h.eq]
  rfl

/-- A reply that is no failure is taken from both scripts. -/
theorem poll_answer (h : Ahead items fs s s')
    (hok : (Source.ofReplies items s.polls).failure? = none) :
    Source.ofReplies (cleared items) s'.polls = Source.ofReplies items s.polls ∧
      Ahead items fs (s.withPolls (s.polls + 1)) (s'.withPolls (s'.polls + 1)) := by
  have heq : s'.withPolls (s'.polls + 1)
      = (s.withPolls (s.polls + 1)).withPolls (s'.polls + 1) := by
    rw [h.eq]
    rfl
  have hans := h.answers
  have hfail := h.failures
  cases hr : items.toList.drop s.polls with
  | nil =>
      -- both scripts are at their end, and stay there
      have hr' : items.toList.drop (s.polls + 1) = [] := by rw [← List.tail_drop, hr]; rfl
      rw [hr] at hans hfail
      have hnext : (cleared items).toList.drop (s'.polls + 1) = [] := by
        rw [← List.tail_drop, ← hans]
        rfl
      refine ⟨?_, heq, ?_, ?_⟩
      · rw [Source.ofReplies_of_drop_eq_nil hr, Source.ofReplies_of_drop_eq_nil hans.symm]
      · exact (congrArg ByteTape.answers hr').trans hnext.symm
      · exact (congrArg ByteTape.failures hr').trans hfail
  | cons r rest =>
      obtain ⟨hhere, hrest⟩ := Source.ofReplies_of_drop_eq_cons hr
      rw [hhere] at hok
      rw [hr, ByteTape.answers, List.filter_cons_of_pos (by rw [hok]; rfl)] at hans
      rw [hr, ByteTape.failures, List.filterMap_cons_none hok] at hfail
      obtain ⟨hthere, hnext⟩ := Source.ofReplies_of_drop_eq_cons hans.symm
      refine ⟨hthere.trans hhere.symm, heq, ?_, ?_⟩
      · exact (congrArg ByteTape.answers hrest).trans hnext.symm
      · exact (congrArg ByteTape.failures hrest).trans hfail

/-- A failure is taken from the script alone. -/
theorem poll_failure (h : Ahead items fs s s') {why : String}
    (hfails : Source.ofReplies items s.polls = .failure why) :
    ∃ fs', fs = why :: fs' ∧ Ahead items fs' (s.withPolls (s.polls + 1)) s' := by
  have hans := h.answers
  have hfail := h.failures
  cases hr : items.toList.drop s.polls with
  | nil =>
      rw [Source.ofReplies_of_drop_eq_nil hr] at hfails
      exact nomatch hfails
  | cons r rest =>
      obtain ⟨hhere, hrest⟩ := Source.ofReplies_of_drop_eq_cons hr
      obtain rfl : r = .failure why := hhere.symm.trans hfails
      rw [hr] at hans hfail
      refine ⟨ByteTape.failures rest, hfail.symm, h.eq, ?_, ?_⟩
      · exact (congrArg ByteTape.answers hrest).trans hans
      · exact congrArg ByteTape.failures hrest

/-- What breaks the lockstep: the action fails on the script alone, and leaves
    one failure less to come. -/
def Breaks (items : Array Reply) (fs : List String) (sink : Sink) (a : Action) (s s' : Store) :
    Prop :=
  ∃ why fs' t, fs = why :: fs' ∧ s.act (scripted items sink) a = .failed (.source why) t ∧
    Ahead items fs' t s'

/-- **Actions keep the stores alike,** except at a failure of the source. -/
theorem act (h : Ahead items fs s s') (sink : Sink) (a : Action) :
    Effect.Related (Ahead items fs) (s.act (scripted items sink) a)
      (s'.act (scripted (cleared items) sink) a) ∨ Breaks items fs sink a s s' := by
  by_cases ha : a = .poll
  · subst ha
    show Effect.Related _ (s.poll (Source.ofReplies items))
      (s'.poll (Source.ofReplies (cleared items))) ∨ _
    rw [Store.poll, Store.poll]
    cases hreply : Source.ofReplies items s.polls with
    | value n =>
        obtain ⟨hthere, hnext⟩ := h.poll_answer (by rw [hreply]; rfl)
        rw [hthere, hreply]
        refine Or.inl (.done ⟨?_, hnext.answers, hnext.failures⟩)
        rw [h.eq]
        rfl
    | nothing =>
        obtain ⟨hthere, hnext⟩ := h.poll_answer (by rw [hreply]; rfl)
        rw [hthere, hreply]
        exact Or.inl (.done hnext)
    | failure why =>
        obtain ⟨fs', hfs, hnext⟩ := h.poll_failure hreply
        refine Or.inr ⟨why, fs', _, hfs, ?_, hnext⟩
        show s.poll (Source.ofReplies items) = _
        rw [Store.poll, hreply]
        rfl
  · have hrel := Store.act_withPolls ha (Source.ofReplies items)
      (Source.ofReplies (cleared items)) sink s s'.polls
    rw [← h.eq] at hrel
    refine Or.inl (hrel.mono ?_)
    -- the scripts have not moved
    rintro t t' ⟨rfl, hp⟩
    exact ⟨rfl, by rw [hp]; exact h.answers, by rw [hp]; exact h.failures⟩

/-- A fault does not tell how often the source was polled. -/
theorem fault_eq (h : Ahead items fs s s') (cause : Cause) (i : Int) :
    cause.fault i s = cause.fault i s' := by
  rw [h.eq]
  cases cause <;> rfl

/-- Neither does the record of a machine. -/
theorem snapshot_eq (h : Ahead items fs s s') {m m' : Machine} {i c : Nat} (hs : m.Stands s i c)
    (hs' : m'.Stands s' i c) : m.snapshot = m'.snapshot := by
  rw [Machine.snapshot, Machine.snapshot, hs.holds.output, hs.holds.tape, hs.holds.dp, hs.steps,
    hs'.holds.output, hs'.holds.tape, hs'.holds.dp, hs'.steps, h.eq]
  rfl

end Ahead

/-! ## Runs -/

namespace Machine

variable {items : Array Reply} {p : Program}

/-- What a failure of the source leaves behind is abreast of where the run on
    the cleared script stands. -/
theorem AbreastBreaks.fails {fs : List String} {sink : Sink} {m m' : Machine}
    (h : AbreastBreaks p (Ahead.Breaks items fs sink) m m') :
    ∃ why fs' m₁, fs = why :: fs' ∧ m.step (scripted items sink) p = .failed (.source why) m₁ ∧
      Abreast p (Ahead items fs') m₁ m' := by
  obtain ⟨⟨why, fs', t, hfs, hact, hahead⟩, hs, hs', hi⟩ := h
  have hstep := hs.step_act hi (scripted items sink)
  rw [hact] at hstep
  obtain ⟨m₁, hm₁, ht⟩ := hstep
  have hlt := (Array.getElem?_eq_some_iff.mp hi).1
  exact ⟨why, fs', m₁, hfs, hm₁, hahead, ht, hs', Nat.le_of_lt hlt⟩

/-- **After the last failure the runs are in lockstep.**  Run after run, the
    machine on the script meets some of the failures to come, in order; then its
    next run goes the way that is left of the run on the cleared script. -/
theorem exists_retries (hp : p.Closed) (sink : Sink) (fs : List String) {m m' : Machine}
    (h : Abreast p (Ahead items fs) m m') :
    ∃ whys fs' m₁ j x, m.Retries (scripted items sink) p whys m₁ ∧ fs = whys ++ fs' ∧
      m'.runFor (scripted (cleared items) sink) p j = .running x ∧
      ∀ n, Progress.Related (Abreast p (Ahead items fs')) (AbreastFailed (Ahead items fs'))
        (m₁.runFor (scripted items sink) p n) (x.runFor (scripted (cleared items) sink) p n) := by
  -- on the failures still to come, each of which may or may not be met
  induction fs generalizing m m' with
  | nil =>
      refine ⟨[], [], m, 0, m', .refl m, rfl, rfl, ?_⟩
      intro n
      rcases runFor_abreast hp (fun _ _ hs => hs.cell) (fun a _ _ hs => hs.act sink a) n h with
        hrel | ⟨k, x, x', -, -, -, hbreak⟩
      · exact hrel
      · obtain ⟨why, fs', m₁, hfs, -⟩ := hbreak.fails
        exact nomatch hfs
  | cons why fs ih =>
      by_cases hall : ∀ n, Progress.Related (Abreast p (Ahead items (why :: fs)))
          (AbreastFailed (Ahead items (why :: fs))) (m.runFor (scripted items sink) p n)
          (m'.runFor (scripted (cleared items) sink) p n)
      · exact ⟨[], why :: fs, m, 0, m', .refl m, rfl, rfl, hall⟩
      · obtain ⟨n, hn⟩ := Classical.not_forall.mp hall
        rcases runFor_abreast hp (fun _ _ hs => hs.cell) (fun a _ _ hs => hs.act sink a) n h with
          hrel | ⟨k, x, x', -, hx, hx', hbreak⟩
        · exact absurd hrel hn
        · obtain ⟨why', fs₁, m₁, hfs, hm₁, hnext⟩ := hbreak.fails
          cases hfs
          -- the next run starts where this one failed, abreast of `x'`
          obtain ⟨whys, fs', m₂, j, y, hretries, hfs, hy, hlock⟩ := ih hnext
          refine ⟨why :: whys, fs', m₂, k + j, y, .again ⟨k + 1, ?_⟩ hretries, ?_, ?_, hlock⟩
          · rw [runFor_of_running hx, runFor_succ, hm₁]
          · rw [hfs, List.cons_append]
          · rw [runFor_of_running hx', hy]

end Machine

/-- **Resuming after failures of the source loses nothing.**  For every script
    of replies there is a number of failures, the first so many of the script,
    with which the machine set up for a program ends run after run; and the next
    run does what the first run on the script without failures does.  If that
    halts, so does the next run, with the same record; if it fails, so does the
    next run, with the same fault; and if it goes on forever, so does the next. -/
theorem run_resumes (items : Array Reply) (sink : Sink) {p : Program} {n : Int} {m : Machine}
    (hboot : Machine.boot p n = .ok m) :
    ∃ whys m₁, m.Retries (scripted items sink) p whys m₁ ∧ whys <+: failures items.toList ∧
      (∀ m', m.Halts (scripted (cleared items) sink) p m' →
        ∃ m₂, m₁.Halts (scripted items sink) p m₂ ∧ m₂.snapshot = m'.snapshot) ∧
      (∀ why m', m.Fails (scripted (cleared items) sink) p why m' →
        ∃ m₂, m₁.Fails (scripted items sink) p why m₂ ∧ m₂.snapshot = m'.snapshot) ∧
      (m.RunsForever (scripted (cleared items) sink) p →
        m₁.RunsForever (scripted items sink) p) := by
  obtain ⟨hp, hn, -, rfl⟩ := Machine.boot_eq_ok_iff.mp hboot
  have hstart : Machine.Abreast p (Ahead items (failures items.toList))
      (Machine.fresh n.toNat) (Machine.fresh n.toNat) := by
    obtain ⟨s, i, hs, -, hi⟩ := (Machine.safe_fresh p (n := n.toNat) (by omega)).exists_stands
    have hpolls : s.polls = 0 := hs.holds.polls.symm
    refine ⟨⟨rfl, ?_, ?_⟩, hs, hs, hi⟩
    · rw [hpolls]
      rfl
    · rw [hpolls]
      rfl
  obtain ⟨whys, fs, m₁, j, x, hretries, hfs, hx, hlock⟩ := Machine.exists_retries hp sink _ hstart
  -- where the run on the cleared script ends, the rest of it ends
  have hrest : ∀ {k r}, (Machine.fresh n.toNat).runFor (scripted (cleared items) sink) p k = r →
      r.Over → x.runFor (scripted (cleared items) sink) p k = r := by
    intro k r hk hr
    rw [← Machine.runFor_of_running hx]
    exact Machine.runFor_eq_of_over hk hr (Nat.le_add_left k j)
  refine ⟨whys, m₁, hretries, ⟨fs, hfs.symm⟩, ?_, ?_, ?_⟩
  · rintro m' ⟨k, hk⟩
    have hrel := hlock k
    rw [hrest hk trivial] at hrel
    obtain ⟨m₂, hm₂, hS, hs, hs', -⟩ := hrel.exists_halted
    exact ⟨m₂, ⟨k, hm₂⟩, hS.snapshot_eq hs hs'⟩
  · rintro why m' ⟨k, hk⟩
    have hrel := hlock k
    rw [hrest hk trivial] at hrel
    obtain ⟨_, m₂, hm₂, cause, hS, hs, hs'⟩ := hrel.exists_failed
    rw [hS.fault_eq] at hm₂
    exact ⟨m₂, ⟨k, hm₂⟩, hS.snapshot_eq hs hs'⟩
  · intro hforever k
    obtain ⟨y, hy⟩ := hforever (j + k)
    rw [Machine.runFor_of_running hx] at hy
    have hrel := hlock k
    rw [hy] at hrel
    obtain ⟨m₂, hm₂, -⟩ := hrel.exists_running
    exact ⟨m₂, hm₂⟩

/-- Two failures on the way, one of them inside a loop: both bytes of input are
    emitted all the same, and no step is counted twice. -/
theorem run_resumes_echo :
    ∃ p m whys m₁ m₂, Program.parse "+[,.]" = .ok p ∧ Machine.boot p 1 = .ok m ∧
      m.Retries (scripted #[.failure "down", .value 65, .failure "down", .value 0] .collect) p
        whys m₁ ∧ whys <+: ["down", "down"] ∧
      m₁.Halts (scripted #[.failure "down", .value 65, .failure "down", .value 0] .collect) p m₂ ∧
      m₂.snapshot = ⟨#[65, 0], #[0], 0, 8⟩ := by
  have hboot : Machine.boot ⟨#[.act .inc, .jumpIfZero 4, .act .poll, .act .emit,
      .jumpIfNonzero 1]⟩ 1 = .ok (Machine.fresh 1) := by decide
  obtain ⟨whys, m₁, hretries, hwhys, hhalts, -, -⟩ := run_resumes
    #[.failure "down", .value 65, .failure "down", .value 0] .collect hboot
  obtain ⟨m', hm', hsnap'⟩ : ∃ m', (Machine.fresh 1).runFor (scripted
      (cleared #[.failure "down", .value 65, .failure "down", .value 0]) .collect)
      ⟨#[.act .inc, .jumpIfZero 4, .act .poll, .act .emit, .jumpIfNonzero 1]⟩ 9 = .halted m' ∧
      m'.snapshot = ⟨#[65, 0], #[0], 0, 8⟩ := ⟨_, rfl, by decide +kernel⟩
  obtain ⟨m₂, hm₂, hsnap⟩ := hhalts m' ⟨9, hm'⟩
  exact ⟨_, _, whys, m₁, m₂, rfl, hboot, hretries, hwhys, hm₂, hsnap.trans hsnap'⟩

end ByteTape
