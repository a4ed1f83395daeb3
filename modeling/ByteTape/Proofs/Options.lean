import ByteTape.Session

/-! # How options fold

    A well-formed command line is a sequence of groups, each of which says one thing: where
    the source is, how long the tape, or that a log is wanted.

    * `Group` — such a group, with the value it carries; only values that can be told from
      options are allowed where they stand by themselves;
    * `Group.words` — the arguments it is typed as;
    * `Group.act` — what it does to the draft, the same however it is typed.

    Arguments are classified before any of them acts, so two lemmas say what becomes of a
    group: its arguments are taken for what they are, whatever the values (`Group.classified`),
    and then act as the group does (`Group.interpret`).  Both go over to whole command lines,
    and `foldl_act` says what remains of many groups: of each setting the last value. -/

namespace ByteTape

/-! ## Numerals -/

namespace Text

theorem toNat_of_isDigit {c : Char} (h : c.isDigit = true) : 48 ≤ c.toNat ∧ c.toNat ≤ 57 := by
  simpa [Char.isDigit, UInt32.le_iff_toNat_le] using h

/-- The value of an ASCII digit is its distance from zero. -/
theorem digit?_of_isDigit {c : Char} (h : c.isDigit = true) :
    digit? c = some (c.toNat - '0'.toNat) := by
  obtain ⟨hlow, hhigh⟩ := toNat_of_isDigit h
  rw [digit?, zeros, List.find?_cons_of_pos]
  · rfl
  · rw [Bool.and_eq_true, decide_eq_true_eq, decide_eq_true_eq]
    omega

theorem isBlank_of_isDigit {c : Char} (h : c.isDigit = true) : isBlank c = false := by
  obtain ⟨hlow, hhigh⟩ := toNat_of_isDigit h
  simp only [isBlank, inRanges, blankRanges, List.any_cons, List.any_nil, Bool.or_eq_false_iff,
    Bool.and_eq_false_iff, decide_eq_false_iff_not, and_true]
  omega

/-- A digit is added to those already read. -/
theorem digitsFrom_of_isDigit {cs : List Char} (h : ∀ c ∈ cs, c.isDigit = true)
    (read : List Nat) :
    ∃ ds, digitsFrom read false cs = some ds ∧ ds.length = cs.length + read.length ∧
      ofDigits ds = Nat.ofDigitChars 10 cs (ofDigits read) := by
  induction cs generalizing read with
  | nil => exact ⟨read, rfl, (Nat.zero_add _).symm, rfl⟩
  | cons c rest ih =>
      obtain ⟨hc, hrest⟩ := List.forall_mem_cons.mp h
      obtain ⟨ds, hds, hlen, hval⟩ := ih hrest ((c.toNat - '0'.toNat) :: read)
      refine ⟨ds, ?_, ?_, ?_⟩
      · rw [digitsFrom, digit?_of_isDigit hc]
        exact hds
      · rw [hlen, List.length_cons, List.length_cons]
        omega
      · rw [hval, Nat.ofDigitChars_cons, ofDigits, Nat.add_comm]

/-- Digits, not too many, are read as the number they write. -/
theorem nat?_of_isDigit {cs : List Char} (hne : cs ≠ []) (h : ∀ c ∈ cs, c.isDigit = true)
    (hlen : cs.length ≤ maxDigits) : nat? cs = some (Nat.ofDigitChars 10 cs 0) := by
  obtain ⟨c, rest, rfl⟩ := List.exists_cons_of_ne_nil hne
  obtain ⟨ds, hds, hcount, hval⟩ := digitsFrom_of_isDigit h []
  have hread : digits? (c :: rest) = some ds := by
    rw [← hds, digits?, digitsFrom, digitsFrom, digit?_of_isDigit (h c List.mem_cons_self)]
  rw [nat?, hread]
  dsimp only
  rw [if_pos (by rw [hcount]; exact hlen), hval]
  rfl

theorem trimBlanks_of_isDigit {cs : List Char} (h : ∀ c ∈ cs, c.isDigit = true) :
    trimBlanks cs = cs := by
  have hkeep : ∀ {l : List Char}, (∀ c ∈ l, c.isDigit = true) → l.dropWhile isBlank = l := by
    intro l hl
    cases l with
    | nil => rfl
    | cons c rest =>
        exact List.dropWhile_cons_of_neg (by simp [isBlank_of_isDigit (hl c List.mem_cons_self)])
  rw [trimBlanks, hkeep h, hkeep fun c hc => h c (List.mem_reverse.mp hc), List.reverse_reverse]

/-- **The decimal text of a number is read as this number,** as long as it is short enough. -/
theorem int?_toString {n : Nat} (h : (toString n).length ≤ maxDigits) :
    int? (toString n) = some (n : Int) := by
  have hdigits : ∀ c ∈ Nat.toDigits 10 n, c.isDigit = true := fun c hc =>
    Nat.isDigit_of_mem_toDigits (by decide) (by decide) hc
  have hlen : (Nat.toDigits 10 n).length ≤ maxDigits := by
    rw [← Nat.toList_repr, String.length_toList]
    exact h
  have hnat : nat? (Nat.toDigits 10 n) = some n := by
    rw [nat?_of_isDigit Nat.toDigits_ne_nil hdigits hlen,
      Nat.ofDigitChars_toDigits (by decide) (by decide)]
  rw [int?, Nat.toString_eq_repr, Nat.toList_repr, trimBlanks_of_isDigit hdigits]
  -- the text starts with a digit, so it has no sign
  split
  · next rest heq => exact absurd (hdigits '-' (heq ▸ List.mem_cons_self)) (by decide)
  · next rest heq => exact absurd (hdigits '+' (heq ▸ List.mem_cons_self)) (by decide)
  · rw [hnat]
    rfl

end Text

/-! ## Groups -/

namespace CommandLine

/-- How a setting is typed: its value is an argument of its own behind the short or the long
    name, or attached to the long name. -/
inductive Style where
  | short
  | long
  | attached
deriving DecidableEq, Repr

/-- The values that a setting can be given in a style.  An argument of its own must not look
    like an option. -/
def Style.Admits : Style → String → Prop
  | .short, value => value.toList.head? ≠ some '-'
  | .long, value => value.toList.head? ≠ some '-'
  | .attached, value => value ≠ "--"

instance (style : Style) (value : String) : Decidable (style.Admits value) :=
  match style with
  | .short => inferInstanceAs (Decidable (value.toList.head? ≠ some '-'))
  | .long => inferInstanceAs (Decidable (value.toList.head? ≠ some '-'))
  | .attached => inferInstanceAs (Decidable (value ≠ "--"))

/-- The short name of a setting as it is typed. -/
def Setting.shortName : Setting → String
  | .source => "-s"
  | .tape => "-a"

/-- Its long name. -/
def Setting.longName : Setting → String
  | .source => "--src"
  | .tape => "--arr"

/-- The arguments that give a setting its value. -/
def Setting.words (s : Setting) (value : String) : Style → List String
  | .short => [s.shortName, value]
  | .long => [s.longName, value]
  | .attached => [s.longName ++ "=" ++ value]

/-- One thing that a command line says. -/
inductive Group where
  /-- Where the source is. -/
  | source (style : Style) (path : String) (admitted : style.Admits path)
  /-- How many cells the tape has. -/
  | tape (style : Style) (length : Nat) (positive : 1 ≤ length)
      (short : (toString length).length ≤ Text.maxDigits)
  /-- That a log is wanted. -/
  | verbose (long : Bool)

namespace Group

/-- The arguments that a group is typed as. -/
def words : Group → List String
  | .source style path _ => Setting.source.words path style
  | .tape style length _ _ => Setting.tape.words (toString length) style
  | .verbose long => [if long then "--verbose" else "-v"]

/-- The path of the source, if the group says it. -/
def path? : Group → Option String
  | .source _ path _ => some path
  | .tape .. => none
  | .verbose _ => none

/-- The length of the tape, if the group says it. -/
def length? : Group → Option Nat
  | .source .. => none
  | .tape _ length _ _ => some length
  | .verbose _ => none

/-- Whether the group asks for a log. -/
def isVerbose : Group → Bool
  | .source .. => false
  | .tape .. => false
  | .verbose _ => true

/-- What the group does to a draft. -/
def act (d : Draft) : Group → Draft
  | .source _ path _ => { d with source := some (some (normalPath path)) }
  | .tape _ length _ _ => { d with tapeLen := some (some length) }
  | .verbose _ => { d with verbose := true }

end Group

/-! ## Classifying -/

/-- What the arguments of a setting are taken for. -/
def Setting.arguments (s : Setting) (value : String) : Style → List (Word × Argument)
  | .short => [(s.shortName.toList, .short (.setting s) none), (value.toList, .plain)]
  | .long => [(s.longName.toList, .long (.setting s) none), (value.toList, .plain)]
  | .attached =>
      [((s.longName ++ "=" ++ value).toList, .long (.setting s) (some value.toList))]

/-- What the arguments of a group are taken for. -/
def Group.arguments : Group → List (Word × Argument)
  | .source style path _ => Setting.source.arguments path style
  | .tape style length _ _ => Setting.tape.arguments (toString length) style
  | .verbose long =>
      if long then [("--verbose".toList, .long (.flag .verbose) none)]
      else [("-v".toList, .short (.flag .verbose) none)]

/-- The argument is no marker, and its text says what it is. -/
def Argument.Classified (x : Word × Argument) : Prop :=
  x.1 ≠ Argument.markerWord ∧ Argument.classify x.1 = .ok x.2

/-- Arguments that are what they are taken for are all classified as such. -/
theorem Argument.classifyAll_of_classified {args : List (Word × Argument)}
    (h : ∀ x ∈ args, Argument.Classified x) :
    Argument.classifyAll (args.map Prod.fst) = .ok args := by
  induction args with
  | nil => rfl
  | cons x rest ih =>
      obtain ⟨⟨hmarker, hclass⟩, hrest⟩ := List.forall_mem_cons.mp h
      rw [List.map_cons, Argument.classifyAll, if_neg hmarker, hclass, ih hrest]

/-- A text that does not begin with a dash is taken for a value, also the empty one. -/
theorem Argument.classified_plain {w : Word} (h : w.head? ≠ some '-') :
    Argument.Classified (w, .plain) := by
  refine ⟨?_, ?_⟩
  · rintro rfl
    exact h rfl
  · rw [Argument.classify]
    · rintro body rfl
      exact h rfl
    · rintro letter rest rfl
      exact h rfl

theorem Setting.classified_arguments (s : Setting) {value : String} {style : Style}
    (h : style.Admits value) : ∀ x ∈ s.arguments value style, Argument.Classified x := by
  cases style with
  | short =>
      refine List.forall_mem_cons.mpr ⟨?_, List.forall_mem_singleton.mpr ?_⟩
      · cases s <;> exact ⟨by decide, rfl⟩
      · exact Argument.classified_plain h
  | long =>
      refine List.forall_mem_cons.mpr ⟨?_, List.forall_mem_singleton.mpr ?_⟩
      · cases s <;> exact ⟨by decide, rfl⟩
      · exact Argument.classified_plain h
  | attached =>
      refine List.forall_mem_singleton.mpr ?_
      rw [String.toList_append, String.toList_append]
      cases s <;> exact ⟨by simp [Setting.longName, Argument.markerWord], rfl⟩

theorem Setting.words_eq (s : Setting) (value : String) (style : Style) :
    (s.words value style).map String.toList = (s.arguments value style).map Prod.fst := by
  cases style <;> rfl

/-- Digits look like no option. -/
theorem Style.admits_toString (style : Style) (n : Nat) : style.Admits (toString n) := by
  have hhead : (toString n).toList.head? ≠ some '-' := by
    intro h
    rw [Nat.toString_eq_repr, Nat.toList_repr] at h
    have hdigit := Nat.isDigit_of_mem_toDigits (by decide) (by decide) (List.mem_of_mem_head? h)
    exact absurd hdigit (by decide)
  cases style with
  | short => exact hhead
  | long => exact hhead
  | attached =>
      intro h
      rw [h] at hhead
      exact hhead rfl

/-- **Each argument of a group is taken for what it is,** whatever its values are. -/
theorem Group.classified (g : Group) : ∀ x ∈ g.arguments, Argument.Classified x := by
  cases g with
  | source style path admitted => exact Setting.classified_arguments .source admitted
  | tape style length _ _ => exact Setting.classified_arguments .tape (style.admits_toString length)
  | verbose long => cases long <;> exact List.forall_mem_singleton.mpr ⟨by decide, rfl⟩

theorem Group.words_eq (g : Group) : g.words.map String.toList = g.arguments.map Prod.fst := by
  cases g with
  | source style path _ => exact Setting.words_eq ..
  | tape style length _ _ => exact Setting.words_eq ..
  | verbose long => cases long <;> rfl

/-- **Groups can be told apart:** the words of a whole command line are taken for what
    its groups mean. -/
theorem classifyAll_words (gs : List Group) :
    Argument.classifyAll ((gs.flatMap Group.words).map String.toList)
      = .ok (gs.flatMap Group.arguments) := by
  have hwords : (gs.flatMap Group.words).map String.toList
      = (gs.flatMap Group.arguments).map Prod.fst := by
    rw [List.map_flatMap, List.map_flatMap]
    simp only [Group.words_eq]
  rw [hwords]
  -- an argument is classified by its own text, so it does not matter which group is next to it
  refine Argument.classifyAll_of_classified fun x hx => ?_
  obtain ⟨g, -, hg⟩ := List.mem_flatMap.mp hx
  exact g.classified x hg

/-! ## Acting -/

/-- A value counts however it is typed. -/
theorem Setting.interpret_arguments (s : Setting) {value : String} {d d' : Draft}
    (h : d.assign value.toList s = .ok d') (style : Style) (rest : List (Word × Argument)) :
    interpret d (s.arguments value style ++ rest) = interpret d' rest := by
  have happly : d.apply [] s value.toList = .ok d' := h
  -- the value is the next argument in two of the styles, and comes along in the third
  cases style with
  | short =>
      rw [Setting.arguments, List.cons_append, List.cons_append, List.nil_append, interpret]
      simp only [Argument.bundle?, Bundle.ofShort, Bundle.ofLetters, happly]
  | long =>
      rw [Setting.arguments, List.cons_append, List.cons_append, List.nil_append, interpret]
      simp only [Argument.bundle?, Bundle.ofLong, happly]
  | attached =>
      rw [Setting.arguments, List.cons_append, List.nil_append, interpret]
      simp only [Argument.bundle?, Bundle.ofLong, happly]

/-- No value that a style admits is the marker `--`. -/
theorem Style.Admits.ne_marker {style : Style} {value : String} (h : style.Admits value) :
    value.toList ≠ Argument.markerWord := by
  intro hvalue
  cases style with
  | short => exact h (by rw [hvalue]; rfl)
  | long => exact h (by rw [hvalue]; rfl)
  | attached => exact h (String.toList_inj.mp hvalue)

/-- The path is normalised as soon as it is assigned. -/
theorem Draft.assign_source (d : Draft) {path : String} (h : path.toList ≠ Argument.markerWord) :
    d.assign path.toList .source = .ok { d with source := some (some (normalPath path)) } := by
  rw [Draft.assign, if_neg h, String.ofList_toList]

/-- A positive number that is short enough can be assigned in decimal. -/
theorem Draft.assign_tape (d : Draft) {n : Nat} (hn : 1 ≤ n)
    (hlen : (toString n).length ≤ Text.maxDigits) :
    d.assign (toString n).toList .tape = .ok { d with tapeLen := some (some n) } := by
  have hread : readLength (toString n).toList = .ok n := by
    rw [readLength, String.ofList_toList, Text.int?_toString hlen]
    dsimp only
    rw [if_neg (by omega)]
  rw [Draft.assign, if_neg (Style.admits_toString .short n).ne_marker, hread]

/-- **A group acts at once,** and leaves the arguments after it alone. -/
theorem Group.interpret (g : Group) (d : Draft) (rest : List (Word × Argument)) :
    interpret d (g.arguments ++ rest) = interpret (Group.act d g) rest := by
  cases g with
  | source style path admitted =>
      exact Setting.source.interpret_arguments (d.assign_source admitted.ne_marker) style rest
  | tape style length positive short =>
      exact Setting.tape.interpret_arguments (d.assign_tape positive short) style rest
  | verbose long => cases long <;> rfl

/-- Groups act one after the other, from left to right. -/
theorem interpret_groups (gs : List Group) (d : Draft) :
    interpret d (gs.flatMap Group.arguments) = .ok (gs.foldl Group.act d) := by
  induction gs generalizing d with
  | nil => rfl
  | cons g rest ih => rw [List.flatMap_cons, g.interpret, ih, List.foldl_cons]

/-- A value is replaced by the last of those after it. -/
theorem or_getLast?_cons {α β : Type} (f : α → β) (a : α) (l : List α) (o : Option β) :
    ((a :: l).getLast?.map f).or o = (l.getLast?.map f).or (some (f a)) := by
  rw [List.getLast?_cons]
  cases l.getLast? <;> rfl

/-- **Of each setting the last value remains,** and the wish for a log; nothing is set aside. -/
theorem foldl_act (gs : List Group) (d : Draft) :
    gs.foldl Group.act d =
      ⟨((gs.filterMap Group.path?).getLast?.map fun path => some (normalPath path)).or d.source,
        ((gs.filterMap Group.length?).getLast?.map fun n : Nat => some (n : Int)).or d.tapeLen,
        d.verbose || gs.any Group.isVerbose, d.leftovers⟩ := by
  induction gs generalizing d with
  | nil => simp
  | cons g rest ih =>
      rw [List.foldl_cons, ih]
      cases g with
      | source style path _ =>
          simp only [List.filterMap_cons, List.any_cons, Group.path?, Group.length?,
            Group.isVerbose, Group.act, or_getLast?_cons, Bool.false_or]
      | tape style length _ _ =>
          simp only [List.filterMap_cons, List.any_cons, Group.path?, Group.length?,
            Group.isVerbose, Group.act, or_getLast?_cons, Bool.false_or]
      | verbose long =>
          simp only [List.filterMap_cons, List.any_cons, Group.path?, Group.length?,
            Group.isVerbose, Group.act, Bool.true_or, Bool.or_true]

/-! ## Whole command lines -/

/-- With some path given, the last one counts; the length is the last one given, or the
    usual one. -/
theorem parseArgs_of_path {gs : List Group} {path : String}
    (h : (gs.filterMap Group.path?).getLast? = some path) :
    parseArgs (gs.flatMap Group.words)
      = .ok ⟨some (normalPath path), some ((gs.filterMap Group.length?).getLast?.getD 30000 : Nat),
          gs.any Group.isVerbose⟩ := by
  rw [parseArgs, classifyAll_words]
  dsimp only
  rw [interpret_groups, foldl_act, h]
  cases (gs.filterMap Group.length?).getLast? <;> rfl

/-- Without a path the command line is misused, whatever else it says. -/
theorem parseArgs_of_no_path {gs : List Group}
    (h : (gs.filterMap Group.path?).getLast? = none) :
    parseArgs (gs.flatMap Group.words) = .error (.misused .sourceRequired) := by
  rw [parseArgs, classifyAll_words]
  dsimp only
  rw [interpret_groups, foldl_act, h]
  rfl

theorem path?_of_getLast? {gs : List Group} {path : String}
    (h : (gs.filterMap Group.path?).getLast? = some path) : ∃ g ∈ gs, g.path?.isSome := by
  obtain ⟨g, hg, hpath⟩ := List.mem_filterMap.mp (List.mem_of_getLast? h)
  exact ⟨g, hg, Option.isSome_of_mem hpath⟩

theorem no_path?_of_getLast? {gs : List Group}
    (h : (gs.filterMap Group.path?).getLast? = none) : ¬ ∃ g ∈ gs, g.path?.isSome := by
  rintro ⟨g, hg, hpath⟩
  have hnone := List.filterMap_eq_nil_iff.mp (List.getLast?_eq_none_iff.mp h) g hg
  rw [hnone] at hpath
  exact nomatch hpath

/-- The arguments of groups that say the same are read alike. -/
theorem parseArgs_congr {gs gs' : List Group}
    (hpath : gs.filterMap Group.path? = gs'.filterMap Group.path?)
    (hlength : gs.filterMap Group.length? = gs'.filterMap Group.length?)
    (hverbose : gs.any Group.isVerbose = gs'.any Group.isVerbose) :
    parseArgs (gs.flatMap Group.words) = parseArgs (gs'.flatMap Group.words) := by
  cases hlast : (gs.filterMap Group.path?).getLast? with
  | none => rw [parseArgs_of_no_path hlast, parseArgs_of_no_path (hpath ▸ hlast)]
  | some path =>
      rw [parseArgs_of_path hlast, parseArgs_of_path (hpath ▸ hlast), hlength, hverbose]

/-- **Options fold from left to right.**  A command line made of groups is accepted exactly if
    a source is among them.  Then the settings are the last source in normal form, the last
    tape length or else 30000 cells, and a log if any group asks for one; and the session goes
    on with them, having written nothing.  Without a source it ends with status 2 and an empty
    standard output.  So groups of different options may change places: what counts is the
    order of the sources, that of the lengths, and whether a log is wanted. -/
theorem options_fold_left_to_right (gs : List Group) :
    ((∃ s, parseArgs (gs.flatMap Group.words) = .ok s) ↔ ∃ g ∈ gs, g.path?.isSome) ∧
    (∀ s, parseArgs (gs.flatMap Group.words) = .ok s →
      s.source = (gs.filterMap Group.path?).getLast?.map normalPath ∧
      s.tapeLen = some ((gs.filterMap Group.length?).getLast?.getD 30000 : Nat) ∧
      (s.verbose = true ↔ ∃ g ∈ gs, g.isVerbose) ∧
      ∀ fuel d stdin, Session.run fuel (gs.flatMap Group.words) d stdin
        = Session.runSettings fuel s d stdin) ∧
    ((¬ ∃ g ∈ gs, g.path?.isSome) → ∃ stop, parseArgs (gs.flatMap Group.words) = .error stop ∧
      stop.exitCode = 2 ∧ stop.stdout = "") ∧
    ∀ gs' : List Group, gs.filterMap Group.path? = gs'.filterMap Group.path? →
      gs.filterMap Group.length? = gs'.filterMap Group.length? →
      ((∃ g ∈ gs, g.isVerbose) ↔ ∃ g ∈ gs', g.isVerbose) →
      parseArgs (gs.flatMap Group.words) = parseArgs (gs'.flatMap Group.words) := by
  refine ⟨?_, ?_, ?_, ?_⟩
  · cases hlast : (gs.filterMap Group.path?).getLast? with
    | none =>
        rw [parseArgs_of_no_path hlast]
        exact iff_of_false (fun ⟨_, h⟩ => nomatch h) (no_path?_of_getLast? hlast)
    | some path =>
        rw [parseArgs_of_path hlast]
        exact iff_of_true ⟨_, rfl⟩ (path?_of_getLast? hlast)
  · intro s hs
    have hrun : ∀ fuel d stdin, Session.run fuel (gs.flatMap Group.words) d stdin
        = Session.runSettings fuel s d stdin := by
      intro fuel d stdin
      rw [Session.run, hs]
    cases hlast : (gs.filterMap Group.path?).getLast? with
    | none =>
        rw [parseArgs_of_no_path hlast] at hs
        exact nomatch hs
    | some path =>
        rw [parseArgs_of_path hlast] at hs
        cases hs
        exact ⟨rfl, rfl, List.any_eq_true, hrun⟩
  · intro hnone
    cases hlast : (gs.filterMap Group.path?).getLast? with
    | none => exact ⟨_, parseArgs_of_no_path hlast, rfl, rfl⟩
    | some path => exact absurd (path?_of_getLast? hlast) hnone
  · intro gs' hpath hlength hverbose
    refine parseArgs_congr hpath hlength (Bool.eq_iff_iff.mpr ?_)
    rw [List.any_eq_true, List.any_eq_true]
    exact hverbose

/-- A path with a blank is replaced by one that begins with a dash and holds an equals sign. -/
theorem options_fold_left_to_right_mixed :
    ∃ s, parseArgs ["-v", "--arr=5", "-s", "a b", "--src=-x=.//y", "--arr", "7"] = .ok s ∧
      s.source = some "-x=./y" ∧ s.tapeLen = some 7 ∧ s.verbose = true := by
  obtain ⟨haccepted, hsettings, -⟩ := options_fold_left_to_right
    [.verbose false, .tape .attached 5 (by decide) (by decide), .source .short "a b" (by decide),
      .source .attached "-x=.//y" (by decide), .tape .long 7 (by decide) (by decide)]
  obtain ⟨s, hs⟩ := haccepted.mpr
    ⟨.source .short "a b" (by decide), by simp, rfl⟩
  obtain ⟨hsource, htape, hverbose, -⟩ := hsettings s hs
  exact ⟨s, hs, hsource.trans rfl, htape, hverbose.mpr ⟨.verbose false, by simp, rfl⟩⟩

end CommandLine

end ByteTape
