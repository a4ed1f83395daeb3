import ByteTape.Proofs.Options
import Mathlib.Data.List.TakeWhile

/-! # Normal forms of paths

    A path is normalised once when the command line is read, and once more when the file is
    opened.  The second time changes nothing, because the written form of a path is read back
    as this path:

    * `Path.Proper` — the names of a path can be told apart in its written form;
    * `Path.proper_parseChars` — a path that was read from a text is proper;
    * `Path.Proper.parseChars_renderChars` — a proper path is read back.

    So a text and its normal form stand for one path (`parse_normalPath`), and whatever is
    asked of the path, its root, its names or the file it leads to, has one answer for both.

    What a normal form is, is said without paths, by the slashes of the text alone:
    `leadingSlashes`, `belowRoot` and `components` take a text apart, and `InNormalForm` looks
    at the parts.  The texts in normal form are those that normalising leaves alone
    (`normalPath_eq_self_iff`). -/

namespace ByteTape

/-! ## Texts and their slashes -/

/-- The number of slashes that a text begins with. -/
def leadingSlashes (text : String) : Nat := (text.toList.takeWhile (· == '/')).length

/-- The text begins with a slash. -/
def IsAbsolute (text : String) : Prop := text.toList.head? = some '/'

/-- The root that a number of leading slashes makes: only exactly two are a root of their own. -/
def Root.ofSlashes : Nat → Root
  | 0 => .relative
  | 2 => .doubleSlash
  | _ => .slash

/-- What a text has behind its root. -/
def belowRoot (text : String) : List Char :=
  text.toList.drop (Root.ofSlashes (leadingSlashes text)).render.length

/-- What stands between the slashes.  No characters have no components, rather than an empty
    one. -/
def components (cs : List Char) : List (List Char) := if cs = [] then [] else cs.splitOn '/'

/-- The components of a text, in order, without the empty ones and the dots. -/
def namesOf (text : String) : List (List Char) :=
  (components text.toList).filter fun c => c ≠ [] ∧ c ≠ ['.']

/-- A dot; or a text that is not empty, with no empty component and no dot behind its root, and
    no slash at the end. -/
def InNormalForm (text : String) : Prop :=
  text = "." ∨
    text ≠ "" ∧ (∀ c ∈ components (belowRoot text), c ≠ [] ∧ c ≠ ['.']) ∧
      (belowRoot text).getLast? ≠ some '/'

theorem Root.eq_of_mem_render {root : Root} {c : Char} (h : c ∈ root.render) : c = '/' := by
  cases root <;> simp_all [Root.render]

/-- Behind a slash at the end there is an empty component. -/
theorem nil_mem_components {cs : List Char} (h : cs.getLast? = some '/') : [] ∈ components cs := by
  obtain ⟨front, rfl⟩ := List.getLast?_eq_some_iff.mp h
  rw [components, if_neg (by simp), List.splitOn_append_cons_self, List.splitOn_nil]
  exact List.mem_append_right _ (List.mem_singleton_self _)

namespace Path

/-! ## Roots -/

/-- Only the slashes in front of the first other character count for the root. -/
theorem rootOf_replicate_append (n : Nat) {cs : List Char} (h : cs.head? ≠ some '/') :
    rootOf (List.replicate n '/' ++ cs) = Root.ofSlashes n := by
  have hcs : ∀ rest, cs ≠ '/' :: rest := by
    rintro rest rfl
    exact h rfl
  match n with
  | 0 => simp [rootOf, Root.ofSlashes, hcs]
  | 1 => simp [rootOf, Root.ofSlashes, hcs]
  | 2 => simp [rootOf, Root.ofSlashes, List.replicate]
  | n + 3 => rfl

/-- The root of a text is that of its leading slashes. -/
theorem rootOf_eq_ofSlashes (text : String) :
    rootOf text.toList = Root.ofSlashes (leadingSlashes text) := by
  have hslashes : text.toList.takeWhile (· == '/') = List.replicate (leadingSlashes text) '/' := by
    refine List.eq_replicate_iff.mpr ⟨rfl, fun c hc => ?_⟩
    have hslash := List.mem_takeWhile_imp hc
    exact beq_iff_eq.mp hslash
  have hrest : (text.toList.dropWhile (· == '/')).head? ≠ some '/' := by
    intro h
    have hnot := List.head?_dropWhile_not (· == '/') text.toList
    rw [h] at hnot
    exact nomatch hnot
  rw [← rootOf_replicate_append _ hrest, ← hslashes, List.takeWhile_append_dropWhile]

/-- Exactly two slashes lead to the double root. -/
theorem leadingSlashes_eq_two_iff (text : String) :
    leadingSlashes text = 2 ↔ rootOf text.toList = .doubleSlash := by
  rw [rootOf_eq_ofSlashes]
  fun_cases Root.ofSlashes (leadingSlashes text) <;> simp_all

theorem isAbsolute_iff (text : String) :
    IsAbsolute text ↔ rootOf text.toList ≠ .relative := by
  rw [IsAbsolute, List.head?_eq_some_iff, rootOf.eq_def]
  split <;> simp_all

/-- The root is read back, unless it runs into a slash. -/
theorem rootOf_render_append (root : Root) {cs : List Char} (h : cs.head? ≠ some '/') :
    rootOf (root.render ++ cs) = root := by
  cases root with
  | relative => exact rootOf_replicate_append 0 h
  | slash => exact rootOf_replicate_append 1 h
  | doubleSlash => exact rootOf_replicate_append 2 h

/-- A text is its root and what stands behind it. -/
theorem render_rootOf_append_belowRoot (text : String) :
    (rootOf text.toList).render ++ belowRoot text = text.toList := by
  rw [belowRoot, ← rootOf_eq_ofSlashes]
  fun_cases rootOf text.toList <;> rfl

/-! ## Pieces and names -/

theorem pieces_eq_splitOn (cs : List Char) : pieces cs = cs.splitOn '/' := by
  induction cs with
  | nil => rfl
  | cons c rest ih =>
      rw [pieces, List.splitOn_cons_eq_if_modifyHead, ih]
      by_cases hc : c = '/'
      · rw [if_pos hc, if_pos (beq_iff_eq.mpr hc)]
      · rw [if_neg hc, if_neg (by simpa using hc)]
        cases hsplit : rest.splitOn '/' with
        | nil => exact absurd hsplit (List.splitOn_ne_nil '/' rest)
        | cons first others => rfl

/-- Names are joined by single slashes. -/
theorem joinNames_eq_intercalate (names : List (List Char)) :
    joinNames names = ['/'].intercalate names := by
  fun_induction joinNames names with
  | case1 => rfl
  | case2 name => exact List.intercalate_singleton.symm
  | case3 name rest hrest ih =>
      rw [ih, List.intercalate_cons_of_ne_nil hrest, List.append_assoc, List.singleton_append]

/-- Components that are joined again give the text back. -/
theorem joinNames_components (cs : List Char) : joinNames (components cs) = cs := by
  rw [components]
  split
  · next hnil => exact hnil.symm
  · rw [joinNames_eq_intercalate, List.intercalate_splitOn]

/-- The characters of a piece are those of the text, and no slashes. -/
theorem mem_of_mem_pieces {cs piece : List Char} {c : Char} (hpiece : piece ∈ pieces cs)
    (hc : c ∈ piece) : c ≠ '/' ∧ c ∈ cs := by
  fun_induction pieces cs generalizing piece with
  | case1 =>
      rw [List.mem_singleton.mp hpiece] at hc
      exact nomatch hc
  | case2 rest ih =>
      rcases List.mem_cons.mp hpiece with rfl | hmem
      · exact nomatch hc
      · exact (ih hmem hc).imp_right (List.mem_cons_of_mem _)
  | case3 a rest ha first others hpieces ih =>
      rw [hpieces] at ih
      have hrest : ∀ {other}, other ∈ first :: others → c ∈ other → c ≠ '/' ∧ c ∈ a :: rest := by
        intro other hother hmem
        exact (ih hother hmem).imp_right (List.mem_cons_of_mem _)
      rcases List.mem_cons.mp hpiece with rfl | hothers
      · rcases List.mem_cons.mp hc with rfl | hfirst
        · exact ⟨ha, List.mem_cons_self⟩
        · exact hrest List.mem_cons_self hfirst
      · exact hrest (List.mem_cons_of_mem _ hothers) hc
  | case4 a rest ha hpieces ih =>
      obtain rfl := List.mem_singleton.mp hpiece
      obtain rfl := List.mem_singleton.mp hc
      exact ⟨ha, List.mem_cons_self⟩

theorem mem_joinNames {names : List (List Char)} {c : Char} (h : c ∈ joinNames names) :
    c = '/' ∨ ∃ name ∈ names, c ∈ name := by
  fun_induction joinNames names with
  | case1 => exact nomatch h
  | case2 name => exact .inr ⟨name, List.mem_singleton_self _, h⟩
  | case3 name rest hrest ih =>
      rcases List.mem_append.mp h with hname | hmore
      · exact .inr ⟨name, List.mem_cons_self, hname⟩
      · rcases List.mem_cons.mp hmore with rfl | hjoin
        · exact .inl rfl
        · obtain hslash | ⟨other, hother, hc⟩ := ih hjoin
          · exact .inl hslash
          · exact .inr ⟨other, List.mem_cons_of_mem _ hother, hc⟩

theorem isName_iff {piece : List Char} : isName piece = true ↔ piece ≠ [] ∧ piece ≠ ['.'] := by
  simp [isName]

/-- Pieces and components differ in the empty text only, which holds no names. -/
theorem filter_pieces (cs : List Char) :
    (pieces cs).filter isName = (components cs).filter isName := by
  rw [pieces_eq_splitOn, components]
  split
  · next hnil =>
      rw [hnil]
      rfl
  · rfl

theorem filter_pieces_append (root : Root) (cs : List Char) :
    (pieces (root.render ++ cs)).filter isName = (pieces cs).filter isName := by
  cases root <;> rfl

/-- The names that a text shows are those of its path. -/
theorem names_parse (text : String) : (parse text).names = namesOf text := by
  rw [parse, parseChars, filter_pieces, namesOf]
  refine List.filter_congr fun c _ => ?_
  rw [Bool.eq_iff_iff, isName_iff, decide_eq_true_eq]

/-! ## Reading back what was written -/

/-- Every name can be told from what stands around it: it is not empty, no dot, and holds no
    slash. -/
def Proper (p : Path) : Prop := ∀ name ∈ p.names, (name ≠ [] ∧ name ≠ ['.']) ∧ '/' ∉ name

/-- **A path that was read is proper.** -/
theorem proper_parseChars (cs : List Char) : (parseChars cs).Proper := by
  intro name hname
  obtain ⟨hpiece, hkeep⟩ := List.mem_filter.mp hname
  exact ⟨isName_iff.mp hkeep, fun hslash => (mem_of_mem_pieces hpiece hslash).1 rfl⟩

/-- Only the path that goes nowhere is not written as its root and its names. -/
theorem renderChars_of_ne {p : Path} (h : p ≠ ⟨.relative, []⟩) :
    p.renderChars = p.root.render ++ joinNames p.names := by
  obtain ⟨root, names⟩ := p
  cases root with
  | relative =>
      cases names with
      | nil => exact absurd rfl h
      | cons name rest => rfl
  | slash => rfl
  | doubleSlash => rfl

theorem toList_render (p : Path) : p.render.toList = p.renderChars := String.toList_ofList

namespace Proper

variable {p : Path}

/-- Proper names are found again between the slashes. -/
theorem components_joinNames (h : p.Proper) : components (joinNames p.names) = p.names := by
  rw [joinNames_eq_intercalate]
  by_cases hnames : p.names = []
  · rw [hnames]
    rfl
  · have hsplit : (['/'].intercalate p.names).splitOn '/' = p.names :=
      List.splitOn_intercalate '/' (fun name hname => (h name hname).2) hnames
    rw [components, if_neg, hsplit]
    intro hnil
    -- the only component would be an empty name
    rw [hnil, List.splitOn_nil] at hsplit
    exact (h [] (hsplit ▸ List.mem_singleton_self _)).1.1 rfl

/-- A proper name does not begin with a slash, so no slash is added to the root. -/
theorem head?_joinNames (h : p.Proper) : (joinNames p.names).head? ≠ some '/' := by
  cases hnames : p.names with
  | nil => simp [joinNames]
  | cons name rest =>
      obtain ⟨⟨hne, -⟩, hslash⟩ := h name (hnames ▸ List.mem_cons_self)
      obtain ⟨c, cs, rfl⟩ := List.exists_cons_of_ne_nil hne
      have hhead : (joinNames ((c :: cs) :: rest)).head? = some c := by cases rest <;> rfl
      rw [hhead]
      intro hc
      exact hslash (Option.some.inj hc ▸ List.mem_cons_self)

/-- The root of a proper path is read back. -/
theorem rootOf_renderChars (h : p.Proper) : rootOf p.renderChars = p.root := by
  by_cases hp : p = ⟨.relative, []⟩
  · rw [hp]
    rfl
  · rw [renderChars_of_ne hp]
    exact rootOf_render_append p.root h.head?_joinNames

theorem filter_pieces_renderChars (h : p.Proper) :
    (pieces p.renderChars).filter isName = p.names := by
  by_cases hp : p = ⟨.relative, []⟩
  · rw [hp]
    rfl
  · rw [renderChars_of_ne hp, filter_pieces_append, filter_pieces, h.components_joinNames]
    exact List.filter_eq_self.mpr fun name hname => isName_iff.mpr (h name hname).1

/-- **What is written is read back.** -/
theorem parseChars_renderChars (h : p.Proper) : parseChars p.renderChars = p := by
  rw [parseChars, h.rootOf_renderChars, h.filter_pieces_renderChars]

theorem belowRoot_render (h : p.Proper) (hp : p ≠ ⟨.relative, []⟩) :
    belowRoot p.render = joinNames p.names := by
  rw [belowRoot, ← rootOf_eq_ofSlashes, toList_render, h.rootOf_renderChars, renderChars_of_ne hp,
    List.drop_left]

/-- **What is written is in normal form.** -/
theorem inNormalForm_render (h : p.Proper) : InNormalForm p.render := by
  by_cases hp : p = ⟨.relative, []⟩
  · left
    rw [hp]
    rfl
  · right
    have hnames : ∀ c ∈ components (belowRoot p.render), c ≠ [] ∧ c ≠ ['.'] := by
      rw [h.belowRoot_render hp, h.components_joinNames]
      exact fun name hname => (h name hname).1
    refine ⟨?_, hnames, ?_⟩
    · intro hempty
      have hback := h.parseChars_renderChars
      rw [← toList_render, hempty] at hback
      exact hp hback.symm
    · intro hlast
      exact (hnames [] (nil_mem_components hlast)).1 rfl

end Proper

end Path

/-! ## Normal forms -/

open ByteTape.Path

/-- **A text and its normal form stand for one path.** -/
theorem parse_normalPath (text : String) : parse (normalPath text) = parse text := by
  rw [normalPath, parse, toList_render]
  exact (proper_parseChars text.toList).parseChars_renderChars

/-- Normalising keeps the root. -/
theorem rootOf_normalPath (text : String) :
    rootOf (normalPath text).toList = rootOf text.toList := by
  rw [normalPath, toList_render]
  exact (proper_parseChars text.toList).rootOf_renderChars

/-- **Normalising leads to a normal form.** -/
theorem inNormalForm_normalPath (text : String) : InNormalForm (normalPath text) :=
  (proper_parseChars text.toList).inNormalForm_render

/-- Where every component is a name, nothing is dropped. -/
theorem normalPath_of_inNormalForm {text : String} (h : InNormalForm text) :
    normalPath text = text := by
  obtain rfl | ⟨hne, hnames, -⟩ := h
  · rfl
  have hkept : (parse text).names = components (belowRoot text) :=
    calc (parse text).names
        = (pieces ((rootOf text.toList).render ++ belowRoot text)).filter isName := by
          rw [render_rootOf_append_belowRoot]
          rfl
      _ = (components (belowRoot text)).filter isName := by
          rw [filter_pieces_append, filter_pieces]
      _ = components (belowRoot text) :=
          List.filter_eq_self.mpr fun c hc => isName_iff.mpr (hnames c hc)
  have hwritten : (parse text).root.render ++ joinNames (parse text).names = text.toList := by
    rw [hkept, joinNames_components]
    exact render_rootOf_append_belowRoot text
  have hp : parse text ≠ ⟨.relative, []⟩ := by
    intro hp
    rw [hp] at hwritten
    exact hne (String.toList_eq_nil_iff.mp hwritten.symm)
  rw [normalPath, render, renderChars_of_ne hp, hwritten, String.ofList_toList]

/-- **Normal forms are the texts that normalising leaves alone.** -/
theorem normalPath_eq_self_iff {text : String} : normalPath text = text ↔ InNormalForm text := by
  refine ⟨fun h => ?_, normalPath_of_inNormalForm⟩
  rw [← h]
  exact inNormalForm_normalPath text

/-- The characters of a normal form are slashes, dots and those of the text. -/
theorem mem_normalPath {text : String} {c : Char} (h : c ∈ (normalPath text).toList) :
    c = '/' ∨ c = '.' ∨ c ∈ text.toList := by
  rw [normalPath, toList_render] at h
  by_cases hp : parse text = ⟨.relative, []⟩
  · rw [hp] at h
    exact .inr (.inl (List.mem_singleton.mp h))
  · rw [renderChars_of_ne hp] at h
    rcases List.mem_append.mp h with hroot | hjoin
    · exact .inl (Root.eq_of_mem_render hroot)
    · obtain hslash | ⟨name, hname, hc⟩ := mem_joinNames hjoin
      · exact .inl hslash
      · have hpiece := (List.mem_filter.mp hname).1
        exact .inr (.inr (mem_of_mem_pieces hpiece hc).2)

/-- Two texts that stand for one path load alike; an error shows the text that was given. -/
theorem load_congr {path path' : String} (d : Directory) (hparse : parse path' = parse path)
    (hnul : ¬ Char.ofNat 0 ∈ path.toList) (hnul' : ¬ Char.ofNat 0 ∈ path'.toList) :
    (∃ text, load d path = .ok text ∧ load d path' = .ok text) ∨
      ∃ obstacle, load d path = .error (.unavailable path obstacle) ∧
        load d path' = .error (.unavailable path' obstacle) := by
  rw [load, load, if_neg (by simpa using hnul), if_neg (by simpa using hnul'), hparse]
  cases d.read (parse path) with
  | ok content => exact .inl ⟨sourceText content, rfl, rfl⟩
  | error obstacle => exact .inr ⟨obstacle, rfl, rfl⟩

theorem CommandLine.parseArgs_attached {path : String} (h : path ≠ "--") :
    parseArgs ["--src=" ++ path] = .ok ⟨some (normalPath path), some defaultTapeLen, false⟩ := by
  have hwords : ["--src=" ++ path] = [Group.source .attached path h].flatMap Group.words := rfl
  rw [hwords, parseArgs_of_path rfl]
  rfl

/-- **Normal forms are stable and lead to the same file.**  What the command line makes of a
    path is its normal form, and normalising again changes nothing.  It has no component that
    is empty or a dot, unless it is a dot itself, and keeps the other components of the path in
    order, also `..`; it is absolute exactly if the path is, and begins with two slashes exactly
    if the path begins with just two.  In every directory both load to the same text, or meet
    the same obstacle, which is then reported for the path as it was given. -/
theorem normal_path_stable {path : String} (hnul : ¬ Char.ofNat 0 ∈ path.toList) :
    (path ≠ "--" → CommandLine.parseArgs ["--src=" ++ path]
      = .ok ⟨some (normalPath path), some defaultTapeLen, false⟩) ∧
    normalPath (normalPath path) = normalPath path ∧
    InNormalForm (normalPath path) ∧
    namesOf (normalPath path) = namesOf path ∧
    (IsAbsolute (normalPath path) ↔ IsAbsolute path) ∧
    (leadingSlashes (normalPath path) = 2 ↔ leadingSlashes path = 2) ∧
    ∀ d : Directory,
      (∃ text, load d path = .ok text ∧ load d (normalPath path) = .ok text) ∨
        ∃ obstacle, load d path = .error (.unavailable path obstacle) ∧
          load d (normalPath path) = .error (.unavailable (normalPath path) obstacle) := by
  have hparse := parse_normalPath path
  have hform := inNormalForm_normalPath path
  refine ⟨CommandLine.parseArgs_attached, normalPath_eq_self_iff.mpr hform, hform, ?_, ?_, ?_, ?_⟩
  · rw [← names_parse, ← names_parse, hparse]
  · rw [isAbsolute_iff, isAbsolute_iff, rootOf_normalPath]
  · rw [leadingSlashes_eq_two_iff, leadingSlashes_eq_two_iff, rootOf_normalPath]
  · intro d
    refine load_congr d hparse hnul fun hmem => ?_
    rcases mem_normalPath hmem with hslash | hdot | hpath
    · exact absurd hslash (by decide)
    · exact absurd hdot (by decide)
    · exact hnul hpath

/-- A file is found in spite of a slash behind its name, and one below two slashes is not. -/
theorem normal_path_stable_trailing_slash :
    ∃ d, d = Directory.ofListing ["a"] [("q.b", [0x2B, 0x2E])] ∧
      CommandLine.parseArgs ["--src=a/.//../q.b/"] = .ok ⟨some "a/../q.b", some 30000, false⟩ ∧
      load d "a/.//../q.b/" = .ok "+." ∧ load d "a/../q.b" = .ok "+." ∧
      leadingSlashes "//q.b" = 2 ∧
      load d "//./q.b" = .error (.unavailable "//./q.b" .noSuchFile) ∧
      load d "//q.b" = .error (.unavailable "//q.b" .noSuchFile) := by
  obtain ⟨d, hd⟩ : ∃ d, d = Directory.ofListing ["a"] [("q.b", [0x2B, 0x2E])] := ⟨_, rfl⟩
  have hfound : load d "a/.//../q.b/" = .ok "+." := by rw [hd]; rfl
  have hmissing : load d "//./q.b" = .error (.unavailable "//./q.b" .noSuchFile) := by
    rw [hd]
    rfl
  obtain ⟨hargs, -, -, -, -, -, hbelow⟩ := @normal_path_stable "a/.//../q.b/" (by decide)
  obtain ⟨-, -, -, -, -, hslashes, habove⟩ := @normal_path_stable "//./q.b" (by decide)
  refine ⟨d, hd, hargs (by decide), hfound, ?_, hslashes.mpr rfl, hmissing, ?_⟩
  · obtain ⟨text, htext, hsame⟩ | ⟨obstacle, herror, -⟩ := hbelow d
    · exact hsame.trans (htext.symm.trans hfound)
    · exact nomatch herror.symm.trans hfound
  · obtain ⟨text, htext, -⟩ | ⟨obstacle, herror, hsame⟩ := habove d
    · exact nomatch htext.symm.trans hmissing
    · cases herror.symm.trans hmissing
      exact hsame

end ByteTape
