import ContractCapsule.Build.Records
import ContractCapsule.Library.Backtrack
import ContractCapsule.Library.Passages
import ContractCapsule.Models.Base

/-!
# Sources of a Baseline

`baselines/providers.py`, the part in front of the renderers: the files of a task are cleaned and
become sources, of which those that the task declares as P0 are to stay exact. The table of word
characters, `\w`, is a parameter.

`collectSources_text` says what the text of a source is like: it can be encoded, nothing can be
stripped from it, and no line of it ends with a space.
-/

namespace ContractCapsule.Baselines

open Library Build
open Models (codePoints splitOn)

/-! ## Section 1: Markers -/

/-- Search for a match, given whether there is one between a character and a text. -/
def searchAt (found : Option CodePoint → Text → Bool) : Option CodePoint → Text → Bool
  | before, [] => found before []
  | before, c :: rest => found before (c :: rest) || searchAt found (some c) rest

/-- `[A-Za-z0-9_]` -/
def isNameChar (c : CodePoint) : Bool :=
  (ofChar 'A' ≤ c && c ≤ ofChar 'Z') || (ofChar 'a' ≤ c && c ≤ ofChar 'z') ||
    (ofChar '0' ≤ c && c ≤ ofChar '9') || c == ofChar '_'

/-- The characters beyond ASCII that a pattern takes for a letter when it ignores the case. -/
def otherCases (letter : Char) : List ℕ :=
  if letter = 'i' then [0x130, 0x131]
  else if letter = 'k' then [0x212A]
  else if letter = 's' then [0x17F]
  else []

/-- A small letter of a pattern that ignores the case. -/
def isLetter (letter : Char) (c : CodePoint) : Bool :=
  c == ofChar letter || c == ofChar letter.toUpper || (otherCases letter).contains c.val

/-- What is behind a word of a pattern that ignores the case. -/
def dropWord : List Char → Text → Option Text
  | [], text => some text
  | _ :: _, [] => none
  | letter :: word, c :: rest => if isLetter letter c then dropWord word rest else none

/-- The words of `_GOLD_MARKER` that stand in front of a colon. -/
def goldLabels : List String := ["gold", "condition", "expected"]

/-- The phrases of `_GOLD_MARKER`: a word, and the words that may follow it. -/
def goldPhrases : List (String × List String) :=
  [("gold", ["label", "atom", "truth", "check"]),
   ("target", ["effect"]),
   ("protected", ["invariant", "check"]),
   ("forbidden", ["spillover"]),
   ("expected", ["condition", "outcome", "label"])]

/-- `(?:word|word)` -/
def anyWord (words : List String) (text : Text) : Bool :=
  words.any fun word => (dropWord word.toList text).isSome

/-- `[-_ ]` -/
def isJoint (c : CodePoint) : Bool := c == ofChar '-' || c == ofChar '_' || c == ofChar ' '

/-- `first[-_ ]?(?:second|second)` -/
def phraseAt (phrase : String × List String) (text : Text) : Bool :=
  (dropWord phrase.1.toList text).any fun behind =>
    anyWord phrase.2 behind || (behind.head?.any isJoint && anyWord phrase.2 behind.tail)

variable (wordChar : CodePoint → Bool)

/-- `\b` -/
def boundary (before next : Option CodePoint) : Bool :=
  before.any wordChar != next.any wordChar

/-- `\bword\b\s*[:=]` -/
def labelAt (before : Option CodePoint) (text : Text) (label : String) : Bool :=
  (dropWord label.toList text).any fun behind =>
    boundary wordChar before text.head? &&
      boundary wordChar text[label.length - 1]? behind.head? &&
      (behind.dropWhile isSpace).head?.any fun c => c == ofChar ':' || c == ofChar '='

/-- A match of `_GOLD_MARKER` -/
def goldMarkerAt (before : Option CodePoint) (text : Text) : Bool :=
  goldLabels.any (labelAt wordChar before text) ||
    goldPhrases.any fun phrase => phraseAt phrase text

/-- `B[0-4]|CC` -/
def isCondition (a b : CodePoint) : Bool :=
  (a == ofChar 'B' && ofChar '0' ≤ b && b ≤ ofChar '4') || (a == ofChar 'C' && b == ofChar 'C')

/-- A match of `_CONDITION_TOKEN` -/
def conditionTokenAt (before : Option CodePoint) : Text → Bool
  | a :: b :: behind => !before.any isNameChar && isCondition a b && !behind.head?.any isNameChar
  | _ => false

/-- `_GOLD_MARKER.search(line) or _CONDITION_TOKEN.search(line)` -/
def hasForbiddenMarker (line : Text) : Bool :=
  searchAt (goldMarkerAt wordChar) none line || searchAt conditionTokenAt none line

/-! ## Section 2: Cleaning -/

/-- `ProviderError` -/
structure ProviderError where
  message : String
deriving DecidableEq, Repr

/-- `raw.replace("\r\n", "\n").replace("\r", "\n")` -/
def unifyReturns : Text → Text
  | [] => []
  | c :: rest =>
    if c = carriageReturn then
      -- the line feed of a pair is the one that is there
      if rest.head? = some lineFeed then unifyReturns rest else lineFeed :: unifyReturns rest
    else c :: unifyReturns rest

/-- `line.rstrip()` -/
def rstrip (line : Text) : Text := line.rdropWhile isSpace

/-- The lines that `_sanitize` keeps. -/
def keptLines (p0 : Bool) : List Text → Except ProviderError (List Text)
  | [] => .ok []
  | line :: lines =>
    if hasForbiddenMarker wordChar line then
      if p0 then .error ⟨"declared P0 context contains a gold or condition marker"⟩
      else keptLines p0 lines
    else do
      let kept ← keptLines p0 lines
      .ok (rstrip line :: kept)

/-- `_sanitize` -/
def sanitize (raw : Text) (p0 : Bool) : Except ProviderError Text := do
  raiseIf (encodable raw = false) ⟨"context file is not valid UTF-8"⟩
  let lines ← keptLines wordChar p0 ((unifyReturns raw).splitOn lineFeed)
  .ok (strip ([lineFeed].intercalate lines))

/-! ## Section 3: Collecting -/

/-- `_Source` -/
structure Source where
  relativePath : String
  text : Text
  p0 : Bool
deriving DecidableEq, Repr

/-- `path.replace("\\", "/")` -/
def normalizedPath (path : String) : String :=
  String.ofList (path.toList.map fun c => if c = '\\' then '/' else c)

/-- The files of a task that may be read, with their paths and texts: the declared ones, whose paths
are a sorted set, or else what is found under the root. -/
inductive ContextFiles where
  | declared (files : List (String × Text))
      (sorted : files.Pairwise fun a b => codePoints a.1 < codePoints b.1)
  | found (files : List (String × Text)) (distinct : (files.map Prod.fst).Nodup)

/-- The files with the paths that their sources get. -/
def ContextFiles.pairs : ContextFiles → List (String × Text)
  | .declared files _ => files.map fun file => (normalizedPath file.1, file.2)
  | .found files _ => files

/-- What a provider reads of a task. -/
structure Task where
  files : ContextFiles
  p0Paths : List String
  approved : Bool
  context : Option Text
  prompt : Option Text

/-- A path that may be declared as P0. -/
def isP0Path (path : String) : Bool :=
  path ≠ "" && !path.toList.contains '\\' && path.toList.head? ≠ some '/' &&
    (splitOn '/' path.toList).all fun part => part ≠ [] && part ≠ ['.'] && part ≠ ['.', '.']

/-- `_declared_p0_paths` -/
def declaredP0Paths (task : Task) : Except ProviderError (List String) := do
  raiseIf (task.p0Paths.all isP0Path = false) ⟨"task P0 path is invalid"⟩
  raiseIf (task.p0Paths ≠ [] ∧ task.approved = false)
    ⟨"P0 metadata requires an approved executable task"⟩
  .ok task.p0Paths

/-- The sources of files. -/
def sourcesOf (p0Paths : List String) : List (String × Text) → Except ProviderError (List Source)
  | [] => .ok []
  | (path, raw) :: pairs => do
    let p0 := p0Paths.contains (normalizedPath path)
    let text ← sanitize wordChar raw p0
    let sources ← sourcesOf p0Paths pairs
    .ok (if text = [] then sources else ⟨path, text, p0⟩ :: sources)

/-- The sources of a task without files. -/
def contextSources : Option Text → Except ProviderError (List Source)
  | none => .ok []
  | some raw =>
    if raw = [] then .ok []
    else do
      let text ← sanitize wordChar raw false
      .ok (if text = [] then [] else [⟨"task-context", text, false⟩])

/-- The sources of a task with files. -/
def fileSources (p0Paths : List String) (pairs : List (String × Text)) :
    Except ProviderError (List Source) := do
  let sources ← sourcesOf wordChar p0Paths pairs
  raiseIf (∃ path ∈ p0Paths, path ∉ pairs.map fun pair => normalizedPath pair.1)
    ⟨"declared P0 path is unavailable"⟩
  .ok sources

/-- `_collect_sources` -/
def collectSources (task : Task) : Except ProviderError (List Source) := do
  let p0Paths ← declaredP0Paths task
  raiseIf (task.files.pairs = [] ∧ p0Paths ≠ []) ⟨"declared P0 path is unavailable"⟩
  if task.files.pairs = [] then contextSources wordChar task.context
  else fileSources wordChar p0Paths task.files.pairs

/-! ## Section 4: Clean texts -/

/-- No line ends with a space. -/
def Tidy (text : Text) : Prop :=
  text.IsChain fun a b => b = lineFeed → isSpace a = true → a = lineFeed

theorem mem_unifyReturns {raw : Text} {c : CodePoint} (h : c ∈ unifyReturns raw) :
    c ∈ raw ∨ c = lineFeed := by
  induction raw with
  | nil => cases h
  | cons d rest ih =>
    have hmore : c ∈ unifyReturns rest → c ∈ d :: rest ∨ c = lineFeed := by
      intro hc
      exact (ih hc).imp_left (List.mem_cons_of_mem d)
    rw [unifyReturns] at h
    split at h
    · split at h
      · exact hmore h
      · rcases List.mem_cons.mp h with hfeed | hrest
        · exact Or.inr hfeed
        · exact hmore hrest
    · rcases List.mem_cons.mp h with hhead | hrest
      · rw [hhead]
        exact Or.inl List.mem_cons_self
      · exact hmore hrest

/-- What is kept of a text is the lines of it without the spaces at their ends. -/
theorem keptLines_mem {p0 : Bool} {lines kept : List Text}
    (h : keptLines wordChar p0 lines = .ok kept) {line : Text} (hline : line ∈ kept) :
    ∃ whole ∈ lines, line = rstrip whole := by
  induction lines generalizing kept with
  | nil =>
    obtain rfl := Except.ok.inj h
    cases hline
  | cons first later ih =>
    rw [keptLines] at h
    split at h
    · split at h
      · cases h
      · obtain ⟨whole, hwhole, heq⟩ := ih h hline
        exact ⟨whole, List.mem_cons_of_mem _ hwhole, heq⟩
    · obtain ⟨rest, hrest, hkept⟩ := (Except.bind_eq_ok _ _ _).mp h
      obtain rfl := Except.ok.inj hkept
      rcases List.mem_cons.mp hline with hfirst | hlater
      · exact ⟨first, List.mem_cons_self, hfirst⟩
      · obtain ⟨whole, hwhole, heq⟩ := ih hrest hlater
        exact ⟨whole, List.mem_cons_of_mem _ hwhole, heq⟩

theorem isSpace_lineFeed : isSpace lineFeed = true := by decide

/-- A line without its trailing spaces is tidy. -/
theorem tidy_rstrip {whole : Text} (h : lineFeed ∉ whole) : Tidy (rstrip whole) := by
  have hmem : ∀ c ∈ rstrip whole, c ≠ lineFeed := by
    intro c hc heq
    rw [heq] at hc
    exact h ((List.rdropWhile_prefix isSpace whole).mem hc)
  apply List.Pairwise.isChain
  apply List.Pairwise.imp_of_mem (R := fun _ _ => True)
  · intro a b _ hb _ hfeed
    exact absurd hfeed (hmem b hb)
  · exact List.pairwise_of_forall fun _ _ => trivial

/-- Lines without trailing spaces make a tidy text. -/
theorem tidy_intercalate {lines : List Text} (h : ∀ line ∈ lines, ∃ whole, lineFeed ∉ whole ∧
    line = rstrip whole) : Tidy ([lineFeed].intercalate lines) := by
  induction lines with
  | nil => exact List.IsChain.nil
  | cons first later ih =>
    obtain ⟨whole, hwhole, hfirst⟩ := h first List.mem_cons_self
    have htidy := tidy_rstrip hwhole
    rw [← hfirst] at htidy
    have hlater := ih fun line hline => h line (List.mem_cons_of_mem _ hline)
    cases later with
    | nil =>
      rw [List.intercalate_singleton]
      exact htidy
    | cons second later =>
      rw [List.intercalate_cons_cons, List.append_assoc]
      apply List.IsChain.append htidy
      · -- behind a line feed there is no condition on what follows
        apply List.IsChain.cons hlater
        intro _ _ _ _
        rfl
      · intro a ha b hb _ hspace
        have hne : rstrip whole ≠ [] := by
          intro hnil
          rw [hfirst, hnil] at ha
          cases ha
        rw [hfirst, List.getLast?_eq_getLast_of_ne_nil hne, Option.mem_some] at ha
        have hnot := List.rdropWhile_last_not isSpace whole hne
        exact absurd (ha ▸ hspace) hnot

theorem notMem_of_mem_splitOn {x : CodePoint} {text line : Text} (h : line ∈ text.splitOn x) :
    x ∉ line := by
  induction text generalizing line with
  | nil =>
    rw [List.splitOn_nil, List.mem_singleton] at h
    rw [h]
    exact List.not_mem_nil
  | cons c rest ih =>
    rw [List.splitOn_cons_eq_if_modifyHead] at h
    split at h
    · rcases List.mem_cons.mp h with hempty | hrest
      · rw [hempty]
        exact List.not_mem_nil
      · exact ih hrest
    -- the character belongs to the first part and is no separator
    · rename_i hc
      obtain ⟨first, later, hparts⟩ := List.exists_cons_of_ne_nil (List.splitOn_ne_nil x rest)
      rw [hparts, List.modifyHead_cons] at h
      rcases List.mem_cons.mp h with hfirst | hlater
      · rw [hfirst, List.mem_cons, not_or]
        refine ⟨?_, ih (by rw [hparts]; exact List.mem_cons_self)⟩
        intro heq
        exact hc (by simp [heq])
      · exact ih (by rw [hparts]; exact List.mem_cons_of_mem _ hlater)

/-- What a clean text is like. -/
structure Clean (text : Text) : Prop where
  encodable : encodable text = true
  stripped : Stripped isSpace text
  tidy : Tidy text

/-- Cleaning makes clean texts. -/
theorem clean_sanitize {raw text : Text} {p0 : Bool} (h : sanitize wordChar raw p0 = .ok text) :
    Clean text := by
  obtain ⟨_, hencodable, h⟩ := (Except.bind_eq_ok _ _ _).mp h
  obtain ⟨lines, hlines, htext⟩ := (Except.bind_eq_ok _ _ _).mp h
  rw [raiseIf_eq_ok, Bool.not_eq_false] at hencodable
  have hstrip : text = strip ([lineFeed].intercalate lines) := (Except.ok.inj htext).symm
  have hinfix : text <:+: [lineFeed].intercalate lines := by
    rw [hstrip]
    exact (List.dropWhile_suffix isSpace).isInfix.trans
      (List.rdropWhile_prefix isSpace _).isInfix
  refine ⟨?_, ?_, ?_⟩
  · -- each character is one of the file or a line feed
    rw [encodable, List.all_eq_true]
    intro c hc
    have hfeed : isSurrogate lineFeed = false := by decide
    have hraw : c ∈ raw ∨ c = lineFeed := by
      rcases mem_intercalate (List.IsInfix.mem hc hinfix) with hseparator | ⟨line, hline, hc⟩
      · exact Or.inr (List.mem_singleton.mp hseparator)
      · obtain ⟨whole, hwhole, hkept⟩ := keptLines_mem wordChar hlines hline
        rw [hkept] at hc
        have hwholeMem := (List.rdropWhile_prefix isSpace whole).mem hc
        have hpart := @infix_intercalate _ [lineFeed] _ _ hwhole
        rw [List.intercalate_splitOn] at hpart
        exact mem_unifyReturns (hpart.mem hwholeMem)
    rcases hraw with hc | hc
    · exact List.all_eq_true.mp hencodable c hc
    · rw [hc, hfeed]
      rfl
  · rw [hstrip]
    exact stripped_stripBy _
  · apply List.IsChain.infix _ hinfix
    apply tidy_intercalate
    intro line hline
    obtain ⟨whole, hwhole, hkept⟩ := keptLines_mem wordChar hlines hline
    exact ⟨whole, notMem_of_mem_splitOn hwhole, hkept⟩

/-- The texts of sources are clean. -/
theorem sourcesOf_text {p0Paths : List String} {pairs : List (String × Text)}
    {sources : List Source} (h : sourcesOf wordChar p0Paths pairs = .ok sources) {source : Source}
    (hsource : source ∈ sources) : Clean source.text ∧ source.text ≠ [] := by
  induction pairs generalizing sources with
  | nil =>
    obtain rfl := Except.ok.inj h
    cases hsource
  | cons pair pairs ih =>
    obtain ⟨text, htext, h⟩ := (Except.bind_eq_ok _ _ _).mp h
    obtain ⟨later, hlater, h⟩ := (Except.bind_eq_ok _ _ _).mp h
    obtain rfl := Except.ok.inj h
    split at hsource
    · exact ih hlater hsource
    · rename_i hne
      rcases List.mem_cons.mp hsource with hfirst | hrest
      · rw [hfirst]
        exact ⟨clean_sanitize wordChar htext, hne⟩
      · exact ih hlater hrest

/-- The texts of collected sources are clean. -/
theorem collectSources_text {task : Task} {sources : List Source}
    (h : collectSources wordChar task = .ok sources) {source : Source}
    (hsource : source ∈ sources) : Clean source.text ∧ source.text ≠ [] := by
  obtain ⟨p0Paths, _, h⟩ := (Except.bind_eq_ok _ _ _).mp h
  obtain ⟨_, _, h⟩ := (Except.bind_eq_ok _ _ _).mp h
  -- a task without files has its context at most, any other the sources of its files
  split at h
  · unfold contextSources at h
    split at h
    · obtain rfl := Except.ok.inj h
      cases hsource
    · split at h
      · obtain rfl := Except.ok.inj h
        cases hsource
      · obtain ⟨text, htext, h⟩ := (Except.bind_eq_ok _ _ _).mp h
        obtain rfl := Except.ok.inj h
        split at hsource
        · cases hsource
        · rename_i hne
          rw [List.mem_singleton.mp hsource]
          exact ⟨clean_sanitize wordChar htext, hne⟩
  · obtain ⟨collected, hcollected, h⟩ := (Except.bind_eq_ok _ _ _).mp h
    obtain ⟨_, _, h⟩ := (Except.bind_eq_ok _ _ _).mp h
    obtain rfl := Except.ok.inj h
    exact sourcesOf_text wordChar hcollected hsource

/-! ## Section 5: A bland file -/

/-- A character that no match of a marker begins with, and that is no space. -/
structure Bland (x : CodePoint) : Prop where
  letters : ∀ letter ∈ ['g', 'c', 'e', 't', 'p', 'f'], isLetter letter x = false
  condition : x ≠ ofChar 'B' ∧ x ≠ ofChar 'C'
  notSpace : isSpace x = false
  notReturn : x ≠ carriageReturn
  notSurrogate : isSurrogate x = false

/-- The letters of a bland character are compared one by one. -/
theorem letters_of_all {x : CodePoint}
    (h : ['g', 'c', 'e', 't', 'p', 'f'].all (fun letter => !isLetter letter x) = true) :
    ∀ letter ∈ ['g', 'c', 'e', 't', 'p', 'f'], isLetter letter x = false := by
  intro letter hletter
  have hrefused := List.all_eq_true.mp h letter hletter
  simpa using hrefused

/-- Nothing is found in copies of a character with which no match begins. -/
theorem searchAt_replicate {found : Option CodePoint → Text → Bool} {x : CodePoint}
    (hnil : ∀ before, found before [] = false)
    (hcons : ∀ before rest, found before (x :: rest) = false) (before : Option CodePoint) (n : ℕ) :
    searchAt found before (List.replicate n x) = false := by
  induction n generalizing before with
  | zero => exact hnil before
  | succ n ih =>
    rw [List.replicate_succ, searchAt, hcons, ih]
    rfl

theorem dropWord_of_head {letter : Char} {word : List Char} {x : CodePoint} {rest : Text}
    (h : isLetter letter x = false) : dropWord (letter :: word) (x :: rest) = none := by
  rw [dropWord, h]
  rfl

/-- Copies of a bland character have no marker. -/
theorem hasForbiddenMarker_replicate {x : CodePoint} (hx : Bland x) (n : ℕ) :
    hasForbiddenMarker wordChar (List.replicate n x) = false := by
  -- no marker begins with a bland character, at whatever place the search is
  have hgold : searchAt (goldMarkerAt wordChar) none (List.replicate n x) = false := by
    apply searchAt_replicate
    · intro before
      rfl
    · intro before rest
      have hdrop : ∀ letter ∈ ['g', 'c', 'e', 't', 'p', 'f'], ∀ word,
          dropWord (letter :: word) (x :: rest) = none := by
        intro letter hletter word
        exact dropWord_of_head (hx.letters letter hletter)
      simp only [List.mem_cons, List.not_mem_nil, or_false, forall_eq_or_imp, forall_eq] at hdrop
      obtain ⟨hg, hc, he, ht, hp, hf⟩ := hdrop
      simp [goldMarkerAt, goldLabels, goldPhrases, labelAt, phraseAt, hg, hc, he, ht, hp, hf]
  have htoken : searchAt conditionTokenAt none (List.replicate n x) = false := by
    apply searchAt_replicate
    · intro before
      rfl
    · intro before rest
      cases rest with
      | nil => rfl
      | cons b behind => simp [conditionTokenAt, isCondition, hx.condition.1, hx.condition.2]
  rw [hasForbiddenMarker, hgold, htoken]
  rfl

theorem unifyReturns_of_notMem {raw : Text} (h : carriageReturn ∉ raw) :
    unifyReturns raw = raw := by
  induction raw with
  | nil => rfl
  | cons c rest ih =>
    rw [List.mem_cons, not_or] at h
    rw [unifyReturns, if_neg (Ne.symm h.1), ih h.2]

/-- A text of one bland character is clean already. -/
theorem sanitize_replicate {x : CodePoint} (hx : Bland x) (n : ℕ) (p0 : Bool) :
    sanitize wordChar (List.replicate n x) p0 = .ok (List.replicate n x) := by
  have hencodable : encodable (List.replicate n x) = true := by
    rw [encodable, List.all_eq_true]
    intro c hc
    rw [List.eq_of_mem_replicate hc, hx.notSurrogate]
    rfl
  -- nothing is changed: there is no return to unify, one line, and nothing to strip
  have hreturns : unifyReturns (List.replicate n x) = List.replicate n x := by
    apply unifyReturns_of_notMem
    intro hmem
    exact hx.notReturn (List.eq_of_mem_replicate hmem).symm
  have hlines : (List.replicate n x).splitOn lineFeed = [List.replicate n x] := by
    apply List.splitOn_eq_singleton
    intro hmem
    have hfeed := hx.notSpace
    rw [← List.eq_of_mem_replicate hmem, isSpace_lineFeed] at hfeed
    cases hfeed
  have hstripped : Stripped isSpace (List.replicate n x) := by
    constructor
    · intro h
      rw [List.eq_of_mem_replicate (List.head_mem h), hx.notSpace]
    · intro h
      rw [List.eq_of_mem_replicate (List.getLast_mem h), hx.notSpace]
  have hright : rstrip (List.replicate n x) = List.replicate n x := by
    apply List.rdropWhile_eq_self_iff.mpr
    intro h
    simp [hx.notSpace]
  rw [sanitize, hencodable, raiseIf_of_not _ (by simp), Except.ok_bind, hreturns, hlines,
    keptLines, hasForbiddenMarker_replicate wordChar hx, if_neg (by simp), keptLines,
    Except.ok_bind, Except.ok_bind, hright, List.intercalate_singleton, strip,
    hstripped.stripBy_eq]

/-- Some bland character is neither the first nor the last one of a text. -/
theorem exists_bland (text : Text) :
    ∃ x, Bland x ∧ text.head? ≠ some x ∧ text.getLast? ≠ some x := by
  have hbland : ∀ x ∈ [ofChar 'x', ofChar 'y', ofChar 'z'], Bland x := by
    intro x hx
    simp only [List.mem_cons, List.not_mem_nil, or_false] at hx
    rcases hx with rfl | rfl | rfl
    · exact ⟨letters_of_all (by decide), by decide, by decide, by decide, by decide⟩
    · exact ⟨letters_of_all (by decide), by decide, by decide, by decide, by decide⟩
    · exact ⟨letters_of_all (by decide), by decide, by decide, by decide, by decide⟩
  have hxy : ofChar 'x' ≠ ofChar 'y' := by decide
  have hxz : ofChar 'x' ≠ ofChar 'z' := by decide
  have hyz : ofChar 'y' ≠ ofChar 'z' := by decide
  by_contra hnone
  push Not at hnone
  -- three characters cannot all be one of two
  have hends : ∀ x ∈ [ofChar 'x', ofChar 'y', ofChar 'z'],
      text.head? = some x ∨ text.getLast? = some x := by
    intro x hx
    by_cases hhead : text.head? = some x
    · exact Or.inl hhead
    · exact Or.inr (hnone x (hbland x hx) hhead)
  have hx := hends (ofChar 'x') (by simp)
  have hy := hends (ofChar 'y') (by simp)
  have hz := hends (ofChar 'z') (by simp)
  grind

/-- Two files that the provider takes for one path, the second a block of one character. -/
def shadowed (raw : Text) (x : CodePoint) (n : ℕ) (prompt : Option Text) : Task where
  files := .declared [("d/a", raw), ("d\\a", List.replicate n x)] (by
    have hsorted : codePoints "d/a" < codePoints "d\\a" := by decide
    exact List.pairwise_pair.mpr hsorted)
  p0Paths := ["d/a"]
  approved := true
  context := none
  prompt := prompt

/-- Both files become P0 sources. -/
theorem collectSources_shadowed {raw text : Text} {x : CodePoint} {n : ℕ} {prompt : Option Text}
    (hraw : sanitize wordChar raw true = .ok text) (hne : text ≠ []) (hx : Bland x) (hn : n ≠ 0) :
    collectSources wordChar (shadowed raw x n prompt) =
      .ok [⟨"d/a", text, true⟩, ⟨"d/a", List.replicate n x, true⟩] := by
  have hpaths : declaredP0Paths (shadowed raw x n prompt) = .ok ["d/a"] := by
    have hp0 : isP0Path "d/a" = true := by decide
    simp [declaredP0Paths, shadowed, hp0, raiseIf]
  have hfirst : normalizedPath "d/a" = "d/a" := by decide
  have hpairs : (shadowed raw x n prompt).files.pairs =
      [("d/a", raw), ("d/a", List.replicate n x)] := by
    have hsecond : normalizedPath "d\\a" = "d/a" := by decide
    simp [shadowed, ContextFiles.pairs, hfirst, hsecond]
  have hp0 : ["d/a"].contains (normalizedPath "d/a") = true := by decide
  have hblock : List.replicate n x ≠ [] := by simpa using hn
  rw [collectSources, hpaths, Except.ok_bind, hpairs, raiseIf_of_not _ (by simp), Except.ok_bind,
    if_neg (List.cons_ne_nil _ _), fileSources, sourcesOf, hp0, hraw, Except.ok_bind, sourcesOf,
    hp0, sanitize_replicate wordChar hx, Except.ok_bind, sourcesOf, Except.ok_bind, Except.ok_bind,
    Except.ok_bind, if_neg hblock, if_neg hne, raiseIf_of_not _ (by simp [hfirst]), Except.ok_bind]

end ContractCapsule.Baselines
