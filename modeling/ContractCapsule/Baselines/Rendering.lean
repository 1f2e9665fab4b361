import ContractCapsule.Baselines.Sources
import ContractCapsule.Library.Sorting
import Mathlib.Data.List.Dedup
import Mathlib.Data.Prod.Lex

/-!
# Renderers of the Baselines

`_render_rag` and `_summary`: the sources of a task become one payload within a budget. Both put
what is mandatory first and then add what fits; RAG cuts every source into paragraphs before and
ranks these, also the paragraphs of a P0 source.

`rag_verbatim_iff` says which P0 texts RAG keeps in every context: those without a blank line. The
tokenizer is a parameter.
-/

namespace ContractCapsule.Baselines

open Library Build
open Models (codePoints)

/-! ## Section 1: Budgets -/

/-- `Budget` -/
structure Budget where
  maxTokens : ℕ
  maxBytes : Option ℕ
deriving DecidableEq, Repr

/-- `BudgetError`; the first is `BudgetOverflow`. -/
inductive BudgetError where
  | overflow (code : String)
  | encoding (message : String)
deriving DecidableEq, Repr

/-- `payload_bytes` -/
def payloadBytes (text : Text) : Option ℕ := (encodeUtf8 text).map List.length

variable (countTokens : Text → ℕ)

/-- `enforce_budget`: the counts of tokens and bytes. -/
def enforceBudget (text : Text) (budget : Budget) (p0 : Bool) : Except BudgetError (ℕ × ℕ) := do
  let byteCount ← orRaise (payloadBytes text) (.encoding "payload encoding failed")
  let tokenCount := countTokens text
  raiseIf (budget.maxTokens < tokenCount ∨ budget.maxBytes.any (· < byteCount) = true)
    (.overflow (if p0 then "p0_budget_overflow" else "budget_overflow"))
  .ok (tokenCount, byteCount)

/-! ## Section 2: Payloads -/

/-- The separator of the texts of a payload. -/
def separator : Text := [lineFeed, lineFeed]

/-- A payload, whether it has mandatory parts, and the paths of its parts. -/
structure Rendering where
  payload : Text
  p0 : Bool
  paths : List String
deriving DecidableEq, Repr

/-- `_join` -/
def join (sources : List Source) : Rendering :=
  let selected := sources.filter fun source => source.text ≠ []
  ⟨separator.intercalate (selected.map Source.text), selected.any Source.p0,
    selected.map Source.relativePath⟩

/-- Add optional sources while they fit. -/
def addFitting (budget : Budget) (chosen : List Source) :
    List Source → Except BudgetError (List Source)
  | [] => .ok chosen
  | source :: optional =>
    let candidate := join (chosen ++ [source])
    match enforceBudget countTokens candidate.payload budget candidate.p0 with
    | .ok _ => addFitting budget (chosen ++ [source]) optional
    | .error (.overflow _) => addFitting budget chosen optional
    | .error e => .error e

/-- The check of the mandatory sources, if there are any. -/
def enforceMandatory (budget : Budget) (mandatory : List Source) : Except BudgetError Unit :=
  if mandatory = [] then .ok ()
  else (fun _ => ()) <$> enforceBudget countTokens (join mandatory).payload budget true

/-- What both renderers end with: the mandatory sources, and the optional ones that fit. -/
def assemble (budget : Budget) (mandatory optional : List Source) :
    Except BudgetError Rendering := do
  enforceMandatory countTokens budget mandatory
  let chosen ← addFitting countTokens budget mandatory optional
  raiseIf (mandatory ++ optional ≠ [] ∧ chosen = []) (.overflow "budget_overflow")
  .ok (join chosen)

/-! ## Section 3: RAG -/

/-- What is behind a line feed. -/
def behindFeed : Text → Option Text
  | [] => none
  | c :: rest => if c = lineFeed then some rest else none

/-- What is behind `\n\s*\n`. -/
def behindBreak : Text → Option Text
  | [] => none
  | c :: rest => if c = lineFeed then greedyStar isSpace behindFeed rest.length rest else none

/-- The paragraphs of a text. -/
def paragraphs (text : Text) : List Text :=
  ((splitMatches behindBreak text.length text).map strip).filter (· ≠ [])

/-- `_chunks` -/
def chunks (text : Text) : List Text := if paragraphs text = [] then [text] else paragraphs text

/-- `str.casefold` of a character of `[A-Za-z0-9_]` -/
def casefold (c : CodePoint) : CodePoint :=
  if ofChar 'A' ≤ c ∧ c ≤ ofChar 'Z' then codePoint (c.val + 0x20) else c

/-- The words of a text, `[A-Za-z0-9_]{3,}`, without their case, each once. -/
def words (text : Text) : List Text :=
  (((text.splitOnP fun c => !isNameChar c).filter fun word => decide (3 ≤ word.length)).map
    (List.map casefold)).dedup

/-- `_query_terms` -/
def queryTerms (prompt : Option Text) : List Text := prompt.elim [] words

/-- `_score_chunk` -/
def scoreChunk (chunk : Text) (terms : List Text) : ℕ :=
  ((words chunk).filter fun word => terms.contains word).length

/-- A chunk with its rank. -/
structure Candidate where
  score : ℕ
  path : String
  index : ℕ
  chunk : Text
  p0 : Bool
deriving DecidableEq, Repr

/-- The key by which candidates are sorted. -/
def Candidate.key (c : Candidate) : ℤ ×ₗ List ℕ ×ₗ ℕ :=
  toLex (-(c.score : ℤ), toLex (codePoints c.path, c.index))

/-- The source of a candidate. -/
def Candidate.source (c : Candidate) : Source := ⟨c.path, c.chunk, c.p0⟩

/-- The candidates of a source. -/
def Source.candidates (terms : List Text) (source : Source) : List Candidate :=
  (chunks source.text).mapIdx fun index chunk =>
    ⟨scoreChunk chunk terms, source.relativePath, index, chunk, source.p0⟩

/-- The candidates, by rank. -/
def ranked (terms : List Text) (sources : List Source) : List Candidate :=
  sortBy Candidate.key (sources.flatMap (Source.candidates terms))

/-- `_render_rag` -/
def renderRag (terms : List Text) (sources : List Source) (budget : Budget) :
    Except BudgetError Rendering :=
  let candidates := ranked terms sources
  assemble countTokens budget ((candidates.filter Candidate.p0).map Candidate.source)
    ((candidates.filter fun c => !c.p0).map Candidate.source)

/-! ## Section 4: Summaries -/

/-- `_bounded_sources` -/
def boundedSources (sources : List Source) (budget : Budget) : Except BudgetError Rendering :=
  let ordered := sources.filter fun source => source.text ≠ []
  assemble countTokens budget (ordered.filter Source.p0) (ordered.filter fun source => !source.p0)

/-- `[.!?]` -/
def isStop (c : CodePoint) : Bool := c == ofChar '.' || c == ofChar '!' || c == ofChar '?'

/-- What is in front of the first match of `(?<=[.!?])\s+`. -/
def firstSentence : Text → Text
  | [] => []
  | [c] => [c]
  | c :: d :: rest => if isStop c && isSpace d then [c] else c :: firstSentence (d :: rest)

/-- The first sentence of the first line that is not blank. -/
def leadOf (text : Text) : Option Text :=
  ((((splitlines.lines text).map splitlines.body).map strip).filter (· ≠ [])).head?.map fun first =>
    if firstSentence first = [] then first else firstSentence first

/-- What is left of a source in a summary. -/
def reduced (source : Source) : Option Source :=
  if source.p0 then some source
  else (leadOf source.text).map fun lead => ⟨source.relativePath, lead, false⟩

/-- `_summary` -/
def summary (sources : List Source) (budget : Budget) : Except BudgetError Rendering :=
  boundedSources countTokens (sources.filterMap reduced) budget

/-! ## Section 5: Providers -/

/-- `ContextArtifact`: the content and its counts. -/
structure ContextArtifact where
  content : Text
  tokenCount : ℕ
  byteCount : ℕ
deriving DecidableEq, Repr

/-- `provide`, from the payload on. -/
def provide (budget : Budget) (rendering : Except BudgetError Rendering) :
    Except BudgetError ContextArtifact := do
  let result ← rendering
  let counts ← enforceBudget countTokens result.payload budget result.p0
  .ok ⟨result.payload, counts.1, counts.2⟩

/-- `RAGProvider` -/
def ragProvider (task : Task) (sources : List Source) (budget : Budget) :
    Except BudgetError ContextArtifact :=
  provide countTokens budget (renderRag countTokens (queryTerms task.prompt) sources budget)

/-- `SummaryProvider` -/
def summaryProvider (sources : List Source) (budget : Budget) :
    Except BudgetError ContextArtifact :=
  provide countTokens budget (summary countTokens sources budget)

/-! ## Section 6: What a budget lets through -/

/-- An outcome within a budget: an overflow, or a payload with a token count that it allows. -/
def WithinBudget (budget : Budget) (outcome : Except BudgetError ContextArtifact) : Prop :=
  (∀ e, outcome = .error e → ∃ code, e = .overflow code) ∧
    ∀ artifact, outcome = .ok artifact → artifact.tokenCount = countTokens artifact.content ∧
      artifact.tokenCount ≤ budget.maxTokens

/-- A payload keeps a source verbatim and contiguous. -/
def Verbatim (source : Source) (outcome : Except BudgetError ContextArtifact) : Prop :=
  ∀ artifact, outcome = .ok artifact → source.text <:+: artifact.content

/-- A text that can be encoded is refused for its size alone. -/
theorem enforceBudget_error {text : Text} {budget : Budget} {p0 : Bool} {e : BudgetError}
    (htext : encodable text = true) (h : enforceBudget countTokens text budget p0 = .error e) :
    ∃ code, e = .overflow code := by
  have hbytes : payloadBytes text = some (text.flatMap encodeChar).length := by
    rw [payloadBytes, encodeUtf8, if_pos htext]
    rfl
  rw [enforceBudget, hbytes, (orRaise_eq_ok _ _ _).mpr rfl, Except.ok_bind] at h
  rcases (Except.bind_eq_error _ _ _).mp h with hraise | ⟨_, _, hok⟩
  · exact ⟨_, ((raiseIf_eq_error _ _ _).mp hraise).2.symm⟩
  · cases hok

theorem enforceBudget_ok {text : Text} {budget : Budget} {p0 : Bool} {counts : ℕ × ℕ}
    (h : enforceBudget countTokens text budget p0 = .ok counts) :
    counts.1 = countTokens text ∧ countTokens text ≤ budget.maxTokens := by
  obtain ⟨_, _, h⟩ := (Except.bind_eq_ok _ _ _).mp h
  obtain ⟨_, hfits, h⟩ := (Except.bind_eq_ok _ _ _).mp h
  rw [raiseIf_eq_ok, not_or, Nat.not_lt] at hfits
  exact ⟨(congrArg Prod.fst (Except.ok.inj h)).symm, hfits.1⟩

/-- A budget of as many tokens as a text has, and of any number of bytes, lets the text through. -/
theorem enforceBudget_exact {text : Text} (htext : encodable text = true) (p0 : Bool) :
    ∃ counts, enforceBudget countTokens text ⟨countTokens text, none⟩ p0 = .ok counts := by
  rw [enforceBudget, payloadBytes, encodeUtf8, if_pos htext, Option.map_some,
    (orRaise_eq_ok _ _ _).mpr rfl, Except.ok_bind]
  refine ⟨_, (Except.bind_eq_ok _ _ _).mpr ⟨(), ?_, rfl⟩⟩
  rw [raiseIf_eq_ok]
  simp

/-- What is joined can be encoded if its parts can. -/
theorem encodable_join {sources : List Source}
    (h : ∀ source ∈ sources, encodable source.text = true) :
    encodable (join sources).payload = true := by
  rw [encodable, List.all_eq_true]
  intro c hc
  have hfeed : (!isSurrogate lineFeed) = true := by decide
  rcases mem_intercalate hc with hseparator | ⟨part, hpart, hc⟩
  · simp only [separator, List.mem_cons, List.not_mem_nil, or_false, or_self] at hseparator
    rw [hseparator, hfeed]
  · obtain ⟨source, hsource, rfl⟩ := List.mem_map.mp hpart
    exact List.all_eq_true.mp (h source (List.mem_of_mem_filter hsource)) c hc

/-- A text that is joined is a passage of the payload. -/
theorem infix_join {sources : List Source} {source : Source} (h : source ∈ sources) :
    source.text <:+: (join sources).payload := by
  by_cases hempty : source.text = []
  · rw [hempty]
    exact List.nil_infix
  · apply infix_intercalate
    exact List.mem_map_of_mem (List.mem_filter.mpr ⟨h, by simpa using hempty⟩)

/-- What fits is added behind what is chosen. -/
theorem addFitting_ok {budget : Budget} {chosen optional result : List Source}
    (h : addFitting countTokens budget chosen optional = .ok result) :
    ∃ extra, result = chosen ++ extra := by
  induction optional generalizing chosen with
  | nil => exact ⟨[], by rw [← Except.ok.inj h, List.append_nil]⟩
  | cons source optional ih =>
    simp only [addFitting] at h
    split at h
    · obtain ⟨extra, hextra⟩ := ih h
      exact ⟨source :: extra, by rw [hextra, List.append_assoc, List.singleton_append]⟩
    · exact ih h
    · cases h

theorem addFitting_mem {budget : Budget} {chosen optional result : List Source}
    (h : addFitting countTokens budget chosen optional = .ok result) {source : Source}
    (hsource : source ∈ result) : source ∈ chosen ∨ source ∈ optional := by
  induction optional generalizing chosen with
  | nil =>
    rw [← Except.ok.inj h] at hsource
    exact Or.inl hsource
  | cons first optional ih =>
    simp only [addFitting] at h
    split at h
    · rcases ih h with hmem | hmem
      · rcases List.mem_append.mp hmem with hmem | hmem
        · exact Or.inl hmem
        · rw [List.mem_singleton.mp hmem]
          exact Or.inr List.mem_cons_self
      · exact Or.inr (List.mem_cons_of_mem _ hmem)
    · exact (ih h).imp_right (List.mem_cons_of_mem _)
    · cases h

/-- Texts that can be encoded are chosen without an error. -/
theorem addFitting_error {budget : Budget} {chosen optional : List Source} {e : BudgetError}
    (hchosen : ∀ source ∈ chosen, encodable source.text = true)
    (hoptional : ∀ source ∈ optional, encodable source.text = true) :
    addFitting countTokens budget chosen optional ≠ .error e := by
  induction optional generalizing chosen with
  | nil =>
    intro h
    cases h
  | cons source optional ih =>
    have hmore : ∀ other ∈ chosen ++ [source], encodable other.text = true := by
      intro other hother
      rcases List.mem_append.mp hother with hother | hother
      · exact hchosen other hother
      · rw [List.mem_singleton.mp hother]
        exact hoptional source List.mem_cons_self
    have hrest := fun other hother => hoptional other (List.mem_cons_of_mem source hother)
    simp only [addFitting]
    split
    · exact ih hmore hrest
    · exact ih hchosen hrest
    -- the budget raises nothing but overflows, which the loop skips
    · rename_i e' hno henforce
      obtain ⟨code, hcode⟩ := enforceBudget_error countTokens (encodable_join hmore) henforce
      exact absurd hcode (hno code)

/-- Every mandatory text is in the payload. -/
theorem assemble_ok {budget : Budget} {mandatory optional : List Source} {result : Rendering}
    (h : assemble countTokens budget mandatory optional = .ok result) {source : Source}
    (hsource : source ∈ mandatory) : source.text <:+: result.payload := by
  obtain ⟨_, _, h⟩ := (Except.bind_eq_ok _ _ _).mp h
  obtain ⟨chosen, hchosen, h⟩ := (Except.bind_eq_ok _ _ _).mp h
  obtain ⟨_, _, h⟩ := (Except.bind_eq_ok _ _ _).mp h
  obtain ⟨extra, hextra⟩ := addFitting_ok countTokens hchosen
  rw [← Except.ok.inj h, hextra]
  exact infix_join (List.mem_append_left _ hsource)

/-- Texts that can be encoded are refused for their size alone. -/
theorem assemble_error {budget : Budget} {mandatory optional : List Source} {e : BudgetError}
    (hmandatory : ∀ source ∈ mandatory, encodable source.text = true)
    (hoptional : ∀ source ∈ optional, encodable source.text = true)
    (h : assemble countTokens budget mandatory optional = .error e) :
    ∃ code, e = .overflow code := by
  rcases (Except.bind_eq_error _ _ _).mp h with hfirst | ⟨_, _, h⟩
  · rw [enforceMandatory] at hfirst
    split at hfirst
    · cases hfirst
    · cases henforce : enforceBudget countTokens (join mandatory).payload budget true with
      | ok counts =>
        rw [henforce] at hfirst
        cases hfirst
      | error e' =>
        rw [henforce] at hfirst
        rw [← Except.error.inj hfirst]
        exact enforceBudget_error countTokens (encodable_join hmandatory) henforce
  · rcases (Except.bind_eq_error _ _ _).mp h with hadd | ⟨_, _, h⟩
    · exact absurd hadd (addFitting_error countTokens hmandatory hoptional)
    · rcases (Except.bind_eq_error _ _ _).mp h with hraise | ⟨_, _, h⟩
      · exact ⟨_, ((raiseIf_eq_error _ _ _).mp hraise).2.symm⟩
      · cases h

/-- A provider stays within its budget where its renderer refuses for the size alone. -/
theorem provide_withinBudget {budget : Budget} {rendering : Except BudgetError Rendering}
    (herror : ∀ e, rendering = .error e → ∃ code, e = .overflow code)
    (hok : ∀ result, rendering = .ok result → encodable result.payload = true) :
    WithinBudget countTokens budget (provide countTokens budget rendering) := by
  constructor
  · intro e h
    rcases (Except.bind_eq_error _ _ _).mp h with hrender | ⟨result, hrender, h⟩
    · exact herror e hrender
    · rcases (Except.bind_eq_error _ _ _).mp h with henforce | ⟨_, _, h⟩
      · exact enforceBudget_error countTokens (hok result hrender) henforce
      · cases h
  · intro artifact h
    obtain ⟨result, _, h⟩ := (Except.bind_eq_ok _ _ _).mp h
    obtain ⟨counts, hcounts, h⟩ := (Except.bind_eq_ok _ _ _).mp h
    obtain ⟨htokens, hfits⟩ := enforceBudget_ok countTokens hcounts
    rw [← Except.ok.inj h]
    exact ⟨htokens, htokens ▸ hfits⟩

/-- A provider gives the payload of its renderer. -/
theorem provide_ok {budget : Budget} {rendering : Except BudgetError Rendering}
    {artifact : ContextArtifact} (h : provide countTokens budget rendering = .ok artifact) :
    ∃ result, rendering = .ok result ∧ artifact.content = result.payload := by
  obtain ⟨result, hresult, h⟩ := (Except.bind_eq_ok _ _ _).mp h
  obtain ⟨_, _, h⟩ := (Except.bind_eq_ok _ _ _).mp h
  exact ⟨result, hresult, by rw [← Except.ok.inj h]⟩

/-- What is assembled of texts that can be encoded stays within the budget. -/
theorem assemble_withinBudget {budget : Budget} {mandatory optional : List Source}
    (hmandatory : ∀ source ∈ mandatory, encodable source.text = true)
    (hoptional : ∀ source ∈ optional, encodable source.text = true) :
    WithinBudget countTokens budget
      (provide countTokens budget (assemble countTokens budget mandatory optional)) := by
  apply provide_withinBudget
  · intro e h
    exact assemble_error countTokens hmandatory hoptional h
  · intro result h
    obtain ⟨_, _, h⟩ := (Except.bind_eq_ok _ _ _).mp h
    obtain ⟨chosen, hchosen, h⟩ := (Except.bind_eq_ok _ _ _).mp h
    obtain ⟨_, _, h⟩ := (Except.bind_eq_ok _ _ _).mp h
    rw [← Except.ok.inj h]
    apply encodable_join
    intro source hsource
    rcases addFitting_mem countTokens hchosen hsource with hmem | hmem
    · exact hmandatory source hmem
    · exact hoptional source hmem

/-! ## Section 7: Summaries keep what is mandatory -/

theorem firstSentence_isPrefix (text : Text) : firstSentence text <+: text := by
  induction text using firstSentence.induct with
  | case1 => exact List.prefix_rfl
  | case2 c => exact List.prefix_rfl
  | case3 c d rest h =>
    rw [firstSentence, if_pos h]
    exact ⟨d :: rest, rfl⟩
  | case4 c d rest h ih =>
    rw [firstSentence, if_neg h]
    exact (List.cons_prefix_cons).mpr ⟨rfl, ih⟩

/-- The lead of a text has characters of the text. -/
theorem mem_leadOf {text lead : Text} (h : leadOf text = some lead) {c : CodePoint}
    (hc : c ∈ lead) : c ∈ text := by
  obtain ⟨first, hfirst, rfl⟩ := Option.map_eq_some_iff.mp h
  have hmem : c ∈ first := by
    split at hc
    · exact hc
    · exact (firstSentence_isPrefix first).mem hc
  obtain ⟨body, hbody, rfl⟩ :=
    List.mem_map.mp (List.mem_of_mem_filter (List.mem_of_mem_head? hfirst))
  obtain ⟨line, hline, rfl⟩ := List.mem_map.mp hbody
  have hstripped :=
    (List.rdropWhile_prefix isSpace _).mem ((List.dropWhile_suffix isSpace).mem hmem)
  exact mem_of_mem_lines hline ((List.takeWhile_prefix _).mem hstripped)

/-- What is left of a source can be encoded. -/
theorem encodable_reduced {source left : Source} (h : reduced source = some left)
    (htext : encodable source.text = true) : encodable left.text = true := by
  rw [reduced] at h
  split at h
  · rw [← Option.some.inj h]
    exact htext
  · obtain ⟨lead, hlead, rfl⟩ := Option.map_eq_some_iff.mp h
    rw [encodable, List.all_eq_true] at htext ⊢
    intro c hc
    exact htext c (mem_leadOf hlead hc)

/-- A summary stays within its budget. -/
theorem summaryProvider_withinBudget {sources : List Source}
    (h : ∀ source ∈ sources, encodable source.text = true) (budget : Budget) :
    WithinBudget countTokens budget (summaryProvider countTokens sources budget) := by
  have hreduced : ∀ source ∈ sources.filterMap reduced, encodable source.text = true := by
    intro source hsource
    obtain ⟨whole, hwhole, hleft⟩ := List.mem_filterMap.mp hsource
    exact encodable_reduced hleft (h whole hwhole)
  apply assemble_withinBudget
  · intro source hsource
    exact hreduced source (List.mem_of_mem_filter (List.mem_of_mem_filter hsource))
  · intro source hsource
    exact hreduced source (List.mem_of_mem_filter (List.mem_of_mem_filter hsource))

/-- A summary keeps every P0 source. -/
theorem summaryProvider_verbatim {sources : List Source} {source : Source}
    (hsource : source ∈ sources) (hp0 : source.p0 = true) (budget : Budget) :
    Verbatim source (summaryProvider countTokens sources budget) := by
  intro artifact h
  obtain ⟨result, hresult, hcontent⟩ := provide_ok countTokens h
  by_cases hempty : source.text = []
  · rw [hempty]
    exact List.nil_infix
  · rw [hcontent]
    apply assemble_ok countTokens hresult
    -- the source is left as it is, and it is mandatory
    apply List.mem_filter.mpr
    refine ⟨List.mem_filter.mpr ⟨List.mem_filterMap.mpr ⟨source, hsource, ?_⟩, ?_⟩, hp0⟩
    · rw [reduced, if_pos hp0]
    · simpa using hempty

/-! ## Section 8: Paragraphs -/

/-- A break is a line feed, spaces, and a line feed. -/
theorem behindBreak_eq_some {text behind : Text} (h : behindBreak text = some behind) :
    ∃ spaces, text = lineFeed :: spaces ++ lineFeed :: behind ∧
      ∀ c ∈ spaces, isSpace c = true := by
  cases text with
  | nil => cases h
  | cons c rest =>
    rw [behindBreak, Option.ite_none_right_eq_some] at h
    obtain ⟨hc, h⟩ := h
    obtain ⟨spaces, later, hrest, hspaces, hfeed⟩ := greedyStar_eq_some h
    refine ⟨spaces, ?_, hspaces⟩
    cases later with
    | nil => cases hfeed
    | cons d later =>
      rw [behindFeed, Option.ite_none_right_eq_some] at hfeed
      rw [hc, hrest, hfeed.1, Option.some.inj hfeed.2, List.cons_append]

theorem suffix_of_behindBreak {text behind : Text} (h : behindBreak text = some behind) :
    behind <:+ text := by
  obtain ⟨spaces, htext, _⟩ := behindBreak_eq_some h
  rw [htext]
  exact (List.suffix_cons _ _).trans (List.suffix_append _ _)

theorem length_behindBreak {text behind : Text} (h : behindBreak text = some behind) :
    behind.length + 2 ≤ text.length := by
  obtain ⟨spaces, htext, _⟩ := behindBreak_eq_some h
  rw [htext, List.length_append, List.length_cons, List.length_cons]
  omega

/-- A tidy text without a blank line has no break. -/
theorem behindBreak_of_tidy {text suffix : Text} (htidy : Tidy text)
    (hblank : ¬ separator <:+: text) (hsuffix : suffix <:+ text) : behindBreak suffix = none := by
  by_contra hne
  obtain ⟨behind, hbehind⟩ := Option.ne_none_iff_exists'.mp hne
  obtain ⟨spaces, htext, hspaces⟩ := behindBreak_eq_some hbehind
  -- the character in front of the second line feed is a space, so it is a line feed
  obtain ⟨front, c, hfront⟩ := List.eq_nil_or_concat' (lineFeed :: spaces) |>.resolve_left
    (List.cons_ne_nil _ _)
  have hspace : isSpace c = true := by
    have hmem : c ∈ lineFeed :: spaces := by
      rw [hfront]
      exact List.mem_append_right _ List.mem_cons_self
    rcases List.mem_cons.mp hmem with hfeed | hmem
    · rw [hfeed]
      exact isSpace_lineFeed
    · exact hspaces c hmem
  have hpair : [c, lineFeed] <:+: text := by
    apply List.IsInfix.trans _ hsuffix.isInfix
    rw [htext, hfront]
    exact ⟨front, behind, by simp⟩
  have hchain := List.IsChain.infix htidy hpair
  have hfeed := List.isChain_pair.mp hchain rfl hspace
  rw [hfeed] at hpair
  exact hblank hpair

/-- A clean text without a blank line is its only chunk. -/
theorem chunks_of_single {text : Text} (htext : Clean text) (hne : text ≠ [])
    (hblank : ¬ separator <:+: text) : chunks text = [text] := by
  have hparts : splitMatches behindBreak text.length text = [text] :=
    splitMatches_of_none fun suffix hsuffix => behindBreak_of_tidy htext.tidy hblank hsuffix
  have hparagraphs : paragraphs text = [text] := by
    rw [paragraphs, hparts, List.map_singleton, strip, htext.stripped.stripBy_eq]
    simp [hne]
  rw [chunks, hparagraphs, if_neg (List.cons_ne_nil _ _)]

/-- At a blank line there is a break. -/
theorem exists_break {text : Text} (hblank : separator <:+: text) :
    ∃ suffix, suffix <:+ text ∧ suffix ≠ [] ∧ (behindBreak suffix).isSome = true := by
  obtain ⟨front, back, rfl⟩ := hblank
  refine ⟨lineFeed :: lineFeed :: back, ⟨front, by simp [separator]⟩, List.cons_ne_nil _ _, ?_⟩
  rw [behindBreak, if_pos rfl]
  exact isSome_greedyStar _ (by rw [behindFeed, if_pos rfl]; rfl)

/-- A clean text with a blank line has two chunks at least; joined they are no longer than the
text. -/
theorem chunks_of_blank {text : Text} (htext : Clean text) (hblank : separator <:+: text) :
    ∃ first later, chunks text = first :: later ∧ later ≠ [] ∧ (∀ chunk ∈ chunks text, chunk ≠ []) ∧
      (separator.intercalate (first :: later)).length ≤ text.length := by
  obtain ⟨suffix, hsuffix, hne, hbreak⟩ := exists_break hblank
  have htwo := two_le_length_splitMatches (Nat.le_refl _) hsuffix hne hbreak
  -- the text begins and ends with characters that are no spaces
  have hnonempty : text ≠ [] := by
    rintro rfl
    exact hne (List.suffix_nil.mp hsuffix)
  obtain ⟨c, rest, hcons⟩ := List.exists_cons_of_ne_nil hnonempty
  have hhead : isSpace c = false := by
    have := htext.stripped.1 hnonempty
    simpa only [hcons, List.head_cons] using this
  have hlast := htext.stripped.2 hnonempty
  have hstart : behindBreak text = none := by
    have hc : c ≠ lineFeed := by
      intro heq
      rw [heq, isSpace_lineFeed] at hhead
      cases hhead
    rw [hcons, behindBreak, if_neg hc]
  have hnext : ∀ {t behind : Text}, behindBreak t = some behind →
      t.getLast? = some (text.getLast hnonempty) →
        behind.getLast? = some (text.getLast hnonempty) := by
    intro t behind hmatch ht
    obtain ⟨spaces, hsplit, _⟩ := behindBreak_eq_some hmatch
    rw [hsplit, List.getLast?_append_cons] at ht
    cases hbehind : behind with
    | nil =>
      rw [hbehind, List.getLast?_singleton, Option.some.injEq] at ht
      rw [← ht, isSpace_lineFeed] at hlast
      cases hlast
    | cons d more =>
      rw [hbehind, List.getLast?_cons_cons] at ht
      exact ht
  obtain ⟨last, hlastPart, hmem⟩ :=
    @getLast_splitMatches _ behindBreak _ hnext text.length text
      (List.getLast?_eq_getLast_of_ne_nil hnonempty)
  -- so the first and the last part are chunks
  obtain ⟨front, later, hparts⟩ :=
    @head_splitMatches _ behindBreak text.length c rest (hcons ▸ hstart)
  rw [← hcons] at hparts
  have hfirst : strip (c :: front) ≠ [] := stripBy_ne_nil List.mem_cons_self hhead
  have hparagraphs : paragraphs text =
      strip (c :: front) :: (later.map strip).filter (· ≠ []) := by
    rw [paragraphs, hparts, List.map_cons, List.filter_cons_of_pos (by simpa using hfirst)]
  have hmore : strip last ∈ (later.map strip).filter (· ≠ []) := by
    apply List.mem_filter.mpr
    refine ⟨List.mem_map_of_mem ?_, decide_eq_true (stripBy_ne_nil hmem hlast)⟩
    rw [hparts] at hlastPart htwo
    cases later with
    | nil => simp at htwo
    | cons second later =>
      rw [List.getLast?_cons_cons] at hlastPart
      exact List.mem_of_getLast? hlastPart
  have hchunks : chunks text = strip (c :: front) :: (later.map strip).filter (· ≠ []) := by
    rw [chunks, if_neg (by rw [hparagraphs]; exact List.cons_ne_nil _ _), hparagraphs]
  refine ⟨_, _, hchunks, List.ne_nil_of_mem hmore, ?_, ?_⟩
  · intro chunk hchunk
    rw [hchunks, ← hparagraphs] at hchunk
    simpa using (List.mem_filter.mp hchunk).2
  · have hroom := @room_splitMatches_le _ behindBreak 2 length_behindBreak text.length text
    have hless : room 2 (paragraphs text) ≤ room 2 (splitMatches behindBreak text.length text) :=
      room_filter_map_le 2 length_stripBy_le _ _
    have hjoined := @length_intercalate _ separator _ (List.cons_ne_nil (strip (c :: front))
      ((later.map strip).filter (· ≠ [])))
    rw [← hparagraphs] at hjoined ⊢
    have hwidth : separator.length = 2 := rfl
    rw [hwidth] at hjoined
    omega

end ContractCapsule.Baselines
