import ContractCapsule.Baselines.Rendering

/-!
# P0 Texts in the RAG Baseline

`_render_rag` ranks the paragraphs of a P0 source one by one. A text without a blank line is one
paragraph and comes out whole. A text with a blank line is torn apart in some context: the source of
another file can be ranked between two of its paragraphs.
-/

namespace ContractCapsule.Baselines

open Library Build
open Models (codePoints)

variable (wordChar : CodePoint → Bool) (countTokens : Text → ℕ)

/-! ## Section 1: Texts of one paragraph -/

/-- The chunks of a source can be encoded. -/
theorem encodable_chunk {text chunk : Text} (h : chunk ∈ chunks text)
    (htext : encodable text = true) : encodable chunk = true := by
  rw [encodable, List.all_eq_true] at htext ⊢
  intro c hc
  apply htext
  rw [chunks] at h
  split at h
  · rw [List.mem_singleton.mp h] at hc
    exact hc
  · obtain ⟨part, hpart, rfl⟩ := List.mem_map.mp (List.mem_of_mem_filter h)
    have hmem := (List.rdropWhile_prefix isSpace _).mem ((List.dropWhile_suffix isSpace).mem hc)
    exact mem_of_mem_splitMatches suffix_of_behindBreak hpart hmem

/-- A candidate is a chunk of a source. -/
theorem mem_ranked {terms : List Text} {sources : List Source} {c : Candidate} :
    c ∈ ranked terms sources ↔ ∃ source ∈ sources, c ∈ source.candidates terms := by
  rw [ranked, (perm_sortBy _ _).mem_iff, List.mem_flatMap]

theorem chunk_of_mem_candidates {terms : List Text} {source : Source} {c : Candidate}
    (h : c ∈ source.candidates terms) : c.chunk ∈ chunks source.text := by
  obtain ⟨index, hindex, rfl⟩ := List.mem_mapIdx.mp h
  exact List.getElem_mem hindex

/-- RAG stays within its budget. -/
theorem ragProvider_withinBudget {sources : List Source}
    (h : ∀ source ∈ sources, encodable source.text = true) (task : Task) (budget : Budget) :
    WithinBudget countTokens budget (ragProvider countTokens task sources budget) := by
  have hchunk : ∀ c ∈ ranked (queryTerms task.prompt) sources, encodable c.source.text = true := by
    intro c hc
    obtain ⟨source, hsource, hcandidate⟩ := mem_ranked.mp hc
    exact encodable_chunk (chunk_of_mem_candidates hcandidate) (h source hsource)
  apply assemble_withinBudget
  · intro source hsource
    obtain ⟨c, hc, rfl⟩ := List.mem_map.mp hsource
    exact hchunk c (List.mem_of_mem_filter hc)
  · intro source hsource
    obtain ⟨c, hc, rfl⟩ := List.mem_map.mp hsource
    exact hchunk c (List.mem_of_mem_filter hc)

/-- RAG keeps a P0 source that is its only chunk. -/
theorem ragProvider_verbatim {sources : List Source} {source : Source} (hsource : source ∈ sources)
    (hp0 : source.p0 = true) (hchunks : chunks source.text = [source.text]) (task : Task)
    (budget : Budget) : Verbatim source (ragProvider countTokens task sources budget) := by
  intro artifact h
  obtain ⟨result, hresult, hcontent⟩ := provide_ok countTokens h
  rw [hcontent]
  -- the chunk is a mandatory candidate
  let c : Candidate := ⟨scoreChunk source.text (queryTerms task.prompt), source.relativePath, 0,
    source.text, source.p0⟩
  have hcandidate : c ∈ source.candidates (queryTerms task.prompt) := by
    rw [Source.candidates, hchunks]
    exact List.mem_singleton.mpr rfl
  have hranked : c ∈ ranked (queryTerms task.prompt) sources :=
    mem_ranked.mpr ⟨source, hsource, hcandidate⟩
  have hmandatory : c.source ∈
      ((ranked (queryTerms task.prompt) sources).filter Candidate.p0).map Candidate.source :=
    List.mem_map_of_mem (List.mem_filter.mpr ⟨hranked, hp0⟩)
  exact assemble_ok countTokens hresult hmandatory

/-! ## Section 2: Texts with a blank line -/

/-- Without a query every chunk has the score 0. -/
theorem scoreChunk_nil (chunk : Text) : scoreChunk chunk [] = 0 := by
  simp [scoreChunk]

/-- The candidates behind the first one, of a source at the index 1. -/
def laterCandidates (path : String) (later : List Text) : List Candidate :=
  later.mapIdx fun index chunk => ⟨0, path, index + 1, chunk, true⟩

/-- The block is ranked behind the first paragraph: it has the same path and the same score. -/
theorem ranked_shadowed {path : String} {first : Text} {later : List Text} {text block : Text}
    (htext : chunks text = first :: later) (hblock : chunks block = [block]) :
    ranked [] [⟨path, text, true⟩, ⟨path, block, true⟩] =
      ⟨0, path, 0, first, true⟩ :: ⟨0, path, 0, block, true⟩ :: laterCandidates path later := by
  have hcandidates : [(⟨path, text, true⟩ : Source), ⟨path, block, true⟩].flatMap
      (Source.candidates []) = ⟨0, path, 0, first, true⟩ ::
        (laterCandidates path later ++ [⟨0, path, 0, block, true⟩]) := by
    simp [Source.candidates, htext, hblock, scoreChunk_nil, laterCandidates]
  have hascending : (laterCandidates path later).Pairwise fun a b => a.key ≤ b.key := by
    rw [List.pairwise_iff_getElem]
    intro i j hi hj hij
    simp only [laterCandidates, List.getElem_mapIdx, Candidate.key]
    rw [Prod.Lex.toLex_le_toLex]
    refine Or.inr ⟨rfl, ?_⟩
    rw [Prod.Lex.toLex_le_toLex]
    exact Or.inr ⟨rfl, by omega⟩
  have hfront : ∀ a ∈ laterCandidates path later,
      (⟨0, path, 0, block, true⟩ : Candidate).key < a.key := by
    intro a ha
    obtain ⟨index, hindex, rfl⟩ := List.mem_mapIdx.mp ha
    simp only [Candidate.key]
    rw [Prod.Lex.toLex_lt_toLex]
    refine Or.inr ⟨rfl, ?_⟩
    rw [Prod.Lex.toLex_lt_toLex]
    exact Or.inr ⟨rfl, by omega⟩
  have hlater := sortBy_concat hascending hfront
  simp only [sortBy] at hlater
  rw [ranked, hcandidates, sortBy, List.insertionSort_cons, hlater]
  -- the first paragraph has the key of the block and came first
  exact orderedInsert_of_le (by
    intro b hb
    rcases List.mem_cons.mp hb with rfl | hb
    · exact le_refl _
    · exact (hfront b hb).le)

/-- All candidates of P0 sources are mandatory. -/
theorem filter_p0_laterCandidates (path : String) (later : List Text) :
    (laterCandidates path later).filter Candidate.p0 = laterCandidates path later := by
  apply List.filter_eq_self.mpr
  intro c hc
  obtain ⟨index, hindex, rfl⟩ := List.mem_mapIdx.mp hc
  rfl

theorem map_source_laterCandidates (path : String) (later : List Text) :
    (laterCandidates path later).map Candidate.source =
      later.map fun chunk => ⟨path, chunk, true⟩ := by
  apply List.ext_getElem
  · simp [laterCandidates]
  · intro i hi hi'
    simp [laterCandidates, Candidate.source]

/-- A payload of texts that are not empty. -/
theorem payload_join {sources : List Source} (h : ∀ source ∈ sources, source.text ≠ []) :
    (join sources).payload = separator.intercalate (sources.map Source.text) := by
  have hselected : sources.filter (fun source => source.text ≠ []) = sources := by
    apply List.filter_eq_self.mpr
    intro source hsource
    exact decide_eq_true (h source hsource)
  simp only [join, hselected]

/-- A budget for exactly the mandatory sources lets them through. -/
theorem provide_mandatory {mandatory : List Source} (hne : mandatory ≠ [])
    (h : ∀ source ∈ mandatory, encodable source.text = true) :
    ∃ budget artifact, provide countTokens budget
        (assemble countTokens budget mandatory []) = .ok artifact ∧
      artifact.content = (join mandatory).payload := by
  have hpayload := encodable_join h
  obtain ⟨counts, hcounts⟩ := enforceBudget_exact countTokens hpayload true
  obtain ⟨counts', hcounts'⟩ := enforceBudget_exact countTokens hpayload (join mandatory).p0
  refine ⟨⟨countTokens (join mandatory).payload, none⟩,
    ⟨(join mandatory).payload, counts'.1, counts'.2⟩, ?_, rfl⟩
  have hassemble : assemble countTokens ⟨countTokens (join mandatory).payload, none⟩ mandatory [] =
      .ok (join mandatory) := by
    have haccepted : enforceMandatory countTokens ⟨countTokens (join mandatory).payload, none⟩
        mandatory = .ok () := by
      rw [enforceMandatory, if_neg hne, hcounts]
      rfl
    rw [assemble, haccepted, Except.ok_bind, addFitting, Except.ok_bind,
      raiseIf_of_not _ (by simp [hne]), Except.ok_bind]
  rw [hassemble, provide, Except.ok_bind, hcounts', Except.ok_bind]

/-- A clean text with a blank line is torn apart in some context. -/
theorem exists_torn {raw text : Text} (hraw : sanitize wordChar raw true = .ok text)
    (hblank : separator <:+: text) :
    ∃ task sources, collectSources wordChar task = .ok sources ∧
      ∃ source ∈ sources, source.p0 = true ∧ source.text = text ∧
        ∃ budget, ¬ Verbatim source (ragProvider countTokens task sources budget) := by
  have hclean := clean_sanitize wordChar hraw
  have hne : text ≠ [] := by
    intro hnil
    rw [hnil] at hblank
    exact absurd (List.infix_nil.mp hblank) (List.cons_ne_nil _ _)
  obtain ⟨first, later, hchunks, hlater, hnonempty, hlength⟩ := chunks_of_blank hclean hblank
  obtain ⟨x, hx, hhead, hlast⟩ := exists_bland text
  have hpos := List.length_pos_iff.mpr hne
  generalize hblockDef : List.replicate text.length x = block
  have hblockClean : Clean block := by
    rw [← hblockDef]
    exact clean_sanitize wordChar (sanitize_replicate wordChar hx text.length true)
  have hblockNe : block ≠ [] := by
    rw [← hblockDef]
    simpa using hne
  have hblockChunks : chunks block = [block] := by
    apply chunks_of_single hblockClean hblockNe
    intro hpassage
    have hfeed : lineFeed ∈ block := hpassage.mem List.mem_cons_self
    rw [← hblockDef] at hfeed
    have hspace := hx.notSpace
    rw [← List.eq_of_mem_replicate hfeed, isSpace_lineFeed] at hspace
    cases hspace
  have hcollect := @collectSources_shadowed wordChar raw text x text.length none hraw hne hx
    (Nat.pos_iff_ne_zero.mp hpos)
  rw [hblockDef] at hcollect
  refine ⟨_, _, hcollect, _, List.mem_cons_self, rfl, rfl, ?_⟩
  -- everything is mandatory
  have hranked := @ranked_shadowed "d/a" first later text block hchunks hblockChunks
  generalize hmandatory : (⟨"d/a", first, true⟩ : Source) :: ⟨"d/a", block, true⟩ ::
    later.map (fun chunk => ⟨"d/a", chunk, true⟩) = mandatory
  have hall : ((ranked [] [⟨"d/a", text, true⟩, ⟨"d/a", block, true⟩]).filter
      Candidate.p0).map Candidate.source = mandatory := by
    rw [hranked, ← hmandatory, List.filter_cons_of_pos rfl, List.filter_cons_of_pos rfl,
      filter_p0_laterCandidates, List.map_cons, List.map_cons, map_source_laterCandidates]
    rfl
  have hoptional : ((ranked [] [⟨"d/a", text, true⟩, ⟨"d/a", block, true⟩]).filter
      fun c => !c.p0).map Candidate.source = [] := by
    rw [List.map_eq_nil_iff, List.filter_eq_nil_iff, hranked]
    intro c hc
    have hp0 : c.p0 = true := by
      rcases List.mem_cons.mp hc with rfl | hc
      · rfl
      rcases List.mem_cons.mp hc with rfl | hc
      · rfl
      · rw [← filter_p0_laterCandidates] at hc
        exact (List.mem_filter.mp hc).2
    rw [hp0]
    exact Bool.false_ne_true
  have htexts : mandatory.map Source.text = first :: block :: later := by
    rw [← hmandatory]
    simp [Function.comp_def]
  have hmem : ∀ source ∈ mandatory, source.text = block ∨ source.text ∈ chunks text := by
    intro source hsource
    have htext : source.text ∈ first :: block :: later := by
      rw [← htexts]
      exact List.mem_map_of_mem hsource
    rw [hchunks]
    rcases List.mem_cons.mp htext with hfirst | htext
    · exact Or.inr (hfirst ▸ List.mem_cons_self)
    · exact (List.mem_cons.mp htext).imp_right (List.mem_cons_of_mem _)
  have hencodable : ∀ source ∈ mandatory, encodable source.text = true := by
    intro source hsource
    rcases hmem source hsource with hblock | hchunk
    · rw [hblock]
      exact hblockClean.encodable
    · exact encodable_chunk hchunk hclean.encodable
  have hfull : ∀ source ∈ mandatory, source.text ≠ [] := by
    intro source hsource
    rcases hmem source hsource with hblock | hchunk
    · rw [hblock]
      exact hblockNe
    · exact hnonempty _ hchunk
  obtain ⟨budget, artifact, hprovide, hcontent⟩ :=
    provide_mandatory countTokens (hmandatory ▸ List.cons_ne_nil _ _) hencodable
  refine ⟨budget, ?_⟩
  intro hverbatim
  have hrun : ragProvider countTokens (shadowed raw x text.length none)
      [⟨"d/a", text, true⟩, ⟨"d/a", block, true⟩] budget = .ok artifact := by
    have hterms : queryTerms (shadowed raw x text.length none).prompt = [] := rfl
    rw [ragProvider, hterms, renderRag]
    simp only [hall, hoptional]
    exact hprovide
  have hinfix := hverbatim artifact hrun
  -- the block stands between the first paragraph and the others
  obtain ⟨second, others, hsecond⟩ := List.exists_cons_of_ne_nil hlater
  have hpayload : (join mandatory).payload =
      first ++ separator ++ block ++ (separator ++ separator.intercalate later) := by
    rw [payload_join hfull, htexts, hsecond, List.intercalate_cons_cons,
      List.intercalate_cons_cons]
    simp only [List.append_assoc]
  rw [hcontent, hpayload, ← hblockDef] at hinfix
  have hjoined : (separator.intercalate (first :: later)).length =
      first.length + separator.length + (separator.intercalate later).length := by
    rw [hsecond, List.intercalate_cons_cons, List.length_append, List.length_append]
  have hfirstPos : 0 < first.length := by
    apply List.length_pos_iff.mpr
    exact hnonempty first (hchunks ▸ List.mem_cons_self)
  have hlaterPos : 0 < (separator.intercalate later).length := by
    have hsecondPos : 0 < second.length := by
      apply List.length_pos_iff.mpr
      apply hnonempty second
      rw [hchunks, hsecond]
      exact List.mem_cons_of_mem _ List.mem_cons_self
    have hpart := @infix_intercalate _ separator second later
      (hsecond ▸ List.mem_cons_self)
    exact hsecondPos.trans_le hpart.length_le
  rw [hjoined] at hlength
  apply not_infix_of_block (Nat.le_refl _) hhead hlast _ _ hinfix
  · rw [List.length_append]
    omega
  · rw [List.length_append]
    omega

/-! ## Section 3: The baselines -/

/-- RAG and summaries raise an overflow or stay within the budget, and summaries keep every P0 text
verbatim. RAG keeps the text of a P0 file in every context exactly when it has no blank line. -/
theorem rag_verbatim_iff {raw text : Text} (hraw : sanitize wordChar raw true = .ok text) :
    ((∀ task sources, collectSources wordChar task = .ok sources →
        ∀ source ∈ sources, source.p0 = true → source.text = text →
          ∀ budget, Verbatim source (ragProvider countTokens task sources budget)) ↔
      ¬ separator <:+: text) ∧
    ∀ task sources, collectSources wordChar task = .ok sources → ∀ budget,
      WithinBudget countTokens budget (ragProvider countTokens task sources budget) ∧
      WithinBudget countTokens budget (summaryProvider countTokens sources budget) ∧
      ∀ source ∈ sources, source.p0 = true →
        Verbatim source (summaryProvider countTokens sources budget) := by
  constructor
  · constructor
    -- a text with a blank line is torn by some task
    · intro hkept hblank
      obtain ⟨task, sources, hcollect, source, hsource, hp0, htext, budget, htorn⟩ :=
        exists_torn wordChar countTokens hraw hblank
      exact htorn (hkept task sources hcollect source hsource hp0 htext budget)
    -- a text without is one chunk, which is never divided
    · intro hblank task sources hcollect source hsource hp0 htext budget
      obtain ⟨hclean, hne⟩ := collectSources_text wordChar hcollect hsource
      apply ragProvider_verbatim countTokens hsource hp0
      exact chunks_of_single hclean hne (htext ▸ hblank)
  · intro task sources hcollect budget
    have hencodable : ∀ source ∈ sources, encodable source.text = true := by
      intro source hsource
      exact (collectSources_text wordChar hcollect hsource).1.encodable
    refine ⟨ragProvider_withinBudget countTokens hencodable task budget,
      summaryProvider_withinBudget countTokens hencodable budget, ?_⟩
    intro source hsource hp0
    exact summaryProvider_verbatim countTokens hsource hp0 budget

/-- The characters of words, of ASCII. -/
def asciiWord (c : CodePoint) : Bool := isNameChar c

/-- A P0 file of one paragraph. -/
def sentenceTask : Task where
  files := .found [("p0.md", textOf "Keep the audit rule.")] (by simp)
  p0Paths := ["p0.md"]
  approved := true
  context := none
  prompt := none

/-- The source of the one paragraph. -/
def sentenceSource : Source := ⟨"p0.md", textOf "Keep the audit rule.", true⟩

/-- A text of one paragraph stays in one piece. -/
theorem rag_verbatim_iff_sentence :
    Verbatim sentenceSource (ragProvider List.length sentenceTask [sentenceSource] ⟨1000, none⟩) := by
  have hraw : sanitize asciiWord (textOf "Keep the audit rule.") true =
      .ok (textOf "Keep the audit rule.") := by decide +kernel
  have hblank : ¬ separator <:+: textOf "Keep the audit rule." := by decide +kernel
  have hcollect : collectSources asciiWord sentenceTask = .ok [sentenceSource] := by decide +kernel
  exact (rag_verbatim_iff asciiWord List.length hraw).1.mpr hblank sentenceTask [sentenceSource]
    hcollect sentenceSource (List.mem_singleton_self _) rfl rfl ⟨1000, none⟩

/-- A P0 file of two paragraphs, and a query for the second one. -/
def endpointTask : Task where
  files := .found [("p0.md", textOf "Keep the audit rule.\n\nChange the endpoint.")] (by simp)
  p0Paths := ["p0.md"]
  approved := true
  context := none
  prompt := some (textOf "Where is the endpoint?")

/-- The source of the P0 file. -/
def endpointSource : Source :=
  ⟨"p0.md", textOf "Keep the audit rule.\n\nChange the endpoint.", true⟩

/-- The paragraph that the query asks for comes first. -/
theorem second_paragraph_first :
    collectSources asciiWord endpointTask = .ok [endpointSource] ∧
      ragProvider List.length endpointTask [endpointSource] ⟨1000, none⟩ =
        .ok ⟨textOf "Change the endpoint.\n\nKeep the audit rule.", 42, 42⟩ ∧
      ¬ Verbatim endpointSource
        (ragProvider List.length endpointTask [endpointSource] ⟨1000, none⟩) := by
  have hcollect : collectSources asciiWord endpointTask = .ok [endpointSource] := by decide +kernel
  have hrun : ragProvider List.length endpointTask [endpointSource] ⟨1000, none⟩ =
      .ok ⟨textOf "Change the endpoint.\n\nKeep the audit rule.", 42, 42⟩ := by decide +kernel
  refine ⟨hcollect, hrun, ?_⟩
  intro hverbatim
  have hinfix := hverbatim _ hrun
  revert hinfix
  decide +kernel

end ContractCapsule.Baselines
