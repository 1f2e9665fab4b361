import ContractCapsule.Library.Run
import ContractCapsule.Mcp.Server

/-!
# The Server over Standard Streams

`serve_stdio` reads requests line by line and writes one line for each. The client knows which
answer belongs to which request by counting, so the server has to stay in step.

`serveStdio_inStep_iff` says exactly when it does: no line may nest too deep, and neither the
identifier that is echoed nor the result may hold a surrogate.
-/

namespace ContractCapsule.Mcp

open Library Models

variable {F : Type} [FloatText F] {σ : Type}

/-! ## Section 1: The loop -/

/-- `str.isspace` of a character. -/
def isSpace (c : CodePoint) : Bool :=
  (0x09 ≤ c.val && c.val ≤ 0x0D) || (0x1C ≤ c.val && c.val ≤ 0x20) || c.val = 0x85 ||
    c.val = 0xA0 || c.val = 0x1680 || (0x2000 ≤ c.val && c.val ≤ 0x200A) || c.val = 0x2028 ||
    c.val = 0x2029 || c.val = 0x202F || c.val = 0x205F || c.val = 0x3000

/-- `line.strip()` is not empty. -/
def notBlank (line : Text) : Bool := line.any fun c => !isSpace c

/-- The character at the end of a line. -/
def newline : CodePoint := ofChar '\n'

/-- The line that answers a request. -/
def replyLine (response : PyValue F) : Text := PyJson.dumps leafText response ++ [newline]

/-- What the loop has written when it stops, and whether it stops at the end of the input. -/
structure Served where
  written : List Text
  finished : Bool
deriving DecidableEq, Repr

/-- `serve_stdio`. A `RecursionError` of `json.loads` ends the loop, and so does a line that the
stream cannot encode. -/
def serveStdio (service : Service σ F) (limit : ℕ) : σ → List Text → Served
  | _, [] => ⟨[], true⟩
  | s, line :: lines =>
    if notBlank line then
      match handleJson service limit s line with
      | (.error _, _) => ⟨[], false⟩
      | (.ok response, s') =>
        if encodable (replyLine response) then
          let rest := serveStdio service limit s' lines
          ⟨replyLine response :: rest.written, rest.finished⟩
        else ⟨[], false⟩
    else serveStdio service limit s lines

/-! ## Section 2: Lines of the answers -/

/-- The characters of a number are visible ASCII characters. -/
theorem ofChar_val_of_validNumber {lexeme : List Char} (h : Json.validNumber lexeme = true) :
    ∀ c ∈ textOfChars lexeme, 0x20 ≤ c.val ∧ c.val < 0x80 := by
  intro c hc
  obtain ⟨ch, hch, rfl⟩ := List.mem_map.mp hc
  rw [Json.validNumber, Bool.and_eq_true, List.all_eq_true] at h
  have hnumber := h.1 ch hch
  simp only [Json.isNumberChar, Char.isDigit, Bool.or_eq_true, Bool.and_eq_true,
    decide_eq_true_eq, beq_iff_eq] at hnumber
  rw [ofChar_val]
  rcases hnumber with ((((⟨hlow, hhigh⟩ | rfl) | rfl) | rfl) | rfl) | rfl
  · have hlow' : 48 ≤ ch.toNat := hlow
    have hhigh' : ch.toNat ≤ 57 := hhigh
    omega
  all_goals decide

theorem leafText_range (leaf : Leaf F) : ∀ c ∈ leafText leaf, 0x20 ≤ c.val ∧ c.val < 0x80 := by
  have hword : ∀ {word : String},
      (word.toList.all fun ch => decide (0x20 ≤ ch.toNat ∧ ch.toNat < 0x80)) = true →
        ∀ c ∈ textOf word, 0x20 ≤ c.val ∧ c.val < 0x80 := by
    intro word hchars c hc
    obtain ⟨ch, hch, rfl⟩ := List.mem_map.mp hc
    rw [ofChar_val]
    exact of_decide_eq_true (List.all_eq_true.mp hchars ch hch)
  cases leaf with
  | number n => exact ofChar_val_of_validNumber (Number.lexeme_valid n)
  | nan => exact hword (by decide)
  | infinity negative => cases negative <;> exact hword (by decide)
  | foreign => simp [leafText]

theorem visible_leafText (leaf : Leaf F) : visible (leafText leaf) = true := by
  apply List.all_eq_true.mpr
  intro c hc
  exact decide_eq_true (leafText_range leaf c hc).1

theorem encodable_leafText (leaf : Leaf F) : encodable (leafText leaf) = true := by
  apply List.all_eq_true.mpr
  intro c hc
  have hrange := (leafText_range leaf c hc).2
  simp only [isSurrogate, Bool.not_eq_true', Bool.and_eq_false_iff, decide_eq_false_iff_not]
  omega

/-- The text of a response is one line. -/
theorem newline_notMem_dumps (response : PyValue F) :
    newline ∉ PyJson.dumps leafText response := by
  intro hmem
  have hvisible := PyJson.visible_dumps visible_leafText response
  have hline := List.all_eq_true.mp hvisible newline hmem
  exact absurd hline (by decide)

/-- The line of a response can be encoded exactly when the response can. -/
theorem encodable_replyLine (response : PyValue F) :
    encodable (replyLine response) = response.encodes := by
  have hend : encodable [newline] = true := by decide
  rw [replyLine, encodable_append, PyJson.encodable_dumps encodable_leafText, hend, Bool.and_true]

/-! ## Section 3: In step -/

/-- The server is in step with its client over some lines: it reaches the end of the input, it
has written the answers to the lines that are not blank, in their order, and each of them is one
line that can be encoded. -/
structure InStep (service : Service σ F) (limit : ℕ) (s : σ) (lines : List Text) : Prop where
  finished : (serveStdio service limit s lines).finished = true
  replies : List.Forall₂ (fun t out => ∃ response, t.output = .ok response ∧
      out = replyLine response)
    (trace (handleJson service limit) s (lines.filter notBlank))
    (serveStdio service limit s lines).written
  oneLine : ∀ out ∈ (serveStdio service limit s lines).written,
    ∃ body, out = body ++ [newline] ∧ newline ∉ body ∧ encodable out = true

/-- A line that the server can answer in a state of the service. -/
structure Answerable (service : Service σ F) (limit : ℕ) (s : σ) (line : Text) : Prop where
  /-- The document does not nest too deep. -/
  shallow : (requestDecoder F limit).loads line ≠ .error .recursionError
  /-- The identifier of a request has no surrogate. -/
  identifier : ∀ request, (requestDecoder F limit).loads line = .ok (.dict request) →
    ∀ id, PyJson.get? request (textOf "id") = some (.str id) → encodable id = true
  /-- The result of a request has no surrogate. -/
  result : ∀ request, (requestDecoder F limit).loads line = .ok (.dict request) →
    ∀ id, requestId request = .ok id → ∀ result, (answerRequest service request s).1 = .ok result →
      PyJson.membersEncode result = true

omit [FloatText F] in
/-- The identifier that is echoed can be encoded unless it is a string with a surrogate. -/
theorem encodes_requestId {request : PyMembers F} {id : PyValue F}
    (h : requestId request = .ok id) :
    id.encodes = true ↔
      ∀ text, PyJson.get? request (textOf "id") = some (.str text) → encodable text = true := by
  rw [requestId] at h
  generalize PyJson.get? request (textOf "id") = found at h
  split at h
  · cases h
    simp [PyJson.encodes]
  · cases h
    simp [PyJson.encodes]
  · cases h
    simp [PyJson.encodes]
  · cases h
    simp [PyJson.encodes]
  · cases h

omit [FloatText F] in
/-- A request whose identifier is a string has an identifier. -/
theorem requestId_of_str {request : PyMembers F} {text : Text}
    (h : PyJson.get? request (textOf "id") = some (.str text)) :
    requestId request = .ok (.str text) := by
  rw [requestId, h]

omit [FloatText F] in
/-- The answer to a request can be encoded exactly when its identifier and its result can. -/
theorem encodes_handleRequest (service : Service σ F) (request : PyMembers F) (s : σ) :
    (handleRequest service request s).1.encodes = true ↔
      (∀ text, PyJson.get? request (textOf "id") = some (.str text) → encodable text = true) ∧
      ∀ id, requestId request = .ok id →
        ∀ result, (answerRequest service request s).1 = .ok result →
          PyJson.membersEncode result = true := by
  rw [handleRequest]
  cases hid : requestId request with
  -- without an id the response has none to encode
  | error fault =>
    simp only [encodes_errorResponse _ (encodable_code fault), PyJson.encodes, reduceCtorEq,
      false_implies, implies_true, and_true, true_iff]
    intro text htext
    rw [requestId_of_str htext] at hid
    cases hid
  -- otherwise the response echoes the id, which may be a text that cannot be encoded
  | ok id =>
    have hecho := encodes_requestId hid
    cases hanswer : (answerRequest service request s).1 with
    | error fault =>
      simp only [hanswer, encodes_errorResponse _ (encodable_code fault), hecho, reduceCtorEq,
        false_implies, implies_true, and_true]
    | ok result =>
      simp only [hanswer, encodes_successResponse, Bool.and_eq_true, hecho, Except.ok.injEq,
        forall_eq']

/-- A line is answered by a line exactly when it is answerable. -/
theorem answerable_iff (service : Service σ F) (limit : ℕ) (s : σ) (line : Text) :
    Answerable service limit s line ↔
      ∃ response, (handleJson service limit s line).1 = .ok response ∧
        encodable (replyLine response) = true := by
  have hrejected : (errorResponse (F := F) .null (textOf "INVALID_REQUEST")).encodes = true := by
    rw [encodes_errorResponse _ (encodable_textOf _)]
    rfl
  simp only [encodable_replyLine]
  -- a line that is no request gets the fixed rejection, which can always be written
  cases hloads : (requestDecoder F limit).loads line with
  | error e =>
    have hnone : ∀ request : PyMembers F,
        (requestDecoder F limit).loads line ≠ .ok (.dict request) := by
      intro request hrequest
      rw [hloads] at hrequest
      cases hrequest
    cases e with
    -- the decoder's recursion error is not caught, so such a line has no answer at all
    | recursionError =>
      simp only [handleJson, hloads, reduceCtorEq, false_and, exists_false, iff_false]
      intro hline
      exact hline.shallow hloads
    | valueError =>
      simp only [handleJson, hloads, Except.ok.injEq, exists_eq_left', hrejected, iff_true]
      refine ⟨by rw [hloads]; simp, ?_, ?_⟩
      · intro request hrequest
        exact absurd hrequest (hnone request)
      · intro request hrequest
        exact absurd hrequest (hnone request)
  | ok value =>
    cases value with
    | dict request =>
      -- a request has one answer: its id and its result have to be writable
      simp only [handleJson, hloads, Except.ok.injEq, exists_eq_left', encodes_handleRequest]
      constructor
      · intro hline
        exact ⟨hline.identifier request hloads, hline.result request hloads⟩
      · intro hanswer
        refine ⟨by rw [hloads]; simp, ?_, ?_⟩
        · intro request' hrequest
          rw [hloads] at hrequest
          cases hrequest
          exact hanswer.1
        · intro request' hrequest
          rw [hloads] at hrequest
          cases hrequest
          exact hanswer.2
    -- the conditions speak of requests only, and this document is none
    | null | bool | number | str | list =>
      simp only [handleJson, hloads, Except.ok.injEq, exists_eq_left', hrejected, iff_true]
      refine ⟨by rw [hloads]; simp, ?_, ?_⟩ <;>
        · intro request hrequest
          rw [hloads] at hrequest
          cases hrequest

theorem serveStdio_blank {service : Service σ F} {limit : ℕ} {s : σ} {line : Text}
    (h : notBlank line = false) (lines : List Text) :
    serveStdio service limit s (line :: lines) = serveStdio service limit s lines := by
  rw [serveStdio, h]
  rfl

/-- A line that is answerable is answered, and the loop goes on. -/
theorem serveStdio_answered {service : Service σ F} {limit : ℕ} {s : σ} {line : Text}
    {response : PyValue F} (hblank : notBlank line = true)
    (hresponse : (handleJson service limit s line).1 = .ok response)
    (hencodable : encodable (replyLine response) = true) (lines : List Text) :
    serveStdio service limit s (line :: lines) =
      ⟨replyLine response ::
          (serveStdio service limit (handleJson service limit s line).2 lines).written,
        (serveStdio service limit (handleJson service limit s line).2 lines).finished⟩ := by
  rw [serveStdio, hblank]
  generalize handleJson service limit s line = handled at hresponse
  obtain ⟨answer, s'⟩ := handled
  simp only at hresponse
  subst hresponse
  simp only [if_true, hencodable]

/-- A line that is not answerable ends the loop. -/
theorem serveStdio_stopped {service : Service σ F} {limit : ℕ} {s : σ} {line : Text}
    (hblank : notBlank line = true) (h : ¬ Answerable service limit s line) (lines : List Text) :
    serveStdio service limit s (line :: lines) = ⟨[], false⟩ := by
  rw [answerable_iff] at h
  rw [serveStdio, hblank]
  generalize handleJson service limit s line = handled at h
  obtain ⟨answer, s'⟩ := handled
  cases answer with
  | error e => rfl
  | ok response =>
    have hlost : ¬ encodable (replyLine response) = true := fun hencodable =>
      h ⟨response, rfl, hencodable⟩
    simp only [if_true, hlost, if_false, Bool.false_eq_true]

/-- **In step**: the server stays in step with its client exactly when every line that is not
blank is answerable in the state in which it is met. -/
theorem serveStdio_inStep_iff (service : Service σ F) (limit : ℕ) (s : σ) (lines : List Text) :
    InStep service limit s lines ↔
      ∀ t ∈ trace (handleJson service limit) s (lines.filter notBlank),
        Answerable service limit t.before t.input := by
  induction lines generalizing s with
  | nil =>
    constructor
    · intro _ t ht
      cases ht
    · intro _
      exact ⟨rfl, .nil, by simp [serveStdio]⟩
  | cons line lines ih =>
    cases hblank : notBlank line with
    | false =>
      -- a blank line is passed over
      have hskip := @serveStdio_blank _ _ _ service limit s _ hblank lines
      have hfilter : (line :: lines).filter notBlank = lines.filter notBlank :=
        List.filter_cons_of_neg (by simp [hblank])
      rw [hfilter, ← ih s]
      constructor
      · intro h
        obtain ⟨hfinished, hreplies, hlines⟩ := h
        rw [hskip] at hfinished hreplies hlines
        rw [hfilter] at hreplies
        exact ⟨hfinished, hreplies, hlines⟩
      · intro h
        refine ⟨?_, ?_, ?_⟩
        · rw [hskip]
          exact h.finished
        · rw [hskip, hfilter]
          exact h.replies
        · rw [hskip]
          exact h.oneLine
    | true =>
      have hfilter : (line :: lines).filter notBlank = line :: lines.filter notBlank :=
        List.filter_cons_of_pos hblank
      rw [hfilter, trace, List.forall_mem_cons, ← ih]
      by_cases hline : Answerable service limit s line
      · -- the line is answered, and the rest is a run from the next state
        obtain ⟨response, hresponse, hencodable⟩ := (answerable_iff service limit s line).mp hline
        have hserved := serveStdio_answered hblank hresponse hencodable lines
        constructor
        · intro h
          obtain ⟨hfinished, hreplies, hlines⟩ := h
          rw [hserved] at hfinished hreplies hlines
          rw [hfilter, trace, List.forall₂_cons] at hreplies
          exact ⟨hline, hfinished, hreplies.2, fun out hout => hlines out (List.mem_cons_of_mem _ hout)⟩
        · intro h
          obtain ⟨_, hrest⟩ := h
          refine ⟨?_, ?_, ?_⟩
          · rw [hserved]
            exact hrest.finished
          · rw [hserved, hfilter, trace, List.forall₂_cons]
            exact ⟨⟨response, hresponse, rfl⟩, hrest.replies⟩
          · rw [hserved]
            intro out hout
            rcases List.mem_cons.mp hout with rfl | hlater
            · exact ⟨_, rfl, newline_notMem_dumps response, hencodable⟩
            · exact hrest.oneLine out hlater
      · constructor
        · intro h
          have hfinished := h.finished
          rw [serveStdio_stopped hblank hline] at hfinished
          cases hfinished
        · intro h
          exact absurd h.1 hline

/-! ## Section 4: A surrogate in the identifier -/

/-- A service whose methods are denied. -/
def deniedService : Service Unit IntegralFloat where
  call := fun _ _ s => (.error (.mcp (textOf "PERMISSION_DENIED")), s)

/-- `{"jsonrpc":"2.0","id":"\ud800","method":"compile_view"}` -/
def surrogateRequest : Text :=
  textOf ("\x7b\"jsonrpc\":\"2.0\",\"id\":\"\\ud800\",\"method\":\"compile_view\"\x7d")

/-- The escape of a lone surrogate in the identifier ends the loop before anything is written. -/
theorem surrogate_identifier_stops :
    serveStdio deniedService 1000 () [surrogateRequest, surrogateRequest] = ⟨[], false⟩ ∧
      ¬ InStep deniedService 1000 () [surrogateRequest, surrogateRequest] := by
  have hserved : serveStdio deniedService 1000 () [surrogateRequest, surrogateRequest] =
      ⟨[], false⟩ := by
    decide +kernel
  refine ⟨hserved, ?_⟩
  intro h
  have hfinished := h.finished
  rw [hserved] at hfinished
  cases hfinished

end ContractCapsule.Mcp
