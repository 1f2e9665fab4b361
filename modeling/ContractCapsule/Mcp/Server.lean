import ContractCapsule.Library.PyJson
import ContractCapsule.Models.Base

/-!
# The JSON-RPC Server

The dispatch of `mcp/server.py`: a line is read by `json.loads`, checked as a JSON-RPC request,
handed to one of the six methods of the service, and answered by one object.

The methods stand as a machine with a state of its own: what a method answers, and whether it
raises, may depend on everything that the service was asked before.
-/

namespace ContractCapsule.Mcp

open Library Models

variable {F : Type} {σ : Type}

/-! ## Section 1: Values -/

/-- A leaf of a Python value: a number, a float that is not finite, or an object that JSON does
not have. -/
inductive Leaf (F : Type) where
  | number (n : Number F)
  | nan
  | infinity (negative : Bool)
  | foreign

/-- A value that the server reads, passes on or answers. -/
abbrev PyValue (F : Type) := PyJson (Leaf F)

/-- A dictionary of values. -/
abbrev PyMembers (F : Type) := List (Text × PyValue F)

/-- A text of characters. -/
def textOfChars (cs : List Char) : Text := cs.map ofChar

/-- A leaf as `json.dumps` writes it. It is never handed an object that JSON does not have. -/
def leafText [FloatText F] : Leaf F → Text
  | .number n => textOfChars n.lexeme
  | .nan => textOf "NaN"
  | .infinity negative => textOf (bif negative then "-Infinity" else "Infinity")
  | .foreign => []

/-- The longest decimal that `int` reads, in digits. -/
def intMaxStrDigits : ℕ := 4300

/-- The leaf of a lexeme: `int`, `float` or one of the constants. -/
def readLeaf [FloatText F] (lexeme : Text) : Except LoadsError (Leaf F) :=
  let chars := lexeme.map fun c => Char.ofNat c.val
  if lexeme = textOf "NaN" then .ok .nan
  else if lexeme = textOf "Infinity" then .ok (.infinity false)
  else if lexeme = textOf "-Infinity" then .ok (.infinity true)
  else if Json.isInteger chars ∧ intMaxStrDigits < chars.countP Char.isDigit then
    .error .valueError
  else
    match Number.read chars with
    | some n => .ok (.number n)
    | none => .ok (.infinity (lexeme.head? = some (ofChar '-')))

/-- `json.loads`, with the number of containers that may be nested. -/
def requestDecoder (F : Type) [FloatText F] (limit : ℕ) : PyDecoder (Leaf F) where
  limit := limit
  number := readLeaf
  pairs := fun pairs => .ok (PyJson.dictOf pairs)

/-! ## Section 2: Errors -/

/-- What a method raises: an `MCPError`, a `ValidationError` or another exception. -/
inductive Fault where
  | mcp (code : Text)
  | validation
  | other

/-- A letter or a digit of ASCII. -/
def isAsciiLetter (c : CodePoint) : Bool :=
  (0x41 ≤ c.val && c.val ≤ 0x5A) || (0x61 ≤ c.val && c.val ≤ 0x7A)

/-- A character behind the first one of a code. -/
def isCodeChar (c : CodePoint) : Bool :=
  isAsciiLetter c || jsonDigit c || c = ofChar '_' || c = ofChar '.' || c = ofChar '-'

/-- `_SAFE_CODE.fullmatch` -/
def isSafeCode : Text → Bool
  | [] => false
  | c :: rest => isAsciiLetter c && rest.all isCodeChar

/-- The code that the constructor of `MCPError` keeps. -/
def safeCode (code : Text) : Text := if isSafeCode code then code else textOf "INTERNAL_ERROR"

/-- The code of the answer to an exception. -/
def Fault.code : Fault → Text
  | .mcp code => safeCode code
  | .validation => textOf "INVALID_PARAMS"
  | .other => textOf "INTERNAL_ERROR"

/-- `_MESSAGES` -/
def messages : List (String × String) := [
  ("INVALID_REQUEST", "invalid request"),
  ("INVALID_PARAMS", "invalid parameters"),
  ("METHOD_NOT_FOUND", "method not found"),
  ("PERMISSION_DENIED", "permission denied"),
  ("CAPSULE_UNAVAILABLE", "capsule is unavailable"),
  ("CAPSULE_INTEGRITY", "capsule integrity check failed"),
  ("REGISTRY_UNAVAILABLE", "registry is unavailable"),
  ("COMPILATION_FAILED", "compilation failed"),
  ("EVIDENCE_UNAUTHORIZED", "evidence is not authorized"),
  ("EVIDENCE_UNAVAILABLE", "evidence is unavailable"),
  ("ACTIVATION_FAILED", "activation failed"),
  ("ROLLBACK_FAILED", "rollback failed"),
  ("INTERNAL_ERROR", "internal error")]

/-- `_message` -/
def message (code : Text) : String :=
  ((messages.find? fun entry => textOf entry.1 = code).map Prod.snd).getD "request failed"

/-- A string of the program as a value. -/
def strValue (s : String) : PyValue F := .str (textOf s)

/-- `_error_response` -/
def errorResponse (requestId : PyValue F) (code : Text) : PyValue F := .dict [
  (textOf "jsonrpc", strValue "2.0"),
  (textOf "id", requestId),
  (textOf "error", .dict [
    (textOf "code", .str code),
    (textOf "message", strValue (message code))])]

/-- `_success_response` -/
def successResponse (requestId : PyValue F) (result : PyMembers F) : PyValue F := .dict [
  (textOf "jsonrpc", strValue "2.0"),
  (textOf "id", requestId),
  (textOf "result", .dict result)]

/-! ## Section 3: Requests -/

/-- `_METHODS` -/
inductive Method where
  | discoverCapsules
  | compileView
  | expandEvidence
  | compareCapsules
  | activateCapsule
  | rollbackCapsule
deriving DecidableEq, Repr

/-- The name of a method. -/
def Method.text : Method → String
  | .discoverCapsules => "discover_capsules"
  | .compileView => "compile_view"
  | .expandEvidence => "expand_evidence"
  | .compareCapsules => "compare_capsules"
  | .activateCapsule => "activate_capsule"
  | .rollbackCapsule => "rollback_capsule"

/-- The method of a name. -/
def Method.ofText (name : Text) : Option Method :=
  [discoverCapsules, compileView, expandEvidence, compareCapsules, activateCapsule,
    rollbackCapsule].find? fun method => textOf method.text = name

/-- A service: what a method answers or raises, and the state that it leaves. -/
structure Service (σ F : Type) where
  call : Method → PyMembers F → σ → Except Fault (PyValue F) × σ

/-- `_request_id` -/
def requestId (request : PyMembers F) : Except Fault (PyValue F) :=
  match PyJson.get? request (textOf "id") with
  | none => .ok .null
  | some .null => .ok .null
  | some (.str s) => .ok (.str s)
  | some (.number (.number (.int i))) => .ok (.number (.number (.int i)))
  | some _ => .error (.mcp (textOf "INVALID_REQUEST"))

/-- `_JSONRPC_KEYS` -/
def jsonrpcKeys : List Text :=
  [textOf "jsonrpc", textOf "id", textOf "method", textOf "params"]

/-- The value is the string. -/
def isStr (value : Option (PyValue F)) (s : String) : Bool :=
  match value with
  | some (.str t) => t = textOf s
  | _ => false

/-- The method and the parameters of a request. -/
def checkRequest (request : PyMembers F) : Except Fault (Method × PyMembers F) := do
  raiseIf (request.any (fun m => m.1 ∉ jsonrpcKeys) ∨
    isStr (PyJson.get? request (textOf "jsonrpc")) "2.0" = false) (.mcp (textOf "INVALID_REQUEST"))
  let name ← match PyJson.get? request (textOf "method") with
    | some (.str (c :: name)) => .ok (c :: name)
    | _ => .error (.mcp (textOf "INVALID_REQUEST"))
  let params ← match PyJson.get? request (textOf "params") with
    | none => .ok []
    | some (.dict params) => .ok params
    | some _ => .error (.mcp (textOf "INVALID_PARAMS"))
  let method ← orRaise (Method.ofText name) (.mcp (textOf "METHOD_NOT_FOUND"))
  pure (method, params)

/-- The leaf may be answered. -/
def Leaf.transportable : Leaf F → Bool
  | .number _ => true
  | .nan => false
  | .infinity _ => false
  | .foreign => false

/-- `_json_safe` of what a method answered, which has to be a mapping. -/
def safeResult (result : Except Fault (PyValue F)) : Except Fault (PyMembers F) := do
  let value ← result
  match value with
  | .dict members =>
    raiseIf (PyJson.membersAll Leaf.transportable members = false)
      (.mcp (textOf "INTERNAL_ERROR"))
    pure members
  | _ => .error (.mcp (textOf "INTERNAL_ERROR"))

/-- The safe result of a request, and the state of the service afterwards. -/
def answerRequest (service : Service σ F) (request : PyMembers F) (s : σ) :
    Except Fault (PyMembers F) × σ :=
  match checkRequest request with
  | .error fault => (.error fault, s)
  | .ok (method, params) =>
    let answered := service.call method params s
    (safeResult answered.1, answered.2)

/-- `handle_request` -/
def handleRequest (service : Service σ F) (request : PyMembers F) (s : σ) : PyValue F × σ :=
  match requestId request with
  | .error fault => (errorResponse .null fault.code, s)
  | .ok id =>
    let answered := answerRequest service request s
    match answered.1 with
    | .ok result => (successResponse id result, answered.2)
    | .error fault => (errorResponse id fault.code, answered.2)

/-- `handle_json`. It catches every `ValueError`, and a `RecursionError` is none. -/
def handleJson [FloatText F] (service : Service σ F) (limit : ℕ) (s : σ) (raw : Text) :
    Except LoadsError (PyValue F) × σ :=
  match (requestDecoder F limit).loads raw with
  | .error .recursionError => (.error .recursionError, s)
  | .error .valueError => (.ok (errorResponse .null (textOf "INVALID_REQUEST")), s)
  | .ok (.dict request) =>
    let handled := handleRequest service request s
    (.ok handled.1, handled.2)
  | .ok _ => (.ok (errorResponse .null (textOf "INVALID_REQUEST")), s)

/-! ## Section 4: What can be encoded -/

theorem encodable_of_codeChars {code : Text} (h : ∀ c ∈ code, isCodeChar c = true) :
    encodable code = true := by
  apply List.all_eq_true.mpr
  intro c hc
  have hchar := h c hc
  simp only [isCodeChar, isAsciiLetter, jsonDigit, Bool.or_eq_true, Bool.and_eq_true,
    decide_eq_true_eq] at hchar
  have hlow : ∀ {ch : Char}, ch.toNat < 0x80 → c = ofChar ch → c.val < 0x80 := by
    intro ch hch heq
    rw [heq, ofChar_val]
    exact hch
  have hascii : c.val < 0x80 := by
    rcases hchar with (((hletter | hdigit) | hc) | hc) | hc
    · omega
    · omega
    · exact hlow (by decide) hc
    · exact hlow (by decide) hc
    · exact hlow (by decide) hc
  simp only [isSurrogate, Bool.not_eq_true', Bool.and_eq_false_iff, decide_eq_false_iff_not]
  omega

/-- The code of an error is plain ASCII, whatever was raised. -/
theorem encodable_code (fault : Fault) : encodable fault.code = true := by
  cases fault with
  | validation => exact encodable_textOf _
  | other => exact encodable_textOf _
  | mcp code =>
    rw [Fault.code, safeCode]
    split_ifs with hsafe
    · apply encodable_of_codeChars
      cases code with
      | nil => cases hsafe
      | cons c rest =>
        rw [isSafeCode, Bool.and_eq_true] at hsafe
        intro d hd
        rcases List.mem_cons.mp hd with rfl | hrest
        · simp [isCodeChar, hsafe.1]
        · exact List.all_eq_true.mp hsafe.2 d hrest
    · exact encodable_textOf _

/-- An error response can be encoded exactly when the identifier it echoes can. -/
theorem encodes_errorResponse (id : PyValue F) {code : Text} (hcode : encodable code = true) :
    (errorResponse id code).encodes = id.encodes := by
  simp [errorResponse, strValue, PyJson.encodes, PyJson.membersEncode, encodable_textOf, hcode]

/-- A success response can be encoded exactly when the identifier and the result can. -/
theorem encodes_successResponse (id : PyValue F) (result : PyMembers F) :
    (successResponse id result).encodes = (id.encodes && PyJson.membersEncode result) := by
  simp [successResponse, strValue, PyJson.encodes, PyJson.membersEncode, encodable_textOf]

end ContractCapsule.Mcp
