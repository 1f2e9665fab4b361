import ContractCapsule.Library.Sorting
import ContractCapsule.Mcp.Server
import ContractCapsule.Registry.Success
import Mathlib.Data.Prod.Lex

/-!
# Discovery

`discover_capsules` lists the versions that match a filter and that the principal may read. The
query of the database is cut off after `limit` rows, and only then are the rows authorized.

`discover_unrevealing_iff` says when that is harmless: unless a version that the principal cannot
read stands among the first `limit` matches, with a readable one behind them.
-/

namespace ContractCapsule.Mcp

open Library Models Registry

variable {F : Type} [FloatText F]

/-! ## Section 1: Requests -/

/-- A request for discovery. -/
structure DiscoveryQuery where
  principalId : String
  capsuleId : Option String
  version : Option String
  limit : ℕ

/-- What a discovery meets outside the database. -/
structure Surroundings (F : Type) where
  reading : Reading F
  /-- The decision of the policy hook of the server; true where there is no hook. -/
  permits : (action : String) → (principalId : String) → PyMembers F → Bool

/-- A text without surrogates as a string. -/
def plainString (text : Text) : String := String.ofList (text.map fun c => Char.ofNat c.val)

/-- `_string` -/
def stringOf (value : PyValue F) : Except Fault String :=
  match value with
  | .str (c :: text) =>
    if encodable (c :: text) then .ok (plainString (c :: text))
    else .error (.mcp (textOf "INVALID_PARAMS"))
  | _ => .error (.mcp (textOf "INVALID_PARAMS"))

/-- A parameter that may be left out or null. -/
def optionalParam (params : PyMembers F) (name : String) : Option (PyValue F) :=
  match PyJson.get? params (textOf name) with
  | some .null => none
  | found => found

/-- The parameters that `discover_capsules` knows. -/
def discoveryKeys : List Text :=
  [textOf "principal_id", textOf "capsule_id", textOf "version", textOf "limit"]

/-- The checks of `discover_capsules`. -/
def parseDiscovery (surroundings : Surroundings F) (params : PyMembers F) :
    Except Fault DiscoveryQuery := do
  raiseIf (params.any (fun m => m.1 ∉ discoveryKeys) ∨
    (PyJson.get? params (textOf "principal_id")).isNone) (.mcp (textOf "INVALID_PARAMS"))
  let principalId ←
    stringOf ((PyJson.get? params (textOf "principal_id")).getD .null)
  raiseIf (surroundings.permits "discover_capsules" principalId params = false)
    (.mcp (textOf "PERMISSION_DENIED"))
  let capsuleId ← (optionalParam params "capsule_id").mapM stringOf
  let version ← (optionalParam params "version").mapM stringOf
  raiseIf (version.any fun text => !isSemVer text) (.mcp (textOf "INVALID_PARAMS"))
  let limit ← match PyJson.get? params (textOf "limit") with
    | none => .ok 100
    | some (.number (.number (.int i))) =>
      if 1 ≤ i ∧ i ≤ 100 then .ok i.toNat else .error (.mcp (textOf "INVALID_PARAMS"))
    | some _ => .error (.mcp (textOf "INVALID_PARAMS"))
  pure { principalId := principalId, capsuleId := capsuleId, version := version, limit := limit }

/-! ## Section 2: Discovery -/

/-- The identifier and the version of a publication. -/
abbrev VersionKey := String × String

/-- The order of the keys by code points, which is the order of their bytes. -/
def orderKey (key : VersionKey) : Lex (List ℕ × List ℕ) :=
  toLex (codePoints key.1, codePoints key.2)

/-- The row matches the filter. -/
def DiscoveryQuery.selects (q : DiscoveryQuery) (key : VersionKey) : Bool :=
  q.capsuleId.all (fun capsuleId => key.1 = capsuleId) &&
    q.version.all fun version => key.2 = version

/-- The keys of the rows that match, in their order. -/
def matchingKeys (t : Tables) (q : DiscoveryQuery) : List VersionKey :=
  sortBy orderKey ((t.publications.map PublicationRow.versionKey).filter q.selects)

/-- `_sqlite_candidates` -/
def sqliteCandidates (t : Tables) (q : DiscoveryQuery) : List VersionKey :=
  (matchingKeys t q).take q.limit

/-- What `_fetch` raises. -/
inductive FetchError where
  | unavailable
  | registry
deriving DecidableEq, Repr

/-- The code of an error. -/
def FetchError.code : FetchError → String
  | .unavailable => "CAPSULE_UNAVAILABLE"
  | .registry => "REGISTRY_UNAVAILABLE"

/-- `_fetch` without an expected digest. -/
def fetch (service : Registry.Service) (reading : Reading F) (t : Tables) (principalId : String)
    (key : VersionKey) : Except FetchError (PublishedCapsule F) :=
  match get service reading t key.1 key.2 principalId with
  | .error .notFound => .error .unavailable
  | .error .failed => .error .registry
  | .ok publication =>
    if publication.registryStatus ≠ "PUBLISHED" ∨
        publication.capsule.controlManifest.lifecycle ≠ .published then .error .unavailable
    else .ok publication

/-- `_ref_projection` -/
structure RefProjection where
  capsuleId : String
  version : String
  digest : String
  registryStatus : String
  publishedAt : String
deriving DecidableEq, Repr

/-- `_ref_projection` -/
def refProjection (publication : PublishedCapsule F) : RefProjection where
  capsuleId := publication.capsule.controlManifest.capsuleId
  version := publication.capsule.controlManifest.version
  digest := publication.capsule.controlManifest.contentDigest
  registryStatus := publication.registryStatus
  publishedAt := publication.publishedAt

/-- The loop of `discover_capsules` over its candidates. -/
def fetchAll (service : Registry.Service) (reading : Reading F) (t : Tables)
    (principalId : String) : List VersionKey → Except FetchError (List RefProjection)
  | [] => .ok []
  | key :: keys =>
    match fetch service reading t principalId key with
    | .error .unavailable => fetchAll service reading t principalId keys
    | .error .registry => .error .registry
    | .ok publication => do
      let rest ← fetchAll service reading t principalId keys
      .ok (refProjection publication :: rest)

/-- `discover_capsules`, behind its checks. -/
def discover (service : Registry.Service) (reading : Reading F) (t : Tables)
    (q : DiscoveryQuery) : Except FetchError (List RefProjection) := do
  let refs ← fetchAll service reading t q.principalId (sqliteCandidates t q)
  .ok (sortBy (fun ref => orderKey (ref.capsuleId, ref.version)) refs)

/-- A reference as it is answered. -/
def RefProjection.wire (ref : RefProjection) : PyValue F := .dict [
  (textOf "capsule_id", strValue ref.capsuleId),
  (textOf "version", strValue ref.version),
  (textOf "digest", strValue ref.digest),
  (textOf "registry_status", strValue ref.registryStatus),
  (textOf "published_at", strValue ref.publishedAt)]

/-- `discover_capsules` -/
def discoverCapsules (service : Registry.Service) (surroundings : Surroundings F) (t : Tables)
    (params : PyMembers F) : Except Fault (PyValue F) := do
  let q ← parseDiscovery surroundings params
  let refs ← (discover service surroundings.reading t q).mapError fun e => .mcp (textOf e.code)
  .ok (.dict [(textOf "capsules", .list (refs.map RefProjection.wire))])

/-! ## Section 3: One registry -/

section Registry

variable {service : Registry.Service} {reading : Reading F} {t : Tables} {q : DiscoveryQuery}

/-- The version can be read by the principal. -/
def visible (reading : Reading F) (t : Tables) (q : DiscoveryQuery) (key : VersionKey) : Bool :=
  readable reading t q.principalId key.1 key.2

/-- The first `limit` of the matching versions that the principal can read. -/
def listed (reading : Reading F) (t : Tables) (q : DiscoveryQuery) : List VersionKey :=
  ((matchingKeys t q).filter (visible reading t q)).take q.limit

/-- The reference that a version is answered with. -/
def AnsweredBy (service : Registry.Service) (reading : Reading F) (t : Tables)
    (q : DiscoveryQuery) (key : VersionKey) (ref : RefProjection) : Prop :=
  ∃ publication, fetch service reading t q.principalId key = .ok publication ∧
    ref = refProjection publication

/-- The response lists exactly these versions, in this order. -/
def ListsExactly (service : Registry.Service) (reading : Reading F) (t : Tables)
    (q : DiscoveryQuery) (keys : List VersionKey) (response : Except Fault (PyValue F)) : Prop :=
  ∃ refs, List.Forall₂ (AnsweredBy service reading t q) keys refs ∧
    response = .ok (.dict [(textOf "capsules", .list (refs.map RefProjection.wire))])

/-- Nothing that the principal can read is left behind by the limit: each of the first `limit`
matches that it can read passes the checks of the store, and where one of them cannot be read, none
behind them can. -/
def Unstarved (service : Registry.Service) (reading : Reading F) (t : Tables)
    (q : DiscoveryQuery) : Prop :=
  (∀ key ∈ sqliteCandidates t q,
    fetch service reading t q.principalId key ≠ .error .registry) ∧
  ((∀ key ∈ (matchingKeys t q).take q.limit, visible reading t q key = true) ∨
    ∀ key ∈ (matchingKeys t q).drop q.limit, visible reading t q key = false)

theorem orderKey_injective : Function.Injective orderKey := by
  intro a b h
  have hpair := toLex.injective h
  rw [Prod.mk.injEq] at hpair
  exact Prod.ext (codePoints_injective hpair.1) (codePoints_injective hpair.2)

theorem mem_matchingKeys {key : VersionKey} :
    key ∈ matchingKeys t q ↔
      key ∈ t.publications.map PublicationRow.versionKey ∧ q.selects key = true := by
  rw [matchingKeys, (perm_sortBy _ _).mem_iff, List.mem_filter]

/-- The matches come in strictly ascending order, since no version is stored twice. -/
theorem pairwise_matchingKeys (h : (t.publications.map PublicationRow.versionKey).Nodup) :
    (matchingKeys t q).Pairwise fun a b => orderKey a < orderKey b := by
  have hnodup : (matchingKeys t q).Nodup := (perm_sortBy _ _).nodup_iff.mpr (h.filter _)
  apply ((pairwise_sortBy orderKey _).and hnodup).imp
  intro a b hab
  exact lt_of_le_of_ne hab.1 fun heq => hab.2 (orderKey_injective heq)

/-- A version that can be read is stored. -/
theorem stored_of_visible {key : VersionKey} (h : visible reading t q key = true) :
    key ∈ t.publications.map PublicationRow.versionKey := by
  unfold visible readable at h
  split at h
  · exact absurd h (by simp)
  · next row hrow =>
    have hfound : row.capsuleId = key.1 ∧ row.version = key.2 := by
      simpa using List.find?_some hrow
    apply List.mem_map.mpr
    exact ⟨row, List.mem_of_find?_eq_some hrow, Prod.ext hfound.1 hfound.2⟩

/-- In a registry that was filled by publications, what can be read is published under the version
it is read by. -/
theorem fetch_eq_get {calls : List (Call F)} {principalId : String} {key : VersionKey} :
    fetch service reading (runRegistry service calls) principalId key =
      (get service reading (runRegistry service calls) key.1 key.2 principalId).mapError fun e =>
        match e with
        | .notFound => .unavailable
        | .failed => .registry := by
  unfold fetch
  cases hget : get service reading (runRegistry service calls) key.1 key.2 principalId with
  | error e => cases e <;> rfl
  | ok publication =>
    obtain ⟨_, _, hstatus, hlifecycle⟩ := version_of_get hget
    simp [hstatus, hlifecycle, Except.mapError]

theorem fetch_eq_unavailable_iff {calls : List (Call F)} {key : VersionKey} :
    fetch service reading (runRegistry service calls) q.principalId key = .error .unavailable ↔
      visible reading (runRegistry service calls) q key = false := by
  rw [fetch_eq_get, visible, ← @get_eq_notFound_iff _ _ service]
  cases get service reading (runRegistry service calls) key.1 key.2 q.principalId with
  | error e => cases e <;> simp [Except.mapError]
  | ok publication => simp [Except.mapError]

/-- The reference to what was read under a version has the key of that version. -/
theorem key_of_answeredBy {calls : List (Call F)} {key : VersionKey} {ref : RefProjection}
    (h : AnsweredBy service reading (runRegistry service calls) q key ref) :
    (ref.capsuleId, ref.version) = key := by
  obtain ⟨publication, hfetch, rfl⟩ := h
  rw [fetch_eq_get] at hfetch
  cases hget : get service reading (runRegistry service calls) key.1 key.2 q.principalId with
  | error e => simp [hget, Except.mapError] at hfetch
  | ok published =>
    rw [hget] at hfetch
    cases Except.ok.inj hfetch
    obtain ⟨hid, hversion, _⟩ := version_of_get hget
    exact Prod.ext hid hversion

/-- The loop reads every candidate, and it leaves out those that cannot be read. -/
theorem fetchAll_eq_ok {calls : List (Call F)} {keys : List VersionKey}
    {refs : List RefProjection} :
    fetchAll service reading (runRegistry service calls) q.principalId keys = .ok refs ↔
      (∀ key ∈ keys, fetch service reading (runRegistry service calls) q.principalId key ≠
        .error .registry) ∧
      List.Forall₂ (AnsweredBy service reading (runRegistry service calls) q)
        (keys.filter (visible reading (runRegistry service calls) q)) refs := by
  induction keys generalizing refs with
  | nil => simp [fetchAll, eq_comm]
  | cons key keys ih =>
    have hvisible := @fetch_eq_unavailable_iff _ _ service reading q calls key
    rw [fetchAll, List.forall_mem_cons]
    cases hfetch : fetch service reading (runRegistry service calls) q.principalId key with
    | error e =>
      cases e with
      | unavailable =>
        -- left out by the loop, and by the filter
        simp only [List.filter_cons, hvisible.mp hfetch]
        simpa using ih
      | registry => simp
    | ok publication =>
      have hseen : visible reading (runRegistry service calls) q key = true := by
        rw [← Bool.not_eq_false, ← hvisible, hfetch]
        simp
      simp only [List.filter_cons, hseen, if_true, Except.bind_eq_ok, ih, List.forall₂_cons_left_iff]
      constructor
      · rintro ⟨rest, ⟨hsound, hrest⟩, hrefs⟩
        exact ⟨⟨by simp, hsound⟩, _, rest, ⟨publication, hfetch, rfl⟩, hrest,
          (Except.ok.inj hrefs).symm⟩
      · rintro ⟨⟨_, hsound⟩, ref, rest, ⟨publication', hfetch', rfl⟩, hrest, rfl⟩
        have hsame := Except.ok.inj (hfetch.symm.trans hfetch')
        exact ⟨rest, ⟨hsound, hrest⟩, by rw [hsame]⟩

/-- Where no candidate fails, the loop returns. -/
theorem fetchAll_returns {keys : List VersionKey}
    (h : ∀ key ∈ keys, fetch service reading t q.principalId key ≠ .error .registry) :
    ∃ refs, fetchAll service reading t q.principalId keys = .ok refs := by
  induction keys with
  | nil => exact ⟨[], rfl⟩
  | cons key keys ih =>
    obtain ⟨hkey, hkeys⟩ := List.forall_mem_cons.mp h
    obtain ⟨refs, hrefs⟩ := ih hkeys
    rw [fetchAll]
    cases hfetch : fetch service reading t q.principalId key with
    | error e =>
      cases e with
      | unavailable => exact ⟨refs, hrefs⟩
      | registry => exact absurd hfetch hkey
    | ok publication => exact ⟨refProjection publication :: refs, by simp [hrefs]⟩

/-- The references come in the order of their versions, so sorting them changes nothing. -/
theorem sortBy_refs {calls : List (Call F)} {keys : List VersionKey} {refs : List RefProjection}
    (hkeys : keys.Pairwise fun a b => orderKey a < orderKey b)
    (h : List.Forall₂ (AnsweredBy service reading (runRegistry service calls) q) keys refs) :
    sortBy (fun ref => orderKey (ref.capsuleId, ref.version)) refs = refs := by
  apply List.Pairwise.insertionSort_eq
  have hsame : refs.map (fun ref => (ref.capsuleId, ref.version)) = keys := by
    induction h with
    | nil => rfl
    | cons hanswer _ ih =>
      rw [List.map_cons, key_of_answeredBy hanswer, ih (List.pairwise_cons.mp hkeys).2]
  rw [← hsame] at hkeys
  exact (List.pairwise_map.mp hkeys).imp fun hlt => hlt.le

/-- What discovery answers: the candidates that can be read. -/
theorem discover_eq_ok {calls : List (Call F)} {refs : List RefProjection} :
    discover service reading (runRegistry service calls) q = .ok refs ↔
      (∀ key ∈ sqliteCandidates (runRegistry service calls) q,
        fetch service reading (runRegistry service calls) q.principalId key ≠ .error .registry) ∧
      List.Forall₂ (AnsweredBy service reading (runRegistry service calls) q)
        ((sqliteCandidates (runRegistry service calls) q).filter
          (visible reading (runRegistry service calls) q)) refs := by
  have hsorted := pairwise_matchingKeys (q := q) (@kept_runRegistry _ _ service calls).versions
  have hfiltered : ((sqliteCandidates (runRegistry service calls) q).filter
      (visible reading (runRegistry service calls) q)).Pairwise
        fun a b => orderKey a < orderKey b :=
    (hsorted.sublist (List.take_sublist _ _)).filter _
  simp only [discover, Except.bind_eq_ok, fetchAll_eq_ok, Except.ok.injEq]
  constructor
  · rintro ⟨refs', ⟨hsound, hrefs⟩, rfl⟩
    rw [sortBy_refs hfiltered hrefs]
    exact ⟨hsound, hrefs⟩
  · rintro ⟨hsound, hrefs⟩
    exact ⟨refs, ⟨hsound, hrefs⟩, sortBy_refs hfiltered hrefs⟩

theorem rightUnique_answeredBy : Relator.RightUnique (AnsweredBy service reading t q) := by
  intro key ref ref' h h'
  obtain ⟨publication, hfetch, rfl⟩ := h
  obtain ⟨publication', hfetch', rfl⟩ := h'
  rw [Except.ok.inj (hfetch.symm.trans hfetch')]

/-- The keys that a list of references answers are those of the references. -/
theorem keys_unique {calls : List (Call F)} {keys keys' : List VersionKey}
    {refs : List RefProjection}
    (h : List.Forall₂ (AnsweredBy service reading (runRegistry service calls) q) keys refs)
    (h' : List.Forall₂ (AnsweredBy service reading (runRegistry service calls) q) keys' refs) :
    keys = keys' := by
  induction h generalizing keys' with
  | nil => exact (List.forall₂_nil_right_iff.mp h').symm
  | cons hanswer _ ih =>
    obtain ⟨key', rest', hanswer', hrest', rfl⟩ := List.forall₂_cons_right_iff.mp h'
    rw [← key_of_answeredBy hanswer, ← key_of_answeredBy hanswer', ih hrest']

omit [FloatText F] in
theorem wire_injective : Function.Injective (RefProjection.wire (F := F)) := by
  intro a b h
  simp only [RefProjection.wire, strValue, PyJson.dict.injEq, List.cons.injEq, Prod.mk.injEq,
    PyJson.str.injEq, true_and, and_true] at h
  obtain ⟨hid, hversion, hdigest, hstatus, hpublished⟩ := h
  cases a
  cases b
  simp only [RefProjection.mk.injEq]
  exact ⟨textOf_injective hid, textOf_injective hversion, textOf_injective hdigest,
    textOf_injective hstatus, textOf_injective hpublished⟩

/-- One registry: the response lists exactly the first `limit` of the matches that can be read when
nothing is left behind by the limit, and only then. -/
theorem discoverCapsules_lists_iff {surroundings : Surroundings F} {calls : List (Call F)}
    {params : PyMembers F} (hparams : parseDiscovery surroundings params = .ok q) :
    ListsExactly service surroundings.reading (runRegistry service calls) q
        (listed surroundings.reading (runRegistry service calls) q)
        (discoverCapsules service surroundings (runRegistry service calls) params) ↔
      Unstarved service surroundings.reading (runRegistry service calls) q := by
  -- filtering behind the limit and filtering before it agree exactly when nothing is left behind
  have hlimit := @filter_take_eq_take_filter_iff _
    (visible surroundings.reading (runRegistry service calls) q)
    (matchingKeys (runRegistry service calls) q) q.limit
  have hresponse : ∀ refs : List RefProjection,
      discoverCapsules service surroundings (runRegistry service calls) params =
          .ok (.dict [(textOf "capsules", .list (refs.map RefProjection.wire))]) ↔
        discover service surroundings.reading (runRegistry service calls) q = .ok refs := by
    intro refs
    rw [discoverCapsules, hparams, Except.ok_bind]
    cases discover service surroundings.reading (runRegistry service calls) q with
    | error e => simp [Except.mapError]
    | ok refs' => simp [Except.mapError, wire_injective.list_map.eq_iff]
  constructor
  · rintro ⟨refs, hlisted, hanswer⟩
    obtain ⟨hsound, hread⟩ := discover_eq_ok.mp ((hresponse refs).mp hanswer)
    exact ⟨hsound, hlimit.mp (keys_unique hread hlisted)⟩
  -- every match up to the limit is sound, so each can be fetched
  · rintro ⟨hsound, hplaced⟩
    have hkeys : (sqliteCandidates (runRegistry service calls) q).filter
        (visible surroundings.reading (runRegistry service calls) q) =
        listed surroundings.reading (runRegistry service calls) q := hlimit.mpr hplaced
    obtain ⟨refs, hrefs⟩ := fetchAll_returns hsound
    have hanswered := (fetchAll_eq_ok.mp hrefs).2
    rw [hkeys] at hanswered
    refine ⟨refs, hanswered, (hresponse refs).mpr (discover_eq_ok.mpr ⟨hsound, ?_⟩)⟩
    rw [hkeys]
    exact hanswered

end Registry

/-! ## Section 4: Two registries -/

section TwoRegistries

variable {service : Registry.Service} {surroundings : Surroundings F} {q : DiscoveryQuery}

/-- The registries differ only in publications that the principal cannot read: whichever version it
reads, both tell it the same. -/
def SameToPrincipal (service : Registry.Service) (reading : Reading F) (t t' : Tables)
    (principalId : String) : Prop :=
  ∀ key, fetch service reading t principalId key = fetch service reading t' principalId key

theorem visible_congr {reading : Reading F} {calls calls' : List (Call F)}
    (h : SameToPrincipal service reading (runRegistry service calls) (runRegistry service calls')
      q.principalId) (key : VersionKey) :
    visible reading (runRegistry service calls) q key =
      visible reading (runRegistry service calls') q key := by
  rw [Bool.eq_iff_iff, ← Bool.not_eq_false, ← Bool.not_eq_false, ← fetch_eq_unavailable_iff,
    ← fetch_eq_unavailable_iff, h key]

/-- Registries that look the same to the principal have the same versions to list. -/
theorem listed_congr {reading : Reading F} {calls calls' : List (Call F)}
    (h : SameToPrincipal service reading (runRegistry service calls) (runRegistry service calls')
      q.principalId) :
    listed reading (runRegistry service calls) q = listed reading (runRegistry service calls') q := by
  have hsame : (matchingKeys (runRegistry service calls) q).filter
        (visible reading (runRegistry service calls) q) =
      (matchingKeys (runRegistry service calls') q).filter
        (visible reading (runRegistry service calls') q) := by
    apply @eq_of_ascending _ _ _ orderKey
    · exact (pairwise_matchingKeys (kept_runRegistry calls).versions).filter _
    · exact (pairwise_matchingKeys (kept_runRegistry calls').versions).filter _
    · intro key
      rw [List.mem_filter, List.mem_filter, mem_matchingKeys, mem_matchingKeys]
      constructor
      · rintro ⟨⟨_, hselects⟩, hvisible⟩
        rw [visible_congr h] at hvisible
        exact ⟨⟨stored_of_visible hvisible, hselects⟩, hvisible⟩
      · rintro ⟨⟨_, hselects⟩, hvisible⟩
        rw [← visible_congr h] at hvisible
        exact ⟨⟨stored_of_visible hvisible, hselects⟩, hvisible⟩
  rw [listed, listed, hsame]

/-- **When discovery does not reveal what cannot be read.** Take two registries, each filled by any
sequence of publications, that differ only in publications the principal cannot read. They answer
alike, and list exactly the first `limit` of the matches that the principal can read, exactly when
in neither of them anything is left behind by the limit. -/
theorem discover_unrevealing_iff {calls calls' : List (Call F)} {params : PyMembers F}
    (hparams : parseDiscovery surroundings params = .ok q)
    (hsame : SameToPrincipal service surroundings.reading (runRegistry service calls)
      (runRegistry service calls') q.principalId) :
    (discoverCapsules service surroundings (runRegistry service calls) params =
        discoverCapsules service surroundings (runRegistry service calls') params ∧
      ListsExactly service surroundings.reading (runRegistry service calls) q
        (listed surroundings.reading (runRegistry service calls) q)
        (discoverCapsules service surroundings (runRegistry service calls) params)) ↔
    Unstarved service surroundings.reading (runRegistry service calls) q ∧
      Unstarved service surroundings.reading (runRegistry service calls') q := by
  -- what answers a version in one registry answers it in the other
  have hanswered : AnsweredBy service surroundings.reading (runRegistry service calls) q =
      AnsweredBy service surroundings.reading (runRegistry service calls') q := by
    funext key ref
    rw [AnsweredBy, AnsweredBy, hsame key]
  have hlists : ∀ response, ListsExactly service surroundings.reading (runRegistry service calls) q
        (listed surroundings.reading (runRegistry service calls) q) response ↔
      ListsExactly service surroundings.reading (runRegistry service calls') q
        (listed surroundings.reading (runRegistry service calls') q) response := by
    intro response
    rw [ListsExactly, ListsExactly, hanswered, listed_congr hsame]
  constructor
  · rintro ⟨hequal, hlisted⟩
    refine ⟨(discoverCapsules_lists_iff hparams).mp hlisted, ?_⟩
    rw [hequal, hlists] at hlisted
    exact (discoverCapsules_lists_iff hparams).mp hlisted
  · rintro ⟨hfirst, hsecond⟩
    have hone := (discoverCapsules_lists_iff hparams).mpr hfirst
    have htwo := (hlists _).mpr ((discoverCapsules_lists_iff hparams).mpr hsecond)
    refine ⟨?_, hone⟩
    obtain ⟨refs, hrefs, hresponse⟩ := hone
    obtain ⟨refs', hrefs', hresponse'⟩ := htwo
    -- both list the same references
    have hrefsEq : refs = refs' := rightUnique_answeredBy.forall₂ hrefs hrefs'
    rw [hresponse, hresponse', hrefsEq]

end TwoRegistries

/-! ## Section 5: A hidden version in front of a readable one -/

/-- A capsule of one evidence-class atom. -/
def shelved (capsuleId authority : String) : Capsule (Number IntegralFloat) :=
  { sampleCapsule with
    controlManifest :=
      { sampleCapsule.controlManifest with capsuleId := capsuleId, authority := authority }
    semanticPayload :=
      { sampleCapsule.semanticPayload with
        atoms := sampleCapsule.semanticPayload.atoms.map fun atom =>
          { atom with compressionClass := .p2Evidence } } }

/-- A store in which every publication goes through. -/
def shelfStore : Registry.Surroundings IntegralFloat where
  decision := fun _ => ⟨true, ["c"]⟩
  readVerified := fun _ => some "a/b"
  trustGate := fun _ _ => false
  attestationHolds := fun _ _ _ => false
  now := "2026-01-01T00:00:00.000000Z"
  fails := fun _ => false

def shelfService : Registry.Service := ⟨fun _ => zeroDigest, none⟩

/-- A principal may read what the authority `u` has published. -/
def shelfReader : Surroundings IntegralFloat where
  reading := ⟨fun _ authority _ => ⟨authority == "u", ["c"]⟩, shelfStore⟩
  permits := fun _ _ _ => true

/-- The publication of a capsule. -/
def shelve (capsuleId authority : String) : Call IntegralFloat :=
  ⟨shelved capsuleId authority, "p", none, shelfStore⟩

/-- Two of the versions, of which the first cannot be read, and the second alone. -/
def bothCalls : List (Call IntegralFloat) := [shelve "a.b" "v", shelve "c.d" "u"]
def openCalls : List (Call IntegralFloat) := [shelve "c.d" "u"]

theorem accepted_shelved (capsuleId authority : String) :
    validateCandidate shelfService shelfStore (shelved capsuleId authority) = .ok () := by
  rfl

theorem publishable_shelved {t : Tables} {capsuleId authority : String}
    (hvalid : (shelved capsuleId authority).valid = true)
    (hsettled : (shelved capsuleId authority).settled = true)
    (hnew : t.selectPublication capsuleId "1.0.0" = none)
    (hevidence : ∀ row ∈ t.evidence, row.publicationId < t.nextId)
    (hgrants : ∀ row ∈ t.grants, row.publicationId < t.nextId) :
    Publishable shelfService t (shelve capsuleId authority) (shelved capsuleId authority) where
  revalidated := modelValidateJson_dumps unicodeStyle hvalid
  authorized := fun _ => rfl
  accepted := accepted_shelved capsuleId authority
  settled := hsettled
  unproved := rfl
  undisturbed := fun _ => rfl
  new := hnew
  evidenceIds := List.nodup_singleton _
  evidenceOwned := hevidence
  grantsOwned := hgrants

theorem shelved_hidden : (shelved "a.b" "v").valid = true ∧ (shelved "a.b" "v").settled = true := by
  decide +kernel

theorem shelved_open : (shelved "c.d" "u").valid = true ∧ (shelved "c.d" "u").settled = true := by
  decide +kernel

/-- The row of a capsule on the shelf. -/
def shelfRow (publicationId : ℕ) (capsuleId authority : String) : PublicationRow :=
  publicationRow publicationId (shelved capsuleId authority) shelfStore.now

/-- A first publication. -/
theorem runRegistry_shelve {capsuleId authority : String}
    (h : (shelved capsuleId authority).valid = true ∧ (shelved capsuleId authority).settled = true) :
    runRegistry shelfService [shelve capsuleId authority] =
      Tables.empty.publish (shelved capsuleId authority) shelfStore.now [] := by
  have hempty := @kept_empty IntegralFloat _ shelfService
  exact runRegistry_singleton (publishable_shelved h.1 h.2
    (by simp [Tables.selectPublication, Tables.empty]) hempty.evidenceOwned hempty.grantsOwned)

theorem runRegistry_openCalls :
    runRegistry shelfService openCalls =
      Tables.empty.publish (shelved "c.d" "u") shelfStore.now [] :=
  runRegistry_shelve shelved_open

theorem runRegistry_bothCalls :
    runRegistry shelfService bothCalls =
      (Tables.empty.publish (shelved "a.b" "v") shelfStore.now []).publish (shelved "c.d" "u")
        shelfStore.now [] := by
  have hkept := @kept_runRegistry _ _ shelfService [shelve "a.b" "v"]
  rw [runRegistry_shelve shelved_hidden] at hkept
  have hnew : (Tables.empty.publish (shelved "a.b" "v") shelfStore.now []).selectPublication "c.d"
      "1.0.0" = none := by
    simp [Tables.selectPublication, Tables.publish, Tables.empty, publicationRow, shelved]
  have hsecond : (execute shelfService (Tables.empty.publish (shelved "a.b" "v") shelfStore.now [])
      (shelve "c.d" "u")).2 = _ :=
    execute_of_publishable (publishable_shelved shelved_open.1 shelved_open.2 hnew
      hkept.evidenceOwned hkept.grantsOwned)
  have hfirst := runRegistry_shelve shelved_hidden
  rw [runRegistry] at hfirst ⊢
  rw [bothCalls, ← List.singleton_append, final_append, hfirst, final_cons, final_nil]
  exact hsecond

/-- The publications of the two registries. -/
theorem publications_shelf :
    (runRegistry shelfService bothCalls).publications =
        [shelfRow 1 "a.b" "v", shelfRow 2 "c.d" "u"] ∧
      (runRegistry shelfService openCalls).publications = [shelfRow 1 "c.d" "u"] := by
  rw [runRegistry_bothCalls, runRegistry_openCalls]
  exact ⟨rfl, rfl⟩

/-- A row on the shelf can be read exactly when the authority `u` has published it. -/
theorem authorizedToRead_shelfRow {t : Tables} (h : ∀ e ∈ t.evidence, e.accessPolicy = "c")
    (publicationId : ℕ) (capsuleId authority : String) :
    authorizedToRead shelfReader.reading t "p" (shelfRow publicationId capsuleId authority) =
      (authority == "u") := by
  have hscope : loads (F := IntegralFloat) (shelfRow publicationId capsuleId authority).scopeJcs =
      some _ :=
    loads_canonicalText (show (scopeDict (shelved capsuleId authority)).distinct = true by rfl)
  rw [authorizedToRead, hscope]
  show ((authority == "u") && _) = _
  rw [List.all_eq_true.mpr, Bool.and_true]
  intro policy hpolicy
  obtain ⟨e, he, rfl⟩ := List.mem_map.mp hpolicy
  rw [h e (List.mem_filter.mp he).1]
  rfl

theorem policies_shelf :
    (∀ e ∈ (runRegistry shelfService bothCalls).evidence, e.accessPolicy = "c") ∧
      ∀ e ∈ (runRegistry shelfService openCalls).evidence, e.accessPolicy = "c" := by
  rw [runRegistry_bothCalls, runRegistry_openCalls]
  simp [Tables.publish, evidenceRows, Tables.empty, shelved, sampleCapsule]

/-- A row on the shelf stores the first version of its capsule. -/
theorem shelfRow_columns (publicationId : ℕ) (capsuleId authority : String) :
    (shelfRow publicationId capsuleId authority).capsuleId = capsuleId ∧
      (shelfRow publicationId capsuleId authority).version = "1.0.0" :=
  ⟨rfl, rfl⟩

theorem selectPublication_shelf :
    (runRegistry shelfService bothCalls).selectPublication "c.d" "1.0.0" =
        some (shelfRow 2 "c.d" "u") ∧
      (runRegistry shelfService openCalls).selectPublication "c.d" "1.0.0" =
        some (shelfRow 1 "c.d" "u") := by
  rw [Tables.selectPublication, Tables.selectPublication, publications_shelf.1,
    publications_shelf.2]
  simp [shelfRow_columns]

/-- In both registries the second version is the one that can be read. -/
theorem readable_shelf (key : VersionKey) :
    readable shelfReader.reading (runRegistry shelfService bothCalls) "p" key.1 key.2 =
        decide (key = ("c.d", "1.0.0")) ∧
      readable shelfReader.reading (runRegistry shelfService openCalls) "p" key.1 key.2 =
        decide (key = ("c.d", "1.0.0")) := by
  have hboth := authorizedToRead_shelfRow policies_shelf.1
  have hopen := authorizedToRead_shelfRow policies_shelf.2
  -- the version that can be read, then every other key
  by_cases hshown : key = ("c.d", "1.0.0")
  · subst hshown
    rw [readable_of_select selectPublication_shelf.1, readable_of_select selectPublication_shelf.2,
      hboth, hopen, beq_self_eq_true, decide_eq_true rfl]
    exact ⟨rfl, rfl⟩
  rw [decide_eq_false hshown]
  have hother : ∀ publicationId, ¬ ((shelfRow publicationId "c.d" "u").capsuleId = key.1 ∧
      (shelfRow publicationId "c.d" "u").version = key.2) := by
    intro publicationId h
    rw [(shelfRow_columns _ _ _).1, (shelfRow_columns _ _ _).2] at h
    exact hshown (Prod.ext h.1.symm h.2.symm)
  constructor
  -- the hidden version is stored in the first registry, but its policy denies the principal
  · by_cases hhidden : (shelfRow 1 "a.b" "v").capsuleId = key.1 ∧
        (shelfRow 1 "a.b" "v").version = key.2
    · have hselect : (runRegistry shelfService bothCalls).selectPublication key.1 key.2 =
          some (shelfRow 1 "a.b" "v") := by
        rw [Tables.selectPublication, publications_shelf.1,
          List.find?_cons_of_pos (by simpa using hhidden)]
      have hdenied : ("v" == "u") = false := by simp
      rw [readable_of_select hselect, hboth, hdenied]
    · apply readable_of_select_none
      rw [Tables.selectPublication, publications_shelf.1,
        List.find?_cons_of_neg (by simpa using hhidden),
        List.find?_cons_of_neg (by simpa using hother 2), List.find?_nil]
  · apply readable_of_select_none
    rw [Tables.selectPublication, publications_shelf.2,
      List.find?_cons_of_neg (by simpa using hother 1), List.find?_nil]

/-- What the principal gets of the version that it can read. -/
theorem get_shelfRow {t : Tables} {publicationId : ℕ}
    (hselect : t.selectPublication "c.d" "1.0.0" = some (shelfRow publicationId "c.d" "u"))
    (hpolicies : ∀ e ∈ t.evidence, e.accessPolicy = "c")
    (hevidence : t.selectEvidence publicationId = evidenceRows publicationId (shelved "c.d" "u"))
    (hgrants : t.selectGrants publicationId =
      (grantRows publicationId (shelved "c.d" "u")).insertionSort Tables.grantLe) :
    get shelfService shelfReader.reading t "c.d" "1.0.0" "p" =
      .ok ⟨shelved "c.d" "u", "PUBLISHED", shelfStore.now⟩ := by
  have hbare : Transport.throughText.capsule (withoutSidecars (shelved "c.d" "u")) =
      shelved "c.d" "u" := by rfl
  have hread := authorizedToRead_shelfRow hpolicies publicationId "c.d" "u"
  rw [beq_self_eq_true] at hread
  rw [shelfRow] at hselect hread
  exact get_of_row hselect hread shelved_open.1 (accepted_shelved _ _) shelved_open.2 hbare
    hevidence hgrants rfl

/-- It is the same in both registries. -/
theorem get_shelf :
    get shelfService shelfReader.reading (runRegistry shelfService bothCalls) "c.d" "1.0.0" "p" =
        .ok ⟨shelved "c.d" "u", "PUBLISHED", shelfStore.now⟩ ∧
      get shelfService shelfReader.reading (runRegistry shelfService openCalls) "c.d" "1.0.0" "p" =
        .ok ⟨shelved "c.d" "u", "PUBLISHED", shelfStore.now⟩ := by
  have hempty := @kept_empty IntegralFloat _ shelfService
  have hkept := @kept_runRegistry _ _ shelfService [shelve "a.b" "v"]
  rw [runRegistry_shelve shelved_hidden] at hkept
  have hfirst : Tables.empty.nextId = 1 := rfl
  have hsecond : (Tables.empty.publish (shelved "a.b" "v") shelfStore.now []).nextId = 2 := rfl
  constructor
  · apply get_shelfRow selectPublication_shelf.1 policies_shelf.1
    · rw [runRegistry_bothCalls, ← hsecond]
      exact selectEvidence_publish hkept.evidenceOwned
    · rw [runRegistry_bothCalls, ← hsecond]
      exact selectGrants_publish hkept.grantsOwned
  · apply get_shelfRow selectPublication_shelf.2 policies_shelf.2
    · rw [runRegistry_openCalls, ← hfirst]
      exact selectEvidence_publish hempty.evidenceOwned
    · rw [runRegistry_openCalls, ← hfirst]
      exact selectGrants_publish hempty.grantsOwned

/-- The parameters of the principal, with a limit. -/
def shelfParams (limit : ℤ) : PyMembers IntegralFloat :=
  [(textOf "principal_id", strValue "p"), (textOf "limit", .number (.number (.int limit)))]

def shelfQuery (limit : ℕ) : DiscoveryQuery := ⟨"p", none, none, limit⟩

theorem parseDiscovery_shelfParams :
    parseDiscovery shelfReader (shelfParams 1) = .ok (shelfQuery 1) ∧
      parseDiscovery shelfReader (shelfParams 100) = .ok (shelfQuery 100) := by
  constructor <;> rfl

/-- The two registries look the same to the principal. -/
theorem sameToPrincipal_shelf (limit : ℕ) :
    SameToPrincipal shelfService shelfReader.reading (runRegistry shelfService bothCalls)
      (runRegistry shelfService openCalls) (shelfQuery limit).principalId := by
  intro key
  by_cases hkey : key = ("c.d", "1.0.0")
  · subst hkey
    rw [fetch_eq_get, fetch_eq_get]
    exact congrArg _ (get_shelf.1.trans get_shelf.2.symm)
  · -- no other version can be read in either of them
    have hboth : visible shelfReader.reading (runRegistry shelfService bothCalls)
        (shelfQuery limit) key = false := by
      rw [visible, show (shelfQuery limit).principalId = "p" from rfl, (readable_shelf key).1]
      simpa using hkey
    have hopen : visible shelfReader.reading (runRegistry shelfService openCalls)
        (shelfQuery limit) key = false := by
      rw [visible, show (shelfQuery limit).principalId = "p" from rfl, (readable_shelf key).2]
      simpa using hkey
    rw [fetch_eq_unavailable_iff.mpr hboth, fetch_eq_unavailable_iff.mpr hopen]

/-- The versions of the two registries in their order. -/
theorem matchingKeys_shelf (limit : ℕ) :
    matchingKeys (runRegistry shelfService bothCalls) (shelfQuery limit) =
        [("a.b", "1.0.0"), ("c.d", "1.0.0")] ∧
      matchingKeys (runRegistry shelfService openCalls) (shelfQuery limit) =
        [("c.d", "1.0.0")] := by
  have hall : ∀ key, (shelfQuery limit).selects key = true := fun _ => rfl
  have hkeys : [shelfRow 1 "a.b" "v", shelfRow 2 "c.d" "u"].map PublicationRow.versionKey =
      [("a.b", "1.0.0"), ("c.d", "1.0.0")] := rfl
  have hless : orderKey ("a.b", "1.0.0") ≤ orderKey ("c.d", "1.0.0") := by
    apply le_of_lt
    apply Prod.Lex.toLex_lt_toLex.mpr
    left
    rw [show codePoints "a.b" = [97, 46, 98] by rfl, show codePoints "c.d" = [99, 46, 100] by rfl]
    decide
  constructor
  · rw [matchingKeys, publications_shelf.1, hkeys, List.filter_eq_self.mpr fun key _ => hall key]
    apply List.Pairwise.insertionSort_eq
    simpa using hless
  · rw [matchingKeys, publications_shelf.2]
    rfl

/-- With one row the database leaves the readable version behind. -/
theorem starved_bothCalls :
    ¬ Unstarved shelfService shelfReader.reading (runRegistry shelfService bothCalls)
      (shelfQuery 1) := by
  rintro ⟨_, hplaced⟩
  rw [(matchingKeys_shelf 1).1] at hplaced
  have hhidden := (readable_shelf ("a.b", "1.0.0")).1
  have hshown := (readable_shelf ("c.d", "1.0.0")).1
  rcases hplaced with hfirst | hbehind
  · have hvisible := hfirst ("a.b", "1.0.0") List.mem_cons_self
    rw [visible, show (shelfQuery 1).principalId = "p" from rfl, hhidden] at hvisible
    simp at hvisible
  · have hvisible := hbehind ("c.d", "1.0.0") List.mem_cons_self
    rw [visible, show (shelfQuery 1).principalId = "p" from rfl, hshown] at hvisible
    simp at hvisible

/-- With room for every row nothing is left behind. -/
theorem unstarved_shelf :
    Unstarved shelfService shelfReader.reading (runRegistry shelfService bothCalls)
        (shelfQuery 100) ∧
      Unstarved shelfService shelfReader.reading (runRegistry shelfService openCalls)
        (shelfQuery 100) := by
  -- no capsule fails to be read: the one that is readable is found, any other is unavailable
  have hfetch : ∀ key, fetch shelfService shelfReader.reading (runRegistry shelfService bothCalls)
      "p" key ≠ .error .registry := by
    intro key
    by_cases hkey : key = ("c.d", "1.0.0")
    · rw [hkey, fetch_eq_get, get_shelf.1]
      simp [Except.mapError]
    · have hhidden : visible shelfReader.reading (runRegistry shelfService bothCalls)
          (shelfQuery 100) key = false := by
        rw [visible, show (shelfQuery 100).principalId = "p" from rfl, (readable_shelf key).1]
        simpa using hkey
      have hunavailable := (@fetch_eq_unavailable_iff _ _ shelfService _ _ _ _).mpr hhidden
      rw [show "p" = (shelfQuery 100).principalId from rfl, hunavailable]
      simp
  have hsame := sameToPrincipal_shelf 100
  constructor
  · refine ⟨fun key _ => hfetch key, Or.inr ?_⟩
    rw [(matchingKeys_shelf 100).1]
    simp [shelfQuery]
  · refine ⟨fun key _ => (hsame key) ▸ hfetch key, Or.inr ?_⟩
    rw [(matchingKeys_shelf 100).2]
    simp [shelfQuery]

/-- A version that the principal cannot read, in front of one that it can read, takes its place in
a response of one: the readable version is listed without the hidden one, and not with it. -/
theorem hidden_version_starves :
    SameToPrincipal shelfService shelfReader.reading (runRegistry shelfService bothCalls)
        (runRegistry shelfService openCalls) "p" ∧
      parseDiscovery shelfReader (shelfParams 1) = .ok (shelfQuery 1) ∧
      ¬ (discoverCapsules shelfService shelfReader (runRegistry shelfService bothCalls)
            (shelfParams 1) =
          discoverCapsules shelfService shelfReader (runRegistry shelfService openCalls)
            (shelfParams 1) ∧
        ListsExactly shelfService shelfReader.reading (runRegistry shelfService bothCalls)
          (shelfQuery 1)
          (listed shelfReader.reading (runRegistry shelfService bothCalls) (shelfQuery 1))
          (discoverCapsules shelfService shelfReader (runRegistry shelfService bothCalls)
            (shelfParams 1))) := by
  refine ⟨sameToPrincipal_shelf 1, parseDiscovery_shelfParams.1, ?_⟩
  rintro ⟨_, hlists⟩
  exact starved_bothCalls
    ((discoverCapsules_lists_iff parseDiscovery_shelfParams.1).mp hlists)

theorem discover_unrevealing_iff_shelf :
    discoverCapsules shelfService shelfReader (runRegistry shelfService bothCalls)
        (shelfParams 100) =
      discoverCapsules shelfService shelfReader (runRegistry shelfService openCalls)
        (shelfParams 100) :=
  ((discover_unrevealing_iff parseDiscovery_shelfParams.2 (sameToPrincipal_shelf 100)).mpr
    unstarved_shelf).1

end ContractCapsule.Mcp
