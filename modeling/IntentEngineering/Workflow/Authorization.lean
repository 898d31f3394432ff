import IntentEngineering.Models.Tasks
import IntentEngineering.Stores.GraphStore

open Schema

namespace Authorization

-- What the module takes from its host: the readers behind `parse_graph`, and which
-- path segments `PureWindowsPath.is_reserved` rejects.
structure Platform where
  lax : Coercions
  yaml : Yaml
  isReserved : String → Bool

def maxScopeEntries : Nat := 256
def maxBytes : Nat := 2 * 1024

-- `_DEFAULT_TTL`, in microseconds.
def ttl : Int := 5 * 60 * 1000000

-- The first instant after `datetime.max`.
def endOfTime : Int := (DateTime.ordinal 9999 12 31 + 1) * 86400000000

def isTaskId : String → Bool := isPrefixedHash "task:sha256:"

def isToken (token : String) : Bool :=
  token.toList.length == 43 && token.toList.all fun c => c.isAlphanum || c == '_' || c == '-'

def identity (value : String) : Bool := value != "" && !hasControl value && decide (utf8Length value ≤ maxBytes)

def taskIdentity (value : String) : Bool := identity value && isTaskId value

theorem taskIdentity_digest (material : Json) : taskIdentity ("task:" ++ canonicalDigest material) = true := by
  have joined : "task:" ++ canonicalDigest material = "task:sha256:" ++ Sha256.hexdigest (Utf8.encode material.text) := by
    rw [canonicalDigest,←String.append_assoc]
    rfl
  have plain := hasControl_digest "task:sha256:" (by decide) (Utf8.encode material.text)
  have size := utf8Length_le ("task:sha256:" ++ Sha256.hexdigest (Utf8.encode material.text))
  have shape : isTaskId ("task:sha256:" ++ Sha256.hexdigest (Utf8.encode material.text)) = true :=
    isPrefixedHash_hexdigest _ _
  have named : "task:sha256:" ++ Sha256.hexdigest (Utf8.encode material.text) ≠ "" := by
    intro none
    simpa using congrArg String.toList none
  simp only [String.toList_append,List.length_append,Sha256.hexdigest_length] at size
  have prefixed : "task:sha256:".toList.length = 12 := rfl
  simp only [taskIdentity,identity,joined,plain,shape,Bool.not_false,Bool.and_true,Bool.and_eq_true,bne_iff_ne,ne_eq,
    decide_eq_true_eq,maxBytes]
  exact ⟨named,by omega⟩

def rstrip (dropped : Char → Bool) (cs : List Char) : List Char := (cs.reverse.dropWhile dropped).reverse

-- `re.IGNORECASE` also takes the Kelvin sign for a k.
def foldCase (c : Char) : Char := if c.toNat = 0x212a then 'k' else c.toLower

def windowsDevices : List String :=
  ["con","prn","aux","nul","clock$"] ++
    ["com","lpt"].flatMap fun port => ["1","2","3","4","5","6","7","8","9"].map fun n => port ++ n

def isDevice (part : List Char) : Bool :=
  let normalized := rstrip (fun c => c == ' ' || c == '.') part
  let stem := rstrip (· == ' ') (normalized.takeWhile (· != '.'))
  windowsDevices.contains (String.ofList (stem.map foldCase))

section Checks
variable (env : Platform)

-- `_path`: a relative path in canonical form is its segments joined by single slashes.
def Platform.path (value : String) : Bool :=
  value != "" && !hasControl value && !value.toList.contains '\\' && decide (utf8Length value ≤ maxBytes) &&
    !value.toList.contains ':' &&
    (value.toList.splitOn '/').all fun part =>
      !([[],['.'],['.','.']].contains part) && !env.isReserved (String.ofList part) && !isDevice part

-- `_paths` and `_identities`
def canonicalTuple (check : String → Bool) (values : List String) : Option (List String) :=
  if values.length ≤ maxScopeEntries ∧ values.all check = true ∧ values.Nodup then
    some (values.insertionSort (· ≤ ·))
  else none

def Platform.paths : List String → Option (List String) := canonicalTuple env.path
def identities : List String → Option (List String) := canonicalTuple identity

def utc (value : DateTime) : Option Int := if value.offset = some 0 then some value.instant else none

def tokenDigest (token : String) : String := "sha256:" ++ Sha256.hexdigest (Utf8.encode token.toList)
def requestDigest (request : String) : String := "sha256:" ++ Sha256.hexdigest (Utf8.encode request.toList)

-- `canonical_graph_digest`
def Platform.canonicalGraphDigest (content : Utf8.Bytes) : Option String :=
  (GraphStore.parseGraph env.lax env.yaml content).map fun graph =>
    "sha256:" ++ Sha256.hexdigest (GraphStore.serializeGraph env.lax env.yaml graph)

end Checks

structure GrantDraft where
  digest : String
  actor : String
  repositoryId : String
  taskId : String
  requestDigest : String
  classification : TaskClassification
  graphVersion : Int
  graphDigest : String
  permittedPaths : List String
  relevantNodeIds : List String
  issuedAt : Int
  expiresAt : Int
deriving DecidableEq

-- The field validators and `validate_chronology`.
def GrantDraft.valid (env : Platform) (g : GrantDraft) : Bool :=
  isHash g.digest && identity g.actor && identity g.repositoryId && taskIdentity g.taskId && isHash g.requestDigest &&
    decide (0 ≤ g.graphVersion) && isHash g.graphDigest && env.paths g.permittedPaths == some g.permittedPaths &&
    identities g.relevantNodeIds == some g.relevantNodeIds && decide (g.expiresAt - g.issuedAt = ttl) &&
    match g.classification with
    | .aligned => !g.relevantNodeIds.isEmpty
    | .noSemanticImpact => g.relevantNodeIds.isEmpty
    | _ => false

abbrev AuthorizationGrant (env : Platform) := {g : GrantDraft // g.valid env = true}

-- The grants by digest, never more than the capacity.
structure Registry (env : Platform) (capacity : Nat) where
  grants : List (AuthorizationGrant env)
  distinct : (grants.map fun g => g.1.digest).Nodup
  bounded : grants.length ≤ capacity

namespace Registry

variable {env : Platform} (r : Registry env capacity)

def empty : Registry env capacity := ⟨[],.nil,Nat.zero_le _⟩

def keep (rule : AuthorizationGrant env → Bool) : Registry env capacity :=
  ⟨r.grants.filter rule,r.distinct.sublist (List.filter_sublist.map _),(List.length_filter_le _ _).trans r.bounded⟩

def find (digest : String) : Option (AuthorizationGrant env) := r.grants.find? fun g => g.1.digest == digest

def pop (digest : String) : Registry env capacity := r.keep fun g => g.1.digest != digest

-- `_evict_expired`
def evictExpired (now : Int) : Registry env capacity := r.keep fun g => decide (now < g.1.expiresAt)

def insert (g : AuthorizationGrant env) (fresh : r.find g.1.digest = none) (room : r.grants.length < capacity) :
    Registry env capacity where
  grants := r.grants ++ [g]
  distinct := by
    have absent : ∀ h ∈ r.grants, h.1.digest ≠ g.1.digest := by simpa [find] using fresh
    rw [List.map_append,List.nodup_append]
    refine ⟨r.distinct,by simp,?_⟩
    intro a left b right
    obtain ⟨h,member,rfl⟩ := List.mem_map.mp left
    obtain rfl : b = g.1.digest := by simpa using right
    exact absent h member
  bounded := by simpa using room

theorem find_spec (found : r.find digest = some g) : g ∈ r.grants ∧ g.1.digest = digest :=
  ⟨List.mem_of_find?_eq_some found,by simpa using List.find?_some found⟩

end Registry

-- The arguments of `issue`.
structure Issuance where
  envelope : TaskEnvelope
  result : PreflightResult
  graphContent : Utf8.Bytes
  now : DateTime

-- The arguments of `verify` and `consume`.
structure Presented where
  token : String
  actor : String
  repositoryId : String
  taskId : String
  graphVersion : Int
  graphContent : Utf8.Bytes
  requestedPaths : List String
  now : DateTime
  requestDigest : Option String

inductive Reason where
  | unknown
  | expired
  | actorMismatch
  | repositoryMismatch
  | taskMismatch
  | requestMismatch
  | graphMismatch
  | scopeMismatch
deriving DecidableEq

inductive Verification where
  | authorized (classification : TaskClassification) (relevantNodeIds : List String) (expiresAt : Int)
  | denied (reason : Reason)

section Issue
variable (env : Platform)

-- What `_validated_issue` returns beside its arguments.
structure Validated where
  issuedAt : Int
  graphDigest : String
  requestDigest : String
  scope : List String
  relevantNodeIds : List String

def authorizes (result : PreflightResult) (envelope : TaskEnvelope) (graphVersion : Nat)
    (scope relevant : List String) : Bool :=
  result.taskId == envelope.1.id && result.graphVersion == (envelope.1.graphVersion : Int) &&
    (graphVersion : Int) == result.graphVersion && result.authorized && result.permittedScope == scope &&
    result.relevantNodeIds == relevant && result.questions.isEmpty && result.reviewCaseId.isNone &&
    match result.classification with
    | .aligned => !relevant.isEmpty
    | .noSemanticImpact => relevant.isEmpty
    | _ => false

def validatedIssue (i : Issuance) : Option Validated := do
  let envelope := i.envelope.1
  let issuedAt ← utc i.now
  let createdAt ← utc envelope.createdAt
  if identity envelope.actor && identity envelope.repositoryId && taskIdentity envelope.id &&
      identity envelope.requestEvidenceRef then
    let scope ← env.paths envelope.requestedScope
    let relevant ← identities i.result.relevantNodeIds
    let graph ← GraphStore.parseGraph env.lax env.yaml i.graphContent
    let graphDigest ← env.canonicalGraphDigest i.graphContent
    if createdAt ≤ issuedAt ∧ issuedAt - createdAt ≤ ttl ∧
        authorizes i.result i.envelope graph.1.version scope relevant = true then
      some ⟨issuedAt,graphDigest,Authorization.requestDigest envelope.request,scope,relevant⟩
    else none
  else none

-- The draws of `secrets.token_urlsafe` until one is new; a draw that is no token
-- ends the attempts.
def drawToken {env : Platform} (r : Registry env capacity) : List String → Option String
  | [] => none
  | token :: rest =>
    if isToken token = false then none
    else if (r.find (tokenDigest token)).isNone then some token
    else drawToken r rest

theorem drawToken_spec {env : Platform} {r : Registry env capacity} (drawn : drawToken r draws = some token) :
    token ∈ draws ∧ isToken token = true ∧ r.find (tokenDigest token) = none := by
  induction draws with
  | nil => cases drawn
  | cons first rest ih =>
    unfold drawToken at drawn
    split at drawn
    · cases drawn
    · rename_i shaped
      split at drawn
      · rename_i fresh
        cases drawn
        exact ⟨by simp,by simpa using shaped,by simpa using fresh⟩
      · obtain ⟨member,spec⟩ := ih drawn
        exact ⟨List.mem_cons_of_mem _ member,spec⟩

def Issuance.grant (i : Issuance) (v : Validated) (token : String) : GrantDraft where
  digest := tokenDigest token
  actor := i.envelope.1.actor
  repositoryId := i.envelope.1.repositoryId
  taskId := i.envelope.1.id
  requestDigest := v.requestDigest
  classification := i.result.classification
  graphVersion := i.result.graphVersion
  graphDigest := v.graphDigest
  permittedPaths := v.scope
  relevantNodeIds := v.relevantNodeIds
  issuedAt := v.issuedAt
  expiresAt := v.issuedAt + ttl

-- The critical section of `issue`, and the token when one is returned. What has
-- expired is gone also where no token is minted.
def register (r : Registry env capacity) (i : Issuance) (v : Validated) (draws : List String) :
    Registry env capacity × Option String :=
  let live := r.evictExpired v.issuedAt
  if room : live.grants.length < capacity then
    match drawn : drawToken live (draws.take 4) with
    | none => (live,none)
    | some token =>
      if valid : v.issuedAt + ttl < endOfTime ∧ (i.grant v token).valid env = true then
        (live.insert ⟨i.grant v token,valid.2⟩ (drawToken_spec drawn).2.2 room,some token)
      else (live,none)
  else (live,none)

def issue (r : Registry env capacity) (i : Issuance) (draws : List String) : Registry env capacity × Option String :=
  match validatedIssue env i with
  | none => (r,none)
  | some v => register env r i v draws

end Issue

section Verify
variable (env : Platform)

-- What `verify` derives from its arguments before it takes the lock.
def presentable (p : Presented) : Option (Int × String × List String) := do
  let checkedAt ← utc p.now
  if identity p.actor && identity p.repositoryId && taskIdentity p.taskId && p.requestDigest.all identity &&
      decide (0 ≤ p.graphVersion) then
    let graphDigest ← env.canonicalGraphDigest p.graphContent
    let paths ← env.paths p.requestedPaths
    some (checkedAt,graphDigest,paths)
  else none

-- The first binding of a grant that a presentation does not meet.
def refusal (g : GrantDraft) (p : Presented) (graphDigest : String) (paths : List String) : Option Reason :=
  if p.actor ≠ g.actor then some .actorMismatch
  else if p.repositoryId ≠ g.repositoryId then some .repositoryMismatch
  else if p.taskId ≠ g.taskId then some .taskMismatch
  else if p.requestDigest.any (fun digest => !isHash digest || digest != g.requestDigest) = true then some .requestMismatch
  else if p.graphVersion ≠ g.graphVersion ∨ graphDigest ≠ g.graphDigest then some .graphMismatch
  else if (paths = [] ∧ g.permittedPaths ≠ []) ∨ ¬ paths ⊆ g.permittedPaths then some .scopeMismatch
  else none

def verify (r : Registry env capacity) (p : Presented) : Registry env capacity × Verification :=
  if isToken p.token = false then (r,.denied .unknown)
  else match presentable env p with
    | none => (r,.denied .unknown)
    | some (checkedAt,graphDigest,paths) =>
      match r.find (tokenDigest p.token) with
      | none => (r,.denied .unknown)
      | some g =>
        if g.1.expiresAt ≤ checkedAt then (r.pop g.1.digest,.denied .expired)
        else match refusal g.1 p graphDigest paths with
          | some reason => (r,.denied reason)
          | none => (r,.authorized g.1.classification g.1.relevantNodeIds g.1.expiresAt)

-- `consume` up to the call of the action: what the action is given, once the
-- capability is gone from the registry.
def claim (r : Registry env capacity) (p : Presented) : Registry env capacity × Option Verification :=
  match verify env r p with
  | (r,.denied _) => (r,none)
  | (r,verification) =>
    if (r.find (tokenDigest p.token)).isNone then (r,none)
    else (r.pop (tokenDigest p.token),some verification)

def revoke {env : Platform} (r : Registry env capacity) (token : String) : Registry env capacity :=
  if isToken token = false then r else r.pop (tokenDigest token)

end Verify

end Authorization
