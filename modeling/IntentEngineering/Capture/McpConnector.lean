import IntentEngineering.Capture.Base

abbrev SourceValue := {v : Json // v.WellFormed}

-- `_digest(...).removeprefix("sha256:")`
def identityOf (material : Json) : String := Sha256.hexdigest (Utf8.encode material.text)

-- `_mcp_profile_identity`
def mcpProfileIdentity (profileId profileVersion objectType : String) : String :=
  identityOf (.obj [("object_type",.str objectType),("profile_id",.str profileId),("profile_version",.str profileVersion)])

-- Each object's version as it was last seen.
def lastVersions (records : List EvidenceRecord) : Named String :=
  ⟨((records.map EvidenceRecord.externalObjectId).dedup.insertionSort (· ≤ ·)).map fun key =>
      (key,((records.reverse.find? fun record => record.externalObjectId == key).map EvidenceRecord.externalVersion).getD ""),by
    rw [List.map_map]
    have kept : (Prod.fst ∘ fun key : String =>
        (key,((records.reverse.find? fun record => record.externalObjectId == key).map EvidenceRecord.externalVersion).getD "")) = id := rfl
    rw [kept,List.map_id]
    have apart : ((records.map EvidenceRecord.externalObjectId).dedup.insertionSort (· ≤ ·)).Nodup :=
      (List.perm_insertionSort _ _).nodup_iff.mpr (List.nodup_dedup _)
    exact (List.pairwise_insertionSort (· ≤ ·) _).imp₂ (fun _ _ below other => lt_of_le_of_ne below other) apart⟩

structure ObjectProfile (Selector : Type) where
  externalId : Selector
  externalVersion : Selector
  author : Selector
  observedAt : Selector
  locator : Selector
  parentRef : Option Selector
  acl : Option Selector
  content : Named Selector
  contentful : content.1 ≠ []

-- A connector's scope, sources and actor count as the texts that are hashed of them.
structure McpConnector (Selector : Type) where
  configId : RequiredText
  profileId : RequiredText
  profileVersion : RequiredText
  objectName : RequiredText
  objectProfile : ObjectProfile Selector
  scope : Json
  source : Json
  actor : Json
  localActor : String
  actorPrincipals : Named (List String)

structure McpGeneration where
  cache : List RawSourceObject
  lastDiscovered : List SourceObject
  priorCheckpoint : Option McpCheckpoint
  providerCursor : Option (String ⊕ Nat)
  checkpointPending : Bool
  discoveryFailed : Bool

namespace McpConnector

def requiredText : Json → Option String
  | .str s => if PyText.hasText s then some s else none
  | _ => none

-- `_parse_utc`
def parseUtc (host : Host) : Json → Option UtcTime
  | .str s => GitHubCheckpoint.updatedAt host.interpreter s
  | _ => none

-- The texts of an access list, each once and in order.
def accessList : Json → Option (List String)
  | .arr items => (items.mapM fun (item : Json) => match item with | .str s => some s | _ => none).map fun (acl : List String) =>
      acl.dedup.insertionSort (· ≤ ·)
  | _ => none

variable {Selector : Type} (m : McpConnector Selector)

def profileIdentity : String := mcpProfileIdentity m.profileId.1 m.profileVersion.1 m.objectName.1
def scopeHash : String := canonicalDigest m.scope
def sourceHash : String := canonicalDigest m.source

def connectorId : String :=
  "mcp:" ++ m.configId.1 ++ ":" ++ m.profileIdentity ++ ":" ++ identityOf m.source ++ ":" ++ identityOf m.scope ++ ":" ++ identityOf m.actor

def externalObjectId (providerObjectId : String) : String := m.profileId.1 ++ ":" ++ providerObjectId

section Capture
variable (host : Host) (select : Selector → SourceValue → Option SourceValue)

-- The content fields, in the order of their names.
def selectContent (payload : SourceValue) : (entries : List (String × Selector)) →
    Option {ms : Json.Members // ms.map Prod.fst = entries.map Prod.fst ∧ Json.WellFormedMembers ms}
  | [] => some ⟨[],rfl,trivial⟩
  | (field,selector) :: rest => (select selector payload).bind fun value => (selectContent payload rest).map fun ms =>
      ⟨(field,value.1) :: ms.1,by simp [ms.2.1],value.2,ms.2.2⟩

-- `None` where no selector is configured; a selected null is as good as none.
def parent (payload : SourceValue) : Option (Option String) :=
  match m.objectProfile.parentRef with
  | none => some none
  | some selector => (select selector payload).bind fun value => match value.1 with
    | .null => some none
    | v => (requiredText v).map some

def acl (payload : SourceValue) : Option (List String) :=
  match m.objectProfile.acl with
  | none => some []
  | some selector => (select selector payload).bind fun value => accessList value.1

def evidencePayload (parent : Option String) (content : Json.Members) : Json.Members :=
  [("content",.obj content),("kind",.str "mcp_object"),("object_type",.str m.objectName.1),
    ("parent_context",match parent with | none => .null | some ref => .str (m.externalObjectId ref)),
    ("profile_id",.str m.profileId.1),("profile_version",.str m.profileVersion.1),
    ("scope_hash",.str m.scopeHash),("source_hash",.str m.sourceHash)]

theorem evidencePayload_formed (parent : Option String) (content : Json.Members) (formed : (Json.obj content).WellFormed) :
    (Json.obj (m.evidencePayload parent content)).WellFormed := by
  have names : (m.evidencePayload parent content).map Prod.fst =
      ["content","kind","object_type","parent_context","profile_id","profile_version","scope_hash","source_hash"] := rfl
  refine ⟨?_,formed,trivial,trivial,?_,trivial,trivial,trivial,trivial,trivial⟩
  · rw [names]
    decide
  · cases parent <;> trivial

-- `_raw_from_payload`; `none` where a selected value is refused.
def rawFromPayload (payload : SourceValue) : Option RawSourceObject :=
  let text (selector : Selector) := (select selector payload).bind fun value => requiredText value.1
  (text m.objectProfile.externalId).bind fun providerObjectId =>
  (text m.objectProfile.externalVersion).bind fun version =>
  (text m.objectProfile.author).bind fun author =>
  ((select m.objectProfile.observedAt payload).bind fun value => parseUtc host value.1).bind fun observedAt =>
  (text m.objectProfile.locator).bind fun locator =>
  (m.parent select payload).bind fun parent =>
  (m.acl select payload).bind fun acl =>
  (selectContent select payload m.objectProfile.content.1).map fun content => {
    connectorType := "mcp"
    externalObjectId := m.externalObjectId providerObjectId
    externalVersion := version
    author := some author
    observedAt := observedAt.1
    sourceLocator := locator
    contentHash := canonicalDigest (.obj content.1)
    payload := ⟨m.evidencePayload parent content.1,
      m.evidencePayload_formed parent content.1 ⟨by rw [content.2.1]; exact m.objectProfile.content.2,content.2.2⟩⟩
    parentRef := none
    acl := acl }

-- The evidence that the connector makes of what a provider sends.
def Captured (record : EvidenceRecord) : Prop := ∃ payload raw, m.rawFromPayload host select payload = some raw ∧ record = raw.normalizeRawSource

end Capture

-- `authorize`
def authorize (evidenceAcl : List String) : Bool :=
  evidenceAcl.isEmpty || match m.actorPrincipals.1.lookup m.localActor with
    | none => false
    | some principals => evidenceAcl.any fun principal => decide (principal ∈ principals)

-- `_is_scoped_record`
def isScopedRecord (record : EvidenceRecord) : Bool :=
  record.connectorType == "mcp" && (m.profileId.1 ++ ":").toList.isPrefixOf record.externalObjectId.toList &&
    record.payloadIs "profile_id" (.str m.profileId.1) && record.payloadIs "profile_version" (.str m.profileVersion.1) &&
    record.payloadIs "object_type" (.str m.objectName.1) && record.payloadIs "scope_hash" (.str m.scopeHash) &&
    record.payloadIs "source_hash" (.str m.sourceHash)

theorem hash_digest (material : Json) : isHash (canonicalDigest material) = true := isPrefixedHash_hexdigest "sha256:" _

theorem connectorId_text : PyText.hasText m.connectorId = true := by
  have mark : ∃ rest, m.connectorId.toList = 'm' :: rest := by
    simp only [connectorId,String.append_assoc,String.toList_append]
    exact ⟨_,rfl⟩
  obtain ⟨rest,shape⟩ := mark
  rw [PyText.hasText,shape,PyText.isBlank_cons]
  rfl

-- The constructor, of the connector's own fields.
def checkpoint (providerCursor : Option (String ⊕ Nat)) (observed : Named String) : Except Raised McpCheckpoint :=
  if valid : providerCursor.all cursorValue = true ∧ freezeVersions observed = true then .ok {
    connectorId := ⟨m.connectorId,m.connectorId_text⟩
    profileId := m.profileId
    profileVersion := m.profileVersion
    objectType := m.objectName
    scopeHash := ⟨m.scopeHash,hash_digest _⟩
    sourceHash := ⟨m.sourceHash,hash_digest _⟩
    providerCursor := providerCursor.attach.map fun value => ⟨value.1,Option.all_eq_true _ _ |>.mp valid.1 value.1 value.2⟩
    observedVersions := ⟨observed,valid.2⟩ }
  else .error .valueError

def finalizeCursor (g : McpGeneration) (discovered : List SourceObject) (consumed : List EvidenceRecord) : Except Raised (List Char) :=
  if !g.checkpointPending || decide (discovered ≠ g.lastDiscovered) || g.discoveryFailed || g.priorCheckpoint.isNone then .error .valueError
  else if ¬∀ raw ∈ g.cache, raw.normalizeRawSource.id ∈ consumed.map EvidenceRecord.id then .error .valueError
  else if ¬∀ record ∈ consumed, m.isScopedRecord record = true ∧ m.authorize record.acl = true then .error .valueError
  else (m.checkpoint g.providerCursor (lastVersions consumed)).bind fun state => match state.encode with
    | some cursor => .ok cursor
    | none => .error .valueError

-- `finalize_checkpoint`, which ends the generation whatever comes of it.
def finalizeCheckpoint (g : McpGeneration) (discovered : List SourceObject) (consumed : List EvidenceRecord) :
    Except SyncFailure (List Char) × McpGeneration :=
  (fixedFailure (m.finalizeCursor g discovered consumed),⟨[],[],none,none,false,false⟩)

end McpConnector
