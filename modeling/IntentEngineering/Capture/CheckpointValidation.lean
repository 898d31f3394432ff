import IntentEngineering.Capture.GitHubConnector
import IntentEngineering.Capture.Markdown
import IntentEngineering.Capture.McpConnector

structure SyncCheckpoint where
  connectorId : String
  cursor : Option (List Char)
  consumedEvidenceIds : List String
  unique : consumedEvidenceIds.Nodup

inductive DiagnosticSeverity where
  | error
  | notice
deriving DecidableEq

structure ValidationDiagnostic where
  code : String
  scope : String
  severity : DiagnosticSeverity
deriving DecidableEq

-- The evidence of one captured workspace, each record once.
structure EvidenceSnapshot where
  evidence : List EvidenceRecord
  ingestions : List EvidenceIngestion
  legacyIds : List String

namespace WorkspaceValidation

def checkpointError (code : String) : ValidationDiagnostic := ⟨code,"checkpoints",.error⟩

-- `_github_scoped_record_kind`
def githubScopedRecordKind (host : Host) (record : EvidenceRecord) (repository : String) : Except Raised (Option String) :=
  match ScopedIdentity.of record repository with
  | .foreign => .ok none
  | .commit => .ok (some "commit")
  | .numbered kind identity =>
    (ScopedIdentity.numberMatches record kind identity).bind fun same =>
      if !same then .ok none
      else (record.observedAt.format host).map fun canonicalObservedAt =>
        if ScopedIdentity.timeMatches record canonicalObservedAt then some kind else none

-- The text before the last such mark, and the text after it.
def splitLast (mark : Char) (cs : List Char) : Option (List Char × List Char) :=
  let after := (cs.reverse.takeWhile (· != mark)).reverse
  if after.length = cs.length then none else some (cs.take (cs.length - after.length - 1),after)

structure McpIdentity where
  connector : List Char
  profile : List Char
  source : List Char
  scope : List Char
  actor : List Char

-- `connector_id.rsplit(":", 4)` where it has five parts.
def mcpIdentity (connectorId : String) : Option McpIdentity :=
  (splitLast ':' connectorId.toList).bind fun (rest,actor) =>
  (splitLast ':' rest).bind fun (rest,scope) =>
  (splitLast ':' rest).bind fun (rest,source) =>
  (splitLast ':' rest).map fun (connector,profile) => ⟨connector,profile,source,scope,actor⟩

def payloadKeys : List String :=
  ["kind","profile_id","profile_version","object_type","scope_hash","source_hash","parent_context","content"]

-- A payload's member, where it is a text and not empty.
def textMember (record : EvidenceRecord) (name : String) : Option String :=
  match record.payload.1.lookup name with
  | some (.str s) => if s = "" then none else some s
  | _ => none

def hexIdentity (cs : List Char) : Bool := PyText.isHexDigest cs

def startsWith (start text : String) : Bool := start.toList.isPrefixOf text.toList

def payloadScoped (record : EvidenceRecord) (identity : McpIdentity) : Bool :=
  match textMember record "profile_id", textMember record "profile_version", textMember record "object_type" with
  | some profileId, some profileVersion, some objectType =>
    record.payloadIs "kind" (.str "mcp_object") &&
      identity.profile == (mcpProfileIdentity profileId profileVersion objectType).toList &&
      record.payloadIs "scope_hash" (.str ("sha256:" ++ String.ofList identity.scope)) &&
      record.payloadIs "source_hash" (.str ("sha256:" ++ String.ofList identity.source)) &&
      startsWith (profileId ++ ":") record.externalObjectId &&
      record.externalObjectId.toList.drop (profileId ++ ":").toList.length != [] &&
      record.author.any PyText.hasText &&
      (match record.payload.1.lookup "content" with | some (.obj (_ :: _)) => true | _ => false) &&
      (match record.payload.1.lookup "parent_context" with
        | none | some .null => true
        | some (.str context) => startsWith (profileId ++ ":") context
        | _ => false)
  | _, _, _ => false

-- `_mcp_scoped_record`
def mcpScopedRecord (record : EvidenceRecord) (connectorId : String) : Bool :=
  record.connectorType == "mcp" && startsWith "mcp:" connectorId && match mcpIdentity connectorId with
    | none => false
    | some identity =>
      "mcp:".toList.isPrefixOf identity.connector && identity.connector.drop 4 != [] && hexIdentity identity.profile &&
        hexIdentity identity.source && hexIdentity identity.scope && hexIdentity identity.actor &&
        (record.payload.1.map Prod.fst).all (fun key => decide (key ∈ payloadKeys)) &&
        payloadKeys.all (fun key => decide (key ∈ record.payload.1.map Prod.fst)) && payloadScoped record identity

namespace Checkpoints
variable (host : Host) (s : EvidenceSnapshot)

def legacyConnectors : List String := ["markdown","git"]

def isLegacy (connectorId : String) (record : EvidenceRecord) : Bool :=
  record.connectorType == connectorId && s.legacyIds.contains record.id && legacyConnectors.contains record.connectorType

-- Membership in `associations`.
def associated (connectorId evidenceId : String) : Bool :=
  s.ingestions.any (fun item => item.connectorId == connectorId && item.evidence.id == evidenceId) ||
    s.evidence.any fun record => isLegacy s connectorId record && record.id == evidenceId

-- `ledger_ids_by_connector[connector_id]`
def ledgerIds (connectorId : String) : List String :=
  s.evidence.foldl (fun ids record => if isLegacy s connectorId record && !ids.contains record.id then ids ++ [record.id] else ids)
    ((s.ingestions.filter fun item => item.connectorId == connectorId).map fun item => item.evidence.id)

inductive Family where
  | github (repository : String)
  | mcp
  | source
deriving DecidableEq

-- `none` for a connector that is not known.
def family (connectorId : String) : Option Family :=
  if startsWith "github:" connectorId then
    let repository := String.ofList (connectorId.toList.drop 7)
    if canonicalRepository repository then some (.github repository) else none
  else if startsWith "mcp:" connectorId then some .mcp
  else if legacyConnectors.contains connectorId then some .source
  else none

def consumption (checkpoint : SyncCheckpoint) : List ValidationDiagnostic :=
  checkpoint.consumedEvidenceIds.flatMap (fun evidenceId =>
    if ¬(s.evidence.map EvidenceRecord.id).contains evidenceId then [checkpointError "checkpoint.consumed_evidence_missing"]
    else if associated s checkpoint.connectorId evidenceId then []
    else [checkpointError "checkpoint.consumed_evidence_foreign"]) ++
  if checkpoint.consumedEvidenceIds.isPrefixOf (ledgerIds s checkpoint.connectorId) then []
  else [checkpointError "checkpoint.consumed_evidence_prefix_invalid"]

def updatedFindings (cursor : GitHubCheckpoint) : Option DateTime → List ValidationDiagnostic
  | some expected =>
    if cursor.newestUpdatedAt.any fun t => t.1.same expected then [] else [checkpointError "checkpoint.cursor_invalid"]
  | none => if cursor.newestUpdatedAt.isSome then [checkpointError "checkpoint.evidence_missing"] else []

def commitFindings (repository : String) (cursor : GitHubCheckpoint) (commits : List EvidenceRecord) : List ValidationDiagnostic :=
  match commits, cursor.newestCommitSha with
  | [], none => []
  | [], some _ => [checkpointError "checkpoint.evidence_missing"]
  | _ :: _, none => [checkpointError "checkpoint.cursor_invalid"]
  | commits, some sha =>
    if commits.any fun record =>
        record.externalObjectId == "github:" ++ repository ++ ":commit:" ++ sha.1 && record.externalVersion == sha.1 then []
    else [checkpointError "checkpoint.evidence_missing"]

def github (checkpoint : SyncCheckpoint) (repository : String) (cursor : List Char) : Except Raised (List ValidationDiagnostic) :=
  match GitHubCheckpoint.decode host.interpreter (.ofChars cursor) repository with
  | .error e => if e.raised.caught then .ok [checkpointError "checkpoint.cursor_invalid"] else .error e.raised
  | .ok decoded =>
    let consumed := s.evidence.filter fun record =>
      checkpoint.consumedEvidenceIds.contains record.id && associated s checkpoint.connectorId record.id
    (consumed.mapM (m := Except Raised) fun record => (githubScopedRecordKind host record repository).map fun kind => (record,kind)).bind fun kinds =>
      let known := kinds.filterMap fun entry => entry.2.map fun kind => (entry.1,kind)
      let updated := (known.filter fun entry => entry.2 != "commit").map Prod.fst
      let commits := (known.filter fun entry => entry.2 == "commit").map Prod.fst
      (DateTime.newest (updated.map EvidenceRecord.observedAt)).map fun newest =>
        (if kinds.any fun entry => entry.2.isNone then [checkpointError "checkpoint.consumed_evidence_foreign"] else []) ++
        updatedFindings decoded newest ++ commitFindings repository decoded commits ++
        if known.isEmpty && (decoded.newestUpdatedAt.isSome || decoded.newestCommitSha.isSome) then
          [checkpointError "checkpoint.cursor_invalid"]
        else []

def ofCursor (cursor : McpCheckpoint) (record : EvidenceRecord) : Bool :=
  record.payloadIs "profile_id" (.str cursor.profileId.1) && record.payloadIs "profile_version" (.str cursor.profileVersion.1) &&
    record.payloadIs "object_type" (.str cursor.objectType.1)

def mcp (checkpoint : SyncCheckpoint) (cursor : List Char) : Except Raised (List ValidationDiagnostic) :=
  match McpCheckpoint.decodeUnscoped host.interpreter (.ofChars cursor) with
  | .error e => if e.raised.caught then .ok [checkpointError "checkpoint.cursor_invalid"] else .error e.raised
  | .ok decoded =>
    if decoded.connectorId.1 ≠ checkpoint.connectorId then .ok [checkpointError "checkpoint.cursor_invalid"]
    else match mcpIdentity checkpoint.connectorId with
      | none => .ok [checkpointError "checkpoint.cursor_invalid"]
      | some identity =>
        if identity.profile ≠ (mcpProfileIdentity decoded.profileId.1 decoded.profileVersion.1 decoded.objectType.1).toList ∨
            identity.source ≠ decoded.sourceHash.1.toList.drop 7 ∨ identity.scope ≠ decoded.scopeHash.1.toList.drop 7 then
          .ok [checkpointError "checkpoint.cursor_invalid"]
        else
          let consumed := checkpoint.consumedEvidenceIds.filterMap fun evidenceId =>
            (s.evidence.reverse.find? fun record => record.id == evidenceId).filter fun _ => associated s checkpoint.connectorId evidenceId
          let valid := consumed.filter fun record => mcpScopedRecord record checkpoint.connectorId && ofCursor decoded record
          .ok ((if valid.length ≠ consumed.length then [checkpointError "checkpoint.consumed_evidence_foreign"] else []) ++
            if decoded.observedVersions.1 ≠ lastVersions valid then [checkpointError "checkpoint.cursor_invalid"] else [])

def identified (connectorType externalObjectId externalVersion : String) : Bool :=
  s.evidence.any fun record => record.connectorType == connectorType && record.externalObjectId == externalObjectId &&
    record.externalVersion == externalVersion

-- `_GIT_CURSOR`
def gitCursor (cursor : String) : Bool := isSha cursor || PyText.isHexDigest cursor.toList

def source (connectorId cursor : String) : List ValidationDiagnostic :=
  if connectorId = "git" then
    if !gitCursor cursor then [checkpointError "checkpoint.cursor_invalid"]
    else if identified s "git" ("commit:" ++ cursor) cursor then [] else [checkpointError "checkpoint.evidence_missing"]
  else if sha256Pattern cursor then [⟨"checkpoint.cursor_legacy","checkpoints",.notice⟩]
  else match parseMarkdownCursor cursor with
    | .error _ => [checkpointError "checkpoint.cursor_invalid"]
    | .ok manifest =>
      if manifest.any fun entry => !identified s "markdown" ("path:" ++ entry.1) entry.2 then [checkpointError "checkpoint.evidence_missing"]
      else []

def cursorFindings (checkpoint : SyncCheckpoint) : Family → Except Raised (List ValidationDiagnostic)
  | .github repository => match checkpoint.cursor with
    | none => .ok (if checkpoint.consumedEvidenceIds = [] then [] else [checkpointError "checkpoint.cursor_invalid"])
    | some cursor => github host s checkpoint repository cursor
  | .mcp => match checkpoint.cursor with
    | none => .ok [checkpointError "checkpoint.cursor_invalid"]
    | some cursor => mcp host s checkpoint cursor
  | .source => match checkpoint.cursor with
    | none => .ok []
    | some cursor => .ok (source s checkpoint.connectorId (String.ofList cursor))

-- The body of the loop over the checkpoints.
def diagnose (checkpoint : SyncCheckpoint) : Except Raised (List ValidationDiagnostic) :=
  match family checkpoint.connectorId with
  | none => .ok [checkpointError "checkpoint.connector_unknown"]
  | some family => (cursorFindings host s checkpoint family).map fun found => consumption s checkpoint ++ found

end Checkpoints

-- `_checkpoint_diagnostics`, the checkpoints being sorted by connector.
def checkpointDiagnostics (host : Host) (checkpoints : List SyncCheckpoint) (s : EvidenceSnapshot) : Except Raised (List ValidationDiagnostic) :=
  (checkpoints.mapM (m := Except Raised) (Checkpoints.diagnose host s)).map List.flatten

end WorkspaceValidation
