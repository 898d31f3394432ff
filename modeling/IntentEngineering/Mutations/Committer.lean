import IntentEngineering.Models.Providers
import IntentEngineering.Reconcile.Transitions
import IntentEngineering.Storage.TransactionEffects
import IntentEngineering.Stores.CaseStore
import IntentEngineering.Stores.EvidenceStore
import IntentEngineering.Stores.GraphStore
import IntentEngineering.Stores.HistoryStore
import IntentEngineering.Stores.ReceiptStore

open Schema LocalTransaction Interrupt

-- What the write path shares: the validation library, the YAML library and the
-- hash.
structure WriteEnv where
  lax : Coercions
  yaml : Yaml
  sha256 : Utf8.Bytes → String
  hexadecimal : ∀ message, PyText.isHexDigest (sha256 message).toList = true

namespace WriteEnv
variable (env : WriteEnv)

abbrev Plan := WritePlan env.lax env.sha256
abbrev Approval := ApprovalRecord env.lax env.sha256
abbrev Receipt := ExecutionReceipt env.lax env.sha256

-- `canonical_hash` of a plan, which its identifier repeats.
def planHash (plan : env.Plan) : String := canonicalHash env.sha256 (plan.1.material env.lax)

def historyFrame (changeset : ChangeSet) : Utf8.Bytes :=
  Utf8.encode (JsonLines.frame ((ChangeSet.codec env.lax true).dump changeset))

end WriteEnv

-- `known_nodes`: a case is about nodes of the graph only.
def unknownToGraph (graph : IntentGraph) (case : ReconciliationCase) : Bool :=
  (case.subjectRef :: case.affectedRefs).any fun reference => !graph.1.nodeIds.contains reference

structure LocalWriteCommitter where
  evidenceAcl : List String
  profile : ProviderProfile
  binding : ProviderBinding
  policy : WritePolicy
  listed : evidenceAcl ≠ [] ∧ evidenceAcl.Pairwise (· < ·) ∧ evidenceAcl.all PyText.hasText = true
  bound : binding.validateAgainst profile = true

namespace LocalWriteCommitter

structure Request (env : WriteEnv) where
  receipt : env.Receipt
  plan : env.Plan
  approval : env.Approval
  result : WriteResult

section
variable (env : WriteEnv) (committer : LocalWriteCommitter) (request : Request env)

def verified : Json.Members := [("status",.str "verified")]

-- The checks before the transaction, and the contract behind the operation.
def admits : Bool :=
  let receipt := request.receipt.1
  let plan := request.plan.1
  let approval := request.approval.1
  decide (receipt.status = .succeeded) && receipt.planId == plan.id && receipt.planHash == env.planHash request.plan &&
    receipt.approvalId == approval.id && receipt.targetVersion == plan.beforeVersion &&
    receipt.resultingVersion == some request.result.resultingVersion &&
    Json.equal (.obj request.result.redactedResult.1) (.obj verified) &&
    receipt.executedBy == approval.actor && approval.planId == plan.id && approval.planHash == env.planHash request.plan &&
    approval.targetVersion == plan.beforeVersion && approval.planCreatedAt.1.same plan.createdAt.1 &&
    approval.planExpiresAt.1.same plan.expiresAt.1 &&
    committer.policy.authorizedExecutors.contains receipt.executedBy &&
    authenticatedApprovalAliases env.sha256 plan committer.binding approval.actor committer.policy == some approval.actorAliases &&
    decide (approval.approvedAt.1.instant ≤ receipt.attemptedAt.1.instant) &&
    decide (receipt.attemptedAt.1.instant < approval.expiresAt.1.instant) &&
    committer.profile.id == plan.profileId && committer.profile.version == plan.profileVersion &&
    providerBindingHash env.sha256 committer.binding == plan.bindingHash &&
    match committer.profile.writes.get plan.operation with
    | none => false
    | some operation =>
      operation.targetObject == plan.objectType && plan.targetRef == committer.profile.id ++ ":" ++ plan.targetId &&
        committer.binding.tools.get plan.operation == some plan.providerOperation &&
        providerWriteContractHash env.sha256 committer.profile committer.binding plan.operation == some plan.writeContractHash

def payloadMembers : Json.Members :=
  let plan := request.plan.1
  let approval := request.approval.1
  [("approval",.obj [
      ("actor",.str approval.actor),
      ("actor_aliases",Codec.string.list.dump approval.actorAliases),
      ("id",.str approval.id)]),
    ("case_id",.str plan.caseId),
    ("executed_by",.str request.receipt.1.executedBy),
    ("plan",.obj [
      ("conflicting_authors",Codec.string.list.dump plan.conflictingAuthors),
      ("created_by",.str plan.createdBy),
      ("created_by_aliases",Codec.string.list.dump plan.createdByAliases),
      ("evidence_refs",Codec.string.list.dump plan.evidenceRefs),
      ("hash",.str (env.planHash request.plan)),
      ("id",.str plan.id)]),
    ("provider",.obj [
      ("binding_hash",.str plan.bindingHash),
      ("connector_id",.str plan.connectorId),
      ("operation",.str plan.providerOperation),
      ("profile_id",.str plan.profileId),
      ("profile_version",.str plan.profileVersion),
      ("write_contract_hash",.str plan.writeContractHash)]),
    ("resolution_action",.str plan.resolutionAction.spelling),
    ("result",.obj request.result.redactedResult.1),
    ("target",.obj [
      ("after",.obj plan.after.1),
      ("id",.str plan.targetId),
      ("object_type",.str plan.objectType),
      ("prior_version",.str plan.beforeVersion),
      ("resulting_version",.str request.result.resultingVersion)])]

theorem payload_formed : (Json.obj (payloadMembers env request)).WellFormed := by
  have aliases := Codec.string.list.formed request.approval.1.actorAliases
  have authors := Codec.string.list.formed request.plan.1.conflictingAuthors
  have creators := Codec.string.list.formed request.plan.1.createdByAliases
  have refs := Codec.string.list.formed request.plan.1.evidenceRefs
  have result := request.result.redactedResult.2
  have after := request.plan.1.after.2
  simp only [payloadMembers,Json.WellFormed,Json.WellFormedMembers,List.map_cons,List.map_nil]
  refine ⟨by decide +kernel,⟨by decide +kernel,trivial,aliases,trivial,trivial⟩,trivial,trivial,
    ⟨by decide +kernel,authors,trivial,creators,refs,trivial,trivial,trivial⟩,
    ⟨by decide +kernel,trivial,trivial,trivial,trivial,trivial,trivial,trivial⟩,trivial,result,
    ⟨by decide +kernel,after,trivial,trivial,trivial,trivial,trivial⟩,trivial⟩

-- `_evidence`
def evidence : Option EvidenceRecord := do
  let plan := request.plan.1
  let evidenceRef ← request.receipt.1.evidenceRef
  if request.receipt.1.resultingVersion = none then none
  return {
    id := evidenceRef
    connectorType := "mcp-write"
    externalObjectId := plan.profileId ++ ":" ++ plan.objectType ++ ":" ++ plan.targetId
    externalVersion := request.result.resultingVersion
    author := some request.receipt.1.executedBy
    observedAt := request.receipt.1.completedAt.1
    sourceLocator := "mcp-write://" ++ plan.profileId ++ "/" ++ plan.objectType
    contentHash := canonicalHash env.sha256 (.obj (payloadMembers env request))
    payload := ⟨payloadMembers env request,payload_formed env request⟩
    parentRef := none
    acl := committer.evidenceAcl}

-- The connector name holds the binding hash without its prefix.
def connectorId : String := "mcp-write:" ++ String.ofList (request.plan.1.bindingHash.toList.drop "sha256:".length)

-- `_evidence_append`
def evidenceAppend (content : Option Utf8.Bytes) (evidence : EvidenceRecord) : Option Utf8.Bytes :=
  match EvidenceStore.parseEvidenceLines env.lax content with
  | .error _ => none
  | .ok index =>
    if (index.find evidence.id).isSome then none
    else
      let ledger := index.ledger (connectorId env request)
      if named : connectorText (connectorId env request) = true then
        let ingestion : EvidenceIngestion :=
          ⟨connectorId env request,ledger.length + 1,EvidenceIndex.predecessor ledger evidence,evidence,named,Nat.succ_pos _⟩
        some (Utf8.encode (JsonLines.frame ((EvidenceIngestion.codec env.lax).dump ingestion)))
      else none

-- The newest version of the case.
def latestCase (content : Option Utf8.Bytes) (caseId : String) : Option (Option ReconciliationCase) :=
  match CaseStore.parseCaseVersions env.lax content with
  | .error _ => none
  | .ok versions => some (versions.reverse.find? fun case => case.id == caseId)

-- The plan still fits the case it was made for.
def fitsCase (case : ReconciliationCase) : Bool :=
  let plan := request.plan.1
  decide (case.status = .needsHuman) && case.allEvidenceRefs == plan.evidenceRefs &&
    (case.subjectRef :: case.affectedRefs).contains plan.targetRef &&
    (case.evidenceSides.flatMap EvidenceSide.authors).dedup.insertionSort (· ≤ ·) == plan.conflictingAuthors

def changesetDraft (graph : IntentGraph) (case : ReconciliationCase) (evidence : EvidenceRecord) : ChangeSetDraft where
  id := "changeset:mcp-write:" ++ env.sha256 (Utf8.encode (Json.text (.obj [
    ("baseline_graph_version",.int graph.1.version),
    ("case_id",.str case.id),
    ("evidence_id",.str evidence.id),
    ("receipt_id",.str request.receipt.1.id),
    ("resolution_action",.str request.plan.1.resolutionAction.spelling)])))
  actor := request.receipt.1.executedBy
  timestamp := request.receipt.1.completedAt.1
  baselineGraphVersion := graph.1.version
  evidenceRefs := case.allEvidenceRefs ++ [evidence.id]
  nodesAdded := []
  nodesUpdated := []
  nodesSuperseded := []
  edgesAdded := []
  edgesUpdated := []
  edgesSuperseded := []
  confidenceChanges := []
  implementationStatusChanges := []
  reconciliationCasesCreated := []
  reconciliationCasesResolved := [case.id]
  validationStatus := "approved"

def changeset (graph : IntentGraph) (case : ReconciliationCase) (evidence : EvidenceRecord) : Option ChangeSet :=
  let draft := changesetDraft env request graph case evidence
  if valid : draft.validateMutations = true then some ⟨draft,valid⟩ else none

-- What one commit writes.
structure Commit where
  changeset : ChangeSet
  graph : IntentGraph
  caseAppend : Utf8.Bytes
  evidenceAppend : Utf8.Bytes
  receiptAppend : Utf8.Bytes

-- The scope on the contents it reads: none where it raises, `some none` where it
-- returns early without a write.
def scope (evidence : EvidenceRecord) (graphContent evidenceContent caseContent receiptContent : Option Utf8.Bytes) :
    Option (Option Commit) := do
  let graph ← graphContent.bind (GraphStore.parseGraph env.lax env.yaml)
  let index ← (EvidenceStore.parseEvidenceLines env.lax evidenceContent).toOption
  if !request.plan.1.evidenceRefs.all (fun ref => (index.find ref).isSome) then return none
  match ← latestCase env caseContent request.plan.1.caseId with
  | none => return none
  | some case =>
    if !fitsCase env request case then return none
    let changeset ← changeset env request graph case evidence
    let resolved ← case.transition .resolved request.receipt.1.executedBy request.receipt.1.completedAt.1
      (some request.plan.1.resolutionAction) (some changeset.1.id)
    let next ← (Applier.applyWithCaseEffects graph changeset).toOption
    if unknownToGraph next resolved then return none
    let caseAppend ← (CaseStore.validateCaseAppends env.lax caseContent [resolved]).toOption
    let evidenceAppend ← evidenceAppend env request evidenceContent evidence
    let receiptAppend ← (ReceiptStore.validateReceiptCompletion env.lax env.sha256 receiptContent request.receipt).toOption
    if receiptAppend = [] then return none
    return some ⟨changeset,next,caseAppend,evidenceAppend,receiptAppend⟩

def write (commit : Commit) : Script :=
  .both (.write "graph" (GraphStore.serializeGraph env.lax env.yaml commit.graph)) <|
  .both (.append "history" (env.historyFrame commit.changeset)) <|
  .both (.append "evidence" commit.evidenceAppend) <|
  .both (.append "cases" commit.caseAppend) <|
  .append "receipts" commit.receiptAppend

-- Under the lock a target reads the same however often the scope asks for it.
def script (evidence : EvidenceRecord) : Script :=
  .read "graph" fun graph => .read "evidence" fun evidenceContent => .read "cases" fun cases => .read "receipts" fun receipts =>
    match scope env request evidence graph evidenceContent cases receipts with
    | none => .leave
    | some none => .done
    | some (some commit) => write env commit

def decided (evidence : EvidenceRecord) (contents : Contents) : Bool :=
  match scope env request evidence (contents "graph") (contents "evidence") (contents "cases") (contents "receipts") with
  | some (some _) => true
  | _ => false

-- The transaction and what the scope returned from it.
def transact (c : Coordinator) (transactionId : String) (evidence : EvidenceRecord) : Act Disk Bool := do
  let preimages ← openTransaction c
  let found := (← current).targets
  closeTransaction c false transactionId (script env request evidence).body preimages
  return decided env request evidence found

-- `_commit`
def commit (c : Coordinator) (transactionId : String) : Act Disk Bool :=
  if !admits env committer request then return false
  else match evidence env committer request with
    | none => return false
    | some evidence => handleException (transact env request c transactionId evidence) (return false)

def commitSuccess (c : Coordinator) (transactionId : String) : Act Disk Unit := do
  if !(← commit env committer request c transactionId) then throw .exception

end

end LocalWriteCommitter
