import IntentEngineering.Mutations.Approval
import IntentEngineering.Mutations.Planner
import IntentEngineering.Stores.ApprovalStore

open Schema

namespace Json

-- `==` of a plain value with a frozen one. A frozen object compares like a
-- dictionary; a frozen array is a tuple, which no list equals.
mutual
def equalsFrozen : Json → Json → Bool
  | .arr _, _ => false
  | .obj xs, .obj ys => equalsFrozenMembers xs ys
  | a, b => equal a b

def equalsFrozenMembers : List (String × Json) → List (String × Json) → Bool
  | [], [] => true
  | (k,x) :: xs, (l,y) :: ys => k == l && equalsFrozen x y && equalsFrozenMembers xs ys
  | _, _ => false
end

-- No array at any level.
mutual
def withoutArrays : Json → Bool
  | .arr _ => false
  | .obj ms => membersWithoutArrays ms
  | _ => true

def membersWithoutArrays : List (String × Json) → Bool
  | [] => true
  | (_,v) :: ms => withoutArrays v && membersWithoutArrays ms
end

end Json

-- `get`, which raises where nothing is found.
def ImmutableStore.get (model : RecordModel ρ) (content : Option Utf8.Bytes) (id : String) : Option ρ :=
  match decode model content with
  | .error _ => none
  | .ok s => (find model s id).map StoredRecord.record

structure WriteExecutor where
  profile : ProviderProfile
  binding : ProviderBinding
  policy : WritePolicy

namespace WriteExecutor

variable (env : WriteEnv) (conforms : Json → Json.Members → Bool) (executor : WriteExecutor)

-- The actor, the policy and the identity of the pair.
def matchesApproval (plan : env.Plan) (approval : env.Approval) (actor : String) : Bool :=
  let policy := executor.policy
  policy.authorizedContributors.all PyText.hasText && policy.authorizedApprovers.all PyText.hasText &&
    policy.authorizedExecutors.all PyText.hasText && executor.binding.validateAgainst executor.profile &&
    policy.authorizedContributors.contains plan.1.createdBy && policy.authorizedApprovers.contains approval.1.actor &&
    policy.authorizedExecutors.contains actor && actor == approval.1.actor && approval.1.planId == plan.1.id &&
    approval.1.planHash == env.planHash plan && approval.1.targetVersion == plan.1.beforeVersion &&
    approval.1.planCreatedAt.1.same plan.1.createdAt.1 && approval.1.planExpiresAt.1.same plan.1.expiresAt.1 &&
    executor.profile.id == plan.1.profileId && executor.profile.version == plan.1.profileVersion &&
    providerBindingHash env.sha256 executor.binding == plan.1.bindingHash

-- The operation is still the one the plan was made for.
def matchesContract (plan : env.Plan) (operation : WriteOperationProfile) : Bool :=
  operation.targetObject == plan.1.objectType && plan.1.targetRef == executor.profile.id ++ ":" ++ plan.1.targetId &&
    executor.binding.tools.get plan.1.operation == some plan.1.providerOperation &&
    providerWriteContractHash env.sha256 executor.profile executor.binding plan.1.operation == some plan.1.writeContractHash

-- The arguments bound again, and compared with the frozen ones of the plan.
def matchesArguments (plan : env.Plan) (operation : WriteOperationProfile) : Bool :=
  match Json.detachedFrozen plan.1.after.1 with
  | none => false
  | some after =>
    conforms operation.inputSchema (operation.writeFields after) &&
      match bindArguments operation.arguments plan.1.targetId plan.1.beforeVersion (operation.writeFields after) with
      | none => false
      | some expected => Json.equalsFrozen (.obj expected) (.obj plan.1.arguments.1)

def validates (plan : env.Plan) (approval : env.Approval) (actor : String) : Bool :=
  executor.matchesApproval env plan approval actor &&
    match executor.profile.writes.get plan.1.operation with
    | none => false
    | some operation =>
      executor.matchesContract env plan operation &&
        authenticatedApprovalAliases env.sha256 plan.1 executor.binding approval.1.actor executor.policy ==
          some approval.1.actorAliases &&
        matchesArguments env conforms plan operation

-- `_validated_inputs`
def validatedInputs (plans approvals : Option Utf8.Bytes) (planId approvalId actor : String) :
    Option (env.Plan × env.Approval) := do
  let plan ← ImmutableStore.get (writePlanModel env.lax env.sha256) plans planId
  let approval ← ImmutableStore.get (approvalModel env.lax env.sha256) approvals approvalId
  if executor.validates env conforms plan approval actor then return (plan,approval) else none

end WriteExecutor

namespace WriteExecutor

variable (env : WriteEnv)

-- One call of `execute`, once its inputs are validated.
structure Job where
  executor : WriteExecutor
  committer : LocalWriteCommitter
  plan : env.Plan
  approval : env.Approval
  actor : String
  now : UtcTime

-- What a call on the gateway comes to: a value, one of the two failures that are
-- recorded, or an interruption that passes through.
inductive Answer (α : Type) where
  | ok (value : α)
  | permissionDenied
  | providerFailure
  | aborted

-- `_fetch_target_safely`
def fetchTargetSafely : Answer RemoteObject → Answer RemoteObject
  | .ok object => if object.validate then .ok object else .providerFailure
  | answer => answer

-- `_execute_provider_safely`: a write that left the version is a failure.
def executeProviderSafely (beforeVersion : String) : Answer WriteResult → Answer WriteResult
  | .ok result => if result.resultingVersion = beforeVersion then .providerFailure else .ok result
  | answer => answer

def receiptId (draft : ReceiptDraft) : String := "receipt:" ++ canonicalHash env.sha256 (draft.material env.lax)

-- The evidence of a success is named after the receipt without it.
def withEvidence (draft : ReceiptDraft) : ReceiptDraft :=
  if draft.status = .succeeded then
    { draft with evidenceRef := some ("evidence:mcp-write:" ++
        String.ofList ((receiptId env draft).toList.drop "receipt:sha256:".length)) }
  else draft

namespace Job

variable {env} (job : Job env)

def key : String × String := (job.plan.1.id,job.approval.1.id)

-- Both windows are open.
def timely : Bool :=
  decide (job.plan.1.createdAt.1.instant ≤ job.now.1.instant) && decide (job.now.1.instant < job.plan.1.expiresAt.1.instant) &&
    decide (job.approval.1.approvedAt.1.instant ≤ job.now.1.instant) && decide (job.now.1.instant < job.approval.1.expiresAt.1.instant)

-- The object at the provider is the plan's, at this version and with this content.
def shows (version : String) (content : Payload) (object : RemoteObject) : Bool :=
  object.connectorId == job.plan.1.connectorId && object.profileId == job.plan.1.profileId &&
    object.profileVersion == job.plan.1.profileVersion && object.objectType == job.plan.1.objectType &&
    object.id == job.plan.1.targetId && object.version == version && Json.equal (.obj object.content.1) (.obj content.1)

def targetUnchanged (object : RemoteObject) : Bool := job.shows job.plan.1.beforeVersion job.plan.1.before object

def readBackMatches (result : WriteResult) (object : RemoteObject) : Bool :=
  job.shows result.resultingVersion job.plan.1.after object

-- The receipt before it is signed.
def unsigned (status : ReceiptStatus) (resultingVersion : Option String) (redactedError : Option RedactedError) : ReceiptDraft where
  id := ""
  planId := job.plan.1.id
  planHash := env.planHash job.plan
  approvalId := job.approval.1.id
  targetVersion := job.plan.1.beforeVersion
  executedBy := job.actor
  status
  attemptedAt := job.now
  completedAt := job.now
  resultingVersion
  evidenceRef := none
  redactedError

-- `_receipt`
def receipt (status : ReceiptStatus) (resultingVersion : Option String) (redactedError : Option RedactedError) :
    Option env.Receipt :=
  let draft := withEvidence env (job.unsigned status resultingVersion redactedError)
  ExecutionReceipt.build env.lax env.sha256 { draft with id := receiptId env draft }

-- `_failure_receipt`
def failureReceipt (rejected : Bool) (code : RedactedError) : Option env.Receipt :=
  job.receipt (if rejected then .rejected else .failed) none (some code)

end Job

end WriteExecutor
