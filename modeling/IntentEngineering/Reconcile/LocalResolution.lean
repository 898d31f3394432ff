import IntentEngineering.Storage.Executor
import IntentEngineering.Storage.TransactionCalm

open Schema LocalTransaction Interrupt

-- `evidence_allowed`
def evidenceAllowed (record : EvidenceRecord) (principals : List String) : Bool :=
  record.acl.isEmpty || record.acl.any principals.contains

structure LocalResolutionService where
  actor : String
  principals : List String
  member : actor ∈ principals
  named : ∀ principal ∈ principals, principal ≠ ""

namespace LocalResolutionService

structure Call where
  caseId : String
  action : ResolutionAction
  approve : Option String
  at' : DateTime

-- What `resolve` returns.
structure Resolution where
  case : ReconciliationCase
  changeset : Option ChangeSet
  approval : Option String

-- What a call has decided to write, with what it will return.
inductive Effect where
  | append (cases : List ReconciliationCase) (resolution : Resolution)
  | apply (changeset : ChangeSet) (resolved : ReconciliationCase)

section
variable (env : WriteEnv)

def changesetMaterial (case : ReconciliationCase) (version : Nat) (action : ResolutionAction) : String :=
  case.id ++ "\x00" ++ toString version ++ "\x00" ++ action.spelling ++ "\x00" ++ "\x00".intercalate case.allEvidenceRefs

def changesetDraft (actor : String) (case : ReconciliationCase) (version : Nat) (action : ResolutionAction) (timestamp : DateTime) :
    ChangeSetDraft where
  id := "changeset:resolve:" ++ env.sha256 (Utf8.encode (changesetMaterial case version action).toList)
  actor := actor
  timestamp := timestamp
  baselineGraphVersion := version
  evidenceRefs := case.allEvidenceRefs
  nodesAdded := []
  nodesUpdated := []
  nodesSuperseded := []
  edgesAdded := []
  edgesUpdated := []
  edgesSuperseded := []
  confidenceChanges := []
  implementationStatusChanges := []
  reconciliationCasesCreated := []
  reconciliationCasesResolved := [case.id]
  validationStatus := "validated"

-- `_canonical_changeset`
def canonicalChangeset (actor : String) (case : ReconciliationCase) (version : Nat) (action : ResolutionAction) : Option ChangeSet :=
  case.history.getLast?.bind fun event =>
    let draft := changesetDraft env actor case version action event.at'
    if valid : draft.validateMutations = true then some ⟨draft,valid⟩ else none

-- `_approval_hash`
def approvalHash (case : ReconciliationCase) (version : Nat) (action : ResolutionAction) (changeset : ChangeSet) : String :=
  env.sha256 (Utf8.encode (Json.asciiText (.obj [
    ("action",.str action.spelling),
    ("case",(ReconciliationCase.codec env.lax).dump case),
    ("changeset",(ChangeSet.codec env.lax false).dump changeset),
    ("graph_version",.int version)])))

-- `case_store.get`
def latestCase (content : Option Utf8.Bytes) (caseId : String) : Option ReconciliationCase :=
  match CaseStore.parseVersions env.lax content with
  | .error _ => none
  | .ok ledger => ledger.index.latestById.lookup caseId

-- Every reference resolves to a record that the principals may read.
def referencesAllowed (content : Option Utf8.Bytes) (references principals : List String) : Bool :=
  match EvidenceStore.parseEvidenceLines env.lax content with
  | .error _ => false
  | .ok index => references.all fun reference =>
    match index.find reference with
    | none => false
    | some record => evidenceAllowed record principals

def appendScript (cases : List ReconciliationCase) : Script :=
  .read "cases" fun content =>
    match CaseStore.validateCaseAppends env.lax content cases with
    | .error _ => .leave
    | .ok bytes => .append "cases" bytes

variable (service : LocalResolutionService) (call : Call)

-- An open case that is put off or dismissed takes that status.
def dismissal : ResolutionAction → Option ReconciliationStatus
  | .defer => some .deferred
  | .markFalsePositive => some .falsePositive
  | _ => none

-- An open case that is to be resolved is first put before a human.
def preview (case : ReconciliationCase) (version : Nat) : Option Effect := do
  let proposed ← case.transition .proposed service.actor call.at' none none
  let reviewed ← proposed.transition .needsHuman service.actor call.at' none none
  let changeset ← canonicalChangeset env service.actor reviewed version call.action
  return .append [proposed,reviewed] ⟨reviewed,some changeset,some (approvalHash env reviewed version call.action changeset)⟩

def approval (case : ReconciliationCase) (version : Nat) : Option Effect := do
  let changeset ← canonicalChangeset env service.actor case version call.action
  if call.approve ≠ some (approvalHash env case version call.action changeset) then none
  else
    let resolved ← case.transition .resolved service.actor call.at' (some call.action) (some changeset.1.id)
    return .apply changeset resolved

-- What `resolve` makes of the case and the graph it has read.
def decide (case : ReconciliationCase) (version : Nat) : Option Effect :=
  match case.status, dismissal call.action with
  | .opened, some target =>
    (case.transition target service.actor call.at' none none).map fun updated => .append [updated] ⟨updated,none,none⟩
  | .opened, none => preview env service call case version
  | .needsHuman, none => approval env service call case version
  | _, _ => none

variable (c : Coordinator) (transactionId : String)

def Effect.run : Effect → Act Disk Unit
  | .append cases _ => transaction c false transactionId (appendScript env cases).body
  | .apply changeset resolved => LocalChangeSetExecutor.apply env c transactionId ⟨changeset,[],[resolved],.unbound⟩

def Effect.resolution : Effect → Resolution
  | .append _ resolution => resolution
  | .apply changeset resolved => ⟨resolved,some changeset,none⟩

end

end LocalResolutionService
