import IntentEngineering.Workflow.Authorization
import Mathlib.Data.List.AList

open Authorization

deriving instance DecidableEq for PreflightResult

namespace AgentHost

-- `_MAX_LIVE_TASKS`
def maxLiveTasks : Nat := 1024

def maxRequestBytes : Nat := 16 * 1024

-- `_COMMIT`
def isCommit (s : String) : Bool :=
  decide (40 ≤ s.toList.length) && decide (s.toList.length ≤ 64) && s.toList.all PyText.isHex

-- A tuple that has to come sorted.
def canonical (check : String → Bool) (values : List String) : Bool := canonicalTuple check values == some values

-- A preflight result as the adapter keeps it: what it reads, and the rest.
structure HostPreflight where
  result : PreflightResult
  basis : String
  evidenceRefs : List String
  context : Payload

def HostPreflight.equal (a b : HostPreflight) : Bool :=
  decide (a.result = b.result) && a.basis == b.basis && a.evidenceRefs == b.evidenceRefs &&
    Json.equal (.obj a.context.1) (.obj b.context.1)

structure HostTaskDraft where
  id : String
  actor : String
  repositoryId : String
  conversationRef : String
  requestDigest : String
  graphVersion : Nat
  createdAt : DateTime
  preflight : Option HostPreflight

namespace HostTaskDraft

-- The field validators and `validate_binding`.
def valid (t : HostTaskDraft) : Bool :=
  isTaskId t.id && identity t.actor && identity t.repositoryId && identity t.conversationRef && isHash t.requestDigest &&
    decide (t.createdAt.offset = some 0) &&
    t.preflight.all fun p => p.result.taskId == t.id && p.result.graphVersion == (t.graphVersion : Int)

def equal (a b : HostTaskDraft) : Bool :=
  a.id == b.id && a.actor == b.actor && a.repositoryId == b.repositoryId && a.conversationRef == b.conversationRef &&
    a.requestDigest == b.requestDigest && a.graphVersion == b.graphVersion && a.createdAt.same b.createdAt &&
    equalOptions HostPreflight.equal a.preflight b.preflight

end HostTaskDraft

abbrev HostTask := {t : HostTaskDraft // t.valid = true}

def HostTask.build (t : HostTaskDraft) : Option HostTask := if valid : t.valid = true then some ⟨t,valid⟩ else none

inductive ResultStatus where
  | completed
  | blocked
  | failed
  | cancelled
deriving DecidableEq

structure HostTaskResultDraft where
  taskId : String
  status : ResultStatus
  responseEvidenceRef : String
  changedPaths : List String
  baseRevision : Option String
  commitSha : Option String
  requirementIds : List String
  codeRefs : List String
  testRefs : List String
  gitEvidenceRefs : List String
  testEvidenceRefs : List String
  completedAt : DateTime

def HostTaskResultDraft.valid (env : Platform) (r : HostTaskResultDraft) : Bool :=
  isTaskId r.taskId && identity r.responseEvidenceRef && canonical env.path r.changedPaths && r.baseRevision.all isCommit &&
    r.commitSha.all isCommit && canonical identity r.requirementIds && canonical identity r.codeRefs &&
    canonical identity r.testRefs && canonical identity r.gitEvidenceRefs && canonical identity r.testEvidenceRefs &&
    decide (r.completedAt.offset = some 0)

abbrev HostTaskResult (env : Platform) := {r : HostTaskResultDraft // r.valid env = true}

structure PostTaskSubmissionDraft where
  repositoryId : String
  taskId : String
  actor : String
  requestDigest : String
  graphVersion : Nat
  baseRevision : String
  finalRevision : String
  changedPaths : List String
  requirementIds : List String
  codeRefs : List String
  testRefs : List String
  gitEvidenceRefs : List String
  testEvidenceRefs : List String
  completedAt : DateTime

def PostTaskSubmissionDraft.valid (env : Platform) (s : PostTaskSubmissionDraft) : Bool :=
  identity s.repositoryId && isTaskId s.taskId && identity s.actor && isHash s.requestDigest && isCommit s.baseRevision &&
    isCommit s.finalRevision && canonical env.path s.changedPaths && !s.changedPaths.isEmpty &&
    canonical identity s.requirementIds && !s.requirementIds.isEmpty && canonical identity s.codeRefs && !s.codeRefs.isEmpty &&
    canonical identity s.testRefs && canonical identity s.gitEvidenceRefs && !s.gitEvidenceRefs.isEmpty &&
    canonical identity s.testEvidenceRefs && decide (s.completedAt.offset = some 0) && s.baseRevision != s.finalRevision

abbrev PostTaskSubmission (env : Platform) := {s : PostTaskSubmissionDraft // s.valid env = true}

-- What the workflow hands out as a capability; `exact` says that it is a `str`.
structure Token where
  text : String
  exact : Bool
deriving DecidableEq

def Token.acceptable (t : Token) : Bool := t.exact && t.text != "" && decide (utf8Length t.text ≤ 256)

inductive MutationReason where
  | authorized
  | intentPreflightRequired
  | scopeMismatch
  | graphChanged
  | taskChanged
deriving DecidableEq

structure MutationDecision where
  allowed : Bool
  reason : MutationReason
  taskId : String
  graphVersion : Nat
  paths : List String

-- What the port answers at an await; a cancellation raises there too.
inductive Response (α : Type) where
  | returned (value : α)
  | raised

-- A response whose envelope or preflight is not a valid one carries none.
structure Opening where
  envelope : Option TaskEnvelope
  preflight : Option HostPreflight
  token : Option Token

structure PostTaskResult where
  taskId : String
  graphVersion : Nat

-- The adapter's two dictionaries.
structure Adapter where
  tasks : AList fun _ : String => HostTask
  tokens : AList fun _ : String => Token

namespace Adapter

def empty : Adapter := ⟨∅,∅⟩

variable (a : Adapter)

-- `_tasks.get(task.id) == task`
def registered (task : HostTask) : Bool :=
  match a.tasks.lookup task.1.id with
  | some issued => issued.1.equal task.1
  | none => false

def discard (taskId : String) : Adapter := ⟨a.tasks.erase taskId,a.tokens.erase taskId⟩

def record (task : HostTask) (token : Option Token) : Adapter where
  tasks := a.tasks.insert task.1.id task
  tokens := match token with
    | none => a.tokens
    | some token => a.tokens.insert task.1.id token

-- `before_task` up to the await.
def opens (request actor : String) : Bool :=
  request != "" && !hasControl request && decide (utf8Length request ≤ maxRequestBytes) && identity actor

def taskOf (request : String) (envelope : TaskEnvelope) (preflight : HostPreflight) : HostTaskDraft where
  id := envelope.1.id
  actor := envelope.1.actor
  repositoryId := envelope.1.repositoryId
  conversationRef := envelope.1.conversationRef
  requestDigest := Authorization.requestDigest request
  graphVersion := envelope.1.graphVersion
  createdAt := envelope.1.createdAt
  preflight := some preflight

-- And behind it: none where it raises.
def register (request actor : String) (opening : Opening) : Option (HostTask × Adapter) :=
  match opening.envelope, opening.preflight with
  | some envelope, some preflight =>
    if envelope.1.request ≠ request ∨ envelope.1.actor ≠ actor then none
    else match HostTask.build (taskOf request envelope preflight) with
      | none => none
      | some task =>
        if opening.token.all Token.acceptable = false then none
        else if maxLiveTasks ≤ a.tasks.keys.length ∧ task.1.id ∉ a.tasks then none
        else some (task,a.record task opening.token)
  | _, _ => none

inductive Checked where
  | refused
  | decided (decision : MutationDecision)
  | verify (token : Token)

def decision (task : HostTask) (paths : List String) (reason : MutationReason) : MutationDecision :=
  ⟨decide (reason = .authorized),reason,task.1.id,task.1.graphVersion,paths⟩

-- `before_mutation` up to the await.
def checks (env : Platform) (task : HostTask) (operation : String) (paths : List String) (token : Option Token) : Checked :=
  if !identity operation || !canonical env.path paths then .refused
  else if !a.registered task then .decided (decision task paths .taskChanged)
  else match token.or (a.tokens.lookup task.1.id) with
    | none => .decided (decision task paths .intentPreflightRequired)
    | some capability =>
      if task.1.preflight.any (fun p => p.result.authorized) then .verify capability
      else .decided (decision task paths .intentPreflightRequired)

-- And behind it.
def verdict (task : HostTask) (paths : List String) : Verification → MutationDecision
  | .authorized .. => decision task paths .authorized
  | .denied .scopeMismatch => decision task paths .scopeMismatch
  | .denied .graphMismatch => decision task paths .graphChanged
  | .denied .taskMismatch => decision task paths .taskChanged
  | .denied _ => decision task paths .intentPreflightRequired

-- A result that is no `HostTaskResult`, one that cannot be read, or a valid one.
inductive PresentedResult (env : Platform) where
  | foreign
  | unreadable
  | result (result : HostTaskResult env)

def submission (env : Platform) (task : HostTask) (r : HostTaskResultDraft) (base commit : String) : Option (PostTaskSubmission env) :=
  let draft : PostTaskSubmissionDraft := {
    repositoryId := task.1.repositoryId
    taskId := task.1.id
    actor := task.1.actor
    requestDigest := task.1.requestDigest
    graphVersion := task.1.graphVersion
    baseRevision := base
    finalRevision := commit
    changedPaths := r.changedPaths
    requirementIds := r.requirementIds
    codeRefs := r.codeRefs
    testRefs := r.testRefs
    gitEvidenceRefs := r.gitEvidenceRefs
    testEvidenceRefs := r.testEvidenceRefs
    completedAt := r.completedAt}
  if valid : draft.valid env = true then some ⟨draft,valid⟩ else none

inductive Completion (env : Platform) where
  | refused
  | closed
  | submit (submission : PostTaskSubmission env) (capability : Token)

-- `after_task` on its checked arguments, up to the await.
def completes (env : Platform) (task : HostTask) (r : HostTaskResult env) : Completion env :=
  if !a.registered task || r.1.taskId != task.1.id then .refused
  else if r.1.status ≠ .completed then (if r.1.changedPaths.isEmpty then .closed else .refused)
  else match a.tokens.lookup task.1.id, r.1.baseRevision, r.1.commitSha with
    | some capability, some base, some commit =>
      if r.1.changedPaths.isEmpty || r.1.requirementIds.isEmpty || r.1.codeRefs.isEmpty || r.1.gitEvidenceRefs.isEmpty then .refused
      else match submission env task r.1 base commit with
        | none => .refused
        | some submission => .submit submission capability
    | _, _, _ => .refused

-- And behind it: whether the completion is one.
def accepts (task : HostTask) : Response (Option PostTaskResult) → Option PostTaskResult
  | .returned (some completion) =>
    if completion.taskId == task.1.id && decide (task.1.graphVersion ≤ completion.graphVersion) then some completion else none
  | _ => none

end Adapter

end AgentHost
