import IntentEngineering.Mutations.CommitEffects
import IntentEngineering.Mutations.Executor
import IntentEngineering.Stores.OperationEffects
import IntentEngineering.Stores.ReceiptFrames

open Schema LocalTransaction Interrupt

namespace WriteExecutor

variable (env : WriteEnv)

-- Where a call of `execute` stands between two of its steps.
inductive Stage where
  | idle
  | looking (job : Job env)
  | claiming (job : Job env)
  | unclaimed (job : Job env)
  | fetching (job : Job env)
  | awaiting (job : Job env)
  | verifying (job : Job env) (result : WriteResult)
  | completing (job : Job env) (receipt : env.Receipt)
  | committing (job : Job env) (result : WriteResult) (receipt : env.Receipt)

-- What the gateway has been asked and has answered, and what was claimed.
inductive Event where
  | claimed (job : Job env)
  | dispatched (job : Job env) (target : RemoteObject) (arguments : Json.Members)
  | returned (job : Job env) (result : WriteResult)
  | verified (job : Job env) (result : WriteResult) (target : RemoteObject)

-- One step of a thread: a new call with what its plan and approval stores hold,
-- a step of its own under some faults, an answer of the gateway, or its end.
inductive Move where
  | begin (executor : WriteExecutor) (committer : LocalWriteCommitter) (plans approvals : Option Utf8.Bytes)
      (planId approvalId actor : String) (now : UtcTime)
  | local (transactionId : String) (schedule : List (Option Fault))
  | target (answer : Answer RemoteObject)
  | written (answer : Answer WriteResult)
  | kill

structure Machine where
  disk : Disk
  stages : Nat → Stage env
  log : List (Event env)

-- `complete`, `get_for` and `claim` as operations on the receipt ledger.
def complete (receipt : env.Receipt) : Operation Bool where
  target := "receipts"
  coordinated := true
  turn content := match ReceiptStore.complete env.lax env.sha256 receipt content with
    | .error _ => none
    | .ok (added,frame) => some (added,frame)

namespace Job

variable {env} (job : Job env)

def lookup : Operation (Option env.Receipt) where
  target := "receipts"
  coordinated := true
  turn content := match ReceiptStore.getFor env.lax env.sha256 job.plan.1.id job.approval.1.id content with
    | .error _ => none
    | .ok found => some (found,none)

def claim : Operation Bool where
  target := "receipts"
  coordinated := true
  turn content := match ReceiptStore.claim env.lax env.sha256 job.plan.1.id job.approval.1.id job.actor job.now content with
    | .error _ => none
    | .ok (added,frame) => some (added,frame)

-- A receipt that cannot be built raises.
def failing (rejected : Bool) (code : RedactedError) : Stage env :=
  match job.failureReceipt rejected code with
  | none => .idle
  | some receipt => .completing job receipt

def succeeding (result : WriteResult) : Stage env :=
  match job.receipt .succeeded (some result.resultingVersion) none with
  | none => .idle
  | some receipt => .committing job result receipt

theorem verified_formed : (Json.obj LocalWriteCommitter.verified).WellFormed := by decide

-- What the committer is asked to write down.
def request (result : WriteResult) (receipt : env.Receipt) : LocalWriteCommitter.Request env where
  receipt
  plan := job.plan
  approval := job.approval
  result := { result with redactedResult := ⟨LocalWriteCommitter.verified,verified_formed⟩ }

end Job

variable {env} (conforms : Json → Json.Members → Bool) (c : Coordinator)

-- The answer to the first read of the target, and the dispatch that follows it.
def fetched (job : Job env) : Answer RemoteObject → Stage env × List (Event env)
  | .aborted => (.idle,[])
  | .permissionDenied => (job.failing false .permissionDenied,[])
  | .providerFailure => (job.failing false .providerFailure,[])
  | .ok target =>
    if job.targetUnchanged target then
      match Json.detachedFrozen job.plan.1.arguments.1 with
      | none => (.idle,[])
      | some arguments => (.awaiting job,[.dispatched job target arguments])
    else (job.failing true .targetChanged,[])

def answered (job : Job env) : Answer WriteResult → Stage env × List (Event env)
  | .aborted => (.idle,[])
  | .permissionDenied => (job.failing false .permissionDenied,[])
  | .providerFailure => (job.failing false .providerFailure,[])
  | .ok result => (.verifying job result,[.returned job result])

def verified (job : Job env) (result : WriteResult) : Answer RemoteObject → Stage env × List (Event env)
  | .ok target =>
    if job.readBackMatches result target then (job.succeeding result,[.verified job result target]) else (.idle,[])
  | _ => (.idle,[])

def begun (executor : WriteExecutor) (committer : LocalWriteCommitter) (plans approvals : Option Utf8.Bytes)
    (planId approvalId actor : String) (now : UtcTime) : Stage env :=
  match executor.validatedInputs env conforms plans approvals planId approvalId actor with
  | none => .idle
  | some (plan,approval) => .looking ⟨executor,committer,plan,approval,actor,now⟩

-- A step on the workspace; whatever does not return ends the call.
def localStep (disk : Disk) (transactionId : String) (schedule : List (Option Fault)) : Stage env → Stage env × Disk × List (Event env)
  | .looking job =>
    match job.lookup.act c ⟨disk,schedule⟩ with
    | (.ok none,after) => (if job.timely then .claiming job else .idle,after.state,[])
    | (_,after) => (.idle,after.state,[])
  | .claiming job =>
    match job.claim.act c ⟨disk,schedule⟩ with
    | (.ok true,after) => (.fetching job,after.state,[.claimed job])
    | (.ok false,after) => (.unclaimed job,after.state,[])
    | (_,after) => (.idle,after.state,[])
  | .unclaimed job => (.idle,(job.lookup.act c ⟨disk,schedule⟩).2.state,[])
  | .completing _ receipt => (.idle,((complete env receipt).act c ⟨disk,schedule⟩).2.state,[])
  | .committing job result receipt =>
    (.idle,(job.committer.commitSuccess env (job.request result receipt) c transactionId ⟨disk,schedule⟩).2.state,[])
  | stage => (stage,disk,[])

-- A move that does not fit the stage changes nothing.
def advance (disk : Disk) : Stage env → Move → Stage env × Disk × List (Event env)
  | .idle, .begin executor committer plans approvals planId approvalId actor now =>
    (begun conforms executor committer plans approvals planId approvalId actor now,disk,[])
  | stage, .local transactionId schedule => localStep c disk transactionId schedule stage
  | .fetching job, .target answer => ((fetched job (fetchTargetSafely answer)).1,disk,(fetched job (fetchTargetSafely answer)).2)
  | .awaiting job, .written answer =>
    let result := answered job (executeProviderSafely job.plan.1.beforeVersion answer)
    (result.1,disk,result.2)
  | .verifying job result, .target answer =>
    ((verified job result (fetchTargetSafely answer)).1,disk,(verified job result (fetchTargetSafely answer)).2)
  | _, .kill => (.idle,disk,[])
  | stage, _ => (stage,disk,[])

def Machine.step (m : Machine env) (thread : Nat) (move : Move) : Machine env :=
  let next := advance conforms c m.disk (m.stages thread) move
  ⟨next.2.1,fun other => if other = thread then next.1 else m.stages other,m.log ++ next.2.2⟩

inductive Reached (start : Disk) : Machine env → Prop where
  | start : Reached start ⟨start,fun _ => .idle,[]⟩
  | step (earlier : Reached start m) (thread : Nat) (move : Move) : Reached start (m.step conforms c thread move)

end WriteExecutor
