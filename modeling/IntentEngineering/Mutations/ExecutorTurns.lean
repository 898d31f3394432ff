import IntentEngineering.Mutations.ExecutorLedger

open Schema LocalTransaction Interrupt ReceiptStore ReceiptLedger

namespace WriteExecutor

variable {env : WriteEnv} {c : Coordinator} {s : ReceiptLedger env.lax env.sha256}

-- What one step of a call does to the ledger, and what it adds to the log.
inductive Turned (s : ReceiptLedger env.lax env.sha256) : Stage env → Stage env → List (Event env) → ReceiptLedger env.lax env.sha256 → Prop where
  | stayed (stage) : Turned s stage stage [] s
  | ended (stage) : Turned s stage .idle [] s
  | began (job) : Turned s .idle (.looking job) [] s
  | looked (job) : Turned s (.looking job) (.claiming job) [] s
  | claimed (job) (claim : ExecutionClaim) (key : claim.key = job.key) (actor : claim.actor = job.actor)
      (taken : record s (.inl claim) = some s') : Turned s (.claiming job) (.fetching job) [.claimed job] s'
  | claimLost (job) (claim : ExecutionClaim) (taken : record s (.inl claim) = some s') : Turned s (.claiming job) .idle [] s'
  | refused (job) : Turned s (.claiming job) (.unclaimed job) [] s
  | unfetched (job) (receipt : env.Receipt) (failed : receipt.1.status ≠ .succeeded) :
      Turned s (.fetching job) (.completing job receipt) [] s
  | dispatched (job target arguments) (unchanged : job.targetUnchanged target = true)
      (detached : Json.detachedFrozen job.plan.1.arguments.1 = some arguments) :
      Turned s (.fetching job) (.awaiting job) [.dispatched job target arguments] s
  | failed (job) (receipt : env.Receipt) (failed : receipt.1.status ≠ .succeeded) :
      Turned s (.awaiting job) (.completing job receipt) [] s
  | returned (job result) : Turned s (.awaiting job) (.verifying job result) [.returned job result] s
  | verified (job result target) (stage) (matched : job.readBackMatches result target = true)
      (next : stage = .idle ∨ ∃ receipt, stage = .committing job result receipt ∧
        job.receipt .succeeded (some result.resultingVersion) none = some receipt) :
      Turned s (.verifying job result) stage [.verified job result target] s
  | completed (job) (receipt : env.Receipt) (taken : record s (.inr receipt) = some s') : Turned s (.completing job receipt) .idle [] s'
  | committed (job result) (receipt : env.Receipt) (taken : record s (.inr receipt) = some s') :
      Turned s (.committing job result receipt) .idle [] s'

theorem receipt_built {job : Job env} {receipt : env.Receipt} (built : job.receipt status version code = some receipt) :
    receipt.1.key = job.key ∧ receipt.1.executedBy = job.actor ∧ receipt.1.status = status ∧ receipt.1.resultingVersion = version := by
  rw [ExecutionReceipt.build_draft built,withEvidence]
  split <;> exact ⟨rfl,rfl,rfl,rfl⟩

theorem failing_turned (job : Job env) (rejected : Bool) (code : RedactedError) :
    job.failing rejected code = .idle ∨ ∃ receipt : env.Receipt, job.failing rejected code = .completing job receipt ∧ receipt.1.status ≠ .succeeded := by
  unfold Job.failing
  cases built : job.failureReceipt rejected code with
  | none => exact .inl rfl
  | some receipt =>
    refine .inr ⟨receipt,rfl,?_⟩
    rw [(receipt_built built).2.2.1]
    cases rejected <;> simp

theorem fetched_turned (s : ReceiptLedger env.lax env.sha256) (job : Job env) (answer : Answer RemoteObject) :
    Turned s (.fetching job) (fetched job answer).1 (fetched job answer).2 s := by
  have failing (rejected : Bool) (code : RedactedError) : Turned s (.fetching job) (job.failing rejected code) [] s := by
    rcases failing_turned job rejected code with idle | ⟨receipt,completing,failed⟩
    · rw [idle]
      exact .ended _
    · rw [completing]
      exact .unfetched job receipt failed
  cases answer with
  | aborted => exact .ended _
  | permissionDenied => exact failing _ _
  | providerFailure => exact failing _ _
  | ok target =>
    rw [fetched]
    split
    · rename_i unchanged
      cases detached : Json.detachedFrozen job.plan.1.arguments.1 with
      | none => exact .ended _
      | some arguments => exact .dispatched job target arguments unchanged detached
    · exact failing _ _

theorem answered_turned (s : ReceiptLedger env.lax env.sha256) (job : Job env) (answer : Answer WriteResult) :
    Turned s (.awaiting job) (answered job answer).1 (answered job answer).2 s := by
  have failing (rejected : Bool) (code : RedactedError) : Turned s (.awaiting job) (job.failing rejected code) [] s := by
    rcases failing_turned job rejected code with idle | ⟨receipt,completing,failed⟩
    · rw [idle]
      exact .ended _
    · rw [completing]
      exact .failed job receipt failed
  cases answer with
  | aborted => exact .ended _
  | permissionDenied => exact failing _ _
  | providerFailure => exact failing _ _
  | ok result => exact .returned job result

theorem verified_turned (s : ReceiptLedger env.lax env.sha256) (job : Job env) (result : WriteResult) (answer : Answer RemoteObject) :
    Turned s (.verifying job result) (verified job result answer).1 (verified job result answer).2 s := by
  cases answer with
  | ok target =>
    rw [verified]
    split
    · rename_i matched
      apply Turned.verified job result target _ matched
      unfold Job.succeeding
      cases built : job.receipt .succeeded (some result.resultingVersion) none with
      | none => exact .inl rfl
      | some receipt => exact .inr ⟨receipt,rfl,rfl⟩
    · exact .ended _
  | permissionDenied => exact .ended _
  | providerFailure => exact .ended _
  | aborted => exact .ended _

theorem lookup_standing {job : Job env} (standing : Standing env c disk s) (ran : job.lookup.act c ⟨disk,schedule⟩ = (result,after)) :
    Standing env c after.state s ∧ ∀ found, result = .ok found → ∃ content, decode env.lax env.sha256 content = some s ∧
      s.receipt job.key = found := by
  obtain ⟨s',stands,rfl | ⟨_,impossible,_⟩,returned⟩ := act_standing job.lookup_appends standing ran
  · refine ⟨stands,?_⟩
    rintro found rfl
    obtain ⟨content,frame,read,turned,_⟩ := returned found rfl
    simp only [Job.lookup,getFor,read,Option.some.injEq,Prod.mk.injEq] at turned
    exact ⟨content,read,turned.1⟩
  · exact impossible.elim

theorem claim_standing {job : Job env} (standing : Standing env c disk s) (ran : job.claim.act c ⟨disk,schedule⟩ = (result,after)) :
    ∃ s', Standing env c after.state s' ∧
      (s' = s ∨ ∃ claim : ExecutionClaim, claim.key = job.key ∧ claim.actor = job.actor ∧ record s (.inl claim) = some s') ∧
      ∀ added, result = .ok added → if added then ∃ claim : ExecutionClaim, claim.key = job.key ∧ claim.actor = job.actor ∧
        record s (.inl claim) = some s' else s' = s := by
  obtain ⟨s',stands,grew,returned⟩ := act_standing job.claim_appends standing ran
  refine ⟨s',stands,?_,?_⟩
  · rcases grew with same | ⟨_,⟨claim,rfl,key,actor⟩,taken⟩
    · exact .inl same
    · exact .inr ⟨claim,key,actor,taken⟩
  · rintro added rfl
    obtain ⟨content,frame,read,turned,still,grown⟩ := returned added rfl
    obtain ⟨_,_,_,⟨rfl,rfl⟩ | ⟨rfl,rfl,_⟩⟩ := Job.claim_turn read turned
    · exact still rfl
    · obtain ⟨_,⟨claim,rfl,key,actor⟩,taken⟩ := grown (by simp)
      exact ⟨claim,key,actor,taken⟩

-- A step on the workspace is a step on the ledger it stands for.
theorem local_turned (standing : Standing env c disk s) (transactionId : String) (schedule : List (Option Fault)) (stage : Stage env) :
    ∃ s', Standing env c (localStep c disk transactionId schedule stage).2.1 s' ∧
      Turned s stage (localStep c disk transactionId schedule stage).1 (localStep c disk transactionId schedule stage).2.2 s' := by
  cases stage with
  | idle => exact ⟨s,standing,.stayed _⟩
  | looking job =>
    simp only [localStep]
    cases ran : job.lookup.act c ⟨disk,schedule⟩ with
    | mk result after =>
      obtain ⟨stands,_⟩ := lookup_standing standing ran
      refine ⟨s,?_⟩
      rcases result with halt | found | receipt
      · exact ⟨stands,.ended _⟩
      · refine ⟨stands,?_⟩
        dsimp only
        split
        · exact .looked job
        · exact .ended _
      · exact ⟨stands,.ended _⟩
  | claiming job =>
    simp only [localStep]
    cases ran : job.claim.act c ⟨disk,schedule⟩ with
    | mk result after =>
      obtain ⟨s',stands,lost,kept⟩ := claim_standing standing ran
      refine ⟨s',?_⟩
      rcases result with halt | added
      · refine ⟨stands,?_⟩
        rcases lost with rfl | ⟨claim,_,_,taken⟩
        · exact .ended _
        · exact .claimLost job claim taken
      · cases added with
        | false =>
          cases kept false rfl
          exact ⟨stands,.refused job⟩
        | true =>
          obtain ⟨claim,key,actor,taken⟩ := kept true rfl
          exact ⟨stands,.claimed job claim key actor taken⟩
  | unclaimed job =>
    exact ⟨s,(lookup_standing standing (Prod.mk.eta (p := job.lookup.act c ⟨disk,schedule⟩)).symm).1,.ended _⟩
  | fetching job => exact ⟨s,standing,.stayed _⟩
  | awaiting job => exact ⟨s,standing,.stayed _⟩
  | verifying job result => exact ⟨s,standing,.stayed _⟩
  | completing job receipt =>
    cases ran : (complete env receipt).act c ⟨disk,schedule⟩ with
    | mk result after =>
      obtain ⟨s',stands,rfl | ⟨_,rfl,taken⟩,_⟩ := act_standing (complete_appends receipt) standing ran
      · exact ⟨s',by simpa only [localStep,ran] using stands,.ended _⟩
      · exact ⟨s',by simpa only [localStep,ran] using stands,.completed job receipt taken⟩
  | committing job result receipt =>
    cases ran : job.committer.commitSuccess env (job.request result receipt) c transactionId ⟨disk,schedule⟩ with
    | mk ended after =>
      obtain ⟨s',stands,rfl | taken⟩ := commit_standing standing ran
      · exact ⟨s',by simpa only [localStep,ran] using stands,.ended _⟩
      · exact ⟨s',by simpa only [localStep,ran] using stands,.committed job result receipt taken⟩

theorem advance_turned (conforms : Json → Json.Members → Bool) (standing : Standing env c disk s) (stage : Stage env) (move : Move) :
    ∃ s', Standing env c (advance conforms c disk stage move).2.1 s' ∧
      Turned s stage (advance conforms c disk stage move).1 (advance conforms c disk stage move).2.2 s' := by
  cases move with
  | «local» transactionId schedule =>
    cases stage <;> exact local_turned standing transactionId schedule _
  | kill => exact ⟨s,by cases stage <;> exact standing,by cases stage <;> exact .ended _⟩
  | begin executor committer plans approvals planId approvalId actor now =>
    cases stage with
    | idle =>
      refine ⟨s,standing,?_⟩
      simp only [advance,begun]
      cases executor.validatedInputs env conforms plans approvals planId approvalId actor with
      | none => exact .stayed _
      | some pair => exact .began _
    | _ => exact ⟨s,standing,.stayed _⟩
  | target answer =>
    cases stage with
    | fetching job => exact ⟨s,standing,fetched_turned s job _⟩
    | verifying job result => exact ⟨s,standing,verified_turned s job result _⟩
    | _ => exact ⟨s,standing,.stayed _⟩
  | written answer =>
    cases stage with
    | awaiting job => exact ⟨s,standing,answered_turned s job _⟩
    | _ => exact ⟨s,standing,.stayed _⟩

end WriteExecutor
