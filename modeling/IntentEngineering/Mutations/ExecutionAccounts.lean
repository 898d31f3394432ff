import IntentEngineering.Library.Sha256Numbers
import IntentEngineering.Mutations.ExecutorSafety
import IntentEngineering.Mutations.PlanAgreement

open Schema Json LocalTransaction Interrupt ReceiptStore ReceiptLedger

namespace WriteExecutor

section Calls

variable {env : WriteEnv} {conforms : Json → Json.Members → Bool} {c : Coordinator} {start disk : Disk}

-- One call, and nothing beside it.
def alone (stage : Stage env) : Nat → Stage env := fun thread => if thread = 0 then stage else .idle

theorem reached_alone {stage stage' : Stage env} {log events : List (Event env)} (move : Move)
    (earlier : Reached conforms c start ⟨disk,alone stage,log⟩)
    (advanced : advance conforms c disk stage move = (stage',disk',events)) :
    Reached conforms c start ⟨disk',alone stage',log ++ events⟩ := by
  have next := earlier.step 0 move
  have shape : Machine.step conforms c ⟨disk,alone stage,log⟩ 0 move = ⟨disk',alone stage',log ++ events⟩ := by
    have here : alone stage 0 = stage := if_pos rfl
    simp only [Machine.step,here,advanced]
    congr 1
    funext other
    unfold alone
    split <;> rfl
  rwa [shape] at next

-- A disk on which nothing is pending, and its ledger.
def Open (env : WriteEnv) (disk : Disk) (s : ReceiptLedger env.lax env.sha256) : Prop :=
  disk.journal = none ∧ decode env.lax env.sha256 (disk.targets "receipts") = some s

theorem decode_grown {content : Option Utf8.Bytes} {s s' : ReceiptLedger env.lax env.sha256} (read : decode env.lax env.sha256 content = some s)
    (taken : record s r = some s') :
    decode env.lax env.sha256 (some (content.getD [] ++ ByteFrames.serialize (receiptCodec env.lax env.sha256) r)) = some s' := by
  obtain ⟨rs,whole,held⟩ := (decode_iff content s).mp read
  refine (decode_iff _ s').mpr ⟨rs ++ [r],?_,?_⟩
  · simp [whole,frames,ByteFrames.contentOf]
  · rw [replayed_snoc,held,Option.bind_some,taken]

variable {job : Job env} {s : ReceiptLedger env.lax env.sha256}

theorem lookup_calm (opened : Open env disk s) (fresh : s.receipt job.key = none) :
    ∃ after, job.lookup.act c ⟨disk,[]⟩ = (.ok none,⟨after,[]⟩) ∧ Open env after s := by
  have turned : job.lookup.turn (disk.targets job.lookup.target) = some (none,none) := by
    have found : getFor env.lax env.sha256 job.plan.1.id job.approval.1.id (disk.targets "receipts") = .ok none := by
      rw [getFor,opened.2]
      exact congrArg Except.ok fresh
    simp only [Job.lookup,found]
  obtain ⟨after,ran,closed,same⟩ := act_calm (c := c) opened.1 turned
  refine ⟨after,ran,closed,?_⟩
  rw [same]
  exact opened.2

theorem claim_calm (opened : Open env disk s) (identified : (isPlanId job.plan.1.id && isApprovalId job.approval.1.id && mutationText job.actor) = true)
    (fresh : s.claim job.key = none) :
    ∃ after s', job.claim.act c ⟨disk,[]⟩ = (.ok true,⟨after,[]⟩) ∧ Open env after s' ∧
      ∃ claim : ExecutionClaim, claim.key = job.key ∧ record s (.inl claim) = some s' := by
  let claim : ExecutionClaim := ⟨job.plan.1.id,job.approval.1.id,job.actor,job.now,identified⟩
  have turned : job.claim.turn (disk.targets "receipts") =
      some (true,some (ByteFrames.serialize (receiptCodec env.lax env.sha256) (.inl claim))) := by
    have absent : (s.claim (ExecutionClaim.key claim)).isSome = false := by
      rw [show claim.key = job.key from rfl,fresh]
      rfl
    have got : ReceiptStore.claim env.lax env.sha256 job.plan.1.id job.approval.1.id job.actor job.now (disk.targets "receipts") =
        .ok (true,some (ByteFrames.serialize (receiptCodec env.lax env.sha256) (.inl claim))) := by
      simp only [ReceiptStore.claim,ExecutionClaim.build,dif_pos identified,opened.2]
      rw [if_neg (by rw [absent]; decide)]
    simp only [Job.claim,got]
  have calm : ∃ after, job.claim.act c ⟨disk,[]⟩ = (.ok true,⟨after,[]⟩) ∧ after.journal = none ∧
      after.targets = Operation.extended disk.targets "receipts"
        (some (ByteFrames.serialize (receiptCodec env.lax env.sha256) (.inl claim))) := act_calm opened.1 turned
  obtain ⟨after,ran,closed,same⟩ := calm
  obtain ⟨claim',key,_,⟨impossible,_⟩ | ⟨_,frame,taken⟩⟩ := Job.claim_turn opened.2 turned
  · cases impossible
  · refine ⟨after,_,ran,⟨closed,?_⟩,claim',key,taken⟩
    rw [same,frame]
    simpa [Operation.extended,Job.claim] using decode_grown opened.2 taken

-- From its start a call comes to its dispatch when nothing stands against it.
theorem dispatched_alone (job : Job env) {log : List (Event env)} {target : RemoteObject} (earlier : Reached conforms c start ⟨disk,alone .idle,log⟩)
    (opened : Open env disk s)
    (accepted : job.executor.validatedInputs env conforms plans approvals job.plan.1.id job.approval.1.id job.actor = some (job.plan,job.approval))
    (timely : job.timely = true)
    (identified : (isPlanId job.plan.1.id && isApprovalId job.approval.1.id && mutationText job.actor) = true)
    (fresh : s.claim job.key = none) (shown : target.validate = true ∧ job.targetUnchanged target = true)
    (detached : detachedFrozen job.plan.1.arguments.1 = some arguments) :
    ∃ after s', Reached conforms c start ⟨after,alone (.awaiting job),log ++ [.claimed job] ++ [.dispatched job target arguments]⟩ ∧
      Open env after s' ∧ ∃ claim : ExecutionClaim, claim.key = job.key ∧ record s (.inl claim) = some s' := by
  have unreceived : s.receipt job.key = none := by
    rw [receipt_none]
    intro r member same
    obtain ⟨rs,_,held⟩ := (decode_iff _ s).mp opened.2
    obtain ⟨claim,there,key,_⟩ := (replayed_sound held).claimed r member
    exact claim_none.mp fresh claim there (key.trans same)
  have begun : Reached conforms c start ⟨disk,alone (.looking job),log ++ []⟩ := by
    apply reached_alone
      (.begin job.executor job.committer plans approvals job.plan.1.id job.approval.1.id job.actor job.now) earlier
    simp only [advance,begun,accepted]
  obtain ⟨looked,lookup,openLooked⟩ := lookup_calm (c := c) opened unreceived
  have claiming : Reached conforms c start ⟨looked,alone (.claiming job),log ++ [] ++ []⟩ := by
    apply reached_alone (.local "" []) begun
    simp only [advance,localStep,lookup,timely,if_true]
  obtain ⟨after,s',claimed,openAfter,claim,key,taken⟩ := claim_calm (c := c) openLooked identified fresh
  have fetching : Reached conforms c start ⟨after,alone (.fetching job),log ++ [] ++ [] ++ [.claimed job]⟩ := by
    apply reached_alone (.local "" []) claiming
    simp only [advance,localStep,claimed]
  refine ⟨after,s',?_,openAfter,claim,key,taken⟩
  have safely : fetchTargetSafely (.ok target) = .ok target := if_pos shown.1
  have awaiting : Reached conforms c start ⟨after,alone (.awaiting job),log ++ [] ++ [] ++ [.claimed job] ++ [.dispatched job target arguments]⟩ := by
    apply reached_alone (.target (.ok target)) fetching
    simp only [advance,safely,fetched,shown.2,if_true,detached]
  simpa using awaiting

end Calls

section Issue

theorem hash_numbers (v : Json) :
    canonicalHash Sha256.hexdigest v = "sha256:" ++ Sha256.Numbers.hexdigest (Utf8.encode (Json.text v)) := by
  rw [canonicalHash,Sha256.Numbers.hexdigest_numbers]

theorem issue_binding_hash : providerBindingHash plainEnv.sha256 issueBinding =
    "sha256:81943fabdea69a9df93a421a49d2ef80ff3d696415925acc1276438844fe5a16" := by
  refine (hash_numbers _).trans ?_
  decide +kernel

theorem issue_contract_hash : (issueDraft plainEnv false).writeContractHash =
    "sha256:1f0b18cec348e70e51beb737f4ed719b0cf47c1434a927e9db04b0f3a2576c5f" := by
  refine (hash_numbers _).trans ?_
  decide +kernel

theorem issue_plan_hash : plainEnv.planHash (issuePlan plainEnv false) =
    "sha256:65120ae2da90d6f03041b49e360a92519d361d82846c42fd1a4ef77eb3866a36" := by
  have drafted : issueDraft plainEnv false =
      { issueDraft plainEnv false with
        bindingHash := "sha256:81943fabdea69a9df93a421a49d2ef80ff3d696415925acc1276438844fe5a16"
        writeContractHash := "sha256:1f0b18cec348e70e51beb737f4ed719b0cf47c1434a927e9db04b0f3a2576c5f" } := by
    rw [←issue_binding_hash,←issue_contract_hash]
    rfl
  rw [WriteEnv.planHash,issuePlan,plan_sealed,drafted]
  refine (hash_numbers _).trans ?_
  decide +kernel

theorem issue_plan_id : (issuePlan plainEnv false).1.id =
    "write-plan:sha256:65120ae2da90d6f03041b49e360a92519d361d82846c42fd1a4ef77eb3866a36" := by
  have named : (issuePlan plainEnv false).1.id = "write-plan:" ++ plainEnv.planHash (issuePlan plainEnv false) := by
    rw [WriteEnv.planHash,issuePlan,plan_sealed]
    rfl
  rw [named,issue_plan_hash]
  decide +kernel

def hashedApprovalDraft (late : Bool) : ApprovalDraft :=
  { issueApprovalDraft plainEnv false late with
    planId := "write-plan:sha256:65120ae2da90d6f03041b49e360a92519d361d82846c42fd1a4ef77eb3866a36"
    planHash := "sha256:65120ae2da90d6f03041b49e360a92519d361d82846c42fd1a4ef77eb3866a36" }

theorem issue_approval_id (late : Bool) : (issueApproval plainEnv false late).1.id =
    "approval:" ++ ("sha256:" ++ Sha256.Numbers.hexdigest (Utf8.encode (Json.text ((hashedApprovalDraft late).material canonicalOnly)))) := by
  have drafted : issueApprovalDraft plainEnv false late = hashedApprovalDraft late := by
    rw [hashedApprovalDraft,←issue_plan_id,←issue_plan_hash]
    rfl
  rw [←hash_numbers,←drafted]
  rfl

-- Approved twice, a plan has two approvals.
theorem issue_approvals_differ : (issueApproval plainEnv false false).1.id ≠ (issueApproval plainEnv false true).1.id := by
  rw [issue_approval_id,issue_approval_id]
  decide +kernel

def issueCommitter : LocalWriteCommitter := ⟨["bob"],issueProfile,issueBinding,issuePolicy,by decide +kernel,by decide +kernel⟩

def issueJob (env : WriteEnv) (late : Bool) : Job env :=
  ⟨issueExecutor,issueCommitter,issuePlan env false,issueApproval env false late,"bob",morning 7⟩

-- The issue as its tracker shows it before the write.
def issueTarget : RemoteObject := ⟨"connector","tracker","1","issue","ISSUE-7","3",⟨[("status",.str "open")],open_formed⟩⟩

def issueArguments : Members := [("expected",.str "3"),("id",.str "ISSUE-7"),("status",.str "closed")]

def emptyDisk : Disk := ⟨none,fun _ => none,false⟩

theorem issue_timely (env : WriteEnv) (late : Bool) : (issueJob env late).timely = true := by
  have window : ((morning 0).1.instant ≤ (morning 7).1.instant ∧ (morning 7).1.instant < (morning 15).1.instant) ∧
      (granted late).1.instant ≤ (morning 7).1.instant ∧ (morning 7).1.instant < (lapsing late).1.instant := by
    cases late <;> decide +kernel
  simp only [Job.timely,Bool.and_eq_true,decide_eq_true_eq]
  exact ⟨⟨window.1,window.2.1⟩,window.2.2⟩

theorem issue_identified (env : WriteEnv) (late : Bool) :
    (isPlanId (issueJob env late).plan.1.id && isApprovalId (issueJob env late).approval.1.id && mutationText "bob") = true := by
  have bob : mutationText "bob" = true := by decide +kernel
  rw [bob,Bool.and_true,Bool.and_eq_true]
  exact ⟨hashed_plan env _,hashed_approval env _⟩

theorem issue_shown (env : WriteEnv) (late : Bool) : (issueJob env late).targetUnchanged issueTarget = true := by
  have same : Json.equal (.obj issueTarget.content.1) (.obj [("status",.str "open")]) = true := by decide +kernel
  simp only [Job.targetUnchanged,Job.shows,Bool.and_eq_true,beq_iff_eq]
  exact ⟨⟨⟨⟨⟨⟨rfl,rfl⟩,rfl⟩,rfl⟩,rfl⟩,rfl⟩,same⟩

def issuePlans (env : WriteEnv) : Option Utf8.Bytes :=
  LedgerReader.append none ((WritePlan.codec env.lax env.sha256).dump (issuePlan env false))

-- The approval ledger after the first approval and after the second.
def issueGrants (env : WriteEnv) (late : Bool) : Option Utf8.Bytes :=
  let first := LedgerReader.append none ((ApprovalRecord.codec env.lax env.sha256).dump (issueApproval env false false))
  if late then LedgerReader.append first ((ApprovalRecord.codec env.lax env.sha256).dump (issueApproval env false true)) else first

theorem issue_granted (env : WriteEnv) : ∃ shown,
    ImmutableStore.decode (approvalModel env.lax env.sha256) (issueGrants env false) = .ok [⟨issueApproval env false false,shown⟩] := by
  have empty : ImmutableStore.decode (approvalModel env.lax env.sha256) none = .ok [] := rfl
  exact ImmutableStore.decode_added (approvalModel env.lax env.sha256) (approval_finite env.lax) empty rfl rfl
    (issue_approval_unbroken env false false)

theorem issue_again (env : WriteEnv) (differ : (issueApproval env false false).1.id ≠ (issueApproval env false true).1.id) :
    ImmutableStore.put (approvalModel env.lax env.sha256) (issueGrants env false) (issueApproval env false true) =
      .ok (issueGrants env true,true) := by
  obtain ⟨shown,read⟩ := issue_granted env
  have differ' : (approvalModel env.lax env.sha256).id (issueApproval env false false) ≠
      (approvalModel env.lax env.sha256).id (issueApproval env false true) := differ
  have absent : ImmutableStore.find (approvalModel env.lax env.sha256) [⟨issueApproval env false false,shown⟩]
      ((approvalModel env.lax env.sha256).id (issueApproval env false true)) = none := by
    simpa [ImmutableStore.find] using differ'
  have result : ImmutableStore.putResult (approvalModel env.lax env.sha256) (issueGrants env false) (issueApproval env false true) =
      .added (issueGrants env true) := by
    simp only [ImmutableStore.putResult,read,absent]
    rfl
  simp only [ImmutableStore.put,result]

theorem issue_accepted (env : WriteEnv) (late : Bool) (granted : ∃ approvals,
      ImmutableStore.put (approvalModel env.lax env.sha256) approvals (issueApproval env false late) = .ok (issueGrants env late,true) ∧
        LedgerReader.pending approvals = []) :
    issueExecutor.validatedInputs env (fun _ _ => true) (issuePlans env) (issueGrants env late) (issuePlan env false).1.id
      (issueApproval env false late).1.id "bob" = some (issuePlan env false,issueApproval env false late) := by
  have planned : ImmutableStore.put (writePlanModel env.lax env.sha256) none (issuePlan env false) = .ok (issuePlans env,true) := rfl
  have replayable : Replayable (issuePlan env false).1 := ⟨(by decide +kernel : Flat [("status",newStatus false)]),by rfl⟩
  obtain ⟨approvals,granted,closed⟩ := granted
  exact (accepts_stored env (fun _ _ => true) issueExecutor (issue_planned env false) (issue_approved env false late)
      (issue_entitled env false late) planned granted).mpr
    ⟨replayable,⟨rfl,issue_plan_unbroken env false⟩,closed,issue_approval_unbroken env false late⟩

variable {late : Bool} {log : List (Event plainEnv)} {disk : Disk} {s : ReceiptLedger plainEnv.lax plainEnv.sha256}

theorem issue_dispatched (earlier : Reached (fun _ _ => true) runtimeCoordinator emptyDisk ⟨disk,alone .idle,log⟩)
    (opened : Open plainEnv disk s) (fresh : s.claim (issueJob plainEnv late).key = none)
    (accepted : issueExecutor.validatedInputs plainEnv (fun _ _ => true) (issuePlans plainEnv) (issueGrants plainEnv late)
      (issuePlan plainEnv false).1.id (issueApproval plainEnv false late).1.id "bob" =
        some (issuePlan plainEnv false,issueApproval plainEnv false late)) :
    ∃ after s', Reached (fun _ _ => true) runtimeCoordinator emptyDisk ⟨after,alone (.awaiting (issueJob plainEnv late)),
        log ++ [.claimed (issueJob plainEnv late)] ++ [.dispatched (issueJob plainEnv late) issueTarget issueArguments]⟩ ∧
      Open plainEnv after s' ∧ ∃ claim : ExecutionClaim, claim.key = (issueJob plainEnv late).key ∧ record s (.inl claim) = some s' := by
  have valid : issueTarget.validate = true := by decide +kernel
  exact dispatched_alone (issueJob plainEnv late) earlier opened accepted (issue_timely plainEnv late)
    (issue_identified plainEnv late) fresh ⟨valid,issue_shown plainEnv late⟩ rfl

theorem issue_first : ∃ after s', Reached (fun _ _ => true) runtimeCoordinator emptyDisk ⟨after,alone (.awaiting (issueJob plainEnv false)),
      [.claimed (issueJob plainEnv false),.dispatched (issueJob plainEnv false) issueTarget issueArguments]⟩ ∧ Open plainEnv after s' ∧
    ∃ claim : ExecutionClaim, claim.key = (issueJob plainEnv false).key ∧ record ⟨[],[]⟩ (.inl claim) = some s' := by
  have started : Reached (fun _ _ => true) runtimeCoordinator emptyDisk ⟨emptyDisk,alone .idle,([] : List (Event plainEnv))⟩ := by
    have idle : (alone .idle : Nat → Stage plainEnv) = fun _ => .idle := by
      funext other
      simp [alone]
    rw [idle]
    exact .start
  exact issue_dispatched started ⟨rfl,rfl⟩ rfl (issue_accepted plainEnv false ⟨none,rfl,rfl⟩)

theorem empty_formed : (Json.obj []).WellFormed := by decide

theorem version_named : mutationText "4" = true := by decide +kernel

def issueResult : WriteResult := ⟨"4",⟨[],empty_formed⟩,version_named⟩

theorem issue_returned (reached : Reached (fun _ _ => true) runtimeCoordinator emptyDisk ⟨disk,alone (.awaiting (issueJob plainEnv false)),log⟩) :
    Reached (fun _ _ => true) runtimeCoordinator emptyDisk
      ⟨disk,alone .idle,log ++ [.returned (issueJob plainEnv false) issueResult]⟩ := by
  have verifying : Reached (fun _ _ => true) runtimeCoordinator emptyDisk
      ⟨disk,alone (.verifying (issueJob plainEnv false) issueResult),log ++ [.returned (issueJob plainEnv false) issueResult]⟩ := by
    apply reached_alone (.written (.ok issueResult)) reached
    have moved : executeProviderSafely (issueJob plainEnv false).plan.1.beforeVersion (.ok issueResult) = .ok issueResult := by
      have version : issueResult.resultingVersion ≠ "3" := by decide
      simp only [executeProviderSafely]
      exact if_neg version
    simp only [advance,moved,answered]
  have ended : Reached (fun _ _ => true) runtimeCoordinator emptyDisk
      ⟨disk,alone .idle,log ++ [.returned (issueJob plainEnv false) issueResult] ++ []⟩ :=
    reached_alone (.target .providerFailure) verifying rfl
  rwa [List.append_nil] at ended

-- The first write returns and its read-back fails; then the second approval
-- writes the plan once more.
theorem issue_second : ∃ after, Reached (fun _ _ => true) runtimeCoordinator emptyDisk ⟨after,alone (.awaiting (issueJob plainEnv true)),
    [.claimed (issueJob plainEnv false),.dispatched (issueJob plainEnv false) issueTarget issueArguments,
      .returned (issueJob plainEnv false) issueResult,.claimed (issueJob plainEnv true),
      .dispatched (issueJob plainEnv true) issueTarget issueArguments]⟩ := by
  obtain ⟨disk,s,first,opened,owner,key,taken⟩ := issue_first
  have fresh : s.claim (issueJob plainEnv true).key = none := by
    obtain ⟨_,_,rfl⟩ := (record_claim ⟨[],[]⟩ owner).mp taken
    rw [claim_none]
    intro other member same
    rw [List.mem_singleton.mp member,key] at same
    exact issue_approvals_differ (Prod.mk.inj same).2
  have closed : LedgerReader.pending (issueGrants plainEnv false) = [] :=
    (ImmutableStore.reader (approvalModel plainEnv.lax plainEnv.sha256)).pending_append rfl _
  obtain ⟨after,_,last,_⟩ := issue_dispatched (issue_returned first) opened fresh
    (issue_accepted plainEnv true ⟨_,issue_again plainEnv issue_approvals_differ,closed⟩)
  exact ⟨after,last⟩

end Issue

section Accounts

variable {env : WriteEnv} {conforms : Json → Json.Members → Bool} {c : Coordinator} {start : Disk} {m : Machine env}
variable {job job' : Job env} {target target' : RemoteObject} {arguments arguments' : Members} {earlier between later : List (Event env)}

-- Whatever starts, stops or interleaves: a write is dispatched only for a pair
-- this call has claimed, once, and onto the version it was planned for; the
-- claim stays in the ledger; the ledger has one claim and one receipt for a pair;
-- and neither a success nor a commit comes without a matching read-back.
theorem execution_accounted (reached : Reached conforms c start m) :
    Ordered m.log ∧
    (∀ job, .claimed job ∈ m.log → ∃ s, Keeps env c m.disk s ∧ ∃ claim ∈ s.claims, claim.key = job.key ∧ claim.actor = job.actor) ∧
    (∀ contents s, effective c m.disk = some contents → decode env.lax env.sha256 (contents "receipts") = some s → s.Sound) ∧
    (∀ r, Recorded env c m.disk r → r.1.status = .succeeded → Recorded env c start r ∨
      ∃ job result target, .verified job result target ∈ m.log ∧ r.1.key = job.key ∧ r.1.executedBy = job.actor ∧
        r.1.resultingVersion = some result.resultingVersion) ∧
    ∀ thread move contents, effective c m.disk = some contents →
      (∃ left, effective c (m.step conforms c thread move).disk = some left ∧ ∀ name ≠ "receipts", left name = contents name) ∨
      ∃ job result receipt target, m.stages thread = .committing job result receipt ∧ .verified job result target ∈ m.log := by
  obtain ⟨given,standing,recorded⟩ := standing_exists start
  obtain ⟨s,stands,accounted⟩ := reached_accounted standing reached
  refine ⟨accounted.ordered,?_,?_,?_,?_⟩
  · intro job member
    obtain ⟨claim,there,owned⟩ := accounted.claims job member
    rcases stands with keeps | ⟨_,rfl⟩
    · exact ⟨s,keeps,claim,there,owned⟩
    · cases there
  · intro contents found _ read
    obtain ⟨rs,_,held⟩ := (decode_iff _ found).mp read
    exact replayed_sound held
  · rintro r ⟨contents,found,settled,read,member⟩ succeeded
    cases standing_decoded stands settled read
    rcases accounted.successes r member succeeded with first | verified
    · exact .inl (recorded r first)
    · exact .inr verified
  · intro thread move contents settled
    rcases advance_frame conforms (m.stages thread) move settled with kept | ⟨job,result,receipt,stage⟩
    · exact .inl kept
    · have fits := accounted.fits thread
      rw [stage] at fits
      obtain ⟨⟨target,verified⟩,_⟩ := fits
      exact .inr ⟨job,result,receipt,target,stage,verified⟩

theorem issue_claim_kept : ∃ after s, Keeps plainEnv runtimeCoordinator after s ∧
    ∃ claim ∈ s.claims, claim.key = (issueJob plainEnv false).key ∧ claim.actor = "bob" := by
  obtain ⟨after,_,reached,_⟩ := issue_first
  obtain ⟨_,claimed,_⟩ := execution_accounted reached
  exact ⟨after,claimed (issueJob plainEnv false) (by simp)⟩

-- A plan is dispatched again only under another approval, which is valid, which
-- this call has claimed, and with the object read again as it was planned for.
theorem plan_dispatched_again (reached : Reached conforms c start m)
    (split : m.log = earlier ++ .dispatched job target arguments :: between ++ .dispatched job' target' arguments' :: later)
    (same : job'.plan.1.id = job.plan.1.id) :
    job'.approval.1.id ≠ job.approval.1.id ∧ Validated conforms job' ∧
      .claimed job' ∈ earlier ++ .dispatched job target arguments :: between ∧ job'.targetUnchanged target' = true := by
  obtain ⟨given,standing,_⟩ := standing_exists start
  obtain ⟨s,_,accounted⟩ := reached_accounted standing reached
  obtain ⟨claimed,single,unchanged,_⟩ := accounted.ordered _ _ _ split
  refine ⟨?_,?_,claimed,unchanged⟩
  · intro also
    exact single job target arguments (by simp) (Prod.ext same.symm also.symm)
  · exact (reached_validated reached).2 job' target' arguments' (by simp [split])

theorem issue_plan_again : (issueApproval plainEnv false true).1.id ≠ (issueApproval plainEnv false false).1.id ∧
    Validated (fun _ _ => true) (issueJob plainEnv true) := by
  obtain ⟨_,reached⟩ := issue_second
  have split (log : List (Event plainEnv)) (first second : Event plainEnv) (a b d : Event plainEnv) (same : log = [a,first,b,d,second]) :
      log = [a] ++ first :: [b,d] ++ second :: [] := same
  have again := plan_dispatched_again reached (split _ _ _ _ _ _ rfl) rfl
  exact ⟨again.1,again.2.1⟩

theorem issue_written_twice :
    ¬ ∀ (env : WriteEnv) (conforms : Json → Members → Bool) (c : Coordinator) (start : Disk) (m : Machine env), Reached conforms c start m →
      ∀ (earlier later : List (Event env)) (job job' : Job env) (target target' : RemoteObject) (arguments arguments' : Members)
        (result : WriteResult), m.log = earlier ++ .dispatched job target arguments :: later → .returned job result ∈ later →
        .dispatched job' target' arguments' ∈ later → job'.plan.1.id ≠ job.plan.1.id := by
  intro claim
  obtain ⟨_,reached⟩ := issue_second
  exact claim _ _ _ _ _ reached [.claimed (issueJob plainEnv false)] _ (issueJob plainEnv false) (issueJob plainEnv true) _ issueTarget _
    issueArguments issueResult rfl (by simp) (by simp) rfl

end Accounts

end WriteExecutor
