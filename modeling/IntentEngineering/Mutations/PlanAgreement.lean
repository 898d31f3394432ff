import IntentEngineering.Mutations.Executor
import IntentEngineering.Storage.ReplayAgreement
import IntentEngineering.Stores.CaseLifecycle
import IntentEngineering.Stores.LedgerFraming

open Schema Json JsonLines LedgerReader

namespace Json

theorem amount_self {x : Binary64.Float64} (finite : allFinite (.float x) = true) : (floatAmount x).equal (floatAmount x) = true := by
  cases x with
  | finite x => simp [floatAmount,Amount.equal]
  | infinite => cases finite
  | nan => cases finite

-- Read back into its frozen form a value equals itself unless it holds an array.
mutual
theorem equalsFrozen_self : ∀ v : Json, allFinite v = true → equalsFrozen v v = withoutArrays v
  | .null, _ => rfl
  | .bool _, _ => by simp [equalsFrozen,equal,scalarEqual,amount,Amount.equal,withoutArrays]
  | .int _, _ => by simp [equalsFrozen,equal,scalarEqual,amount,Amount.equal,withoutArrays]
  | .float _, finite => by simp [equalsFrozen,equal,scalarEqual,amount,amount_self finite,withoutArrays]
  | .str _, _ => by simp [equalsFrozen,equal,withoutArrays]
  | .arr _, _ => rfl
  | .obj ms, finite => membersEqualFrozen_self ms finite

theorem membersEqualFrozen_self : ∀ ms : List (String × Json), allFiniteMembers ms = true →
    equalsFrozenMembers ms ms = membersWithoutArrays ms
  | [], _ => rfl
  | (k,v) :: ms, finite => by
    simp only [allFiniteMembers,Bool.and_eq_true] at finite
    simp [equalsFrozenMembers,membersWithoutArrays,equalsFrozen_self v finite.1,membersEqualFrozen_self ms finite.2]
end

-- Every value of a dictionary is a text, a number, a flag or null.
def Flat (ms : Members) : Prop := ∀ m ∈ ms, m.2.isScalar = true

instance (ms : Members) : Decidable (Flat ms) := inferInstanceAs (Decidable (∀ m ∈ ms, m.2.isScalar = true))

theorem allFiniteMembers_all (ms : Members) : allFiniteMembers ms = ms.all fun m => m.2.allFinite := by
  induction ms with
  | nil => rfl
  | cons m ms ih => simp [allFiniteMembers,ih]

theorem detachedFrozen_flat {ms : Members} (finite : allFiniteMembers ms = true) :
    detachedFrozen ms = if Flat ms then some ms else none := by
  rw [allFiniteMembers_all,List.all_eq_true] at finite
  have same : (ms.all fun m => m.2.isScalar && m.2.allFinite) = true ↔ Flat ms := by
    simp only [List.all_eq_true,Bool.and_eq_true,Flat]
    exact ⟨fun both m member => (both m member).1,fun flat m member => ⟨flat m member,finite m member⟩⟩
  simp only [detachedFrozen,same]

end Json

namespace ImmutableStore

variable {ρ : Type} (model : RecordModel ρ)

theorem put_added (got : put model content fresh = .ok (content',true)) :
    ∃ s, decode model content = .ok s ∧ find model s (model.id fresh) = none ∧
      content' = LedgerReader.append content (model.codec.dump fresh) := by
  simp only [put,putResult] at got
  cases read : decode model content with
  | error e => simp [read] at got
  | ok s =>
    simp only [read] at got
    cases known : find model s (model.id fresh) with
    | none =>
      simp only [known,Except.ok.injEq,Prod.mk.injEq] at got
      exact ⟨s,rfl,known,got.1.symm⟩
    | some existing =>
      cases same : model.equal existing.record fresh <;> simp [known,same] at got

theorem decode_added {s : List (StoredRecord ρ)} (finite : ∀ r, allFinite (model.codec.dump r) = true)
    (read : decode model content = .ok s) (absent : find model s (model.id fresh) = none) (closed : pending content = [])
    (unbroken : Unbroken (model.codec.dump fresh)) :
    ∃ shown, decode model (LedgerReader.append content (model.codec.dump fresh)) = .ok (s ++ [⟨fresh,shown⟩]) := by
  have clear : Blank (pending content) := by simp [closed,Blank]
  obtain ⟨n,shown,grown⟩ := (reader model).read_append read (model.objects fresh) (model.codec.formed fresh) clear
    ⟨unbroken,.inr (finite fresh)⟩
  exact ⟨shown,grown.trans (record_fresh model absent shown)⟩

-- What is put is found again, or nothing is.
theorem get_put (finite : ∀ r, allFinite (model.codec.dump r) = true) (got : put model content fresh = .ok (content',true)) :
    get model content' (model.id fresh) =
      if pending content = [] ∧ Unbroken (model.codec.dump fresh) then some fresh else none := by
  obtain ⟨s,read,absent,rfl⟩ := put_added model got
  by_cases good : pending content = [] ∧ Unbroken (model.codec.dump fresh)
  · obtain ⟨shown,taken⟩ := decode_added model finite read absent good.1 good.2
    have found : find model (s ++ [⟨fresh,shown⟩]) (model.id fresh) = some ⟨fresh,shown⟩ := by
      rw [find] at absent ⊢
      simp [List.find?_append,absent]
    simp [get,taken,found,good]
  · have bad : ¬ (Blank (pending content) ∧ (reader model).Legible (model.codec.dump fresh)) := by
      rintro ⟨blank,legible⟩
      exact good ⟨(reader model).pending_nil rfl read blank,legible.1⟩
    obtain ⟨n,torn⟩ := (reader model).read_append_torn read (model.objects fresh) (model.codec.formed fresh) bad []
    rw [List.append_nil] at torn
    have refused : decode model (LedgerReader.append content (model.codec.dump fresh)) = .error () := torn
    simp [get,refused,good]

end ImmutableStore

namespace WriteExecutor

variable {env : WriteEnv} {conforms : Json → Json.Members → Bool}
variable {executor : WriteExecutor} {plan : env.Plan} {approval : env.Approval}

-- An executor may act under its own policy.
structure Entitled (policy : WritePolicy) (actor : String) : Prop where
  known : policy.authorizedExecutors.all PyText.hasText = true
  executor : actor ∈ policy.authorizedExecutors

-- What the second binding of the arguments can make of the frozen plan.
def Replayable (plan : WritePlanDraft) : Prop := Flat plan.after.1 ∧ withoutArrays (.obj plan.arguments.1) = true

instance (plan : WritePlanDraft) : Decidable (Replayable plan) :=
  inferInstanceAs (Decidable (Flat plan.after.1 ∧ withoutArrays (.obj plan.arguments.1) = true))

theorem plan_objects_finite (plan : env.Plan) :
    allFiniteMembers plan.1.before.1 = true ∧ allFiniteMembers plan.1.after.1 = true ∧ allFiniteMembers plan.1.arguments.1 = true := by
  have valid := plan.2
  simp only [WritePlanDraft.validatePlan,Bool.and_eq_true] at valid
  have objects : plan.1.finiteObjects = true := valid.1.1.1.1.1.1.1.1.1.2
  simpa [WritePlanDraft.finiteObjects] using objects

theorem matches_arguments {profile : ProviderProfile} {binding : ProviderBinding} {policy : WritePolicy}
    (fits : plan.1.Contracted env conforms profile binding policy operation) :
    matchesArguments env conforms plan operation = true ↔ Replayable plan.1 := by
  obtain ⟨_,after,arguments⟩ := plan_objects_finite plan
  have same : equalsFrozen (.obj plan.1.arguments.1) (.obj plan.1.arguments.1) = withoutArrays (.obj plan.1.arguments.1) :=
    equalsFrozen_self (.obj plan.1.arguments.1) arguments
  rw [matchesArguments,detachedFrozen_flat after]
  by_cases flat : Flat plan.1.after.1
  · simp [flat,fits.conforming,fits.arguments,same,Replayable]
  · simp [flat,Replayable]

variable {approvers : List String} {identityAliases : IdentityAliases}

-- The executor's own policy knows the creator as well.
theorem authenticated_again {profile : ProviderProfile} {binding : ProviderBinding} {policy : WritePolicy}
    (fits : plan.1.Contracted env conforms profile binding policy operation)
    (grants : approval.1.Grants env plan binding policy.authorizedApprovers policy.identityAliases) :
    authenticatedApprovalAliases env.sha256 plan.1 binding approval.1.actor policy = some approval.1.actorAliases := by
  have h := grants.authenticated
  rw [authenticated_iff]
  exact ⟨h.named,⟨fits.known,h.known.2⟩,fits.contributor,h.approver,h.other,h.unopposed,h.profile,h.bound,h.creator,h.person,h.apart,
    h.clear⟩

theorem validates_iff (fits : plan.1.Contracted env conforms executor.profile executor.binding executor.policy operation)
    (grants : approval.1.Grants env plan executor.binding executor.policy.authorizedApprovers executor.policy.identityAliases)
    (entitled : Entitled executor.policy approval.1.actor) :
    executor.validates env conforms plan approval approval.1.actor = true ↔ Replayable plan.1 := by
  have approver := grants.authenticated
  have matched : executor.matchesApproval env plan approval approval.1.actor = true := by
    simp [matchesApproval,fits.known,approver.known.2,entitled.known,fits.bound,fits.contributor,approver.approver,entitled.executor,
      grants.subject,grants.window,fits.identity,fits.hashed]
  have contract : executor.matchesContract env plan operation = true := by
    simp [matchesContract,fits.target,fits.tool,fits.contract]
  simp [validates,matched,fits.found,contract,authenticated_again fits grants,matches_arguments fits]

end WriteExecutor

section Agreement

variable (env : WriteEnv) (conforms : Json → Json.Members → Bool) (executor : WriteExecutor)
variable {planRequest : PlanRequest} {approvalRequest : ApprovalRequest} {plan : env.Plan} {approval : env.Approval}

theorem accepts_found (planned : planRequest.buildWritePlan env conforms executor.profile executor.binding executor.policy = some plan)
    (approved : approvalRequest.approvePlan env plan executor.binding executor.policy.authorizedApprovers
      executor.policy.identityAliases = some approval)
    (entitled : WriteExecutor.Entitled executor.policy approval.1.actor)
    (planFound : ImmutableStore.get (writePlanModel env.lax env.sha256) plans plan.1.id = some plan)
    (approvalFound : ImmutableStore.get (approvalModel env.lax env.sha256) approvals approval.1.id = some approval) :
    executor.validatedInputs env conforms plans approvals plan.1.id approval.1.id approval.1.actor = some (plan,approval) ↔
      WriteExecutor.Replayable plan.1 := by
  obtain ⟨operation,fits⟩ := PlanRequest.build_contracted planned
  have accepted := WriteExecutor.validates_iff fits (ApprovalRequest.approve_grants approved) entitled
  simp [WriteExecutor.validatedInputs,planFound,approvalFound,accepted]

theorem accepts_stored (planned : planRequest.buildWritePlan env conforms executor.profile executor.binding executor.policy = some plan)
    (approved : approvalRequest.approvePlan env plan executor.binding executor.policy.authorizedApprovers
      executor.policy.identityAliases = some approval)
    (entitled : WriteExecutor.Entitled executor.policy approval.1.actor)
    (planPut : ImmutableStore.put (writePlanModel env.lax env.sha256) plans plan = .ok (plans',true))
    (approvalPut : ImmutableStore.put (approvalModel env.lax env.sha256) approvals approval = .ok (approvals',true)) :
    executor.validatedInputs env conforms plans' approvals' plan.1.id approval.1.id approval.1.actor = some (plan,approval) ↔
      WriteExecutor.Replayable plan.1 ∧
        (pending plans = [] ∧ Unbroken ((WritePlan.codec env.lax env.sha256).dump plan)) ∧
        pending approvals = [] ∧ Unbroken ((ApprovalRecord.codec env.lax env.sha256).dump approval) := by
  have planFound : ImmutableStore.get (writePlanModel env.lax env.sha256) plans' plan.1.id =
      if pending plans = [] ∧ Unbroken ((WritePlan.codec env.lax env.sha256).dump plan) then some plan else none :=
    ImmutableStore.get_put (writePlanModel env.lax env.sha256) (plan_finite env.lax) planPut
  have approvalFound : ImmutableStore.get (approvalModel env.lax env.sha256) approvals' approval.1.id =
      if pending approvals = [] ∧ Unbroken ((ApprovalRecord.codec env.lax env.sha256).dump approval) then some approval else none :=
    ImmutableStore.get_put (approvalModel env.lax env.sha256) (approval_finite env.lax) approvalPut
  by_cases planKept : pending plans = [] ∧ Unbroken ((WritePlan.codec env.lax env.sha256).dump plan)
  · rw [if_pos planKept] at planFound
    by_cases approvalKept : pending approvals = [] ∧ Unbroken ((ApprovalRecord.codec env.lax env.sha256).dump approval)
    · rw [if_pos approvalKept] at approvalFound
      rw [accepts_found env conforms executor planned approved entitled planFound approvalFound]
      exact ⟨fun replayable => ⟨replayable,planKept,approvalKept⟩,And.left⟩
    · rw [if_neg approvalKept] at approvalFound
      simp [WriteExecutor.validatedInputs,planFound,approvalFound,approvalKept]
  · rw [if_neg planKept] at planFound
    simp [WriteExecutor.validatedInputs,planFound,planKept]

end Agreement

section Issue

theorem hashed (env : WriteEnv) (kind : String) (message : Utf8.Bytes) : isPrefixedHash kind (kind ++ env.sha256 message) = true := by
  simp only [isPrefixedHash,String.toList_append,List.drop_left,env.hexadecimal,Bool.and_true]
  exact List.isPrefixOf_iff_prefix.mpr (List.prefix_append _ _)

theorem hashed_plan (env : WriteEnv) (material : Json) : isPlanId ("write-plan:" ++ canonicalHash env.sha256 material) = true := by
  rw [canonicalHash,←String.append_assoc]
  exact hashed env "write-plan:sha256:" _

theorem hashed_approval (env : WriteEnv) (material : Json) : isApprovalId ("approval:" ++ canonicalHash env.sha256 material) = true := by
  rw [canonicalHash,←String.append_assoc]
  exact hashed env "approval:sha256:" _

instance sixty_positive : NeZero 60 := ⟨by decide⟩

def morning (minute : Fin 60) : UtcTime :=
  ⟨⟨2026,1,6,10,minute,0,0,some 0,⟨by decide,by decide,by decide,⟨by decide,minute.isLt,by decide,by decide⟩,by decide⟩⟩,rfl⟩

-- A case about an issue that its tracker says is open.
def issueCase : ReconciliationCase where
  id := "case:1"
  subjectRef := "tracker:ISSUE-7"
  caseType := .conflictingSources
  affectedRefs := []
  evidenceSides := [⟨"tracker","open",["evidence:1"],(morning 0).1,["carol"],certain,.explicit,true,cited_once,by decide⟩]
  detectorId := "detector"
  fingerprint := String.ofList (List.replicate 64 'a')
  createdAt := (morning 0).1
  createdBy := "alice"
  status := .needsHuman
  requiresHuman := true
  alternatives := []
  impact := ""
  resolution := none
  resolvedByChangeset := none
  history := [⟨"alice",(morning 0).1,.opened,.proposed,alice_named⟩,⟨"alice",(morning 0).1,.proposed,.needsHuman,alice_named⟩]
  printed := fingerprint_printed
  attributed := alice_named
  valid := by decide

theorem open_formed : (Json.obj [("status",.str "open")]).WellFormed := by decide

def issueSchema : Json := .obj [
  ("additionalProperties",.bool false),
  ("properties",.obj [("status",.obj [])]),
  ("type",.str "object")]

def issueOperation : WriteOperationProfile where
  targetObject := "issue"
  allowedFields := ["status"]
  arguments := ⟨[("expected",.context "before_version"),("id",.context "target_id"),("status",.field "status")],by decide⟩
  inputSchema := issueSchema
  record := .obj [
    ("allowed_fields",.arr [.str "status"]),
    ("arguments",.obj [
      ("expected",.obj [("source",.str "before_version")]),
      ("id",.obj [("source",.str "target_id")]),
      ("status",.obj [("field",.str "status"),("source",.str "field")])]),
    ("before_version",.obj [("path",.str "$.version"),("required",.bool true),("transforms",.arr [])]),
    ("input_schema",issueSchema),
    ("result_version",.obj [("path",.str "$.version"),("required",.bool true),("transforms",.arr [])]),
    ("semantic_name",.str "update_issue"),
    ("target_id",.obj [("path",.str "$.id"),("required",.bool true),("transforms",.arr [])]),
    ("target_object",.str "issue")]

def issueProfile : ProviderProfile where
  id := "tracker"
  version := "1"
  operations := ⟨[("read_issue",.tool)],by decide⟩
  writes := ⟨[("update_issue",issueOperation)],by decide⟩

def issueBinding : ProviderBinding where
  profileId := "tracker"
  profileVersion := "1"
  tools := ⟨[("read_issue","get"),("update_issue","update")],by decide⟩
  resources := ⟨[],by decide⟩
  actorPrincipals := ⟨[("alice",["alice@tracker"]),("bob",["bob@tracker"])],by decide⟩

def issuePolicy : WritePolicy where
  authorizedContributors := ["alice"]
  authorizedApprovers := ["bob"]
  authorizedExecutors := ["bob"]
  identityAliases := ⟨[("alice",["alice","alice@tracker"]),("bob",["bob","bob@tracker"])],by decide⟩

def issueExecutor : WriteExecutor := ⟨issueProfile,issueBinding,issuePolicy⟩

-- The new status, as a text or as a list.
def newStatus (listed : Bool) : Json := if listed then .arr [.str "closed"] else .str "closed"

def statusFields (listed : Bool) : Payload := ⟨[("status",newStatus listed)],by cases listed <;> decide⟩

def issueRequest (listed : Bool) : PlanRequest where
  case := issueCase
  operationName := "update_issue"
  current := ⟨"connector","tracker","1","issue","ISSUE-7","3",⟨[("status",.str "open")],open_formed⟩⟩
  requestedFields := statusFields listed
  actor := "alice"
  resolutionAction := .updateImplementation
  now := morning 0

def issueDraft (env : WriteEnv) (listed : Bool) : WritePlanDraft where
  id := ""
  caseId := "case:1"
  connectorId := "connector"
  profileId := "tracker"
  profileVersion := "1"
  objectType := "issue"
  targetRef := "tracker:ISSUE-7"
  bindingHash := providerBindingHash env.sha256 issueBinding
  writeContractHash := canonicalHash env.sha256 (.obj [
    ("operation",issueOperation.record),
    ("profile_id",.str "tracker"),
    ("profile_version",.str "1"),
    ("provider_operation",.str "update"),
    ("semantic_name",.str "update_issue")])
  operation := "update_issue"
  providerOperation := "update"
  resolutionAction := .updateImplementation
  targetId := "ISSUE-7"
  beforeVersion := "3"
  before := ⟨[("status",.str "open")],open_formed⟩
  after := statusFields listed
  arguments := ⟨[("expected",.str "3"),("id",.str "ISSUE-7"),("status",newStatus listed)],by cases listed <;> decide⟩
  evidenceRefs := ["evidence:1"]
  conflictingAuthors := ["carol"]
  createdBy := "alice"
  createdByAliases := ["alice","alice@tracker"]
  createdAt := morning 0
  expiresAt := morning 15

theorem issue_contract (env : WriteEnv) :
    providerWriteContractHash env.sha256 issueProfile issueBinding "update_issue" = some (issueDraft env false).writeContractHash := by
  have bound : issueBinding.validateAgainst issueProfile = true := by decide
  have found : issueProfile.writes.get "update_issue" = some issueOperation := by simp [Named.get,issueProfile]
  have tool : issueBinding.tools.get "update_issue" = some "update" := by decide
  simp [providerWriteContractHash,bound,found,tool]
  rfl

theorem issue_drafted (env : WriteEnv) (listed : Bool) :
    (issueRequest listed).draft env (fun _ _ => true) issueProfile issueBinding issuePolicy = some (issueDraft env listed) := by
  have admitted : (issueRequest listed).admits issueProfile issueBinding issuePolicy = true := by cases listed <;> decide
  have allowed : (issueRequest listed).allows issueProfile issueOperation = true := by cases listed <;> decide
  have found : issueProfile.writes.get "update_issue" = some issueOperation := by simp [Named.get,issueProfile]
  have principals : issueBinding.actorPrincipals.get "alice" = some ["alice@tracker"] := by decide
  have changed : Json.equal (.obj (Json.overlay (issueRequest listed).current.content (issueRequest listed).requestedFields).1)
    (.obj (issueRequest listed).current.content.1) = false := by cases listed <;> decide
  have contract := issue_contract env
  have tool : issueBinding.tools.get "update_issue" = some "update" := by decide
  have aliases : identityAliasesFor issuePolicy.identityAliases "alice" ["alice@tracker"] = some ["alice","alice@tracker"] := by
    decide
  have expiry : (morning 0).later PlanRequest.defaultExpiry = some (morning 15) := by decide
  have arguments : bindArguments issueOperation.arguments "ISSUE-7" "3" [("status",newStatus listed)] =
      some (issueDraft env listed).arguments.1 := by cases listed <;> rfl
  have overlaid : Json.overlay (issueRequest listed).current.content (issueRequest listed).requestedFields = statusFields listed := by
    cases listed <;> rfl
  have requested : Json.detached (issueRequest listed).requestedFields.1 = some (statusFields listed).1 := by cases listed <;> rfl
  have current : Json.detachedFrozen (issueRequest listed).current.content.1 = some [("status",.str "open")] := by rfl
  have formed := (issueDraft env listed).arguments.2
  have evidence : (issueRequest listed).case.allEvidenceRefs = ["evidence:1"] := by cases listed <;> decide
  have authors : (issueRequest listed).case.conflictingAuthors = ["carol"] := by cases listed <;> decide
  rw [overlaid] at changed
  simp only [PlanRequest.draft,Option.bind_eq_bind,Option.bind_eq_some_iff,Option.guard_eq_some',overlaid,evidence,authors]
  refine ⟨(),admitted,issueOperation,found,_,principals,(),by simp [allowed],_,requested,_,current,(),by simp [changed],(),trivial,_,
    arguments,_,contract,_,tool,_,aliases,_,expiry,?_⟩
  rw [dif_pos formed]
  rfl

-- The identifier is not part of what it hashes.
theorem plan_sealed (env : WriteEnv) (d : WritePlanDraft) :
    (PlanRequest.identified env d).material env.lax = d.material env.lax := by
  change Json.obj (((WritePlanDraft.fields env.lax).dump _).filter fun m => m.1 != "id") =
    Json.obj (((WritePlanDraft.fields env.lax).dump _).filter fun m => m.1 != "id")
  simp (disch := decide) only [WritePlanDraft.fields,Fields.required,Fields.defaulted,kept_push,skipped_push]
  rfl

theorem issue_valid (env : WriteEnv) (listed : Bool) :
    (PlanRequest.identified env (issueDraft env listed)).validatePlan env.lax env.sha256 = true := by
  have texts : ["case:1","connector","tracker","1","issue","tracker:ISSUE-7","update_issue","update","ISSUE-7","3","alice"].all
    mutationText = true := by decide
  have ordered : [["evidence:1"],["carol"],["alice","alice@tracker"]].all orderedIdentity = true := by decide
  have window : (morning 0).1.instant < (morning 15).1.instant ∧ (morning 15).1.instant - (morning 0).1.instant ≤ maxWindow := by
    decide
  have finite : (issueDraft env listed).finiteObjects = true := by cases listed <;> rfl
  have changed : Json.equal (.obj [("status",.str "open")]) (.obj (statusFields listed).1) = false := by cases listed <;> decide
  simp only [WritePlanDraft.validatePlan,Bool.and_eq_true,plan_sealed,decide_eq_true_eq]
  refine ⟨⟨⟨⟨⟨⟨⟨⟨⟨⟨⟨⟨⟨hashed_plan env _,hashed env "sha256:" _⟩,hashed env "sha256:" _⟩,texts⟩,finite⟩,ordered⟩,beq_self_eq_true _⟩,
    window.1⟩,window.2⟩,by rfl⟩,by rfl⟩,by rfl⟩,by rfl⟩,by simp [PlanRequest.identified,issueDraft,changed]⟩

def issuePlan (env : WriteEnv) (listed : Bool) : env.Plan := ⟨PlanRequest.identified env (issueDraft env listed),issue_valid env listed⟩

theorem issue_planned (env : WriteEnv) (listed : Bool) :
    (issueRequest listed).buildWritePlan env (fun _ _ => true) issueProfile issueBinding issuePolicy = some (issuePlan env listed) := by
  simp only [PlanRequest.buildWritePlan,issue_drafted,Option.bind_eq_bind,Option.bind_some,issue_valid,dite_true]
  rfl

-- When the plan is approved, and until when; later it is approved again.
def granted (late : Bool) : UtcTime := if late then morning 6 else morning 5
def lapsing (late : Bool) : UtcTime := if late then morning 11 else morning 10

def issueApprovalRequest (env : WriteEnv) (listed late : Bool) : ApprovalRequest :=
  ⟨"bob",granted late,300000000,"approve " ++ (issuePlan env listed).1.id,true⟩

def issueApprovalDraft (env : WriteEnv) (listed late : Bool) : ApprovalDraft where
  id := ""
  planId := (issuePlan env listed).1.id
  planHash := env.planHash (issuePlan env listed)
  targetVersion := "3"
  actor := "bob"
  actorAliases := ["bob","bob@tracker"]
  planCreatedAt := morning 0
  planExpiresAt := morning 15
  approvedAt := granted late
  expiresAt := lapsing late

-- The two persons' entries in an alias map.
def Known (identities : IdentityAliases) : Prop :=
  identityAliasesFor identities "alice" ["alice@tracker"] = some ["alice","alice@tracker"] ∧
    identityAliasesFor identities "bob" ["bob@tracker"] = some ["bob","bob@tracker"]

theorem issue_known : Known issuePolicy.identityAliases := by
  constructor <;> decide

theorem issue_authenticated (env : WriteEnv) (listed : Bool) (contributors executors : List String) {identities : IdentityAliases}
    (aliases : Known identities) (known : contributors.all PyText.hasText = true) (contributor : "alice" ∈ contributors) :
    authenticatedApprovalAliases env.sha256 (issuePlan env listed).1 issueBinding "bob" ⟨contributors,["bob"],executors,identities⟩ =
      some ["bob","bob@tracker"] := by
  have approvers : ["bob"].all PyText.hasText = true := by decide
  have bound : issueBinding.actorPrincipals.get "alice" = some ["alice@tracker"] ∧
      issueBinding.actorPrincipals.get "bob" = some ["bob@tracker"] := by decide
  have other : "bob" ≠ "alice" ∧ "bob" ∉ ["carol"] := by decide
  have apart : (∀ name ∈ ["bob","bob@tracker"], name ∉ ["alice","alice@tracker"]) ∧ ∀ name ∈ ["bob","bob@tracker"], name ∉ ["carol"] := by
    decide
  rw [authenticated_iff]
  exact ⟨by decide,⟨known,approvers⟩,contributor,List.mem_singleton_self _,other.1,other.2,⟨rfl,rfl⟩,rfl,
    ⟨_,bound.1,by decide,aliases.1⟩,⟨_,bound.2,by decide,aliases.2⟩,apart.1,apart.2⟩

theorem approval_sealed (env : WriteEnv) (a : ApprovalDraft) :
    (ApprovalRequest.identified env a).material env.lax = a.material env.lax := by
  change Json.obj (((ApprovalDraft.fields env.lax).dump _).filter fun m => m.1 != "id") =
    Json.obj (((ApprovalDraft.fields env.lax).dump _).filter fun m => m.1 != "id")
  simp (disch := decide) only [ApprovalDraft.fields,Fields.required,Fields.defaulted,kept_push,skipped_push]
  rfl

theorem issue_approval_valid (env : WriteEnv) (listed late : Bool) :
    (ApprovalRequest.identified env (issueApprovalDraft env listed late)).validateApproval env.lax env.sha256 = true := by
  have texts : mutationText "3" = true ∧ mutationText "bob" = true ∧ orderedIdentity ["bob","bob@tracker"] = true := by decide
  have times : (morning 0).1.instant < (morning 15).1.instant ∧ (morning 0).1.instant ≤ (granted late).1.instant ∧
      (granted late).1.instant < (morning 15).1.instant ∧ (granted late).1.instant < (lapsing late).1.instant ∧
      (lapsing late).1.instant - (granted late).1.instant ≤ maxWindow ∧ (lapsing late).1.instant ≤ (morning 15).1.instant := by
    cases late <;> decide
  have own : ["bob","bob@tracker"].contains "bob" = true := by decide
  have named : (issuePlan env listed).1.id = "write-plan:" ++ env.planHash (issuePlan env listed) := by
    rw [WriteEnv.planHash,issuePlan,plan_sealed]
    rfl
  simp only [ApprovalDraft.validateApproval,Bool.and_eq_true,approval_sealed,decide_eq_true_eq]
  refine ⟨⟨⟨⟨⟨⟨⟨⟨⟨⟨⟨⟨⟨⟨hashed_approval env _,?_⟩,hashed env "sha256:" _⟩,texts.1⟩,texts.2.1⟩,texts.2.2⟩,beq_self_eq_true _⟩,own⟩,
    beq_iff_eq.mpr named⟩,times.1⟩,times.2.1⟩,times.2.2.1⟩,times.2.2.2.1⟩,times.2.2.2.2.1⟩,times.2.2.2.2.2⟩
  exact hashed_plan env _

def issueApproval (env : WriteEnv) (listed late : Bool) : env.Approval :=
  ⟨ApprovalRequest.identified env (issueApprovalDraft env listed late),issue_approval_valid env listed late⟩

theorem issue_approved_under (env : WriteEnv) (listed late : Bool) {identities : IdentityAliases} (aliases : Known identities) :
    (issueApprovalRequest env listed late).approvePlan env (issuePlan env listed) issueBinding ["bob"] identities =
      some (issueApproval env listed late) := by
  have admitted : (issueApprovalRequest env listed late).admits env (issuePlan env listed) ["bob"] = true := by
    have checks : (PyText.hasText "bob" && decide ((0 : Int) < 300000000) && decide ((300000000 : Int) ≤ maxWindow) &&
      ["bob"].all PyText.hasText) = true := by decide
    simp only [ApprovalRequest.admits,issueApprovalRequest,beq_self_eq_true,Bool.and_true]
    exact checks
  have authenticated := issue_authenticated env listed ["alice"] [] aliases (by decide) (by decide)
  have timely : (issueApprovalRequest env listed late).timely env (issuePlan env listed) = true := by
    have window : (morning 0).1.instant ≤ (granted late).1.instant ∧ (granted late).1.instant < (morning 15).1.instant := by
      cases late <;> decide
    simp only [ApprovalRequest.timely,Bool.and_eq_true,decide_eq_true_eq]
    exact window
  have closing : (granted late).later 300000000 = some (lapsing late) := by cases late <;> decide
  have earlier : ApprovalRequest.earlier (lapsing late) (morning 15) = lapsing late ∧
      (granted late).1.instant < (lapsing late).1.instant := by cases late <;> decide
  have apart : (!(["bob","bob@tracker"].any ["alice","alice@tracker"].contains) && !(["bob","bob@tracker"].any ["carol"].contains)) = true := by
    decide
  have expires : ApprovalRequest.earlier (lapsing late) (issuePlan env listed).1.expiresAt = lapsing late := earlier.1
  have opens : (granted late).1.instant < (ApprovalRequest.earlier (lapsing late) (issuePlan env listed).1.expiresAt).1.instant := by
    rw [expires]
    exact earlier.2
  have drafted : (issueApprovalRequest env listed late).draft env (issuePlan env listed) issueBinding ["bob"] identities =
      some (issueApprovalDraft env listed late) := by
    simp only [ApprovalRequest.draft,Option.bind_eq_bind,Option.bind_eq_some_iff,Option.guard_eq_some']
    exact ⟨(),admitted,_,authenticated,(),apart,(),timely,lapsing late,closing,(),opens,by
      rw [expires]
      rfl⟩
  simp only [ApprovalRequest.approvePlan,drafted,Option.bind_eq_bind,Option.bind_some,issue_approval_valid,dite_true]
  rfl

theorem issue_approved (env : WriteEnv) (listed late : Bool) :
    (issueApprovalRequest env listed late).approvePlan env (issuePlan env listed) issueBinding issuePolicy.authorizedApprovers
      issuePolicy.identityAliases = some (issueApproval env listed late) :=
  issue_approved_under env listed late issue_known

theorem issue_entitled (env : WriteEnv) (listed late : Bool) :
    WriteExecutor.Entitled issueExecutor.policy (issueApproval env listed late).1.actor := by
  have known : ["bob"].all PyText.hasText = true := by decide
  exact ⟨known,List.mem_singleton_self _⟩

theorem hash_unbroken (shaped : isPrefixedHash kind s = true) (ascii : ∀ c ∈ kind.toList, c.toNat < 128) : UnbrokenText s :=
  unbroken_ascii (prefixed_ascii ascii shaped)

theorem utc_unbroken (lax : Coercions) (t : UtcTime) : lax.utcCodec.Writes UnbrokenText t := @time_unbroken lax t.1

theorem planKeys_unbroken : ∀ s ∈ ["after","arguments","before","before_version","binding_hash","case_id","conflicting_authors","connector_id",
    "created_at","created_by","created_by_aliases","evidence_refs","expires_at","id","object_type","operation","profile_id",
    "profile_version","provider_operation","resolution_action","schema_version","target_id","target_ref","write_contract_hash"],
    UnbrokenText s := by decide

theorem issue_plan_unbroken (env : WriteEnv) (listed : Bool) :
    Unbroken ((WritePlan.codec env.lax env.sha256).dump (issuePlan env listed)) := by
  rw [unbroken_strings]
  change (WritePlan.codec env.lax env.sha256).Writes UnbrokenText (issuePlan env listed)
  have key := planKeys_unbroken
  have values : Unbroken (.obj (statusFields listed).1) ∧
      Unbroken (.obj [("expected",.str "3"),("id",.str "ISSUE-7"),("status",newStatus listed)]) ∧ Unbroken (.obj [("status",.str "open")]) := by
    cases listed <;> decide
  have bound : UnbrokenText (issuePlan env listed).1.bindingHash := hash_unbroken (hashed env "sha256:" _) (by decide)
  have contract : UnbrokenText (issuePlan env listed).1.writeContractHash := hash_unbroken (hashed env "sha256:" _) (by decide)
  have ref : UnbrokenText (issuePlan env listed).1.id := hash_unbroken (hashed_plan env _) (by decide)
  simp only [WritePlan.codec,WritePlanDraft.codec,WritePlanDraft.fields,writes_checked,writes_convert,writes_object,writes_required,
    writes_defaulted,writes_nil,writes_string,writes_list]
  exact ⟨key _ (by decide),values.1,key _ (by decide),values.2.1,key _ (by decide),values.2.2,
    key _ (by decide),(by decide : UnbrokenText "3"),key _ (by decide),bound,
    key _ (by decide),(by decide : UnbrokenText "case:1"),
    key _ (by decide),(by decide : ∀ s ∈ ["carol"], UnbrokenText s),
    key _ (by decide),(by decide : UnbrokenText "connector"),key _ (by decide),utc_unbroken _ _,
    key _ (by decide),(by decide : UnbrokenText "alice"),
    key _ (by decide),(by decide : ∀ s ∈ ["alice","alice@tracker"], UnbrokenText s),
    key _ (by decide),(by decide : ∀ s ∈ ["evidence:1"], UnbrokenText s),key _ (by decide),utc_unbroken _ _,
    key _ (by decide),ref,key _ (by decide),(by decide : UnbrokenText "issue"),
    key _ (by decide),(by decide : UnbrokenText "update_issue"),
    key _ (by decide),(by decide : UnbrokenText "tracker"),key _ (by decide),(by decide : UnbrokenText "1"),
    key _ (by decide),(by decide : UnbrokenText "update"),
    key _ (by decide),(by decide : Unbroken (.str "update_implementation")),
    key _ (by decide),(by decide : Unbroken (.int 1)),key _ (by decide),(by decide : UnbrokenText "ISSUE-7"),
    key _ (by decide),(by decide : UnbrokenText "tracker:ISSUE-7"),key _ (by decide),contract,trivial⟩

theorem issue_approval_unbroken (env : WriteEnv) (listed late : Bool) :
    Unbroken ((ApprovalRecord.codec env.lax env.sha256).dump (issueApproval env listed late)) := by
  rw [unbroken_strings]
  change (ApprovalRecord.codec env.lax env.sha256).Writes UnbrokenText (issueApproval env listed late)
  have key : ∀ s ∈ ["actor","actor_aliases","approved_at","confirmation_method","expires_at","id","plan_created_at","plan_expires_at",
    "plan_hash","plan_id","schema_version","target_version"], UnbrokenText s := by decide
  have plan : UnbrokenText (issueApproval env listed late).1.planId := hash_unbroken (hashed_plan env _) (by decide)
  have hash : UnbrokenText (issueApproval env listed late).1.planHash := hash_unbroken (hashed env "sha256:" _) (by decide)
  have ref : UnbrokenText (issueApproval env listed late).1.id := hash_unbroken (hashed_approval env _) (by decide)
  simp only [ApprovalRecord.codec,ApprovalDraft.codec,ApprovalDraft.fields,writes_checked,writes_convert,writes_object,writes_required,
    writes_defaulted,writes_nil,writes_string,writes_list]
  exact ⟨key _ (by decide),(by decide : UnbrokenText "bob"),
    key _ (by decide),(by decide : ∀ s ∈ ["bob","bob@tracker"], UnbrokenText s),key _ (by decide),utc_unbroken _ _,
    key _ (by decide),(by decide : Unbroken (.str "interactive")),key _ (by decide),utc_unbroken _ _,key _ (by decide),ref,
    key _ (by decide),utc_unbroken _ _,key _ (by decide),utc_unbroken _ _,key _ (by decide),hash,key _ (by decide),plan,
    key _ (by decide),(by decide : Unbroken (.int 1)),key _ (by decide),(by decide : UnbrokenText "3"),trivial⟩

end Issue
