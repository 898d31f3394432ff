import IntentEngineering.Library.TimeSpan
import IntentEngineering.Mutations.Committer

open Schema

structure ApprovalRequest where
  actor : String
  now : UtcTime
  expiresIn : Int
  confirmation : String
  interactive : Bool

namespace ApprovalRequest

variable (env : WriteEnv) (plan : env.Plan) (binding : ProviderBinding)
variable (authorizedApprovers : List String) (identityAliases : IdentityAliases) (request : ApprovalRequest)

-- The policy an approval is checked under; its contributor is the plan's own.
def policy : WritePolicy := ⟨[plan.1.createdBy],authorizedApprovers,[],identityAliases⟩

def admits : Bool :=
  PyText.hasText request.actor && decide (0 < request.expiresIn) && decide (request.expiresIn ≤ maxWindow) &&
    request.interactive && request.confirmation == "approve " ++ plan.1.id &&
    authorizedApprovers.all PyText.hasText

-- The plan's window is open.
def timely : Bool :=
  decide (plan.1.createdAt.1.instant ≤ request.now.1.instant) && decide (request.now.1.instant < plan.1.expiresAt.1.instant)

-- `min` of two times, the first where they are one instant.
def earlier (a b : UtcTime) : UtcTime := if b.1.instant < a.1.instant then b else a

-- The approval without its identifier.
def draft : Option ApprovalDraft := do
  guard (request.admits env plan authorizedApprovers)
  let actorAliases ← authenticatedApprovalAliases env.sha256 plan.1 binding request.actor (policy env plan authorizedApprovers identityAliases)
  guard (!actorAliases.any plan.1.createdByAliases.contains && !actorAliases.any plan.1.conflictingAuthors.contains)
  guard (request.timely env plan)
  let closing ← request.now.later request.expiresIn.toNat
  let expiresAt := earlier closing plan.1.expiresAt
  guard (request.now.1.instant < expiresAt.1.instant)
  return {
    id := ""
    planId := plan.1.id
    planHash := env.planHash plan
    targetVersion := plan.1.beforeVersion
    actor := request.actor
    actorAliases
    planCreatedAt := plan.1.createdAt
    planExpiresAt := plan.1.expiresAt
    approvedAt := request.now
    expiresAt}

-- `ApprovalRecord(id=approval_id(material), …)`
def identified (draft : ApprovalDraft) : ApprovalDraft :=
  { draft with id := "approval:" ++ canonicalHash env.sha256 (draft.material env.lax) }

-- `approve_plan`
def approvePlan : Option env.Approval := do
  let draft ← request.draft env plan binding authorizedApprovers identityAliases
  if valid : (identified env draft).validateApproval env.lax env.sha256 = true then return ⟨identified env draft,valid⟩ else none

end ApprovalRequest

-- What an approval says about its plan and its actor.
structure ApprovalDraft.Grants (env : WriteEnv) (plan : env.Plan) (binding : ProviderBinding) (authorizedApprovers : List String)
    (identityAliases : IdentityAliases) (a : ApprovalDraft) : Prop where
  subject : a.planId = plan.1.id ∧ a.planHash = env.planHash plan ∧ a.targetVersion = plan.1.beforeVersion
  window : a.planCreatedAt = plan.1.createdAt ∧ a.planExpiresAt = plan.1.expiresAt
  authenticated : Authenticated env.sha256 plan.1 binding a.actor ⟨[plan.1.createdBy],authorizedApprovers,[],identityAliases⟩ a.actorAliases

namespace ApprovalRequest

variable {env : WriteEnv} {plan : env.Plan} {binding : ProviderBinding}
variable {authorizedApprovers : List String} {identityAliases : IdentityAliases} {request : ApprovalRequest}

theorem approve_grants {approval : env.Approval}
    (approved : request.approvePlan env plan binding authorizedApprovers identityAliases = some approval) :
    approval.1.Grants env plan binding authorizedApprovers identityAliases := by
  simp only [approvePlan,draft,Option.bind_eq_bind,Option.bind_eq_some_iff,Option.guard_eq_some'] at approved
  obtain ⟨_,⟨_,_,aliases,authenticated,_,_,_,_,closing,_,_,_,drafted⟩,identified⟩ := approved
  split at identified
  · cases drafted
    cases identified
    exact ⟨⟨rfl,rfl,rfl⟩,⟨rfl,rfl⟩,(authenticated_iff env.sha256 plan.1 binding _ _ _).mp authenticated⟩
  · cases identified

end ApprovalRequest
