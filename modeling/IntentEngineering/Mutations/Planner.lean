import IntentEngineering.Library.JsonShape
import IntentEngineering.Library.TimeSpan
import IntentEngineering.Mutations.Committer

open Schema

namespace Json

def isScalar : Json → Bool
  | .arr _ => false
  | .obj _ => false
  | _ => true

-- `detached_json` of a dictionary of values: numbers must be finite.
def detached (ms : Members) : Option Members := if allFiniteMembers ms then some ms else none

-- `detached_json(dict(frozen))`: only the outermost level is a plain dictionary
-- again, and a frozen value below it is refused.
def detachedFrozen (ms : Members) : Option Members := if ms.all fun m => m.2.isScalar && m.2.allFinite then some ms else none

theorem foldl_insert_formed (later : Members) : ∀ ms : Members, WellFormed (.obj ms) → WellFormedMembers later →
    WellFormed (.obj (later.foldl (fun ms m => insertMember m.1 m.2 ms) ms)) := by
  induction later with
  | nil => exact fun _ formed _ => formed
  | cons m later ih =>
    intro ms formed rest
    exact ih _ ⟨insertMember_sorted formed.1,insertMember_formed rest.1 formed.2⟩ rest.2

-- `{**before, **requested}`
def overlay (before requested : Payload) : Payload :=
  ⟨requested.1.foldl (fun ms m => insertMember m.1 m.2 ms) before.1,foldl_insert_formed _ _ before.2 requested.2.2⟩

end Json

namespace RemoteObject

-- The field validators.
def validate (o : RemoteObject) : Bool :=
  [o.connectorId,o.profileId,o.profileVersion,o.objectType,o.id,o.version].all mutationText && Json.allFiniteMembers o.content.1

end RemoteObject

namespace ArgumentBinding

def source : ArgumentBinding → String
  | .constant _ => "constant"
  | .field _ => "field"
  | .context source => source

-- An argument that takes a field is left out where the field is not written.
def active (fields : Json.Members) : ArgumentBinding → Bool
  | .field name => (fields.lookup name).isSome
  | _ => true

def value (targetId beforeVersion : String) (fields : Json.Members) : ArgumentBinding → Option Json
  | .constant value => some value
  | .field name => fields.lookup name
  | .context source =>
    if source = "target_id" then some (.str targetId)
    else if source = "before_version" then some (.str beforeVersion)
    else none

end ArgumentBinding

-- `bind_arguments` on the active arguments; `_copy_external_json` refuses a
-- number that is not finite.
def bindArguments (arguments : Named ArgumentBinding) (targetId beforeVersion : String) (fields : Json.Members) :
    Option Json.Members :=
  (arguments.1.filter fun entry => entry.2.active fields).mapM fun entry =>
    match entry.2.value targetId beforeVersion fields with
    | some value => if value.allFinite then some (entry.1,value) else none
    | none => none

-- The fields of an object that an operation may write.
def WriteOperationProfile.writeFields (operation : WriteOperationProfile) (object : Json.Members) : Json.Members :=
  object.filter fun m => operation.allowedFields.contains m.1

def ReconciliationCase.conflictingAuthors (case : ReconciliationCase) : List String :=
  (case.evidenceSides.flatMap EvidenceSide.authors).dedup.insertionSort (· ≤ ·)

structure PlanRequest where
  case : ReconciliationCase
  operationName : String
  current : RemoteObject
  requestedFields : Payload
  actor : String
  resolutionAction : ResolutionAction
  now : UtcTime

namespace PlanRequest

variable (env : WriteEnv) (conforms : Json → Json.Members → Bool)
variable (profile : ProviderProfile) (binding : ProviderBinding) (policy : WritePolicy) (request : PlanRequest)

def targetRef : String := profile.id ++ ":" ++ request.current.id

-- What is checked before the operation is looked up.
def admits : Bool :=
  binding.validateAgainst profile && request.current.validate &&
    decide (request.case.status = .needsHuman) && request.case.requiresHuman &&
    PyText.hasText request.actor && policy.authorizedContributors.all PyText.hasText &&
    policy.authorizedContributors.contains request.actor &&
    request.current.profileId == profile.id && request.current.profileVersion == profile.version &&
    !request.requestedFields.1.isEmpty

-- What the operation must be like.
def allows (operation : WriteOperationProfile) : Bool :=
  let sources := operation.arguments.1.map fun entry => entry.2.source
  request.current.objectType == operation.targetObject &&
    (request.case.subjectRef :: request.case.affectedRefs).contains (request.targetRef profile) &&
    sources.contains "target_id" && sources.contains "before_version" &&
    request.requestedFields.1.all fun m => operation.allowedFields.contains m.1

-- Fifteen minutes.
def defaultExpiry : Nat := 15 * 60 * 1000000

-- The plan without its identifier.
def draft : Option WritePlanDraft := do
  guard (request.admits profile binding policy)
  let operation ← profile.writes.get request.operationName
  let principals ← binding.actorPrincipals.get request.actor
  guard (!principals.isEmpty && request.allows profile operation)
  let _ ← Json.detached request.requestedFields.1
  let _ ← Json.detachedFrozen request.current.content.1
  let after := Json.overlay request.current.content request.requestedFields
  guard (!Json.equal (.obj after.1) (.obj request.current.content.1))
  let fields := operation.writeFields after.1
  guard (conforms operation.inputSchema fields)
  let arguments ← bindArguments operation.arguments request.current.id request.current.version fields
  let contractHash ← providerWriteContractHash env.sha256 profile binding request.operationName
  let providerOperation ← binding.tools.get request.operationName
  let creatorAliases ← identityAliasesFor policy.identityAliases request.actor principals
  let expiresAt ← request.now.later defaultExpiry
  -- Arguments are listed by name, as the operation lists them.
  if formed : (Json.obj arguments).WellFormed then
    return {
      id := ""
      caseId := request.case.id
      connectorId := request.current.connectorId
      profileId := request.current.profileId
      profileVersion := request.current.profileVersion
      objectType := request.current.objectType
      targetRef := request.targetRef profile
      bindingHash := providerBindingHash env.sha256 binding
      writeContractHash := contractHash
      operation := request.operationName
      providerOperation
      resolutionAction := request.resolutionAction
      targetId := request.current.id
      beforeVersion := request.current.version
      before := request.current.content
      after
      arguments := ⟨arguments,formed⟩
      evidenceRefs := request.case.allEvidenceRefs
      conflictingAuthors := request.case.conflictingAuthors
      createdBy := request.actor
      createdByAliases := creatorAliases
      createdAt := request.now
      expiresAt}
  else none

-- `WritePlan(id=write_plan_id(material), …)`
def identified (draft : WritePlanDraft) : WritePlanDraft :=
  { draft with id := "write-plan:" ++ canonicalHash env.sha256 (draft.material env.lax) }

-- `build_write_plan`
def buildWritePlan : Option env.Plan := do
  let draft ← request.draft env conforms profile binding policy
  if valid : (identified env draft).validatePlan env.lax env.sha256 = true then return ⟨identified env draft,valid⟩ else none

end PlanRequest

-- What a plan says about its contract.
structure WritePlanDraft.Contracted (env : WriteEnv) (conforms : Json → Json.Members → Bool) (profile : ProviderProfile)
    (binding : ProviderBinding) (policy : WritePolicy) (p : WritePlanDraft) (operation : WriteOperationProfile) : Prop where
  known : policy.authorizedContributors.all PyText.hasText = true
  contributor : p.createdBy ∈ policy.authorizedContributors
  bound : binding.validateAgainst profile = true
  identity : profile.id = p.profileId ∧ profile.version = p.profileVersion
  hashed : providerBindingHash env.sha256 binding = p.bindingHash
  found : profile.writes.get p.operation = some operation
  target : operation.targetObject = p.objectType ∧ p.targetRef = profile.id ++ ":" ++ p.targetId
  tool : binding.tools.get p.operation = some p.providerOperation
  contract : providerWriteContractHash env.sha256 profile binding p.operation = some p.writeContractHash
  conforming : conforms operation.inputSchema (operation.writeFields p.after.1) = true
  arguments : bindArguments operation.arguments p.targetId p.beforeVersion (operation.writeFields p.after.1) = some p.arguments.1

namespace PlanRequest

variable {env : WriteEnv} {conforms : Json → Json.Members → Bool}
variable {profile : ProviderProfile} {binding : ProviderBinding} {policy : WritePolicy} {request : PlanRequest}

theorem draft_contracted (drafted : request.draft env conforms profile binding policy = some p) :
    ∃ operation, p.Contracted env conforms profile binding policy operation := by
  simp only [draft,Option.bind_eq_bind,Option.bind_eq_some_iff,Option.guard_eq_some'] at drafted
  obtain ⟨_,admitted,operation,found,principals,_,_,allowed,_,_,_,_,_,_,_,conforming,arguments,bound,_,contract,_,tool,_,_,_,_,
    drafted⟩ := drafted
  split at drafted
  · cases drafted
    simp only [admits,Bool.and_eq_true,List.contains_iff_mem,beq_iff_eq] at admitted
    obtain ⟨⟨⟨⟨⟨⟨⟨⟨⟨valid,_⟩,_⟩,_⟩,_⟩,known⟩,contributor⟩,id⟩,version⟩,_⟩ := admitted
    simp only [allows,Bool.and_eq_true,beq_iff_eq] at allowed
    exact ⟨operation,known,contributor,valid,⟨id.symm,version.symm⟩,rfl,found,⟨allowed.2.1.1.1.1.symm,rfl⟩,tool,contract,conforming,
      bound⟩
  · cases drafted

theorem build_contracted {plan : env.Plan} (planned : request.buildWritePlan env conforms profile binding policy = some plan) :
    ∃ operation, plan.1.Contracted env conforms profile binding policy operation := by
  simp only [buildWritePlan,Option.bind_eq_bind,Option.bind_eq_some_iff] at planned
  obtain ⟨p,drafted,identified⟩ := planned
  obtain ⟨operation,fits⟩ := draft_contracted drafted
  split at identified
  · cases identified
    exact ⟨operation,fits.known,fits.contributor,fits.bound,fits.identity,fits.hashed,fits.found,fits.target,fits.tool,fits.contract,
      fits.conforming,fits.arguments⟩
  · cases identified

end PlanRequest
