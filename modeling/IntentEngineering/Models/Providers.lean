import IntentEngineering.Models.Mutations

open Schema

-- A mapping with text keys, listed by key.
abbrev Named (α : Type) := {entries : List (String × α) // (entries.map Prod.fst).Pairwise (· < ·)}

namespace Named
variable {α : Type} (m : Named α)

omit m in
theorem unlisted : (([] : List (String × α)).map Prod.fst).Pairwise (· < ·) := .nil

def get (name : String) : Option α := m.1.lookup name

def keys : List String := m.1.map Prod.fst

def dump (value : α → Json) : Json := .obj (m.1.map fun entry => (entry.1,value entry.2))

end Named

inductive CapabilityKind where
  | tool
  | resource
deriving DecidableEq

-- Where one argument of an operation comes from: a fixed value, a written field,
-- or an entry of the call's own context.
inductive ArgumentBinding where
  | constant (value : Json)
  | field (name : String)
  | context (source : String)

-- `record` is what `model_dump` makes of the whole operation.
structure WriteOperationProfile where
  targetObject : String
  allowedFields : List String
  arguments : Named ArgumentBinding
  inputSchema : Json
  record : Json

-- Of a read operation only its capability kind.
structure ProviderProfile where
  id : String
  version : String
  operations : Named CapabilityKind
  writes : Named WriteOperationProfile

namespace ProviderProfile
variable (profile : ProviderProfile)

def readNames (kind : CapabilityKind) : List String := (profile.operations.1.filter fun entry => entry.2 = kind).map Prod.fst

def expectedTools : List String := profile.readNames .tool ++ profile.writes.keys

def expectedResources : List String := profile.readNames .resource

end ProviderProfile

-- Principals are sets, listed in order.
structure ProviderBinding where
  profileId : String
  profileVersion : String
  tools : Named String
  resources : Named String
  actorPrincipals : Named (List String)

namespace ProviderBinding
variable (binding : ProviderBinding)

def dump : Json := .obj [
  ("actor_principals",binding.actorPrincipals.dump Codec.string.list.dump),
  ("profile_id",.str binding.profileId),
  ("profile_version",.str binding.profileVersion),
  ("resources",binding.resources.dump .str),
  ("tools",binding.tools.dump .str)]

-- The provider names that a list of semantic names is bound to as tools.
def toolNames (names : List String) : List String := names.filterMap binding.tools.get

def validateAgainst (profile : ProviderProfile) : Bool :=
  let provided := binding.tools.keys ++ binding.resources.keys
  let expected := profile.expectedTools ++ profile.expectedResources
  binding.profileId == profile.id && binding.profileVersion == profile.version &&
    provided.all expected.contains &&
    !binding.tools.keys.any profile.expectedResources.contains &&
    !binding.resources.keys.any profile.expectedTools.contains &&
    expected.all provided.contains &&
    !(binding.toolNames (profile.readNames .tool)).any (binding.toolNames profile.writes.keys).contains

end ProviderBinding

section
variable (sha256 : Utf8.Bytes → String)

def providerBindingHash (binding : ProviderBinding) : String := canonicalHash sha256 binding.dump

-- `none` where an operation or its tool is missing.
def providerWriteContractHash (profile : ProviderProfile) (binding : ProviderBinding) (operationName : String) : Option String := do
  if binding.validateAgainst profile = false then none
  let operation ← profile.writes.get operationName
  let providerOperation ← binding.tools.get operationName
  return canonicalHash sha256 (.obj [
    ("operation",operation.record),
    ("profile_id",.str profile.id),
    ("profile_version",.str profile.version),
    ("provider_operation",.str providerOperation),
    ("semantic_name",.str operationName)])

-- The aliases of each person, as sets listed in order.
abbrev IdentityAliases := Named (List String)

def identityAliasesFor (identityAliases : IdentityAliases) (actor : String) (providerPrincipals : List String) : Option (List String) :=
  match identityAliases.get actor with
  | none => none
  | some aliases =>
    if aliases.all PyText.hasText && aliases.contains actor && providerPrincipals.all aliases.contains then some aliases else none

-- The local policy that both sides of a write are checked against.
structure WritePolicy where
  authorizedContributors : List String
  authorizedApprovers : List String
  authorizedExecutors : List String
  identityAliases : IdentityAliases

def authenticatedApprovalAliases (plan : WritePlanDraft) (binding : ProviderBinding) (actor : String) (policy : WritePolicy) :
    Option (List String) := do
  let known := policy.authorizedContributors.all PyText.hasText && policy.authorizedApprovers.all PyText.hasText
  if !PyText.hasText actor || !known || !policy.authorizedContributors.contains plan.createdBy ||
      !policy.authorizedApprovers.contains actor || actor == plan.createdBy || plan.conflictingAuthors.contains actor ||
      binding.profileId != plan.profileId || binding.profileVersion != plan.profileVersion ||
      providerBindingHash sha256 binding != plan.bindingHash then none
  let creatorPrincipals ← binding.actorPrincipals.get plan.createdBy
  let actorPrincipals ← binding.actorPrincipals.get actor
  if creatorPrincipals.isEmpty || actorPrincipals.isEmpty then none
  let creatorAliases ← identityAliasesFor policy.identityAliases plan.createdBy creatorPrincipals
  let actorAliases ← identityAliasesFor policy.identityAliases actor actorPrincipals
  if creatorAliases != plan.createdByAliases || actorAliases.any plan.createdByAliases.contains ||
      actorAliases.any plan.conflictingAuthors.contains then none
  return actorAliases

-- The aliases of one person, who is bound to a provider.
def aliasesUnder (binding : ProviderBinding) (identityAliases : IdentityAliases) (actor : String) (aliases : List String) : Prop :=
  ∃ principals, binding.actorPrincipals.get actor = some principals ∧ principals ≠ [] ∧
    identityAliasesFor identityAliases actor principals = some aliases

-- What it takes for an approver to be authenticated.
structure Authenticated (plan : WritePlanDraft) (binding : ProviderBinding) (actor : String) (policy : WritePolicy)
    (aliases : List String) : Prop where
  named : PyText.hasText actor = true
  known : policy.authorizedContributors.all PyText.hasText = true ∧ policy.authorizedApprovers.all PyText.hasText = true
  contributor : plan.createdBy ∈ policy.authorizedContributors
  approver : actor ∈ policy.authorizedApprovers
  other : actor ≠ plan.createdBy
  unopposed : actor ∉ plan.conflictingAuthors
  profile : binding.profileId = plan.profileId ∧ binding.profileVersion = plan.profileVersion
  bound : providerBindingHash sha256 binding = plan.bindingHash
  creator : aliasesUnder binding policy.identityAliases plan.createdBy plan.createdByAliases
  person : aliasesUnder binding policy.identityAliases actor aliases
  apart : ∀ name ∈ aliases, name ∉ plan.createdByAliases
  clear : ∀ name ∈ aliases, name ∉ plan.conflictingAuthors

theorem authenticated_iff (plan : WritePlanDraft) (binding : ProviderBinding) (actor : String) (policy : WritePolicy)
    (aliases : List String) : authenticatedApprovalAliases sha256 plan binding actor policy = some aliases ↔
      Authenticated sha256 plan binding actor policy aliases := by
  unfold authenticatedApprovalAliases
  constructor
  · intro got
    simp only [Option.bind_eq_bind] at got
    split at got
    · cases got
    rename_i admitted
    simp only [Option.bind_eq_some_iff] at got
    obtain ⟨creatorPrincipals,creatorFound,actorPrincipals,actorFound,got⟩ := got
    split at got
    · cases got
    rename_i principals
    simp only [Option.bind_eq_some_iff] at got
    obtain ⟨creatorAliases,creatorKnown,actorAliases,actorKnown,got⟩ := got
    split at got
    · cases got
    rename_i apart
    cases got
    simp only [Bool.or_eq_true,Bool.not_eq_true',not_or,Bool.not_eq_false,bne_iff_ne,ne_eq,Decidable.not_not,beq_iff_eq,
      Bool.and_eq_true,List.contains_iff_mem,List.isEmpty_iff,List.any_eq_true,not_exists,not_and] at admitted principals apart
    obtain ⟨⟨same,apart⟩,clear⟩ := apart
    subst same
    obtain ⟨⟨⟨⟨⟨⟨⟨⟨named,known⟩,contributor⟩,approver⟩,other⟩,unopposed⟩,id⟩,version⟩,bound⟩ := admitted
    exact ⟨named,known,contributor,approver,other,unopposed,⟨id,version⟩,bound,⟨_,creatorFound,principals.1,creatorKnown⟩,
      ⟨_,actorFound,principals.2,actorKnown⟩,apart,clear⟩
  · intro h
    obtain ⟨creatorPrincipals,creatorFound,someCreator,creatorKnown⟩ := h.creator
    obtain ⟨actorPrincipals,actorFound,someActor,actorKnown⟩ := h.person
    have apart := h.apart
    have clear := h.clear
    simp [h.named,h.known.1,h.known.2,h.contributor,h.approver,h.other,h.unopposed,h.profile.1,h.profile.2,h.bound,creatorFound,
      actorFound,someCreator,someActor,creatorKnown,actorKnown]
    exact ⟨apart,clear⟩

end
