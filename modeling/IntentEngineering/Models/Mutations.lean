import IntentEngineering.Library.PyEqual
import IntentEngineering.Library.PyText
import IntentEngineering.Library.Utf8
import IntentEngineering.Models.Evidence

open Schema

-- `_text`: some text, at most 2048 characters, no control character.
def mutationText (s : String) : Bool :=
  PyText.hasText s && decide (s.toList.length ≤ 2048) && s.toList.all fun c => !(decide (c.toNat < 32) || c.toNat == 127)

def isPrefixedHash (start : String) (s : String) : Bool :=
  start.toList.isPrefixOf s.toList && PyText.isHexDigest (s.toList.drop start.toList.length)

def isHash : String → Bool := isPrefixedHash "sha256:"
def isPlanId : String → Bool := isPrefixedHash "write-plan:sha256:"
def isApprovalId : String → Bool := isPrefixedHash "approval:sha256:"

-- Nonempty, strictly ascending, every entry admissible text.
def orderedIdentity (values : List String) : Bool :=
  !values.isEmpty && decide (values.Pairwise (· < ·)) && values.all mutationText

-- `_canonical_hash`
def canonicalHash (sha256 : Utf8.Bytes → String) (material : Json) : String :=
  "sha256:" ++ sha256 (Utf8.encode material.text)

def maxWindow : Int := 15 * 60 * 1000000

structure WritePlanDraft where
  id : String
  caseId : String
  connectorId : String
  profileId : String
  profileVersion : String
  objectType : String
  targetRef : String
  bindingHash : String
  writeContractHash : String
  operation : String
  providerOperation : String
  resolutionAction : ResolutionAction
  targetId : String
  beforeVersion : String
  before : Payload
  after : Payload
  arguments : Payload
  evidenceRefs : List String
  conflictingAuthors : List String
  createdBy : String
  createdByAliases : List String
  createdAt : UtcTime
  expiresAt : UtcTime

namespace WritePlanDraft

def fields (lax : Coercions) :=
  Fields.required "after" Codec.mapping <|
  Fields.required "arguments" Codec.mapping <|
  Fields.required "before" Codec.mapping <|
  Fields.required "before_version" Codec.string <|
  Fields.required "binding_hash" Codec.string <|
  Fields.required "case_id" Codec.string <|
  Fields.required "conflicting_authors" Codec.string.list <|
  Fields.required "connector_id" Codec.string <|
  Fields.required "created_at" lax.utcCodec <|
  Fields.required "created_by" Codec.string <|
  Fields.required "created_by_aliases" Codec.string.list <|
  Fields.required "evidence_refs" Codec.string.list <|
  Fields.required "expires_at" lax.utcCodec <|
  Fields.required "id" Codec.string <|
  Fields.required "object_type" Codec.string <|
  Fields.required "operation" Codec.string <|
  Fields.required "profile_id" Codec.string <|
  Fields.required "profile_version" Codec.string <|
  Fields.required "provider_operation" Codec.string <|
  Fields.required "resolution_action" ResolutionAction.codec <|
  Fields.defaulted "schema_version" (Codec.int.only 1) () <|
  Fields.required "target_id" Codec.string <|
  Fields.required "target_ref" Codec.string <|
  Fields.required "write_contract_hash" Codec.string <|
  Fields.nil

def codec (lax : Coercions) : Codec WritePlanDraft :=
  (Codec.object (fields lax)).convert
    (fun (after,arguments,before,beforeVersion,bindingHash,caseId,conflictingAuthors,connectorId,createdAt,createdBy,
        createdByAliases,evidenceRefs,expiresAt,id,objectType,operation,profileId,profileVersion,providerOperation,
        resolutionAction,_,targetId,targetRef,writeContractHash,_) =>
      some ⟨id,caseId,connectorId,profileId,profileVersion,objectType,targetRef,bindingHash,writeContractHash,operation,
        providerOperation,resolutionAction,targetId,beforeVersion,before,after,arguments,evidenceRefs,conflictingAuthors,
        createdBy,createdByAliases,createdAt,expiresAt⟩)
    (fun p => (p.after,p.arguments,p.before,p.beforeVersion,p.bindingHash,p.caseId,p.conflictingAuthors,p.connectorId,
      p.createdAt,p.createdBy,p.createdByAliases,p.evidenceRefs,p.expiresAt,p.id,p.objectType,p.operation,p.profileId,
      p.profileVersion,p.providerOperation,p.resolutionAction,(),p.targetId,p.targetRef,p.writeContractHash,()))
    (fun _ => rfl)

-- The written form without its identifier, which the identifier hashes.
def material (lax : Coercions) (p : WritePlanDraft) : Json :=
  match (codec lax).dump p with
  | .obj ms => .obj (ms.filter fun m => m.1 != "id")
  | v => v

variable (lax : Coercions) (sha256 : Utf8.Bytes → String) (p : WritePlanDraft)

-- `_freeze_json` refuses numbers that are not finite.
def finiteObjects : Bool := [p.before,p.after,p.arguments].all fun object => Json.allFiniteMembers object.1

-- The field validators and `validate_plan`.
def validatePlan : Bool :=
  isPlanId p.id && isHash p.bindingHash && isHash p.writeContractHash &&
    [p.caseId,p.connectorId,p.profileId,p.profileVersion,p.objectType,p.targetRef,p.operation,p.providerOperation,
      p.targetId,p.beforeVersion,p.createdBy].all mutationText &&
    p.finiteObjects &&
    [p.evidenceRefs,p.conflictingAuthors,p.createdByAliases].all orderedIdentity &&
    p.id == "write-plan:" ++ canonicalHash sha256 (p.material lax) &&
    decide (p.createdAt.1.instant < p.expiresAt.1.instant) &&
    decide (p.expiresAt.1.instant - p.createdAt.1.instant ≤ maxWindow) &&
    p.createdByAliases.contains p.createdBy &&
    !p.before.1.isEmpty && !p.after.1.isEmpty && !p.arguments.1.isEmpty &&
    !Json.equal (.obj p.before.1) (.obj p.after.1)

def equal (a b : WritePlanDraft) : Bool :=
  a.id == b.id && a.caseId == b.caseId && a.connectorId == b.connectorId && a.profileId == b.profileId &&
    a.profileVersion == b.profileVersion && a.objectType == b.objectType && a.targetRef == b.targetRef &&
    a.bindingHash == b.bindingHash && a.writeContractHash == b.writeContractHash && a.operation == b.operation &&
    a.providerOperation == b.providerOperation && decide (a.resolutionAction = b.resolutionAction) &&
    a.targetId == b.targetId && a.beforeVersion == b.beforeVersion && Json.equal (.obj a.before.1) (.obj b.before.1) &&
    Json.equal (.obj a.after.1) (.obj b.after.1) && Json.equal (.obj a.arguments.1) (.obj b.arguments.1) &&
    a.evidenceRefs == b.evidenceRefs && a.conflictingAuthors == b.conflictingAuthors && a.createdBy == b.createdBy &&
    a.createdByAliases == b.createdByAliases && a.createdAt.1.same b.createdAt.1 && a.expiresAt.1.same b.expiresAt.1

end WritePlanDraft

abbrev WritePlan (lax : Coercions) (sha256 : Utf8.Bytes → String) := {p : WritePlanDraft // p.validatePlan lax sha256 = true}

def WritePlan.codec (lax : Coercions) (sha256 : Utf8.Bytes → String) : Codec (WritePlan lax sha256) :=
  (WritePlanDraft.codec lax).checked (WritePlanDraft.validatePlan lax sha256)

structure ApprovalDraft where
  id : String
  planId : String
  planHash : String
  targetVersion : String
  actor : String
  actorAliases : List String
  planCreatedAt : UtcTime
  planExpiresAt : UtcTime
  approvedAt : UtcTime
  expiresAt : UtcTime
deriving DecidableEq

namespace ApprovalDraft

def fields (lax : Coercions) :=
  Fields.required "actor" Codec.string <|
  Fields.required "actor_aliases" Codec.string.list <|
  Fields.required "approved_at" lax.utcCodec <|
  Fields.defaulted "confirmation_method" (Codec.string.only "interactive") () <|
  Fields.required "expires_at" lax.utcCodec <|
  Fields.required "id" Codec.string <|
  Fields.required "plan_created_at" lax.utcCodec <|
  Fields.required "plan_expires_at" lax.utcCodec <|
  Fields.required "plan_hash" Codec.string <|
  Fields.required "plan_id" Codec.string <|
  Fields.defaulted "schema_version" (Codec.int.only 1) () <|
  Fields.required "target_version" Codec.string <|
  Fields.nil

def codec (lax : Coercions) : Codec ApprovalDraft :=
  (Codec.object (fields lax)).convert
    (fun (actor,actorAliases,approvedAt,_,expiresAt,id,planCreatedAt,planExpiresAt,planHash,planId,_,targetVersion,_) =>
      some ⟨id,planId,planHash,targetVersion,actor,actorAliases,planCreatedAt,planExpiresAt,approvedAt,expiresAt⟩)
    (fun a => (a.actor,a.actorAliases,a.approvedAt,(),a.expiresAt,a.id,a.planCreatedAt,a.planExpiresAt,a.planHash,a.planId,(),
      a.targetVersion,()))
    (fun _ => rfl)

def material (lax : Coercions) (a : ApprovalDraft) : Json :=
  match (codec lax).dump a with
  | .obj ms => .obj (ms.filter fun m => m.1 != "id")
  | v => v

-- The field validators and `validate_approval`.
def validateApproval (lax : Coercions) (sha256 : Utf8.Bytes → String) (a : ApprovalDraft) : Bool :=
  isApprovalId a.id && isPlanId a.planId && isHash a.planHash && mutationText a.targetVersion && mutationText a.actor &&
    orderedIdentity a.actorAliases && a.id == "approval:" ++ canonicalHash sha256 (a.material lax) &&
    a.actorAliases.contains a.actor && a.planId == "write-plan:" ++ a.planHash &&
    decide (a.planCreatedAt.1.instant < a.planExpiresAt.1.instant) &&
    decide (a.planCreatedAt.1.instant ≤ a.approvedAt.1.instant) &&
    decide (a.approvedAt.1.instant < a.planExpiresAt.1.instant) &&
    decide (a.approvedAt.1.instant < a.expiresAt.1.instant) &&
    decide (a.expiresAt.1.instant - a.approvedAt.1.instant ≤ maxWindow) &&
    decide (a.expiresAt.1.instant ≤ a.planExpiresAt.1.instant)

def equal (a b : ApprovalDraft) : Bool :=
  a.id == b.id && a.planId == b.planId && a.planHash == b.planHash && a.targetVersion == b.targetVersion &&
    a.actor == b.actor && a.actorAliases == b.actorAliases && a.planCreatedAt.1.same b.planCreatedAt.1 &&
    a.planExpiresAt.1.same b.planExpiresAt.1 && a.approvedAt.1.same b.approvedAt.1 && a.expiresAt.1.same b.expiresAt.1

end ApprovalDraft

abbrev ApprovalRecord (lax : Coercions) (sha256 : Utf8.Bytes → String) :=
  {a : ApprovalDraft // a.validateApproval lax sha256 = true}

def ApprovalRecord.codec (lax : Coercions) (sha256 : Utf8.Bytes → String) : Codec (ApprovalRecord lax sha256) :=
  (ApprovalDraft.codec lax).checked (ApprovalDraft.validateApproval lax sha256)
