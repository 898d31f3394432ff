import IntentEngineering.Models.Mutations

open Schema

inductive ReceiptStatus where
  | succeeded
  | rejected
  | failed
deriving DecidableEq

namespace ReceiptStatus

def spelling : ReceiptStatus → String
  | .succeeded => "succeeded"
  | .rejected => "rejected"
  | .failed => "failed"

def all : List ReceiptStatus := [.succeeded,.rejected,.failed]

def codec : Codec ReceiptStatus := .spelled spelling all (by intro a; cases a <;> decide)

end ReceiptStatus

inductive RedactedError where
  | targetChanged
  | permissionDenied
  | providerFailure
deriving DecidableEq

namespace RedactedError

def spelling : RedactedError → String
  | .targetChanged => "target_changed"
  | .permissionDenied => "permission_denied"
  | .providerFailure => "provider_failure"

def all : List RedactedError := [.targetChanged,.permissionDenied,.providerFailure]

def codec : Codec RedactedError := .spelled spelling all (by intro a; cases a <;> decide)

end RedactedError

def isReceiptId : String → Bool := isPrefixedHash "receipt:sha256:"
def isWriteEvidenceId : String → Bool := isPrefixedHash "evidence:mcp-write:"

-- The current representation of an object at its provider.
structure RemoteObject where
  connectorId : String
  profileId : String
  profileVersion : String
  objectType : String
  id : String
  version : String
  content : Payload

structure WriteResult where
  resultingVersion : String
  redactedResult : Payload
  versioned : mutationText resultingVersion = true

structure ReceiptDraft where
  id : String
  planId : String
  planHash : String
  approvalId : String
  targetVersion : String
  executedBy : String
  status : ReceiptStatus
  attemptedAt : UtcTime
  completedAt : UtcTime
  resultingVersion : Option String
  evidenceRef : Option String
  redactedError : Option RedactedError
deriving DecidableEq

namespace ReceiptDraft

def fields (lax : Coercions) :=
  Fields.required "approval_id" Codec.string <|
  Fields.required "attempted_at" lax.utcCodec <|
  Fields.required "completed_at" lax.utcCodec <|
  Fields.defaulted "evidence_ref" Codec.optionalString none <|
  Fields.required "executed_by" Codec.string <|
  Fields.required "id" Codec.string <|
  Fields.required "plan_hash" Codec.string <|
  Fields.required "plan_id" Codec.string <|
  Fields.defaulted "redacted_error" (RedactedError.codec.nullable nofun) none <|
  Fields.defaulted "resulting_version" Codec.optionalString none <|
  Fields.defaulted "schema_version" (Codec.int.only 1) () <|
  Fields.required "status" ReceiptStatus.codec <|
  Fields.required "target_version" Codec.string Fields.nil (Fields.before_nil _)

def codec (lax : Coercions) : Codec ReceiptDraft :=
  (Codec.object (fields lax)).convert
    (fun (approvalId,attemptedAt,completedAt,evidenceRef,executedBy,id,planHash,planId,redactedError,resultingVersion,_,status,
        targetVersion,_) =>
      some ⟨id,planId,planHash,approvalId,targetVersion,executedBy,status,attemptedAt,completedAt,resultingVersion,evidenceRef,
        redactedError⟩)
    (fun r => (r.approvalId,r.attemptedAt,r.completedAt,r.evidenceRef,r.executedBy,r.id,r.planHash,r.planId,r.redactedError,
      r.resultingVersion,(),r.status,r.targetVersion,()))
    (fun _ => rfl)

def material (lax : Coercions) (r : ReceiptDraft) : Json :=
  match (codec lax).dump r with
  | .obj ms => .obj (ms.filter fun m => m.1 != "id")
  | v => v

-- A result belongs to a success and an error to everything else.
def resultShaped (r : ReceiptDraft) : Bool :=
  match r.status with
  | .succeeded => r.resultingVersion.isSome && r.evidenceRef.isSome && r.redactedError.isNone
  | _ => r.resultingVersion.isNone && r.evidenceRef.isNone && r.redactedError.isSome

-- The field validators and `validate_receipt`.
def validateReceipt (lax : Coercions) (sha256 : Utf8.Bytes → String) (r : ReceiptDraft) : Bool :=
  isReceiptId r.id && isPlanId r.planId && isHash r.planHash && isApprovalId r.approvalId && mutationText r.targetVersion &&
    mutationText r.executedBy && r.resultingVersion.all mutationText && r.evidenceRef.all isWriteEvidenceId &&
    r.id == "receipt:" ++ canonicalHash sha256 (r.material lax) &&
    decide (r.attemptedAt.1.instant ≤ r.completedAt.1.instant) && r.resultShaped

def equal (a b : ReceiptDraft) : Bool :=
  a.id == b.id && a.planId == b.planId && a.planHash == b.planHash && a.approvalId == b.approvalId &&
    a.targetVersion == b.targetVersion && a.executedBy == b.executedBy && decide (a.status = b.status) &&
    a.attemptedAt.1.same b.attemptedAt.1 && a.completedAt.1.same b.completedAt.1 &&
    a.resultingVersion == b.resultingVersion && a.evidenceRef == b.evidenceRef && decide (a.redactedError = b.redactedError)

end ReceiptDraft

abbrev ExecutionReceipt (lax : Coercions) (sha256 : Utf8.Bytes → String) :=
  {r : ReceiptDraft // r.validateReceipt lax sha256 = true}

namespace ExecutionReceipt

variable (lax : Coercions) (sha256 : Utf8.Bytes → String)

def codec : Codec (ExecutionReceipt lax sha256) := (ReceiptDraft.codec lax).checked (ReceiptDraft.validateReceipt lax sha256)

def build (r : ReceiptDraft) : Option (ExecutionReceipt lax sha256) :=
  if valid : r.validateReceipt lax sha256 = true then some ⟨r,valid⟩ else none

instance : ReceiptStatus.codec.Finite := inferInstanceAs (Codec.spelled ..).Finite
instance : RedactedError.codec.Finite := inferInstanceAs (Codec.spelled ..).Finite
instance : (ReceiptDraft.fields lax).Finite := by unfold ReceiptDraft.fields; infer_instance
instance : (ReceiptDraft.codec lax).Finite := inferInstanceAs (Codec.convert ..).Finite
instance : (codec lax sha256).Finite := inferInstanceAs (Codec.checked ..).Finite

variable {lax sha256}

theorem build_draft {r : ReceiptDraft} {receipt : ExecutionReceipt lax sha256} (built : build lax sha256 r = some receipt) :
    receipt.1 = r := by
  unfold build at built
  split at built
  · cases built
    rfl
  · cases built

end ExecutionReceipt
