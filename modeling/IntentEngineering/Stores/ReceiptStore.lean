import IntentEngineering.Library.ByteFrames
import IntentEngineering.Models.Receipts

open Schema ByteFrames

-- `_Claim`
structure ExecutionClaim where
  planId : String
  approvalId : String
  actor : String
  claimedAt : UtcTime
  identified : (isPlanId planId && isApprovalId approvalId && mutationText actor) = true

namespace ExecutionClaim

-- `_validated_claim`
def build (planId approvalId actor : String) (claimedAt : UtcTime) : Option ExecutionClaim :=
  if valid : (isPlanId planId && isApprovalId approvalId && mutationText actor) = true then
    some ⟨planId,approvalId,actor,claimedAt,valid⟩
  else none

def fields (lax : Coercions) :=
  Fields.required "actor" Codec.string <|
  Fields.required "approval_id" Codec.string <|
  Fields.required "claimed_at" lax.utcCodec <|
  Fields.required "kind" (Codec.string.only "claim") <|
  Fields.required "plan_id" Codec.string <|
  Fields.defaulted "storage_schema_version" (Codec.int.only 1) () Fields.nil (Fields.before_nil _)

def codec (lax : Coercions) : Codec ExecutionClaim :=
  (Codec.object (fields lax)).convert
    (fun (actor,approvalId,claimedAt,_,planId,_) => build planId approvalId actor claimedAt)
    (fun c => (c.actor,c.approvalId,c.claimedAt,(),c.planId,(),()))
    (fun c => by simp [build,c.identified])

def key (c : ExecutionClaim) : String × String := (c.planId,c.approvalId)

end ExecutionClaim

section
variable (lax : Coercions) (sha256 : Utf8.Bytes → String)

-- `_Completion`
def completionFields :=
  Fields.required "kind" (Codec.string.only "receipt") <|
  Fields.required "receipt" (ExecutionReceipt.codec lax sha256) <|
  Fields.defaulted "storage_schema_version" (Codec.int.only 1) () Fields.nil (Fields.before_nil _)

def completionCodec : Codec (ExecutionReceipt lax sha256) :=
  (Codec.object (completionFields lax sha256)).convert (fun (_,receipt,_) => some receipt) (fun receipt => ((),receipt,(),())) (fun _ => rfl)

theorem claim_not_completion (receipt : ExecutionReceipt lax sha256) :
    (ExecutionClaim.codec lax).load ((completionCodec lax sha256).dump receipt) = none := by
  apply convert_none
  apply object_extra
  exact ⟨"receipt",by simp [completionFields,Fields.required,Fields.defaulted,Fields.push],by decide⟩

-- One line of the ledger; its `kind` says which of the two it is.
def receiptCodec : Codec (ExecutionClaim ⊕ ExecutionReceipt lax sha256) :=
  (ExecutionClaim.codec lax).either (completionCodec lax sha256) (claim_not_completion lax sha256)

theorem receipt_object (r : ExecutionClaim ⊕ ExecutionReceipt lax sha256) : ∃ ms, (receiptCodec lax sha256).dump r = .obj ms := by
  cases r with
  | inl claim => exact ⟨_,rfl⟩
  | inr receipt => exact ⟨_,rfl⟩

instance ExecutionClaim.fieldsFinite : (ExecutionClaim.fields lax).Finite := by unfold ExecutionClaim.fields; infer_instance
instance : (ExecutionClaim.codec lax).Finite := inferInstanceAs (Codec.convert ..).Finite
instance completionFinite : (completionFields lax sha256).Finite := by unfold completionFields; infer_instance
instance : (completionCodec lax sha256).Finite := inferInstanceAs (Codec.convert ..).Finite
instance : (receiptCodec lax sha256).Finite := inferInstanceAs (Codec.either ..).Finite

end

def ReceiptDraft.key (r : ReceiptDraft) : String × String := (r.planId,r.approvalId)

-- What the decoder gathers: the claims and the receipts, each under its key.
structure ReceiptLedger (lax : Coercions) (sha256 : Utf8.Bytes → String) where
  claims : List ExecutionClaim
  receipts : List (ExecutionReceipt lax sha256)

namespace ReceiptLedger
variable {lax : Coercions} {sha256 : Utf8.Bytes → String} (s : ReceiptLedger lax sha256)

def claim (key : String × String) : Option ExecutionClaim := s.claims.find? fun c => c.key == key

def receipt (key : String × String) : Option (ExecutionReceipt lax sha256) := s.receipts.find? fun r => r.1.key == key

end ReceiptLedger

inductive ReceiptStoreError where
  | invalidStore
  | invalidClaim
  | invalidReceipt
  | conflictingReceipt
deriving DecidableEq

namespace ReceiptStore

variable (lax : Coercions) (sha256 : Utf8.Bytes → String)

abbrev Record := ExecutionClaim ⊕ ExecutionReceipt lax sha256
abbrev Ledger := ReceiptLedger lax sha256

variable {lax sha256}

def record (s : Ledger lax sha256) : Record lax sha256 → Option (Ledger lax sha256)
  | .inl claim =>
    if (s.claim claim.key).isSome || (s.receipt claim.key).isSome then none else some { s with claims := s.claims ++ [claim] }
  | .inr receipt =>
    match s.claim receipt.1.key with
    | none => none
    | some claim =>
      if (s.receipt receipt.1.key).isSome || claim.actor != receipt.1.executedBy then none
      else some { s with receipts := s.receipts ++ [receipt] }

variable (lax sha256)

-- `_decode_content`
def decode (content : Option Utf8.Bytes) : Option (Ledger lax sha256) :=
  match content with
  | none => some ⟨[],[]⟩
  | some bytes => readLines (receiptCodec lax sha256) (fun s _ r => record s r) 0 ⟨[],[]⟩ (LineText.lines byteRule bytes)

-- The bytes to append; none of them where the receipt is already there.
def validateReceiptCompletion (content : Option Utf8.Bytes) (receipt : ExecutionReceipt lax sha256) :
    Except ReceiptStoreError Utf8.Bytes :=
  match decode lax sha256 content with
  | none => .error .invalidStore
  | some s =>
    match s.claim receipt.1.key with
    | none => .error .invalidReceipt
    | some claim =>
      if claim.actor ≠ receipt.1.executedBy then .error .invalidReceipt
      else match s.receipt receipt.1.key with
        | some existing => if existing.1.equal receipt.1 then .ok [] else .error .conflictingReceipt
        | none => .ok (serialize (receiptCodec lax sha256) (.inr receipt))

-- What each call returns and the frame it appends.
def claim (planId approvalId actor : String) (claimedAt : UtcTime) (content : Option Utf8.Bytes) :
    Except ReceiptStoreError (Bool × Option Utf8.Bytes) :=
  match ExecutionClaim.build planId approvalId actor claimedAt with
  | none => .error .invalidClaim
  | some claim =>
    match decode lax sha256 content with
    | none => .error .invalidStore
    | some s =>
      if (s.claim claim.key).isSome then .ok (false,none)
      else .ok (true,some (serialize (receiptCodec lax sha256) (.inl claim)))

def complete (receipt : ExecutionReceipt lax sha256) (content : Option Utf8.Bytes) :
    Except ReceiptStoreError (Bool × Option Utf8.Bytes) :=
  match validateReceiptCompletion lax sha256 content receipt with
  | .error e => .error e
  | .ok [] => .ok (false,none)
  | .ok serialized => .ok (true,some serialized)

def getFor (planId approvalId : String) (content : Option Utf8.Bytes) : Except ReceiptStoreError (Option (ExecutionReceipt lax sha256)) :=
  match decode lax sha256 content with
  | none => .error .invalidStore
  | some s => .ok (s.receipt (planId,approvalId))

end ReceiptStore
