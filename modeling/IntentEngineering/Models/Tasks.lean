import IntentEngineering.Models.Mutations
import IntentEngineering.Models.Proposals

open Schema

inductive TaskClassification where
  | noSemanticImpact
  | aligned
  | newOrAmbiguous
  | conflicting
deriving DecidableEq

-- `_CONTROL.search`
def hasControl (s : String) : Bool := s.toList.any fun c => decide (c.toNat < 32) || c.toNat == 127

-- `_PROMPT_CONTROL.search`: a tab or a line end may stand in a prompt.
def hasPromptControl (s : String) : Bool :=
  s.toList.any fun c => (decide (c.toNat < 32) && !decide (c.toNat ∈ [9,10,13])) || c.toNat == 127

def utf8Length (s : String) : Nat := (Utf8.encode s.toList).length

def taskText (limit : Nat) (s : String) : Bool := !hasControl s && decide (utf8Length s ≤ limit)

structure TaskEnvelopeDraft where
  id : String
  repositoryId : String
  actor : String
  conversationRef : String
  request : String
  requestEvidenceRef : String
  graphVersion : Nat
  createdAt : DateTime
  requestedScope : List String

namespace TaskEnvelopeDraft

variable (e : TaskEnvelopeDraft)

def digest : String :=
  canonicalDigest (.obj [
    ("actor",.str e.actor),
    ("conversation_ref",.str e.conversationRef),
    ("created_at",DateTime.codec.dump e.createdAt),
    ("graph_version",.int e.graphVersion),
    ("repository_id",.str e.repositoryId),
    ("request",.str e.request),
    ("request_evidence_ref",.str e.requestEvidenceRef),
    ("requested_scope",Codec.string.list.dump e.requestedScope),
    ("schema_version",.int 1)])

-- The field validators.
def fieldsValid : Bool :=
  !hasControl e.repositoryId && !hasControl e.actor && !hasControl e.requestEvidenceRef &&
    decide (e.conversationRef.toList.length ≤ 512) && taskText 512 e.conversationRef &&
    !hasPromptControl e.request && decide (utf8Length e.request ≤ 16 * 1024) &&
    decide (e.requestedScope.length ≤ 256) && e.requestedScope.all (taskText 2048)

-- `assign_or_validate_identity`
def valid : Bool := e.fieldsValid && e.id == "task:" ++ e.digest

-- An envelope built without an identifier takes its own.
def assigned : TaskEnvelopeDraft := { e with id := "task:" ++ e.digest }

theorem assigned_valid (fields : e.fieldsValid = true) : e.assigned.valid = true := by
  have same : e.assigned.fieldsValid = true := fields
  have id : e.assigned.id = "task:" ++ e.assigned.digest := rfl
  simp [valid,same,id]

end TaskEnvelopeDraft

abbrev TaskEnvelope := {e : TaskEnvelopeDraft // e.valid = true}

structure PreflightResult where
  taskId : String
  graphVersion : Int
  classification : TaskClassification
  authorized : Bool
  relevantNodeIds : List String
  questions : List String
  reviewCaseId : Option String
  permittedScope : List String

theorem utf8Length_le (s : String) : utf8Length s ≤ 4 * s.toList.length := by
  simp only [utf8Length,Utf8.encode]
  induction s.toList with
  | nil => simp
  | cons c cs ih =>
    have one : (String.utf8EncodeChar c).length ≤ 4 := by
      rw [String.length_utf8EncodeChar]
      exact Char.utf8Size_le_four c
    simp only [List.flatMap_cons,List.length_append,List.length_cons]
    omega

theorem hexDigit_hex (small : d < 16) : PyText.isHex (Sha256.hexDigit d) = true := by
  interval_cases d <;> decide

theorem hexdigest_hex (message : Utf8.Bytes) : PyText.isHexDigest (Sha256.hexdigest message).toList = true := by
  simp only [PyText.isHexDigest,Sha256.hexdigest_length,beq_self_eq_true,Bool.true_and,List.all_eq_true]
  intro c member
  simp only [Sha256.hexdigest,String.toList_ofList,List.mem_flatMap,Sha256.hexWord,List.mem_map] at member
  obtain ⟨w,_,i,_,rfl⟩ := member
  exact hexDigit_hex (Nat.mod_lt _ (by decide))

theorem isPrefixedHash_hexdigest (kind : String) (message : Utf8.Bytes) :
    isPrefixedHash kind (kind ++ Sha256.hexdigest message) = true := by
  simp only [isPrefixedHash,String.toList_append,List.drop_left,hexdigest_hex,Bool.and_true]
  exact List.isPrefixOf_iff_prefix.mpr (List.prefix_append _ _)

theorem hexDigit_printed (hex : PyText.isHex c = true) : (decide (c.toNat < 32) || c.toNat == 127) = false := by
  simp only [PyText.isHex,Bool.or_eq_true,decide_eq_true_eq] at hex
  simp only [Bool.or_eq_false_iff,decide_eq_false_iff_not,beq_eq_false_iff_ne]
  omega

theorem hasControl_digest (kind : String) (plain : hasControl kind = false) (message : Utf8.Bytes) :
    hasControl (kind ++ Sha256.hexdigest message) = false := by
  have digits := hexdigest_hex message
  simp only [PyText.isHexDigest,Bool.and_eq_true,List.all_eq_true] at digits
  simp only [hasControl,String.toList_append,List.any_append,Bool.or_eq_false_iff]
  constructor
  · exact plain
  · apply List.any_eq_false.mpr
    intro c member
    simpa using hexDigit_printed (digits.2 c member)
