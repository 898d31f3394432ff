import IntentEngineering.Library.Sha256
import IntentEngineering.Models.ChangeSet

open Schema

-- `_canonical_digest` of a written record.
def canonicalDigest (material : Json) : String := "sha256:" ++ Sha256.hexdigest (Utf8.encode material.text)

-- A written record without one of its members.
def without (name : String) : Json → Json
  | .obj ms => .obj (ms.filter fun m => m.1 != name)
  | v => v

-- `Field(min_length=low, max_length=high)`
def bounded (low high : Nat) (s : String) : Bool := decide (low ≤ s.toList.length) && decide (s.toList.length ≤ high)

theorem bounded_digest (kind : String) (short : kind.toList.length ≤ 185) (material : Json) :
    bounded 1 256 (kind ++ canonicalDigest material) = true := by
  have length : (canonicalDigest material).toList.length = 71 := by
    simp [canonicalDigest,Sha256.hexdigest_length]
  simp only [bounded,String.toList_append,List.length_append,length,Bool.and_eq_true,decide_eq_true_eq]
  omega

inductive SourceRole where
  | declaredIntent
  | decision
  | proposedIntent
  | implementationEvidence
  | operatingContext
deriving DecidableEq

namespace SourceRole

def spelling : SourceRole → String
  | .declaredIntent => "declared_intent"
  | .decision => "decision"
  | .proposedIntent => "proposed_intent"
  | .implementationEvidence => "implementation_evidence"
  | .operatingContext => "operating_context"

def all : List SourceRole := [.declaredIntent,.decision,.proposedIntent,.implementationEvidence,.operatingContext]

def codec : Codec SourceRole := .spelled spelling all (by intro a; cases a <;> decide)

end SourceRole

inductive ProposalKind where
  | bootstrap
  | requirement
deriving DecidableEq

namespace ProposalKind

def spelling : ProposalKind → String
  | .bootstrap => "bootstrap"
  | .requirement => "requirement"

def codec : Codec ProposalKind := .spelled spelling [.bootstrap,.requirement] (by intro a; cases a <;> decide)

end ProposalKind

structure SourceRoleAssignment where
  connectorId : String
  scope : String
  role : SourceRole
  inherited : Bool
deriving DecidableEq

namespace SourceRoleAssignment

def bounds (a : SourceRoleAssignment) : Bool := bounded 1 512 a.connectorId && bounded 1 2048 a.scope

-- Sorted by connector and scope, no pair twice.
def before (a b : SourceRoleAssignment) : Prop :=
  a.connectorId < b.connectorId ∨ a.connectorId = b.connectorId ∧ a.scope < b.scope

instance (a b : SourceRoleAssignment) : Decidable (before a b) :=
  inferInstanceAs (Decidable (_ ∨ _))

def codec : Codec SourceRoleAssignment :=
  (Codec.object (
    Fields.required "connector_id" Codec.string <|
    Fields.required "inherited" Codec.bool <|
    Fields.required "role" SourceRole.codec <|
    Fields.required "scope" Codec.string <|
    Fields.nil)).convert
    (fun (connectorId,inherited,role,scope,_) => some ⟨connectorId,scope,role,inherited⟩)
    (fun a => (a.connectorId,a.inherited,a.role,a.scope,()))
    (fun _ => rfl)

end SourceRoleAssignment

structure ClarificationBinding where
  sessionId : String
  taskId : String
deriving DecidableEq

structure ProposalBody where
  id : String
  kind : ProposalKind
  proposedBy : String
  proposedAt : DateTime
  baselineGraphVersion : Int
  evidenceRefs : List String
  sourceRoles : List SourceRoleAssignment
  changeset : ChangeSet
  coreNodeIds : List String
  provisionalNodeIds : List String
  assumptions : List String
  unansweredQuestions : List String
  conflictingAuthors : List String
  destructive : Bool

-- A requirement proposal is bound to its session; any other has no binding.
structure ProposalDraft extends ProposalBody where
  binding : Option ClarificationBinding

namespace ProposalDraft

def plainFields (lax : Coercions) :=
  Fields.defaulted "assumptions" Codec.string.list [] <|
  Fields.required "baseline_graph_version" Codec.int <|
  Fields.required "changeset" (ChangeSet.codec lax false) <|
  Fields.defaulted "conflicting_authors" Codec.string.list [] <|
  Fields.defaulted "core_node_ids" Codec.string.list [] <|
  Fields.defaulted "destructive" Codec.bool false <|
  Fields.required "evidence_refs" Codec.string.list <|
  Fields.required "id" Codec.string <|
  Fields.required "kind" ProposalKind.codec <|
  Fields.required "proposed_at" lax.timeCodec <|
  Fields.required "proposed_by" Codec.string <|
  Fields.defaulted "provisional_node_ids" Codec.string.list [] <|
  Fields.defaulted "schema_version" (Codec.int.only 1) () <|
  Fields.required "source_roles" SourceRoleAssignment.codec.list <|
  Fields.defaulted "unanswered_questions" Codec.string.list [] <|
  Fields.nil

def boundFields (lax : Coercions) :=
  Fields.defaulted "assumptions" Codec.string.list [] <|
  Fields.required "baseline_graph_version" Codec.int <|
  Fields.required "changeset" (ChangeSet.codec lax false) <|
  Fields.required "clarification_session_id" Codec.string <|
  Fields.defaulted "conflicting_authors" Codec.string.list [] <|
  Fields.defaulted "core_node_ids" Codec.string.list [] <|
  Fields.defaulted "destructive" Codec.bool false <|
  Fields.required "evidence_refs" Codec.string.list <|
  Fields.required "id" Codec.string <|
  Fields.required "kind" ProposalKind.codec <|
  Fields.required "proposed_at" lax.timeCodec <|
  Fields.required "proposed_by" Codec.string <|
  Fields.defaulted "provisional_node_ids" Codec.string.list [] <|
  Fields.defaulted "schema_version" (Codec.int.only 2) () <|
  Fields.required "source_roles" SourceRoleAssignment.codec.list <|
  Fields.required "task_id" Codec.string <|
  Fields.defaulted "unanswered_questions" Codec.string.list [] <|
  Fields.nil

def plainParts (p : ProposalBody) :=
  (p.assumptions,p.baselineGraphVersion,p.changeset,p.conflictingAuthors,p.coreNodeIds,p.destructive,p.evidenceRefs,p.id,p.kind,
    p.proposedAt,p.proposedBy,p.provisionalNodeIds,(),p.sourceRoles,p.unansweredQuestions,())

def plainCodec (lax : Coercions) : Codec ProposalBody :=
  (Codec.object (plainFields lax)).convert
    (fun (assumptions,baselineGraphVersion,changeset,conflictingAuthors,coreNodeIds,destructive,evidenceRefs,id,kind,proposedAt,
        proposedBy,provisionalNodeIds,_,sourceRoles,unansweredQuestions,_) =>
      some ⟨id,kind,proposedBy,proposedAt,baselineGraphVersion,evidenceRefs,sourceRoles,changeset,coreNodeIds,
        provisionalNodeIds,assumptions,unansweredQuestions,conflictingAuthors,destructive⟩)
    plainParts
    (fun _ => rfl)

def boundCodec (lax : Coercions) : Codec (ProposalBody × ClarificationBinding) :=
  (Codec.object (boundFields lax)).convert
    (fun (assumptions,baselineGraphVersion,changeset,sessionId,conflictingAuthors,coreNodeIds,destructive,evidenceRefs,id,kind,
        proposedAt,proposedBy,provisionalNodeIds,_,sourceRoles,taskId,unansweredQuestions,_) =>
      some (⟨id,kind,proposedBy,proposedAt,baselineGraphVersion,evidenceRefs,sourceRoles,changeset,coreNodeIds,
        provisionalNodeIds,assumptions,unansweredQuestions,conflictingAuthors,destructive⟩,⟨sessionId,taskId⟩))
    (fun (p,binding) => (p.assumptions,p.baselineGraphVersion,p.changeset,binding.sessionId,p.conflictingAuthors,
      p.coreNodeIds,p.destructive,p.evidenceRefs,p.id,p.kind,p.proposedAt,p.proposedBy,p.provisionalNodeIds,(),
      p.sourceRoles,binding.taskId,p.unansweredQuestions,()))
    (fun _ => rfl)

-- A plain proposal names no session, so the bound reader leaves it alone.
theorem bound_refuses (lax : Coercions) (p : ProposalBody) :
    (boundCodec lax).load ((plainCodec lax).dump p) = none := by
  apply convert_none
  apply object_none
  have absent := lookup_dumped (plainFields lax) (plainParts p) (show "clarification_session_id" ∉ _ by decide)
  exact push_none _ _ _ _ (by decide +kernel) (push_none _ _ _ _ (by decide +kernel) (push_none _ _ _ _ (by decide +kernel)
    (required_none _ _ _ (by decide +kernel) absent)))

def codec (lax : Coercions) : Codec ProposalDraft :=
  ((boundCodec lax).either (plainCodec lax) (bound_refuses lax)).convert
    (fun | .inl (body,binding) => some ⟨body,some binding⟩ | .inr body => some ⟨body,none⟩)
    (fun p => match p.binding with
      | some binding => .inl (p.toProposalBody,binding)
      | none => .inr p.toProposalBody)
    (by rintro ⟨_,_ | _⟩ <;> rfl)

-- What the identifier hashes.
def digest (p : ProposalDraft) : String := canonicalDigest (without "id" ((codec canonicalOnly).dump p))

-- The field bounds and `validate_identity`.
def valid (p : ProposalDraft) : Bool :=
  p.sourceRoles.all SourceRoleAssignment.bounds && decide (p.sourceRoles.Pairwise SourceRoleAssignment.before) &&
    p.binding.all (fun binding => bounded 1 256 binding.sessionId && bounded 1 256 binding.taskId) &&
    p.id == "proposal:" ++ p.digest

def equal (a b : ProposalDraft) : Bool :=
  a.id == b.id && decide (a.kind = b.kind) && a.proposedBy == b.proposedBy && a.proposedAt.same b.proposedAt &&
    a.baselineGraphVersion == b.baselineGraphVersion && a.evidenceRefs == b.evidenceRefs &&
    decide (a.sourceRoles = b.sourceRoles) && a.changeset.equal b.changeset && a.coreNodeIds == b.coreNodeIds &&
    a.provisionalNodeIds == b.provisionalNodeIds && a.assumptions == b.assumptions &&
    a.unansweredQuestions == b.unansweredQuestions && a.conflictingAuthors == b.conflictingAuthors &&
    a.destructive == b.destructive && decide (a.binding = b.binding)

end ProposalDraft

abbrev IntentProposal := {p : ProposalDraft // p.valid = true}

def IntentProposal.codec (lax : Coercions) : Codec IntentProposal := (ProposalDraft.codec lax).checked ProposalDraft.valid

section Finite

variable (lax : Coercions)

instance : SourceRole.codec.Finite := inferInstanceAs (Codec.spelled ..).Finite
instance : ProposalKind.codec.Finite := inferInstanceAs (Codec.spelled ..).Finite
instance : SourceRoleAssignment.codec.Finite := inferInstanceAs (Codec.convert ..).Finite

instance : (ProposalDraft.plainFields lax).Finite := by unfold ProposalDraft.plainFields; infer_instance
instance : (ProposalDraft.boundFields lax).Finite := by unfold ProposalDraft.boundFields; infer_instance

instance : (ProposalDraft.plainCodec lax).Finite :=
  ⟨fun p => Codec.Finite.finite (c := Codec.object (ProposalDraft.plainFields lax)) (ProposalDraft.plainParts p)⟩

instance : (ProposalDraft.boundCodec lax).Finite := inferInstanceAs (Codec.convert ..).Finite
instance : (ProposalDraft.codec lax).Finite := inferInstanceAs (Codec.convert ..).Finite
instance : (IntentProposal.codec lax).Finite := inferInstanceAs (Codec.checked ..).Finite

end Finite
