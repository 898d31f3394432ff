import IntentEngineering.Models.Mutations
import IntentEngineering.Models.Proposals

open Schema

inductive DecisionAction where
  | confirm
  | reject
deriving DecidableEq

namespace DecisionAction

def spelling : DecisionAction → String
  | .confirm => "confirm"
  | .reject => "reject"

def codec : Codec DecisionAction := .spelled spelling [.confirm,.reject] (by intro a; cases a <;> decide)

end DecisionAction

-- What the three versions of a decision share.
structure DecisionBody where
  id : String
  proposalId : String
  proposalDigest : String
  actor : String
  actorAliases : List String
  decidedAt : DateTime
  baselineGraphVersion : Int

-- The governed confirmation of the third version.
structure GovernedConfirmation where
  selectedNodeIds : List String
  activationChangesetId : String
  activationGraphEffectDigest : String
  reviewCaseId : Option String
  reviewCasePreimageDigest : Option String
  proposalAuthorAliases : List String
  conflictingAuthorAliases : List String
deriving DecidableEq

inductive DecisionForm where
  | first (action : DecisionAction)
  | second (confirmedNodeIds : List String) (activationChangesetId : String)
  | third (confirmation : GovernedConfirmation)
deriving DecidableEq

structure DecisionDraft extends DecisionBody where
  form : DecisionForm

namespace DecisionDraft

def firstFields (lax : Coercions) :=
  Fields.required "action" DecisionAction.codec <|
  Fields.required "actor" Codec.string <|
  Fields.required "actor_aliases" Codec.string.list <|
  Fields.required "baseline_graph_version" Codec.int <|
  Fields.required "decided_at" lax.timeCodec <|
  Fields.required "id" Codec.string <|
  Fields.required "proposal_digest" Codec.string <|
  Fields.required "proposal_id" Codec.string <|
  Fields.defaulted "schema_version" (Codec.int.only 1) () <|
  Fields.nil

def secondFields (lax : Coercions) :=
  Fields.required "action" (DecisionAction.codec.only .confirm) <|
  Fields.required "activation_changeset_id" Codec.string <|
  Fields.required "actor" Codec.string <|
  Fields.required "actor_aliases" Codec.string.list <|
  Fields.required "baseline_graph_version" Codec.int <|
  Fields.required "confirmed_node_ids" Codec.string.list <|
  Fields.required "decided_at" lax.timeCodec <|
  Fields.required "id" Codec.string <|
  Fields.required "proposal_digest" Codec.string <|
  Fields.required "proposal_id" Codec.string <|
  Fields.defaulted "schema_version" (Codec.int.only 2) () <|
  Fields.nil

def thirdFields (lax : Coercions) :=
  Fields.defaulted "action" (DecisionAction.codec.only .confirm) () <|
  Fields.required "activation_changeset_id" Codec.string <|
  Fields.required "activation_graph_effect_digest" Codec.string <|
  Fields.required "actor" Codec.string <|
  Fields.required "actor_aliases" Codec.string.list <|
  Fields.required "baseline_graph_version" Codec.int <|
  Fields.defaulted "conflicting_author_aliases" Codec.string.list [] <|
  Fields.required "decided_at" lax.timeCodec <|
  Fields.required "id" Codec.string <|
  Fields.required "proposal_author_aliases" Codec.string.list <|
  Fields.required "proposal_digest" Codec.string <|
  Fields.required "proposal_id" Codec.string <|
  Fields.defaulted "review_case_id" Codec.optionalString none <|
  Fields.defaulted "review_case_preimage_digest" Codec.optionalString none <|
  Fields.defaulted "schema_version" (Codec.int.only 3) () <|
  Fields.defaulted "selected_node_ids" Codec.string.list [] <|
  Fields.nil

def firstParts (d : DecisionBody × DecisionAction) :=
  (d.2,d.1.actor,d.1.actorAliases,d.1.baselineGraphVersion,d.1.decidedAt,d.1.id,d.1.proposalDigest,d.1.proposalId,(),())

def secondParts (d : DecisionBody × List String × String) :=
  ((),d.2.2,d.1.actor,d.1.actorAliases,d.1.baselineGraphVersion,d.2.1,d.1.decidedAt,d.1.id,d.1.proposalDigest,d.1.proposalId,(),())

def firstCodec (lax : Coercions) : Codec (DecisionBody × DecisionAction) :=
  (Codec.object (firstFields lax)).convert
    (fun (action,actor,actorAliases,baselineGraphVersion,decidedAt,id,proposalDigest,proposalId,_) =>
      some (⟨id,proposalId,proposalDigest,actor,actorAliases,decidedAt,baselineGraphVersion⟩,action))
    firstParts (fun _ => rfl)

def secondCodec (lax : Coercions) : Codec (DecisionBody × List String × String) :=
  (Codec.object (secondFields lax)).convert
    (fun (_,activationChangesetId,actor,actorAliases,baselineGraphVersion,confirmedNodeIds,decidedAt,id,proposalDigest,proposalId,_) =>
      some (⟨id,proposalId,proposalDigest,actor,actorAliases,decidedAt,baselineGraphVersion⟩,confirmedNodeIds,activationChangesetId))
    secondParts (fun _ => rfl)

def thirdCodec (lax : Coercions) : Codec (DecisionBody × GovernedConfirmation) :=
  (Codec.object (thirdFields lax)).convert
    (fun (_,activationChangesetId,effect,actor,actorAliases,baselineGraphVersion,conflictingAuthorAliases,decidedAt,id,
        proposalAuthorAliases,proposalDigest,proposalId,reviewCaseId,preimage,_,selectedNodeIds,_) =>
      some (⟨id,proposalId,proposalDigest,actor,actorAliases,decidedAt,baselineGraphVersion⟩,
        ⟨selectedNodeIds,activationChangesetId,effect,reviewCaseId,preimage,proposalAuthorAliases,conflictingAuthorAliases⟩))
    (fun (d,g) => ((),g.activationChangesetId,g.activationGraphEffectDigest,d.actor,d.actorAliases,d.baselineGraphVersion,
      g.conflictingAuthorAliases,d.decidedAt,d.id,g.proposalAuthorAliases,d.proposalDigest,d.proposalId,g.reviewCaseId,
      g.reviewCasePreimageDigest,(),g.selectedNodeIds,()))
    (fun _ => rfl)

theorem second_refuses_first (lax : Coercions) (d : DecisionBody × DecisionAction) :
    (secondCodec lax).load ((firstCodec lax).dump d) = none := by
  have absent := lookup_dumped (firstFields lax) (firstParts d) (show "activation_changeset_id" ∉ _ by decide)
  apply convert_none
  apply object_none
  exact push_none _ _ _ _ (by decide +kernel) (required_none _ _ _ (by decide +kernel) absent)

theorem third_refuses_first (lax : Coercions) (d : DecisionBody × DecisionAction) :
    (thirdCodec lax).load ((firstCodec lax).dump d) = none := by
  have absent := lookup_dumped (firstFields lax) (firstParts d) (show "activation_changeset_id" ∉ _ by decide)
  apply convert_none
  apply object_none
  exact push_none _ _ _ _ (by decide +kernel) (required_none _ _ _ (by decide +kernel) absent)

theorem third_refuses_second (lax : Coercions) (d : DecisionBody × List String × String) :
    (thirdCodec lax).load ((secondCodec lax).dump d) = none := by
  apply convert_none
  apply object_extra
  refine ⟨"confirmed_node_ids",?_,by decide⟩
  rw [(secondFields lax).named (secondParts d)]
  decide

def codec (lax : Coercions) : Codec DecisionDraft :=
  ((thirdCodec lax).either ((secondCodec lax).either (firstCodec lax) (second_refuses_first lax))
      (by rintro (d | d); exacts [third_refuses_second lax d,third_refuses_first lax d])).convert
    (fun
      | .inl (body,confirmation) => some ⟨body,.third confirmation⟩
      | .inr (.inl (body,nodes,changeset)) => some ⟨body,.second nodes changeset⟩
      | .inr (.inr (body,action)) => some ⟨body,.first action⟩)
    (fun d => match d.form with
      | .third confirmation => .inl (d.toDecisionBody,confirmation)
      | .second nodes changeset => .inr (.inl (d.toDecisionBody,nodes,changeset))
      | .first action => .inr (.inr (d.toDecisionBody,action)))
    (by rintro ⟨_,_ | _ | _⟩ <;> rfl)

def digest (d : DecisionDraft) : String := canonicalDigest (without "id" ((codec canonicalOnly).dump d))

-- Unique and sorted.
def canonicalValues (values : List String) : Bool := decide (values.Pairwise (· < ·))

def maxDecisionNodeIds : Nat := 10000

def validForm (d : DecisionDraft) : Bool :=
  match d.form with
  | .first _ => true
  | .second nodes changeset =>
    !nodes.isEmpty && decide (nodes.length ≤ maxDecisionNodeIds) && decide nodes.Nodup && changeset != ""
  | .third g =>
    decide (g.selectedNodeIds.length ≤ maxDecisionNodeIds) && g.activationChangesetId != "" &&
      isHash g.activationGraphEffectDigest && g.reviewCasePreimageDigest.all isHash && !g.proposalAuthorAliases.isEmpty &&
      canonicalValues d.actorAliases && canonicalValues g.selectedNodeIds && canonicalValues g.proposalAuthorAliases &&
      canonicalValues g.conflictingAuthorAliases && d.actorAliases.contains d.actor &&
      (g.reviewCaseId.isSome || g.conflictingAuthorAliases.isEmpty) &&
      g.reviewCaseId.isSome == g.reviewCasePreimageDigest.isSome

-- The field validators, `validate_identity` and `validate_governed_decision`.
def valid (d : DecisionDraft) : Bool := d.validForm && d.id == "proposal-decision:" ++ d.digest

def equal (a b : DecisionDraft) : Bool :=
  a.id == b.id && a.proposalId == b.proposalId && a.proposalDigest == b.proposalDigest && a.actor == b.actor &&
    a.actorAliases == b.actorAliases && a.decidedAt.same b.decidedAt && a.baselineGraphVersion == b.baselineGraphVersion &&
    decide (a.form = b.form)

end DecisionDraft

abbrev ProposalDecisionRecord := {d : DecisionDraft // d.valid = true}

def ProposalDecisionRecord.codec (lax : Coercions) : Codec ProposalDecisionRecord :=
  (DecisionDraft.codec lax).checked DecisionDraft.valid

section Finite

variable (lax : Coercions)

instance : DecisionAction.codec.Finite := inferInstanceAs (Codec.spelled ..).Finite

instance : (DecisionDraft.firstFields lax).Finite := by unfold DecisionDraft.firstFields; infer_instance
instance : (DecisionDraft.secondFields lax).Finite := by unfold DecisionDraft.secondFields; infer_instance
instance : (DecisionDraft.thirdFields lax).Finite := by unfold DecisionDraft.thirdFields; infer_instance

instance : (DecisionDraft.firstCodec lax).Finite :=
  ⟨fun d => Codec.Finite.finite (c := Codec.object (DecisionDraft.firstFields lax)) (DecisionDraft.firstParts d)⟩
instance : (DecisionDraft.secondCodec lax).Finite :=
  ⟨fun d => Codec.Finite.finite (c := Codec.object (DecisionDraft.secondFields lax)) (DecisionDraft.secondParts d)⟩
instance : (DecisionDraft.thirdCodec lax).Finite := inferInstanceAs (Codec.convert ..).Finite
instance : (DecisionDraft.codec lax).Finite := inferInstanceAs (Codec.convert ..).Finite
instance : (ProposalDecisionRecord.codec lax).Finite := inferInstanceAs (Codec.checked ..).Finite

end Finite
