import IntentEngineering.Models.Mutations
import IntentEngineering.Models.Proposals

open Schema

def maxClarificationItems : Nat := 16

structure ClarificationQuestion where
  id : String
  promptDigest : String
  evidenceRef : String
  author : String
  askedAt : UtcTime
  predecessorEvidenceRef : Option String
  required : Bool
deriving DecidableEq

namespace ClarificationQuestion

def fields (lax : Coercions) :=
  Fields.required "asked_at" lax.utcCodec <|
  Fields.required "author" Codec.string <|
  Fields.required "evidence_ref" Codec.string <|
  Fields.required "id" Codec.string <|
  Fields.defaulted "predecessor_evidence_ref" Codec.optionalString none <|
  Fields.required "prompt_digest" Codec.string <|
  Fields.defaulted "required" Codec.bool true <|
  Fields.nil

def codec (lax : Coercions) : Codec ClarificationQuestion :=
  (Codec.object (fields lax)).convert
    (fun (askedAt,author,evidenceRef,id,predecessorEvidenceRef,promptDigest,required,_) =>
      some ⟨id,promptDigest,evidenceRef,author,askedAt,predecessorEvidenceRef,required⟩)
    (fun q => (q.askedAt,q.author,q.evidenceRef,q.id,q.predecessorEvidenceRef,q.promptDigest,q.required,()))
    (fun _ => rfl)

def bounds (q : ClarificationQuestion) : Bool :=
  bounded 1 256 q.id && isHash q.promptDigest && bounded 1 256 q.evidenceRef && bounded 1 256 q.author

end ClarificationQuestion

structure ClarificationAnswer where
  questionId : String
  actor : String
  answeredAt : UtcTime
  evidenceRef : String
  answerDigest : String
  predecessorEvidenceRef : Option String
deriving DecidableEq

namespace ClarificationAnswer

def fields (lax : Coercions) :=
  Fields.required "actor" Codec.string <|
  Fields.required "answer_digest" Codec.string <|
  Fields.required "answered_at" lax.utcCodec <|
  Fields.required "evidence_ref" Codec.string <|
  Fields.required "predecessor_evidence_ref" Codec.optionalString <|
  Fields.required "question_id" Codec.string <|
  Fields.nil

def codec (lax : Coercions) : Codec ClarificationAnswer :=
  (Codec.object (fields lax)).convert
    (fun (actor,answerDigest,answeredAt,evidenceRef,predecessorEvidenceRef,questionId,_) =>
      some ⟨questionId,actor,answeredAt,evidenceRef,answerDigest,predecessorEvidenceRef⟩)
    (fun a => (a.actor,a.answerDigest,a.answeredAt,a.evidenceRef,a.predecessorEvidenceRef,a.questionId,()))
    (fun _ => rfl)

def bounds (a : ClarificationAnswer) : Bool :=
  bounded 1 256 a.questionId && bounded 1 256 a.actor && bounded 1 256 a.evidenceRef && isHash a.answerDigest

end ClarificationAnswer

structure ClarificationConflict where
  questionId : String
  actor : String
  observedAt : UtcTime
  originalEvidenceRef : String
  conflictingEvidenceRef : String
  conflictingAnswerDigest : String
  predecessorEvidenceRef : String
deriving DecidableEq

namespace ClarificationConflict

def fields (lax : Coercions) :=
  Fields.required "actor" Codec.string <|
  Fields.required "conflicting_answer_digest" Codec.string <|
  Fields.required "conflicting_evidence_ref" Codec.string <|
  Fields.required "observed_at" lax.utcCodec <|
  Fields.required "original_evidence_ref" Codec.string <|
  Fields.required "predecessor_evidence_ref" Codec.string <|
  Fields.required "question_id" Codec.string <|
  Fields.nil

def codec (lax : Coercions) : Codec ClarificationConflict :=
  (Codec.object (fields lax)).convert
    (fun (actor,conflictingAnswerDigest,conflictingEvidenceRef,observedAt,originalEvidenceRef,predecessorEvidenceRef,questionId,_) =>
      some ⟨questionId,actor,observedAt,originalEvidenceRef,conflictingEvidenceRef,conflictingAnswerDigest,predecessorEvidenceRef⟩)
    (fun c => (c.actor,c.conflictingAnswerDigest,c.conflictingEvidenceRef,c.observedAt,c.originalEvidenceRef,
      c.predecessorEvidenceRef,c.questionId,()))
    (fun _ => rfl)

def bounds (c : ClarificationConflict) : Bool :=
  bounded 1 256 c.questionId && bounded 1 256 c.actor && bounded 1 256 c.originalEvidenceRef &&
    bounded 1 256 c.conflictingEvidenceRef && isHash c.conflictingAnswerDigest && bounded 1 256 c.predecessorEvidenceRef

end ClarificationConflict

inductive SessionStatus where
  | opened
  | proposed
  | closed
deriving DecidableEq

namespace SessionStatus

def spelling : SessionStatus → String
  | .opened => "open"
  | .proposed => "proposed"
  | .closed => "closed"

def codec : Codec SessionStatus := .spelled spelling [.opened,.proposed,.closed] (by intro a; cases a <;> decide)

end SessionStatus

-- The fields of a session that no event may change. All of them but the
-- identifier are what the identifier hashes.
structure ClarificationHeader where
  id : String
  taskId : String
  conversationRef : String
  requestEvidenceRef : String
  classificationEvidenceRef : String
  openedBy : String
  openedAt : UtcTime
  baselineGraphVersion : Nat
  questions : List ClarificationQuestion
deriving DecidableEq

structure SessionDraft extends ClarificationHeader where
  answers : List ClarificationAnswer
  conflicts : List ClarificationConflict
  status : SessionStatus
  latestEventId : Option String
deriving DecidableEq

namespace ClarificationHeader

def materialFields :=
  Fields.required "baseline_graph_version" Codec.int.natural <|
  Fields.required "classification_evidence_ref" Codec.string <|
  Fields.required "conversation_ref" Codec.string <|
  Fields.required "opened_at" canonicalOnly.utcCodec <|
  Fields.required "opened_by" Codec.string <|
  Fields.required "questions" (ClarificationQuestion.codec canonicalOnly).list <|
  Fields.required "request_evidence_ref" Codec.string <|
  Fields.required "schema_version" (Codec.int.only 1) <|
  Fields.required "task_id" Codec.string <|
  Fields.nil

def digest (h : ClarificationHeader) : String :=
  canonicalDigest (.obj (materialFields.dump (h.baselineGraphVersion,h.classificationEvidenceRef,h.conversationRef,h.openedAt,
    h.openedBy,h.questions,h.requestEvidenceRef,(),h.taskId,())))

end ClarificationHeader

namespace SessionDraft

def fields (lax : Coercions) :=
  Fields.defaulted "answers" (ClarificationAnswer.codec lax).list [] <|
  Fields.required "baseline_graph_version" Codec.int.natural <|
  Fields.required "classification_evidence_ref" Codec.string <|
  Fields.defaulted "conflicts" (ClarificationConflict.codec lax).list [] <|
  Fields.required "conversation_ref" Codec.string <|
  Fields.required "id" Codec.string <|
  Fields.defaulted "latest_event_id" Codec.optionalString none <|
  Fields.required "opened_at" lax.utcCodec <|
  Fields.required "opened_by" Codec.string <|
  Fields.required "questions" (ClarificationQuestion.codec lax).list <|
  Fields.required "request_evidence_ref" Codec.string <|
  Fields.defaulted "schema_version" (Codec.int.only 1) () <|
  Fields.defaulted "status" SessionStatus.codec .opened <|
  Fields.required "task_id" Codec.string <|
  Fields.nil

def codec (lax : Coercions) : Codec SessionDraft :=
  (Codec.object (fields lax)).convert
    (fun (answers,baselineGraphVersion,classificationEvidenceRef,conflicts,conversationRef,id,latestEventId,openedAt,openedBy,
        questions,requestEvidenceRef,_,status,taskId,_) =>
      some ⟨⟨id,taskId,conversationRef,requestEvidenceRef,classificationEvidenceRef,openedBy,openedAt,baselineGraphVersion,
        questions⟩,answers,conflicts,status,latestEventId⟩)
    (fun s => (s.answers,s.baselineGraphVersion,s.classificationEvidenceRef,s.conflicts,s.conversationRef,s.id,s.latestEventId,
      s.openedAt,s.openedBy,s.questions,s.requestEvidenceRef,(),s.status,s.taskId,()))
    (fun _ => rfl)

variable (s : SessionDraft)

def questionIds : List String := s.questions.map ClarificationQuestion.id
def answerIds : List String := s.answers.map ClarificationAnswer.questionId

def bounds : Bool :=
  [s.id,s.taskId,s.requestEvidenceRef,s.classificationEvidenceRef,s.openedBy].all (bounded 1 256) &&
    bounded 1 512 s.conversationRef && !s.questions.isEmpty && decide (s.questions.length ≤ maxClarificationItems) &&
    decide (s.answers.length ≤ maxClarificationItems) && decide (s.conflicts.length ≤ maxClarificationItems) &&
    s.questions.all ClarificationQuestion.bounds && s.answers.all ClarificationAnswer.bounds &&
    s.conflicts.all ClarificationConflict.bounds

-- `validate_session`
def validateSession : Bool :=
  decide s.questionIds.Nodup &&
    decide s.answerIds.Nodup && s.answerIds.all s.questionIds.contains &&
    s.conflicts.all (fun c => s.answerIds.contains c.questionId) &&
    decide (s.conflicts.map ClarificationConflict.conflictingEvidenceRef).Nodup &&
    s.id == "clarification:" ++ s.toClarificationHeader.digest

def valid : Bool := s.bounds && s.validateSession

end SessionDraft

abbrev ClarificationSession := {s : SessionDraft // s.valid = true}

def ClarificationSession.codec (lax : Coercions) : Codec ClarificationSession :=
  (SessionDraft.codec lax).checked SessionDraft.valid

inductive ClarificationEventType where
  | opened
  | answered
  | conflicted
  | proposed
  | closed
deriving DecidableEq

namespace ClarificationEventType

def spelling : ClarificationEventType → String
  | .opened => "opened"
  | .answered => "answered"
  | .conflicted => "conflicted"
  | .proposed => "proposed"
  | .closed => "closed"

def codec : Codec ClarificationEventType :=
  .spelled spelling [.opened,.answered,.conflicted,.proposed,.closed] (by intro a; cases a <;> decide)

-- The status that a session has under an event of the kind.
def status : ClarificationEventType → SessionStatus
  | .proposed => .proposed
  | .closed => .closed
  | _ => .opened

end ClarificationEventType

structure EventDraft where
  id : String
  eventType : ClarificationEventType
  session : ClarificationSession
  actor : String
  at' : UtcTime
  predecessorEventId : Option String
  proposalId : Option String
  decisionId : Option String
  activationChangesetId : Option String
deriving DecidableEq

namespace EventDraft

def fields (lax : Coercions) :=
  Fields.defaulted "activation_changeset_id" Codec.optionalString none <|
  Fields.required "actor" Codec.string <|
  Fields.required "at" lax.utcCodec <|
  Fields.defaulted "decision_id" Codec.optionalString none <|
  Fields.required "event_type" ClarificationEventType.codec <|
  Fields.required "id" Codec.string <|
  Fields.defaulted "predecessor_event_id" Codec.optionalString none <|
  Fields.defaulted "proposal_id" Codec.optionalString none <|
  Fields.defaulted "schema_version" (Codec.int.only 1) () <|
  Fields.required "session" (ClarificationSession.codec lax) <|
  Fields.nil

def codec (lax : Coercions) : Codec EventDraft :=
  (Codec.object (fields lax)).convert
    (fun (activationChangesetId,actor,at',decisionId,eventType,id,predecessorEventId,proposalId,_,session,_) =>
      some ⟨id,eventType,session,actor,at',predecessorEventId,proposalId,decisionId,activationChangesetId⟩)
    (fun e => (e.activationChangesetId,e.actor,e.at',e.decisionId,e.eventType,e.id,e.predecessorEventId,e.proposalId,(),
      e.session,()))
    (fun _ => rfl)

variable (e : EventDraft)

-- What the identifier hashes: the session goes in without its latest event.
def digest : String :=
  canonicalDigest (.obj [
    ("activation_changeset_id",Codec.optionalString.dump e.activationChangesetId),
    ("actor",.str e.actor),
    ("at",UtcTime.codec.dump e.at'),
    ("decision_id",Codec.optionalString.dump e.decisionId),
    ("event_type",.str e.eventType.spelling),
    ("predecessor_event_id",Codec.optionalString.dump e.predecessorEventId),
    ("proposal_id",Codec.optionalString.dump e.proposalId),
    ("schema_version",.int 1),
    ("session",without "latest_event_id" ((ClarificationSession.codec canonicalOnly).dump e.session))])

def bounds : Bool :=
  bounded 1 256 e.id && bounded 1 256 e.actor && e.proposalId.all (bounded 1 256) && e.decisionId.all (bounded 1 256) &&
    e.activationChangesetId.all (fun id => id != "")

-- Which of the three references an event of its kind carries.
def bindings : Bool :=
  match e.eventType with
  | .proposed => e.proposalId.isSome && e.decisionId.isNone && e.activationChangesetId.isNone
  | .closed => e.proposalId.isSome && e.decisionId.isSome && e.activationChangesetId.isSome
  | _ => e.proposalId.isNone && e.decisionId.isNone && e.activationChangesetId.isNone

-- `validate_event`
def validateEvent : Bool :=
  e.id == "clarification-event:" ++ e.digest && decide (e.session.1.latestEventId = some e.id) &&
    decide (e.session.1.status = e.eventType.status) && e.bindings

def valid : Bool := e.bounds && e.validateEvent

end EventDraft

abbrev ClarificationEvent := {e : EventDraft // e.valid = true}

namespace ClarificationEvent

def codec (lax : Coercions) : Codec ClarificationEvent := (EventDraft.codec lax).checked EventDraft.valid

theorem bound_id (e : ClarificationEvent) : e.1.session.1.latestEventId = some e.1.id := by
  have valid := e.2
  simp only [EventDraft.valid,EventDraft.validateEvent,Bool.and_eq_true,decide_eq_true_eq] at valid
  exact valid.2.1.1.2

theorem bound_status (e : ClarificationEvent) : e.1.session.1.status = e.1.eventType.status := by
  have valid := e.2
  simp only [EventDraft.valid,EventDraft.validateEvent,Bool.and_eq_true,decide_eq_true_eq] at valid
  exact valid.2.1.2

theorem bound_references (e : ClarificationEvent) : e.1.bindings = true := by
  have valid := e.2
  simp only [EventDraft.valid,EventDraft.validateEvent,Bool.and_eq_true] at valid
  exact valid.2.2

end ClarificationEvent

section Finite

variable (lax : Coercions)

instance : SessionStatus.codec.Finite := inferInstanceAs (Codec.spelled ..).Finite
instance : ClarificationEventType.codec.Finite := inferInstanceAs (Codec.spelled ..).Finite

instance : (ClarificationQuestion.fields lax).Finite := by unfold ClarificationQuestion.fields; infer_instance
instance : (ClarificationAnswer.fields lax).Finite := by unfold ClarificationAnswer.fields; infer_instance
instance : (ClarificationConflict.fields lax).Finite := by unfold ClarificationConflict.fields; infer_instance

instance : (ClarificationQuestion.codec lax).Finite := inferInstanceAs (Codec.convert ..).Finite
instance : (ClarificationAnswer.codec lax).Finite := inferInstanceAs (Codec.convert ..).Finite
instance : (ClarificationConflict.codec lax).Finite := inferInstanceAs (Codec.convert ..).Finite

instance : (SessionDraft.fields lax).Finite := by unfold SessionDraft.fields; infer_instance
instance : (SessionDraft.codec lax).Finite := inferInstanceAs (Codec.convert ..).Finite
instance : (ClarificationSession.codec lax).Finite := inferInstanceAs (Codec.checked ..).Finite

instance : (EventDraft.fields lax).Finite := by unfold EventDraft.fields; infer_instance
instance : (EventDraft.codec lax).Finite := inferInstanceAs (Codec.convert ..).Finite
instance : (ClarificationEvent.codec lax).Finite := inferInstanceAs (Codec.checked ..).Finite

end Finite
