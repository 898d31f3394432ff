import IntentEngineering.Library.ByteFrames
import IntentEngineering.Models.Clarification
import IntentEngineering.Models.Decisions

open Schema ByteFrames

-- `require_exactly_one_payload`
inductive LedgerPayload where
  | proposal (proposal : IntentProposal)
  | decision (decision : ProposalDecisionRecord)
  | clarification (event : ClarificationEvent)

structure IntentLedgerRecord where
  sequence : Nat
  payload : LedgerPayload

theorem proposal_object (lax : Coercions) (p : IntentProposal) : ∃ ms, (IntentProposal.codec lax).dump p = .obj ms := by
  obtain ⟨⟨_,_ | _⟩,_⟩ := p
  · exact ⟨_,rfl⟩
  · exact ⟨_,rfl⟩

theorem decision_object (lax : Coercions) (d : ProposalDecisionRecord) :
    ∃ ms, (ProposalDecisionRecord.codec lax).dump d = .obj ms := by
  obtain ⟨⟨_,_ | _ | _⟩,_⟩ := d
  · exact ⟨_,rfl⟩
  · exact ⟨_,rfl⟩
  · exact ⟨_,rfl⟩

theorem object_solid (shape : ∃ ms, v = Json.obj ms) : v ≠ .null := by
  obtain ⟨ms,rfl⟩ := shape
  exact Json.noConfusion

namespace IntentLedgerRecord

def tailFields (lax : Coercions) :=
  Fields.defaulted "decision" ((ProposalDecisionRecord.codec lax).nullable fun d => object_solid (decision_object lax d)) none <|
  Fields.defaulted "proposal" ((IntentProposal.codec lax).nullable fun p => object_solid (proposal_object lax p)) none <|
  Fields.defaulted "schema_version" (Codec.int.only 1) () <|
  Fields.required "sequence" Codec.int.natural <|
  Fields.nil

theorem clarification_first : ∀ n ∈ ["decision","proposal","schema_version","sequence"].head?, "clarification" < n := by decide +kernel

-- `_serialize` leaves a clarification of None out.
def codec (lax : Coercions) : Codec IntentLedgerRecord :=
  (Codec.omitting "clarification" (ClarificationEvent.codec lax) (fun _ => object_solid ⟨_,rfl⟩) (tailFields lax)
      clarification_first).convert
    (fun
      | (none,none,some p,_,sequence,_) => some ⟨sequence,.proposal p⟩
      | (none,some d,none,_,sequence,_) => some ⟨sequence,.decision d⟩
      | (some e,none,none,_,sequence,_) => some ⟨sequence,.clarification e⟩
      | _ => none)
    (fun r => match r.payload with
      | .proposal p => (none,none,some p,(),r.sequence,())
      | .decision d => (none,some d,none,(),r.sequence,())
      | .clarification e => (some e,none,none,(),r.sequence,()))
    (by rintro ⟨_,_ | _ | _⟩ <;> rfl)

theorem object (lax : Coercions) (r : IntentLedgerRecord) : ∃ ms, (codec lax).dump r = .obj ms := by
  obtain ⟨_,_ | _ | _⟩ := r
  · exact ⟨_,rfl⟩
  · exact ⟨_,rfl⟩
  · exact ⟨_,rfl⟩

instance (lax : Coercions) : (codec lax).Finite where
  finite r := by
    obtain ⟨sequence,payload⟩ := r
    cases payload with
    | proposal p =>
      have first := Codec.Finite.finite (c := IntentProposal.codec lax) p
      change Json.allFiniteMembers [("decision",.null),("proposal",(IntentProposal.codec lax).dump p),("schema_version",.int 1),
        ("sequence",.int sequence)] = true
      simp [Json.allFiniteMembers,Json.allFinite,first]
    | decision d =>
      have first := Codec.Finite.finite (c := ProposalDecisionRecord.codec lax) d
      change Json.allFiniteMembers [("decision",(ProposalDecisionRecord.codec lax).dump d),("proposal",.null),
        ("schema_version",.int 1),("sequence",.int sequence)] = true
      simp [Json.allFiniteMembers,Json.allFinite,first]
    | clarification e =>
      have first := Codec.Finite.finite (c := ClarificationEvent.codec lax) e
      change Json.allFiniteMembers [("clarification",(ClarificationEvent.codec lax).dump e),("decision",.null),("proposal",.null),
        ("schema_version",.int 1),("sequence",.int sequence)] = true
      simp [Json.allFiniteMembers,Json.allFinite,first]

end IntentLedgerRecord

-- What the decoder gathers. The latest event and the session of an identifier
-- are those of the last event that names it.
structure LedgerState where
  proposals : List IntentProposal
  decisions : List ProposalDecisionRecord
  clarificationEvents : List ClarificationEvent

namespace LedgerState

def empty : LedgerState := ⟨[],[],[]⟩

variable (s : LedgerState)

def proposal (id : String) : Option IntentProposal := s.proposals.find? fun p => p.1.id == id

def decision (proposalId : String) : Option ProposalDecisionRecord := s.decisions.find? fun d => d.1.proposalId == proposalId

def latestEvent (sessionId : String) : Option ClarificationEvent :=
  s.clarificationEvents.reverse.find? fun e => e.1.session.1.id == sessionId

def session (sessionId : String) : Option ClarificationSession := (s.latestEvent sessionId).map fun e => e.1.session

def extend : LedgerPayload → LedgerState
  | .proposal p => { s with proposals := s.proposals ++ [p] }
  | .decision d => { s with decisions := s.decisions ++ [d] }
  | .clarification e => { s with clarificationEvents := s.clarificationEvents ++ [e] }

end LedgerState

namespace ClarificationEvent

def questionsChained (author predecessor : String) (previousAt : UtcTime) : List ClarificationQuestion → Bool
  | [] => true
  | q :: rest =>
    decide (q.author = author) && decide (q.predecessorEvidenceRef = some predecessor) &&
      decide (previousAt.1.instant ≤ q.askedAt.1.instant) && questionsChained author q.evidenceRef q.askedAt rest

def opensSession (e : ClarificationEvent) : Bool :=
  let session := e.1.session.1
  decide (e.1.eventType = .opened) && decide (e.1.predecessorEventId = none) && session.answers.isEmpty &&
    decide (session.status = .opened) && decide (e.1.actor = session.openedBy) && decide (e.1.at' = session.openedAt) &&
    questionsChained session.openedBy session.classificationEvidenceRef session.openedAt session.questions

-- The evidence of the last conflict, else of the last answer.
def acknowledgedRef (previous : SessionDraft) : Option String :=
  (previous.conflicts.getLast?.map ClarificationConflict.conflictingEvidenceRef).or
    (previous.answers.getLast?.map ClarificationAnswer.evidenceRef)

-- The same, else of the last question.
def turnRef (previous : SessionDraft) : Option String :=
  (acknowledgedRef previous).or (previous.questions.getLast?.map ClarificationQuestion.evidenceRef)

def answersSession (previous : SessionDraft) (e : ClarificationEvent) : Bool :=
  let session := e.1.session.1
  decide (previous.status = .opened) && decide (session.status = .opened) &&
    decide (session.answers.length = previous.answers.length + 1) && decide (session.answers.dropLast = previous.answers) &&
    decide (session.conflicts = previous.conflicts) &&
    session.answers.getLast?.any (fun answer => decide (answer.actor = e.1.actor) && decide (answer.answeredAt = e.1.at') &&
      decide (answer.predecessorEvidenceRef = turnRef previous))

-- With neither an answer nor a conflict before it, the look at the last answer
-- raises an IndexError.
def conflictsSession (previous : SessionDraft) (e : ClarificationEvent) : Option Bool :=
  let session := e.1.session.1
  (acknowledgedRef previous).map fun expected =>
    decide (previous.status = .opened) && decide (session.status = .opened) && decide (session.answers = previous.answers) &&
      decide (session.conflicts.length = previous.conflicts.length + 1) && decide (session.conflicts.dropLast = previous.conflicts) &&
      session.conflicts.getLast?.any (fun conflict => decide (conflict.actor = e.1.actor) &&
        decide (conflict.observedAt = e.1.at') && decide (conflict.predecessorEvidenceRef = expected) &&
        (previous.answers.find? fun a => a.questionId == conflict.questionId).any
          fun accepted => decide (conflict.originalEvidenceRef = accepted.evidenceRef))

-- The session's own conflicts must be empty; they are not compared with those
-- of the session before.
def proposesSession (previous : SessionDraft) (e : ClarificationEvent) : Bool :=
  let session := e.1.session.1
  decide (previous.status = .opened) && decide (session.status = .proposed) && decide (session.answers = previous.answers) &&
    session.conflicts.isEmpty &&
    (session.questions.filter ClarificationQuestion.required).all (fun q => session.answerIds.contains q.id) &&
    e.1.proposalId.isSome && session.answers.getLast?.any (fun answer => decide (e.1.actor = answer.actor))

def closesSession (previous : SessionDraft) (e : ClarificationEvent) : Bool :=
  let session := e.1.session.1
  decide (previous.status = .proposed) && decide (session.status = .closed) && decide (session.answers = previous.answers) &&
    decide (session.conflicts = previous.conflicts) && e.1.proposalId.isSome && e.1.decisionId.isSome &&
    e.1.activationChangesetId.isSome

def continuesSession (previous : SessionDraft) (before e : ClarificationEvent) : Bool :=
  decide (e.1.predecessorEventId = previous.latestEventId) && decide (before.1.at'.1.instant ≤ e.1.at'.1.instant) &&
    decide (previous.toClarificationHeader = e.1.session.1.toClarificationHeader) &&
    decide (previous.openedAt.1.instant ≤ e.1.at'.1.instant)

-- `_valid_clarification_transition`; the outcome none is the IndexError.
def validTransition (previous : Option ClarificationSession) (e : ClarificationEvent)
    (previousEvent : Option ClarificationEvent) : Option Bool :=
  match previous,previousEvent with
  | none,_ => some (previousEvent.isNone && e.opensSession)
  | some _,none => some false
  | some previous,some before =>
    if continuesSession previous.1 before e then
      match e.1.eventType with
      | .opened => some false
      | .answered => some (answersSession previous.1 e)
      | .conflicted => conflictsSession previous.1 e
      | .proposed => some (proposesSession previous.1 e)
      | .closed => some (closesSession previous.1 e)
    else some false

end ClarificationEvent

-- A proposed event must be followed at once by its proposal.
structure Replay extends LedgerState where
  pending : Option (String × String)

namespace Replay

def start : Replay := ⟨LedgerState.empty,none⟩

variable (s : Replay)

def awaits : LedgerPayload → Bool
  | .proposal p => s.pending.all fun (proposalId,sessionId) =>
      p.1.binding.any fun binding => p.1.id == proposalId && binding.sessionId == sessionId
  | _ => s.pending.isNone

-- A closed event names a clarification proposal of its session and the governed
-- decision on it.
def closesDecided (e : ClarificationEvent) : Bool :=
  match s.proposal (e.1.proposalId.getD ""),s.decision (e.1.proposalId.getD "") with
  | some p,some d =>
    p.1.binding.any (fun binding => binding.sessionId == e.1.session.1.id) &&
      (match d.1.form with
        | .third confirmation => decide (some confirmation.activationChangesetId = e.1.activationChangesetId)
        | _ => false) &&
      decide (some d.1.id = e.1.decisionId) && d.1.actor == e.1.actor && d.1.decidedAt.same e.1.at'.1
  | _,_ => false

def clarify (e : ClarificationEvent) : Option Replay :=
  if e.validTransition (s.session e.1.session.1.id) (s.latestEvent e.1.session.1.id) ≠ some true then none
  else if e.1.eventType = .closed ∧ ¬ s.closesDecided e = true then none
  else some ⟨s.extend (.clarification e),
    if e.1.eventType = .proposed then e.1.proposalId.map fun id => (id,e.1.session.1.id) else s.pending⟩

def boundToSession (p : IntentProposal) (binding : ClarificationBinding) : Bool :=
  (s.latestEvent binding.sessionId).any fun latest =>
    decide (latest.1.session.1.status = .proposed) && latest.1.session.1.taskId == binding.taskId &&
      decide ((latest.1.session.1.baselineGraphVersion : Int) = p.1.baselineGraphVersion) &&
      decide (latest.1.proposalId = some p.1.id)

def propose (p : IntentProposal) : Option Replay :=
  if (s.proposal p.1.id).isSome then none
  else match p.1.binding with
    | none => some ⟨s.extend (.proposal p),s.pending⟩
    | some binding => if s.boundToSession p binding then some ⟨s.extend (.proposal p),none⟩ else none

-- What a decision must repeat of its proposal.
def decides (p : IntentProposal) (d : ProposalDecisionRecord) : Bool :=
  d.1.proposalDigest == p.1.digest && decide (d.1.baselineGraphVersion = p.1.baselineGraphVersion)

def governed (binding : ClarificationBinding) (d : ProposalDecisionRecord) : Bool :=
  (match d.1.form with | .third _ => true | _ => false) &&
    decide ((s.session binding.sessionId).map (fun session => session.1.status) = some .proposed)

def settle (d : ProposalDecisionRecord) : Option Replay :=
  match s.proposal d.1.proposalId with
  | none => none
  | some p =>
    if ¬ decides p d = true ∨ (s.decision d.1.proposalId).isSome then none
    else if p.1.binding.all (fun binding => s.governed binding d) then some ⟨s.extend (.decision d),s.pending⟩
    else none

-- One frame of the loop.
def step (expected : Nat) (r : IntentLedgerRecord) : Option Replay :=
  if r.sequence ≠ expected ∨ ¬ s.awaits r.payload = true then none
  else match r.payload with
    | .clarification e => s.clarify e
    | .proposal p => s.propose p
    | .decision d => s.settle d

-- At the end every decided clarification proposal has a closed session.
def closed (p : IntentProposal) : Bool :=
  match p.1.binding,s.decision p.1.id with
  | some binding,some d => (s.latestEvent binding.sessionId).any fun latest =>
      decide (latest.1.session.1.status = .closed) && decide (latest.1.proposalId = some p.1.id) &&
        decide (latest.1.decisionId = some d.1.id)
  | _,_ => true

def finish : Option LedgerState :=
  if s.pending.isSome ∨ ¬ s.proposals.all s.closed = true then none else some s.toLedgerState

end Replay

namespace IntentProposalStore

variable (lax : Coercions)

-- `_decode_unlocked`: none where it returns None or raises. An absent file is
-- read as an empty one.
def decode (content : Utf8.Bytes) : Option LedgerState :=
  (read (IntentLedgerRecord.codec lax) Replay.step Replay.start content).bind Replay.finish

inductive Call where
  | put (proposal : IntentProposal)
  | decide (decision : ProposalDecisionRecord)
  | appendClarification (event : ClarificationEvent)

def Call.payload : Call → LedgerPayload
  | .put p => .proposal p
  | .decide d => .decision d
  | .appendClarification e => .clarification e

def append (content : Utf8.Bytes) (payload : LedgerPayload) : Utf8.Bytes :=
  content ++ serialize (IntentLedgerRecord.codec lax) ⟨(LineText.lines byteRule content).length,payload⟩

-- What a call leaves behind and what it returns; none where it raises.
def put (content : Utf8.Bytes) (p : IntentProposal) : Option (Utf8.Bytes × Bool) :=
  (decode lax content).bind fun s =>
    match s.proposal p.1.id with
    | some existing => if existing.1.equal p.1 then some (content,false) else none
    | none => some (append lax content (.proposal p),true)

-- A clarification proposal is decided by its own transaction only.
def decide (content : Utf8.Bytes) (d : ProposalDecisionRecord) : Option (Utf8.Bytes × Bool) :=
  (decode lax content).bind fun s =>
    (s.proposal d.1.proposalId).bind fun p =>
      if p.1.binding.isSome ∨ ¬ Replay.decides p d = true then none
      else match s.decision d.1.proposalId with
        | some existing => if existing.1.equal d.1 then some (content,false) else none
        | none => some (append lax content (.decision d),true)

def appendClarification (content : Utf8.Bytes) (e : ClarificationEvent) : Option (Utf8.Bytes × Bool) :=
  (decode lax content).bind fun s =>
    match s.clarificationEvents.filter fun other => other.1.id == e.1.id with
    | [] =>
      if e.validTransition (s.session e.1.session.1.id) (s.latestEvent e.1.session.1.id) = some true then
        some (append lax content (.clarification e),true)
      else none
    | [existing] => if existing = e then some (content,false) else none
    | _ => none

def call (content : Utf8.Bytes) : Call → Option (Utf8.Bytes × Bool)
  | .put p => put lax content p
  | .decide d => decide lax content d
  | .appendClarification e => appendClarification lax content e

end IntentProposalStore
