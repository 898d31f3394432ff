import IntentEngineering.Stores.ProposalClosure

open Schema ByteFrames

namespace ClarificationEvent

-- Of two successive events of a session the later keeps what the earlier one
-- recorded, and the status goes from open to proposed to closed.
structure Extends (e f : ClarificationEvent) : Prop where
  answers : e.1.session.1.answers <+: f.1.session.1.answers
  conflicts : e.1.session.1.conflicts <+: f.1.session.1.conflicts
  header : e.1.session.1.toClarificationHeader = f.1.session.1.toClarificationHeader
  status : (e.1.session.1.status,f.1.session.1.status) ∈
    [(SessionStatus.opened,SessionStatus.opened),(.opened,.proposed),(.proposed,.closed)]

-- A proposed event that leaves out conflicts the session had recorded.
def Erases (e f : ClarificationEvent) : Prop := f.1.eventType = .proposed ∧ e.1.session.1.conflicts ≠ []

-- What an admitted event satisfies with respect to the one before it.
structure Follows (e f : ClarificationEvent) : Prop where
  continues : continuesSession e.1.session.1 e f = true
  kinds : (f.1.eventType = .answered ∧ answersSession e.1.session.1 f = true) ∨
    (f.1.eventType = .conflicted ∧ conflictsSession e.1.session.1 f = some true) ∨
    (f.1.eventType = .proposed ∧ proposesSession e.1.session.1 f = true) ∨
    (f.1.eventType = .closed ∧ closesSession e.1.session.1 f = true)

theorem dropLast_extends {xs ys : List α} (same : ys.dropLast = xs) : xs <+: ys := same ▸ List.dropLast_prefix ys

-- The decoder's own rule, which compares the conflicts in every kind of event
-- but the proposed one.
theorem follows_extends (follows : Follows e f) : Extends e f ↔ ¬ Erases e f := by
  have continues := follows.continues
  simp only [continuesSession,Bool.and_eq_true,decide_eq_true_eq] at continues
  have header := continues.1.2
  rcases follows.kinds with ⟨kind,rule⟩ | ⟨kind,rule⟩ | ⟨kind,rule⟩ | ⟨kind,rule⟩
  · simp only [answersSession,Bool.and_eq_true,decide_eq_true_eq] at rule
    obtain ⟨⟨⟨⟨⟨before,after⟩,_⟩,answers⟩,conflicts⟩,_⟩ := rule
    have extended : Extends e f := ⟨dropLast_extends answers,by rw [conflicts],header,by simp [before,after]⟩
    exact iff_of_true extended (by simp [Erases,kind])
  · obtain ⟨_,_,rule⟩ := Option.map_eq_some_iff.mp rule
    simp only [Bool.and_eq_true,decide_eq_true_eq] at rule
    obtain ⟨⟨⟨⟨⟨before,after⟩,answers⟩,_⟩,conflicts⟩,_⟩ := rule
    have extended : Extends e f := ⟨by rw [answers],dropLast_extends conflicts,header,by simp [before,after]⟩
    exact iff_of_true extended (by simp [Erases,kind])
  · simp only [proposesSession,Bool.and_eq_true,decide_eq_true_eq,List.isEmpty_iff] at rule
    obtain ⟨⟨⟨⟨⟨⟨before,after⟩,answers⟩,empty⟩,_⟩,_⟩,_⟩ := rule
    constructor
    · rintro extended ⟨_,some⟩
      have kept := extended.conflicts
      rw [empty,List.prefix_nil] at kept
      exact some kept
    · intro keeps
      have none : e.1.session.1.conflicts = [] := by
        by_contra some
        exact keeps ⟨kind,some⟩
      exact ⟨by rw [answers],by rw [none]; exact List.nil_prefix,header,by simp [before,after]⟩
  · simp only [closesSession,Bool.and_eq_true,decide_eq_true_eq] at rule
    obtain ⟨⟨⟨⟨⟨⟨before,after⟩,answers⟩,conflicts⟩,_⟩,_⟩,_⟩ := rule
    have extended : Extends e f := ⟨by rw [answers],by rw [conflicts],header,by simp [before,after]⟩
    exact iff_of_true extended (by simp [Erases,kind])

-- Once a session is no longer open its conflicts stay as they are.
theorem follows_settled (follows : Follows e f) (settled : e.1.session.1.status ≠ .opened) :
    f.1.session.1.conflicts = e.1.session.1.conflicts ∧ f.1.session.1.status ≠ .opened := by
  rcases follows.kinds with ⟨kind,rule⟩ | ⟨kind,rule⟩ | ⟨kind,rule⟩ | ⟨kind,rule⟩
  · simp only [answersSession,Bool.and_eq_true,decide_eq_true_eq] at rule
    exact absurd rule.1.1.1.1.1 settled
  · obtain ⟨_,_,rule⟩ := Option.map_eq_some_iff.mp rule
    simp only [Bool.and_eq_true,decide_eq_true_eq] at rule
    exact absurd rule.1.1.1.1.1 settled
  · simp only [proposesSession,Bool.and_eq_true,decide_eq_true_eq] at rule
    exact absurd rule.1.1.1.1.1.1 settled
  · simp only [closesSession,Bool.and_eq_true,decide_eq_true_eq] at rule
    obtain ⟨⟨⟨⟨⟨⟨_,after⟩,_⟩,conflicts⟩,_⟩,_⟩,_⟩ := rule
    exact ⟨conflicts,by simp [after]⟩

end ClarificationEvent

namespace LedgerState
open ClarificationEvent

variable (s : LedgerState)

def sessionEvents (sid : String) : List ClarificationEvent := s.clarificationEvents.filter fun e => e.1.session.1.id == sid

-- The events of every session extend one another, and none that records a
-- conflict belongs to a session that is ever proposed.
def Chronology : Prop :=
  ∀ sid, (s.sessionEvents sid).IsChain Extends ∧
    ∀ e ∈ s.sessionEvents sid, ∀ f ∈ s.sessionEvents sid, e.1.session.1.conflicts ≠ [] → f.1.session.1.status ≠ .proposed

def KeepsConflicts : Prop := ∀ sid, (s.sessionEvents sid).IsChain fun e f => ¬ Erases e f

theorem latest_sessionEvents (sid : String) : s.latestEvent sid = (s.sessionEvents sid).getLast? := by
  rw [latestEvent,sessionEvents,←List.head?_reverse,←List.filter_reverse,List.head?_filter]

theorem sessionEvents_extend (e : ClarificationEvent) (sid : String) : (s.extend (.clarification e)).sessionEvents sid =
    if e.1.session.1.id = sid then s.sessionEvents sid ++ [e] else s.sessionEvents sid := by
  by_cases same : e.1.session.1.id = sid
  · simp [sessionEvents,same]
  · simp [sessionEvents,same]

-- What the decoder has checked of the events it has gathered.
structure Chronicle : Prop where
  chained : ∀ sid, (s.sessionEvents sid).IsChain Follows
  quiet : ∀ e ∈ s.clarificationEvents, e.1.eventType = .proposed → e.1.session.1.conflicts = []

theorem empty_chronicle : empty.Chronicle where
  chained sid := .nil
  quiet e member := by simp [empty] at member

theorem extend_chronicle {s : LedgerState} (chronicle : s.Chronicle)
    (valid : e.validTransition (s.session e.1.session.1.id) (s.latestEvent e.1.session.1.id) = some true) :
    (s.extend (.clarification e)).Chronicle := by
  have cases := valid_cases valid
  constructor
  · intro sid
    rw [sessionEvents_extend]
    split
    · rename_i same
      subst same
      refine List.isChain_append.mpr ⟨chronicle.chained _,.singleton _,?_⟩
      intro last found f member
      simp only [List.head?_cons,Option.mem_some_iff] at member
      subst member
      rcases cases with ⟨absent,_⟩ | ⟨before,latest,continues,kinds⟩
      · rw [latest_sessionEvents] at absent
        rw [absent] at found
        cases found
      · rw [latest_sessionEvents,Option.mem_def.mp found] at latest
        cases latest
        exact ⟨continues,kinds⟩
    · exact chronicle.chained sid
  · intro f member proposed
    rcases List.mem_append.mp member with old | new
    · exact chronicle.quiet f old proposed
    · rw [List.mem_singleton.mp new] at proposed ⊢
      rcases cases with ⟨_,opens⟩ | ⟨before,_,_,⟨kind,_⟩ | ⟨kind,_⟩ | ⟨_,rule⟩ | ⟨kind,_⟩⟩
      · simp only [opensSession,Bool.and_eq_true,decide_eq_true_eq] at opens
        rw [proposed] at opens
        cases opens.1.1.1.1.1.1
      · rw [proposed] at kind
        cases kind
      · rw [proposed] at kind
        cases kind
      · simp only [proposesSession,Bool.and_eq_true,decide_eq_true_eq,List.isEmpty_iff] at rule
        exact rule.1.1.1.2
      · rw [proposed] at kind
        cases kind

end LedgerState

namespace Replay

theorem step_chronicle {s s' : Replay} (chronicle : s.Chronicle) (stepped : s.step n r = some s') : s'.Chronicle := by
  obtain ⟨_,_,grown,⟨e,kind,clarified⟩ | ⟨p,kind,_⟩ | ⟨d,kind,_⟩⟩ := step_cases stepped
  · rw [kind] at grown
    rw [grown]
    exact LedgerState.extend_chronicle chronicle ((clarify_iff e).mp clarified).1
  · rw [kind] at grown
    rw [grown]
    exact ⟨chronicle.chained,chronicle.quiet⟩
  · rw [kind] at grown
    rw [grown]
    exact ⟨chronicle.chained,chronicle.quiet⟩

theorem replay_chronicle {s s' : Replay} (chronicle : s.Chronicle) (ran : replay step n s rs = some s') : s'.Chronicle := by
  induction rs generalizing n s with
  | nil =>
    cases ran
    exact chronicle
  | cons r rs ih =>
    obtain ⟨middle,stepped,ran⟩ := Option.bind_eq_some_iff.mp ran
    exact ih (step_chronicle chronicle stepped) ran

end Replay

namespace LedgerState
open ClarificationEvent

theorem chain_both {α : Type} {R S : α → α → Prop} {xs : List α} (left : xs.IsChain R) (right : xs.IsChain S) :
    xs.IsChain fun a b => R a b ∧ S a b := by
  induction xs with
  | nil => exact .nil
  | cons x xs ih =>
    obtain ⟨first,rest⟩ := List.isChain_cons.mp left
    obtain ⟨second,others⟩ := List.isChain_cons.mp right
    exact List.isChain_cons.mpr ⟨fun y next => ⟨first y next,second y next⟩,ih rest others⟩

-- The conflicts of a session over any two of its events.
def Keeps (e f : ClarificationEvent) : Prop :=
  e.1.session.1.conflicts <+: f.1.session.1.conflicts ∧
    (e.1.session.1.status ≠ .opened → f.1.session.1.conflicts = e.1.session.1.conflicts ∧ f.1.session.1.status ≠ .opened)

instance : Trans Keeps Keeps Keeps where
  trans := by
    intro e f g ef fg
    refine ⟨ef.1.trans fg.1,fun settled => ?_⟩
    obtain ⟨same,further⟩ := ef.2 settled
    obtain ⟨same',last⟩ := fg.2 further
    exact ⟨same'.trans same,last⟩

theorem chain_pairwise {events : List ClarificationEvent} (chained : events.IsChain fun e f => Follows e f ∧ Extends e f) :
    events.Pairwise Keeps :=
  (chained.imp fun _ _ both => ⟨both.2.conflicts,follows_settled both.1⟩).pairwise

-- The chronology is append-only exactly when no proposed event erases.
theorem chronicle_exact {s : LedgerState} (chronicle : s.Chronicle) : s.Chronology ↔ s.KeepsConflicts := by
  constructor
  · intro chronology sid
    have both := chain_both (chronicle.chained sid) (chronology sid).1
    exact both.imp fun e f found => (follows_extends found.1).mp found.2
  · intro keeps sid
    have both := chain_both (chronicle.chained sid) (keeps sid)
    have extended := both.imp fun e f found => (⟨found.1,(follows_extends found.1).mpr found.2⟩ : Follows e f ∧ Extends e f)
    refine ⟨extended.imp fun _ _ found => found.2,?_⟩
    have quiet : ∀ f ∈ s.sessionEvents sid, f.1.session.1.status = .proposed → f.1.session.1.conflicts = [] := by
      intro f member proposed
      apply chronicle.quiet f (List.mem_filter.mp member).1
      rw [f.bound_status] at proposed
      cases kind : f.1.eventType <;> simp_all [ClarificationEventType.status]
    have pairs := chain_pairwise extended
    apply List.Pairwise.forall_of_forall_of_flip
    · intro f inF some proposed
      exact some (quiet f inF proposed)
    · apply pairs.imp_of_mem
      intro e f inE inF found some proposed
      have kept := found.1
      rw [quiet f inF proposed,List.prefix_nil] at kept
      exact some kept
    · apply pairs.imp_of_mem
      intro e f inE inF found some proposed
      have kept := (found.2 (by simp [proposed])).1
      rw [quiet e inE proposed] at kept
      exact some kept

end LedgerState

namespace IntentProposalStore

variable (lax : Coercions)

theorem decode_chronicle {content : Utf8.Bytes} {s : LedgerState} (read : decode lax content = some s) : s.Chronicle := by
  obtain ⟨rs,r,_,ran,ended⟩ := (decode_iff lax content s).mp read
  have chronicle := Replay.replay_chronicle LedgerState.empty_chronicle ran
  rw [((Replay.finish_iff r s).mp ended).2.2] at chronicle
  exact chronicle

-- In an accepted ledger the clarification chronology is append-only exactly when
-- no proposed event leaves out the conflicts of the event before it.
theorem clarification_chronology (content : Utf8.Bytes) (s : LedgerState) (read : decode lax content = some s) :
    s.Chronology ↔ s.KeepsConflicts :=
  LedgerState.chronicle_exact (decode_chronicle lax read)

def zeroHash : String := "sha256:0000000000000000000000000000000000000000000000000000000000000000"

def opening : UtcTime := ⟨morning,rfl⟩

def onlyQuestion : ClarificationQuestion :=
  ⟨"question:1",zeroHash,"evidence:question","owner",opening,some "evidence:classification",true⟩

def headerDraft (id : String) : ClarificationHeader :=
  ⟨id,"task:1","conversation:1","evidence:request","evidence:classification","owner",opening,0,[onlyQuestion]⟩

def header : ClarificationHeader := headerDraft ("clarification:" ++ (headerDraft "").digest)

def givenAnswer : ClarificationAnswer := ⟨"question:1","owner",opening,"evidence:answer",zeroHash,some "evidence:question"⟩

def divergentAnswer : ClarificationConflict :=
  ⟨"question:1","owner",opening,"evidence:answer","evidence:conflict",zeroHash,"evidence:answer"⟩

def sessionDraft (answers : List ClarificationAnswer) (conflicts : List ClarificationConflict) (status : SessionStatus)
    (latest : Option String) : SessionDraft := ⟨header,answers,conflicts,status,latest⟩

theorem header_bounded : bounded 1 256 header.id = true := bounded_digest "clarification:" (by decide) _

@[simp] theorem header_openedAt : header.openedAt = opening := rfl
@[simp] theorem header_questions : header.questions = [onlyQuestion] := rfl
@[simp] theorem header_openedBy : header.openedBy = "owner" := rfl
@[simp] theorem header_classification : header.classificationEvidenceRef = "evidence:classification" := rfl

theorem header_digest : header.digest = (headerDraft "").digest := rfl

theorem session_valid (answers : List ClarificationAnswer) (conflicts : List ClarificationConflict)
    (known : (answers,conflicts) ∈ [([],[]),([givenAnswer],[]),([givenAnswer],[divergentAnswer])]) (status : SessionStatus)
    (latest : Option String) : (sessionDraft answers conflicts status latest).valid = true := by
  have named : header.id = "clarification:" ++ header.digest := by rw [header_digest]; rfl
  have ids : [header.id,header.taskId,header.requestEvidenceRef,header.classificationEvidenceRef,header.openedBy].all (bounded 1 256) = true := by
    rw [List.all_cons,header_bounded]
    rfl
  simp only [List.mem_cons,List.not_mem_nil,or_false,Prod.mk.injEq] at known
  have questions : header.questions = [onlyQuestion] := rfl
  have conversation : bounded 1 512 header.conversationRef = true := by decide
  have same : (sessionDraft answers conflicts status latest).valid = (sessionDraft answers conflicts .opened none).valid := rfl
  rw [same]
  simp only [SessionDraft.valid,SessionDraft.bounds,SessionDraft.validateSession,SessionDraft.questionIds,SessionDraft.answerIds,
    sessionDraft,ids,conversation,questions,←named,beq_self_eq_true]
  clear ids named conversation questions
  rcases known with ⟨rfl,rfl⟩ | ⟨rfl,rfl⟩ | ⟨rfl,rfl⟩ <;> decide

def session (answers : List ClarificationAnswer) (conflicts : List ClarificationConflict)
    (known : (answers,conflicts) ∈ [([],[]),([givenAnswer],[]),([givenAnswer],[divergentAnswer])]) (status : SessionStatus)
    (latest : Option String) : ClarificationSession := ⟨sessionDraft answers conflicts status latest,session_valid answers conflicts known status latest⟩

def eventDraft (kind : ClarificationEventType) (session : SessionStatus → Option String → ClarificationSession)
    (predecessor proposalId : Option String) (id : String) : EventDraft :=
  ⟨id,kind,session kind.status (some id),"owner",opening,predecessor,proposalId,none,none⟩

def openedSession := session [] [] (by simp)
def answeredSession := session [givenAnswer] [] (by simp)
def conflictedSession := session [givenAnswer] [divergentAnswer] (by simp)

theorem event_digest (kind : ClarificationEventType) (answers : List ClarificationAnswer) (conflicts : List ClarificationConflict)
    (known : (answers,conflicts) ∈ [([],[]),([givenAnswer],[]),([givenAnswer],[divergentAnswer])])
    (predecessor proposalId : Option String) (id : String) :
    (eventDraft kind (session answers conflicts known) predecessor proposalId id).digest =
      (eventDraft kind (session answers conflicts known) predecessor proposalId "").digest := by
  have same : without "latest_event_id" ((ClarificationSession.codec canonicalOnly).dump (session answers conflicts known kind.status (some id))) =
      without "latest_event_id" ((ClarificationSession.codec canonicalOnly).dump (session answers conflicts known kind.status (some ""))) := rfl
  simp only [EventDraft.digest,eventDraft,same]

theorem event_valid (kind : ClarificationEventType) (answers : List ClarificationAnswer) (conflicts : List ClarificationConflict)
    (known : (answers,conflicts) ∈ [([],[]),([givenAnswer],[]),([givenAnswer],[divergentAnswer])])
    (predecessor proposalId : Option String) (bounds : proposalId.all (bounded 1 256) = true)
    (bindings : (eventDraft kind (session answers conflicts known) predecessor proposalId "").bindings = true) :
    (eventDraft kind (session answers conflicts known) predecessor proposalId
      ("clarification-event:" ++ (eventDraft kind (session answers conflicts known) predecessor proposalId "").digest)).valid = true := by
  have id := bounded_digest "clarification-event:" (by decide)
  have references : ∀ id, (eventDraft kind (session answers conflicts known) predecessor proposalId id).bindings = true := fun _ => bindings
  simp only [EventDraft.valid,EventDraft.bounds,EventDraft.validateEvent,event_digest,references]
  simp [eventDraft,EventDraft.digest,id,bounds,session,sessionDraft]
  decide

-- An event with the given content; what its identifier is does not matter.
structure Written (e : ClarificationEvent) (kind : ClarificationEventType) (answers : List ClarificationAnswer)
    (conflicts : List ClarificationConflict) (predecessor proposalId : Option String) : Prop where
  typed : e.1.eventType = kind
  session : e.1.session.1 = sessionDraft answers conflicts kind.status (some e.1.id)
  actor : e.1.actor = "owner"
  at' : e.1.at' = opening
  predecessor : e.1.predecessorEventId = predecessor
  proposal : e.1.proposalId = proposalId

theorem event_written (kind : ClarificationEventType) (answers : List ClarificationAnswer) (conflicts : List ClarificationConflict)
    (known : (answers,conflicts) ∈ [([],[]),([givenAnswer],[]),([givenAnswer],[divergentAnswer])])
    (predecessor proposalId : Option String) (bounds : proposalId.all (bounded 1 256) = true)
    (bindings : (eventDraft kind (session answers conflicts known) predecessor proposalId "").bindings = true) :
    ∃ e, Written e kind answers conflicts predecessor proposalId :=
  ⟨⟨_,event_valid kind answers conflicts known predecessor proposalId bounds bindings⟩,rfl,rfl,rfl,rfl,rfl,rfl⟩

theorem opened_valid (w : Written e .opened [] [] none none) : ClarificationEvent.validTransition none e none = some true := by
  simp [ClarificationEvent.validTransition,ClarificationEvent.opensSession,w.typed,w.session,w.actor,w.at',w.predecessor,sessionDraft,
    ClarificationEvent.questionsChained,onlyQuestion,ClarificationEventType.status]

theorem answered_valid (before : Written b .opened [] [] p q) (w : Written e .answered [givenAnswer] [] (some b.1.id) none) :
    ClarificationEvent.validTransition (some b.1.session) e (some b) = some true := by
  simp [ClarificationEvent.validTransition,ClarificationEvent.continuesSession,ClarificationEvent.answersSession,w.typed,w.session,w.actor,w.at',
    w.predecessor,before.session,before.at',sessionDraft,ClarificationEventType.status,ClarificationEvent.turnRef,
    ClarificationEvent.acknowledgedRef,givenAnswer,onlyQuestion]

theorem conflicted_valid (before : Written b .answered [givenAnswer] [] p q)
    (w : Written e .conflicted [givenAnswer] [divergentAnswer] (some b.1.id) none) :
    ClarificationEvent.validTransition (some b.1.session) e (some b) = some true := by
  simp [ClarificationEvent.validTransition,ClarificationEvent.continuesSession,ClarificationEvent.conflictsSession,w.typed,w.session,w.actor,w.at',
    w.predecessor,before.session,before.at',sessionDraft,ClarificationEventType.status,ClarificationEvent.acknowledgedRef,
    givenAnswer,divergentAnswer]

theorem erasing_valid (before : Written b .conflicted [givenAnswer] [divergentAnswer] p q)
    (w : Written e .proposed [givenAnswer] [] (some b.1.id) (some proposalId)) :
    ClarificationEvent.validTransition (some b.1.session) e (some b) = some true := by
  simp [ClarificationEvent.validTransition,ClarificationEvent.continuesSession,ClarificationEvent.proposesSession,w.typed,w.session,w.actor,w.at',
    w.predecessor,w.proposal,before.session,before.at',sessionDraft,ClarificationEventType.status,SessionDraft.answerIds,givenAnswer,onlyQuestion]

theorem bound_written : ∃ p : IntentProposal, p.1.binding = some ⟨header.id,"task:1"⟩ ∧ p.1.baselineGraphVersion = 0 ∧
    bounded 1 256 p.1.id = true := by
  have bounds : (some (⟨header.id,"task:1"⟩ : ClarificationBinding)).all (fun b => bounded 1 256 b.sessionId && bounded 1 256 b.taskId) = true := by
    rw [Option.all_some,Bool.and_eq_true]
    exact ⟨header_bounded,by decide⟩
  refine ⟨proposed (some ⟨header.id,"task:1"⟩) bounds,rfl,rfl,?_⟩
  simp only [proposed,draft,ProposalDraft.digest]
  exact bounded_digest "proposal:" (by decide) _

theorem step_clarify (s : LedgerState) (e : ClarificationEvent) (before : Option ClarificationEvent)
    (previous : s.latestEvent e.1.session.1.id = before)
    (valid : e.validTransition (before.map fun b => b.1.session) before = some true) (open' : e.1.eventType ≠ .closed) (n : Nat) :
    (⟨s,none⟩ : Replay).step n ⟨n,.clarification e⟩ = some ⟨s.extend (.clarification e),
      if e.1.eventType = .proposed then e.1.proposalId.map fun id => (id,e.1.session.1.id) else none⟩ := by
  have known : s.session e.1.session.1.id = before.map fun b => b.1.session := by rw [LedgerState.session,previous]
  have clarified := (Replay.clarify_iff (s := ⟨s,none⟩) e).mpr ⟨by rw [known,previous]; exact valid,fun closes => absurd closes open',rfl⟩
  simpa [Replay.step,Replay.awaits] using clarified

-- A ledger with a session that has been opened and answered.
theorem answered_chronology : ∃ content s, decode canonicalOnly content = some s ∧ s.clarificationEvents.length = 2 ∧ s.Chronology := by
  obtain ⟨e₁,w₁⟩ := event_written .opened [] [] (by simp) none none rfl rfl
  obtain ⟨e₂,w₂⟩ := event_written .answered [givenAnswer] [] (by simp) (some e₁.1.id) none rfl rfl
  have id₁ : e₁.1.session.1.id = header.id := by rw [w₁.session]; rfl
  have id₂ : e₂.1.session.1.id = header.id := by rw [w₂.session]; rfl
  have step₁ := step_clarify LedgerState.empty e₁ none rfl (opened_valid w₁) (by simp [w₁.typed]) 0
  have step₂ := step_clarify (LedgerState.empty.extend (.clarification e₁)) e₂ (some e₁)
    (by simp [LedgerState.latest_event,id₁,id₂]) (answered_valid w₁ w₂) (by simp [w₂.typed]) 1
  simp only [w₁.typed,w₂.typed,reduceCtorEq,if_false] at step₁ step₂
  let last : LedgerState := (LedgerState.empty.extend (.clarification e₁)).extend (.clarification e₂)
  have read : decode canonicalOnly (contentOf (IntentLedgerRecord.codec canonicalOnly) [⟨0,.clarification e₁⟩,⟨1,.clarification e₂⟩]) =
      some last := by
    refine (decode_iff _ _ _).mpr ⟨_,⟨last,none⟩,rfl,?_,rfl⟩
    simp only [replay,Replay.start,step₁,step₂,Option.bind_some]
    rfl
  refine ⟨_,last,read,rfl,(clarification_chronology canonicalOnly _ last read).mpr ?_⟩
  intro sid
  have records : last.clarificationEvents = [e₁,e₂] := rfl
  rw [LedgerState.sessionEvents,records,List.filter_cons,List.filter_cons,List.filter_nil,id₁,id₂]
  split
  · exact .cons_cons (by simp [ClarificationEvent.Erases,w₂.typed]) (.singleton _)
  · exact .nil

-- An accepted ledger in which a proposed event drops the conflict of its session.
theorem erased_conflict : ∃ content s, decode canonicalOnly content = some s ∧ ¬ s.Chronology := by
  obtain ⟨p,bound,version,short⟩ := bound_written
  obtain ⟨e₁,w₁⟩ := event_written .opened [] [] (by simp) none none rfl rfl
  obtain ⟨e₂,w₂⟩ := event_written .answered [givenAnswer] [] (by simp) (some e₁.1.id) none rfl rfl
  obtain ⟨e₃,w₃⟩ := event_written .conflicted [givenAnswer] [divergentAnswer] (by simp) (some e₂.1.id) none rfl rfl
  obtain ⟨e₄,w₄⟩ := event_written .proposed [givenAnswer] [] (by simp) (some e₃.1.id) (some p.1.id) short rfl
  have id₁ : e₁.1.session.1.id = header.id := by rw [w₁.session]; rfl
  have id₂ : e₂.1.session.1.id = header.id := by rw [w₂.session]; rfl
  have id₃ : e₃.1.session.1.id = header.id := by rw [w₃.session]; rfl
  have id₄ : e₄.1.session.1.id = header.id := by rw [w₄.session]; rfl
  have step₁ := step_clarify LedgerState.empty e₁ none rfl (opened_valid w₁) (by simp [w₁.typed]) 0
  have step₂ := step_clarify (LedgerState.empty.extend (.clarification e₁)) e₂ (some e₁)
    (by simp [LedgerState.latest_event,id₁,id₂]) (answered_valid w₁ w₂) (by simp [w₂.typed]) 1
  have step₃ := step_clarify ((LedgerState.empty.extend (.clarification e₁)).extend (.clarification e₂)) e₃ (some e₂)
    (by simp [LedgerState.latest_event,id₂,id₃]) (conflicted_valid w₂ w₃) (by simp [w₃.typed]) 2
  have step₄ := step_clarify (((LedgerState.empty.extend (.clarification e₁)).extend (.clarification e₂)).extend (.clarification e₃))
    e₄ (some e₃) (by simp [LedgerState.latest_event,id₃,id₄]) (erasing_valid w₃ w₄) (by simp [w₄.typed]) 3
  simp only [w₁.typed,w₂.typed,w₃.typed,w₄.typed,w₄.proposal,id₄,reduceCtorEq,if_false,if_true,Option.map_some] at step₁ step₂ step₃ step₄
  let last : LedgerState := (((LedgerState.empty.extend (.clarification e₁)).extend (.clarification e₂)).extend
    (.clarification e₃)).extend (.clarification e₄)
  have latest : last.latestEvent header.id = some e₄ := by rw [←id₄]; exact LedgerState.latest_same _ _
  have step₅ : (⟨last,some (p.1.id,header.id)⟩ : Replay).step 4 ⟨4,.proposal p⟩ = some ⟨last.extend (.proposal p),none⟩ := by
    have held : (⟨last,some (p.1.id,header.id)⟩ : Replay).boundToSession p ⟨header.id,"task:1"⟩ = true := by
      have status : e₄.1.session.1.status = .proposed := by rw [e₄.bound_status,w₄.typed]; rfl
      have task : e₄.1.session.1.taskId = "task:1" := by rw [w₄.session]; rfl
      have baseline : e₄.1.session.1.baselineGraphVersion = 0 := by rw [w₄.session]; rfl
      simp [Replay.boundToSession,latest,status,task,baseline,version,w₄.proposal]
    have proposed := (Replay.propose_iff (s := ⟨last,some (p.1.id,header.id)⟩) p).mpr ⟨rfl,by simp [bound,held],rfl⟩
    simpa [Replay.step,Replay.awaits,bound] using proposed
  have records : (last.extend (.proposal p)).clarificationEvents = [e₁,e₂,e₃,e₄] := rfl
  refine ⟨contentOf (IntentLedgerRecord.codec canonicalOnly)
    [⟨0,.clarification e₁⟩,⟨1,.clarification e₂⟩,⟨2,.clarification e₃⟩,⟨3,.clarification e₄⟩,⟨4,.proposal p⟩],
    last.extend (.proposal p),(decode_iff _ _ _).mpr ⟨_,⟨last.extend (.proposal p),none⟩,rfl,?_,?_⟩,?_⟩
  · simp only [replay,Replay.start,step₁,step₂,step₃,step₄,Option.bind_some]
    exact congrArg (fun found => found.bind some) step₅
  · refine (Replay.finish_iff _ _).mpr ⟨rfl,?_,rfl⟩
    intro q member
    have undecided : (⟨last.extend (.proposal p),none⟩ : Replay).decision q.1.id = none := rfl
    simp only [Replay.closed,undecided]
    split <;> simp_all
  · intro chronology
    have chained := (chronology header.id).1
    simp only [LedgerState.sessionEvents,records,List.filter_cons,id₁,id₂,id₃,id₄,beq_self_eq_true,if_true,List.filter_nil,
      List.isChain_cons_cons] at chained
    have kept := chained.2.2.1.conflicts
    rw [w₃.session,w₄.session] at kept
    simp [sessionDraft] at kept

end IntentProposalStore
