import IntentEngineering.Stores.ProposalReplay

open Schema ByteFrames

namespace IntentProposalStore

-- A call that writes a frame which stands on its own: no proposal of a session
-- and no event that proposes or closes one.
def Call.standsAlone : Call → Bool
  | .put p => p.1.binding.isNone
  | .decide _ => true
  | .appendClarification e =>
    match e.1.eventType with
    | .proposed | .closed => false
    | _ => true

end IntentProposalStore

namespace Replay

variable {s : LedgerState}

-- One step from a settled state, seen from its end.
theorem settled_step (payload : LedgerPayload) (n : Nat) (l : LedgerState) :
    ((⟨s,none⟩ : Replay).step n ⟨n,payload⟩).bind finish = some l ↔
      ∃ s' : Replay, (match payload with
        | .clarification e => (⟨s,none⟩ : Replay).clarify e
        | .proposal p => (⟨s,none⟩ : Replay).propose p
        | .decision d => (⟨s,none⟩ : Replay).settle d) = some s' ∧ s'.finish = some l := by
  rw [Option.bind_eq_some_iff]
  cases payload <;> simp [step,awaits]

theorem closed_proposal (p q : IntentProposal) : (⟨s.extend (.proposal q),none⟩ : Replay).closed p = (⟨s,none⟩ : Replay).closed p := rfl

-- A plain proposal is read back.
theorem plain_proposal (closed : ∀ p ∈ s.proposals, (⟨s,none⟩ : Replay).closed p = true) (fresh : s.proposal p.1.id = none)
    (plain : p.1.binding = none) (n : Nat) :
    ((⟨s,none⟩ : Replay).step n ⟨n,.proposal p⟩).bind finish = some (s.extend (.proposal p)) := by
  refine (settled_step _ _ _).mpr ⟨⟨s.extend (.proposal p),none⟩,(propose_iff p).mpr ⟨fresh,by simp [plain],by simp⟩,?_⟩
  refine (finish_iff _ _).mpr ⟨rfl,?_,rfl⟩
  intro q member
  rw [closed_proposal]
  rcases List.mem_append.mp member with old | new
  · exact closed q old
  · rw [List.mem_singleton.mp new]
    simp [Replay.closed,plain]

-- A session stands proposed only behind its proposal, so a second one with the
-- same identifier is not new and one with another is not bound.
theorem bound_proposal (sound : (⟨s,none⟩ : Replay).Sound) (fresh : s.proposal p.1.id = none)
    (bound : p.1.binding = some binding) (n : Nat) (l : LedgerState) :
    ((⟨s,none⟩ : Replay).step n ⟨n,.proposal p⟩).bind finish ≠ some l := by
  intro read
  obtain ⟨s',proposed,_⟩ := (settled_step _ _ _).mp read
  obtain ⟨_,held,_⟩ := (propose_iff p).mp proposed
  have holds := held binding bound
  simp only [boundToSession,Option.any_eq_true,Bool.and_eq_true,decide_eq_true_eq] at holds
  obtain ⟨latest,found,⟨⟨status,_⟩,_⟩,named⟩ := holds
  have kind : latest.1.eventType = .proposed := by
    rw [latest.bound_status] at status
    cases shape : latest.1.eventType <;> simp_all [ClarificationEventType.status]
  rcases sound.followed binding.sessionId latest found kind p.1.id named with pending | known
  · cases pending
  · have found' : (s.proposal p.1.id).isSome = true := known
    simp [fresh] at found'

theorem plain_decision (sound : (⟨s,none⟩ : Replay).Sound) (closed : ∀ p ∈ s.proposals, (⟨s,none⟩ : Replay).closed p = true)
    (found : s.proposal d.1.proposalId = some p) (plain : p.1.binding = none) (repeats : decides p d = true)
    (fresh : s.decision d.1.proposalId = none) (n : Nat) :
    ((⟨s,none⟩ : Replay).step n ⟨n,.decision d⟩).bind finish = some (s.extend (.decision d)) := by
  refine (settled_step _ _ _).mpr ⟨⟨s.extend (.decision d),none⟩,
    (settle_iff d).mpr ⟨p,found,repeats,fresh,by simp [plain],rfl⟩,?_⟩
  refine (finish_iff _ _).mpr ⟨rfl,?_,rfl⟩
  intro q member
  have before := closed q member
  cases bound : q.1.binding with
  | none => simp [Replay.closed,bound]
  | some binding =>
    -- the decision is on another proposal, since this one is bound
    have other : d.1.proposalId ≠ q.1.id := by
      intro same
      obtain ⟨inside,named⟩ := LedgerState.proposal_found found
      have twin : p = q := List.inj_on_of_nodup_map sound.unique inside member (named.trans same)
      rw [twin,bound] at plain
      cases plain
    have kept : (s.extend (.decision d)).decision q.1.id = s.decision q.1.id := by
      rw [LedgerState.decision_decision]
      simp [other]
    simp only [Replay.closed,kept,LedgerState.latest_decision]
    exact before

-- Only a proposed session can be closed and only an open one can go on, so the
-- session of a decided proposal takes no further event.
theorem clarified_closed (closed : ∀ p ∈ s.proposals, (⟨s,none⟩ : Replay).closed p = true)
    (valid : e.validTransition (s.session e.1.session.1.id) (s.latestEvent e.1.session.1.id) = some true) (pending : Option (String × String)) :
    ∀ p ∈ s.proposals, (⟨s.extend (.clarification e),pending⟩ : Replay).closed p = true := by
  intro p member
  have before := closed p member
  simp only [Replay.closed,LedgerState.decision_event] at before ⊢
  cases bound : p.1.binding with
  | none => rfl
  | some binding =>
    cases decided : s.decision p.1.id with
    | none => rfl
    | some d =>
      simp only [bound,decided] at before ⊢
      have settled := before
      simp only [Option.any_eq_true,Bool.and_eq_true,decide_eq_true_eq] at settled
      obtain ⟨latest,found,⟨status,_⟩,_⟩ := settled
      have other : e.1.session.1.id ≠ binding.sessionId := by
        intro same
        rw [←same] at found
        have from' := ClarificationEvent.valid_status valid found
        rw [status] at from'
        cases kind : e.1.eventType <;> rw [kind] at from' <;> cases from'
      rw [LedgerState.latest_other _ _ other]
      exact before

theorem standing_event (closed : ∀ p ∈ s.proposals, (⟨s,none⟩ : Replay).closed p = true)
    (valid : e.validTransition (s.session e.1.session.1.id) (s.latestEvent e.1.session.1.id) = some true)
    (proposes : e.1.eventType ≠ .proposed) (closes : e.1.eventType ≠ .closed) (n : Nat) :
    ((⟨s,none⟩ : Replay).step n ⟨n,.clarification e⟩).bind finish = some (s.extend (.clarification e)) := by
  refine (settled_step _ _ _).mpr ⟨⟨s.extend (.clarification e),none⟩,
    (clarify_iff e).mpr ⟨valid,fun kind => absurd kind closes,by simp [proposes]⟩,?_⟩
  exact (finish_iff _ _).mpr ⟨rfl,clarified_closed closed valid none,rfl⟩

-- A proposed event waits for a proposal that does not come.
theorem proposing_event (kind : e.1.eventType = .proposed) (n : Nat) (l : LedgerState) :
    ((⟨s,none⟩ : Replay).step n ⟨n,.clarification e⟩).bind finish ≠ some l := by
  intro read
  obtain ⟨s',clarified,ended⟩ := (settled_step _ _ _).mp read
  obtain ⟨_,_,rfl⟩ := (clarify_iff e).mp clarified
  have references := e.bound_references
  simp only [EventDraft.bindings,kind,Bool.and_eq_true] at references
  obtain ⟨id,named⟩ := Option.isSome_iff_exists.mp references.1.1
  have waits := ((finish_iff _ _).mp ended).1
  simp [kind,named] at waits

-- A closed event needs a decision on a clarification proposal of its session,
-- which an accepted ledger has only where that session is closed already.
theorem closing_event (closed : ∀ p ∈ s.proposals, (⟨s,none⟩ : Replay).closed p = true) (kind : e.1.eventType = .closed)
    (n : Nat) (l : LedgerState) : ((⟨s,none⟩ : Replay).step n ⟨n,.clarification e⟩).bind finish ≠ some l := by
  intro read
  obtain ⟨s',clarified,_⟩ := (settled_step _ _ _).mp read
  obtain ⟨valid,closes,_⟩ := (clarify_iff e).mp clarified
  have decided := closes kind
  simp only [closesDecided] at decided
  split at decided
  · rename_i p d found decision
    simp only [Bool.and_eq_true,Option.any_eq_true,beq_iff_eq] at decided
    obtain ⟨⟨⟨⟨⟨binding,bound,session⟩,_⟩,_⟩,_⟩,_⟩ := decided
    obtain ⟨member,named⟩ := LedgerState.proposal_found found
    have settled := closed p member
    have known : s.decision p.1.id = some d := by rw [named]; exact decision
    simp only [Replay.closed,bound,known,Option.any_eq_true,Bool.and_eq_true,decide_eq_true_eq,session] at settled
    obtain ⟨latest,inSession,⟨status,_⟩,_⟩ := settled
    have from' := ClarificationEvent.valid_status valid inSession
    rw [status,kind] at from'
    cases from'
  · cases decided

end Replay

namespace IntentProposalStore

variable (lax : Coercions)

-- What a call that returns True has found and written.
theorem call_spec {content content' : Utf8.Bytes} {c : Call} (got : call lax content c = some (content',true)) :
    ∃ s, decode lax content = some s ∧ content' = append lax content c.payload ∧
      match c with
      | .put p => s.proposal p.1.id = none
      | .decide d => ∃ p, s.proposal d.1.proposalId = some p ∧ p.1.binding = none ∧ Replay.decides p d = true ∧
          s.decision d.1.proposalId = none
      | .appendClarification e =>
        e.validTransition (s.session e.1.session.1.id) (s.latestEvent e.1.session.1.id) = some true := by
  cases c with
  | put p =>
    obtain ⟨s,read,got⟩ := Option.bind_eq_some_iff.mp got
    refine ⟨s,read,?_⟩
    cases known : s.proposal p.1.id with
    | none =>
      simp only [known,Option.some.injEq,Prod.mk.injEq,and_true] at got
      exact ⟨got.symm,known⟩
    | some existing =>
      simp only [known] at got
      split at got <;> simp at got
  | decide d =>
    obtain ⟨s,read,got⟩ := Option.bind_eq_some_iff.mp got
    obtain ⟨p,found,got⟩ := Option.bind_eq_some_iff.mp got
    refine ⟨s,read,?_⟩
    split at got
    · cases got
    · rename_i passes
      simp only [not_or,not_not,Option.not_isSome_iff_eq_none] at passes
      cases known : s.decision d.1.proposalId with
      | none =>
        simp only [known,Option.some.injEq,Prod.mk.injEq,and_true] at got
        exact ⟨got.symm,p,found,passes.1,passes.2,known⟩
      | some existing =>
        simp only [known] at got
        split at got <;> simp at got
  | appendClarification e =>
    obtain ⟨s,read,got⟩ := Option.bind_eq_some_iff.mp got
    refine ⟨s,read,?_⟩
    split at got
    · split at got
      · rename_i valid
        simp only [Option.some.injEq,Prod.mk.injEq,and_true] at got
        exact ⟨got.symm,valid⟩
      · cases got
    · split at got <;> simp at got
    · cases got

-- The outcome of every call that returns True.
theorem call_outcome {content content' : Utf8.Bytes} {s : LedgerState} {c : Call} (read : decode lax content = some s)
    (got : call lax content c = some (content',true)) :
    decode lax content' = if c.standsAlone then some (s.extend c.payload) else none := by
  obtain ⟨s₁,same,rfl,rule⟩ := call_spec lax got
  rw [read] at same
  cases same
  obtain ⟨sound,closed,n,outcome⟩ := decode_append lax read c.payload
  rw [outcome]
  cases c with
  | put p =>
    cases bound : p.1.binding with
    | none =>
      simp only [Call.standsAlone,bound,Option.isNone_none,if_true]
      exact Replay.plain_proposal closed rule bound n
    | some binding =>
      simp only [Call.standsAlone,bound,Option.isNone_some]
      exact Option.eq_none_iff_forall_ne_some.mpr fun l => Replay.bound_proposal sound rule bound n l
  | decide d =>
    obtain ⟨p,found,plain,repeats,fresh⟩ := rule
    exact Replay.plain_decision sound closed found plain repeats fresh n
  | appendClarification e =>
    have unread (kind : e.1.eventType = .proposed ∨ e.1.eventType = .closed) (l : LedgerState) :
        ((⟨s,none⟩ : Replay).step n ⟨n,.clarification e⟩).bind Replay.finish ≠ some l := by
      rcases kind with kind | kind
      · exact Replay.proposing_event kind n l
      · exact Replay.closing_event closed kind n l
    have stands (proposes : e.1.eventType ≠ .proposed) (closes : e.1.eventType ≠ .closed) :=
      Replay.standing_event closed rule proposes closes n
    cases alone : (Call.appendClarification e).standsAlone with
    | true =>
      exact stands (by intro kind; simp [Call.standsAlone,kind] at alone) (by intro kind; simp [Call.standsAlone,kind] at alone)
    | false =>
      have kind : e.1.eventType = .proposed ∨ e.1.eventType = .closed := by
        cases shape : e.1.eventType <;> simp_all [Call.standsAlone]
      exact Option.eq_none_iff_forall_ne_some.mpr (unread kind)

-- A sequence of calls with the contents they leave. A call that raises leaves
-- the ledger as it was.
def run (content : Utf8.Bytes) : List Call → Utf8.Bytes × List Call
  | [] => (content,[])
  | c :: rest =>
    match call lax content c with
    | some (content',true) => ((run content' rest).1,c :: (run content' rest).2)
    | some (content',false) => run content' rest
    | none => run content rest

theorem call_unchanged {content content' : Utf8.Bytes} {c : Call} (got : call lax content c = some (content',false)) : content' = content := by
  cases c with
  | put p =>
    obtain ⟨s,_,got⟩ := Option.bind_eq_some_iff.mp got
    split at got
    · split at got <;> simp_all
    · simp at got
  | decide d =>
    obtain ⟨s,_,got⟩ := Option.bind_eq_some_iff.mp got
    obtain ⟨p,_,got⟩ := Option.bind_eq_some_iff.mp got
    split at got
    · cases got
    · split at got
      · split at got <;> simp_all
      · simp at got
  | appendClarification e =>
    obtain ⟨s,_,got⟩ := Option.bind_eq_some_iff.mp got
    split at got
    · split at got <;> simp at got
    · split at got <;> simp_all
    · cases got

-- Every call on an unreadable ledger raises.
theorem call_unreadable {content : Utf8.Bytes} (unread : decode lax content = none) (c : Call) : call lax content c = none := by
  cases c with
  | put p => simp [call,put,unread]
  | decide d => simp [call,IntentProposalStore.decide,unread]
  | appendClarification e => simp [call,appendClarification,unread]

theorem run_unreadable {content : Utf8.Bytes} (unread : decode lax content = none) (cs : List Call) : run lax content cs = (content,[]) := by
  induction cs with
  | nil => rfl
  | cons c cs ih => simp [run,call_unreadable lax unread,ih]

theorem run_outcome {content : Utf8.Bytes} {s : LedgerState} (read : decode lax content = some s) (cs : List Call) :
    decode lax (run lax content cs).1 = some (((run lax content cs).2.map Call.payload).foldl LedgerState.extend s) ↔
      ∀ c ∈ (run lax content cs).2, c.standsAlone = true := by
  induction cs generalizing content s with
  | nil => simp [run,read]
  | cons c cs ih =>
    cases got : call lax content c with
    | none => simpa [run,got] using ih read
    | some found =>
      obtain ⟨content',added⟩ := found
      cases added with
      | false =>
        rw [call_unchanged lax got] at got
        simpa [run,got] using ih read
      | true =>
        have outcome := call_outcome lax read got
        cases alone : c.standsAlone with
        | true =>
          rw [alone,if_pos rfl] at outcome
          simpa [run,got,alone] using ih outcome
        | false =>
          have lost : decode lax content' = none := by simpa [alone] using outcome
          have unread := run_unreadable lax lost cs
          simp [run,got,unread,alone,lost]

-- Appended to an accepted ledger, a record of a call is read back with the old
-- state exactly when it stands alone; and so for every sequence of calls.
theorem ledger_closure (lax : Coercions) :
    (∀ content s c content', decode lax content = some s → call lax content c = some (content',true) →
      (decode lax content' = some (s.extend c.payload) ↔ c.standsAlone = true)) ∧
    ∀ content s cs, decode lax content = some s →
      (decode lax (run lax content cs).1 = some (((run lax content cs).2.map Call.payload).foldl LedgerState.extend s) ↔
        ∀ c ∈ (run lax content cs).2, c.standsAlone = true) := by
  refine ⟨?_,fun content s cs read => run_outcome lax read cs⟩
  intro content s c content' read got
  rw [call_outcome lax read got]
  split <;> simp_all

def morning : DateTime := ⟨2026,1,2,9,0,0,0,some 0,by decide⟩

def noChange : ChangeSet := ⟨⟨"changeset:1","agent",morning,0,[],[],[],[],[],[],[],[],[],[],[],"valid"⟩,by decide⟩

def draft (binding : Option ClarificationBinding) (id : String) : ProposalDraft :=
  ⟨⟨id,.requirement,"agent",morning,0,["evidence:1"],[],noChange,[],[],[],[],[],false⟩,binding⟩

theorem draft_digest (binding : Option ClarificationBinding) (id : String) : (draft binding id).digest = (draft binding "").digest := by
  cases binding <;> rfl

def proposed (binding : Option ClarificationBinding)
    (bounds : binding.all fun b => bounded 1 256 b.sessionId && bounded 1 256 b.taskId) : IntentProposal :=
  ⟨draft binding ("proposal:" ++ (draft binding "").digest),by
    simp only [ProposalDraft.valid,draft_digest]
    simpa [draft] using bounds⟩

def plainProposal : IntentProposal := proposed none rfl

theorem plain_proposal_read : ∃ content', call canonicalOnly [] (.put plainProposal) = some (content',true) ∧
    decode canonicalOnly content' = some (LedgerState.empty.extend (.proposal plainProposal)) :=
  ⟨_,rfl,((ledger_closure canonicalOnly).1 [] LedgerState.empty (.put plainProposal) _ rfl rfl).mpr rfl⟩

-- The proposal of a session that the ledger does not hold.
def sessionProposal : IntentProposal := proposed (some ⟨"clarification:1","task:1"⟩) (by decide)

theorem session_proposal_unreadable : ∃ content', call canonicalOnly [] (.put sessionProposal) = some (content',true) ∧
    decode canonicalOnly content' = none := by
  have accepted : call canonicalOnly [] (.put sessionProposal) = some (append canonicalOnly [] (.proposal sessionProposal),true) := rfl
  have empty : decode canonicalOnly [] = some LedgerState.empty := rfl
  exact ⟨_,accepted,call_outcome canonicalOnly empty accepted⟩

end IntentProposalStore
