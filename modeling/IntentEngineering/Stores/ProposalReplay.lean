import IntentEngineering.Stores.ProposalLedger

open Schema ByteFrames

namespace LedgerState

variable (s : LedgerState)

@[simp] theorem extend_proposals (p : IntentProposal) : (s.extend (.proposal p)).proposals = s.proposals ++ [p] := rfl
@[simp] theorem extend_decisions (d : ProposalDecisionRecord) : (s.extend (.decision d)).decisions = s.decisions ++ [d] := rfl
@[simp] theorem extend_events (e : ClarificationEvent) :
    (s.extend (.clarification e)).clarificationEvents = s.clarificationEvents ++ [e] := rfl

@[simp] theorem latest_proposal (p : IntentProposal) (sid : String) : (s.extend (.proposal p)).latestEvent sid = s.latestEvent sid := rfl
@[simp] theorem latest_decision (d : ProposalDecisionRecord) (sid : String) :
    (s.extend (.decision d)).latestEvent sid = s.latestEvent sid := rfl
@[simp] theorem proposal_decision (d : ProposalDecisionRecord) (id : String) : (s.extend (.decision d)).proposal id = s.proposal id := rfl
@[simp] theorem proposal_event (e : ClarificationEvent) (id : String) : (s.extend (.clarification e)).proposal id = s.proposal id := rfl
@[simp] theorem decision_proposal (p : IntentProposal) (id : String) : (s.extend (.proposal p)).decision id = s.decision id := rfl
@[simp] theorem decision_event (e : ClarificationEvent) (id : String) : (s.extend (.clarification e)).decision id = s.decision id := rfl

theorem latest_event (e : ClarificationEvent) (sid : String) :
    (s.extend (.clarification e)).latestEvent sid = if e.1.session.1.id = sid then some e else s.latestEvent sid := by
  simp only [latestEvent,extend_events,List.reverse_append,List.reverse_singleton,List.singleton_append,List.find?_cons]
  by_cases same : e.1.session.1.id = sid
  · simp [same]
  · simp [same,beq_eq_false_iff_ne.mpr same]

theorem latest_same (e : ClarificationEvent) : (s.extend (.clarification e)).latestEvent e.1.session.1.id = some e := by
  simp [latest_event]

theorem latest_other (e : ClarificationEvent) (other : e.1.session.1.id ≠ sid) :
    (s.extend (.clarification e)).latestEvent sid = s.latestEvent sid := by
  simp [latest_event,other]

theorem decision_decision (d : ProposalDecisionRecord) (id : String) :
    (s.extend (.decision d)).decision id = (s.decision id).or (if d.1.proposalId = id then some d else none) := by
  simp only [decision,extend_decisions,List.find?_append,List.find?_cons,List.find?_nil]
  by_cases same : d.1.proposalId = id
  · simp [same]
  · simp [same,beq_eq_false_iff_ne.mpr same]

theorem proposal_proposal (p : IntentProposal) (id : String) :
    (s.extend (.proposal p)).proposal id = (s.proposal id).or (if p.1.id = id then some p else none) := by
  simp only [proposal,extend_proposals,List.find?_append,List.find?_cons,List.find?_nil]
  by_cases same : p.1.id = id
  · simp [same]
  · simp [same,beq_eq_false_iff_ne.mpr same]

theorem proposal_found {s : LedgerState} {id : String} (found : s.proposal id = some p) : p ∈ s.proposals ∧ p.1.id = id := by
  refine ⟨List.mem_of_find?_eq_some found,?_⟩
  have hit := List.find?_some found
  simpa using hit

theorem proposal_kept {s : LedgerState} {id : String} (found : (s.proposal id).isSome = true) (payload : LedgerPayload) :
    ((s.extend payload).proposal id).isSome = true := by
  cases payload with
  | proposal p => simp [proposal_proposal,found]
  | decision d => exact found
  | clarification e => exact found

theorem latest_session {s : LedgerState} (found : s.latestEvent sid = some e) : e.1.session.1.id = sid := by
  have hit := List.find?_some found
  simpa using hit

theorem session_latest {s : LedgerState} (found : s.latestEvent sid = some e) : s.session sid = some e.1.session := by
  simp [session,found]

theorem session_none {s : LedgerState} (absent : s.latestEvent sid = none) : s.session sid = none := by
  simp [session,absent]

end LedgerState

namespace ClarificationEvent

-- What an admitted event continues: nothing, or the latest event of its session.
theorem valid_cases {s : LedgerState}
    (valid : validTransition (s.session e.1.session.1.id) e (s.latestEvent e.1.session.1.id) = some true) :
    (s.latestEvent e.1.session.1.id = none ∧ e.opensSession = true) ∨
      ∃ before, s.latestEvent e.1.session.1.id = some before ∧ continuesSession before.1.session.1 before e = true ∧
        ((e.1.eventType = .answered ∧ answersSession before.1.session.1 e = true) ∨
          (e.1.eventType = .conflicted ∧ conflictsSession before.1.session.1 e = some true) ∨
          (e.1.eventType = .proposed ∧ proposesSession before.1.session.1 e = true) ∨
          (e.1.eventType = .closed ∧ closesSession before.1.session.1 e = true)) := by
  cases latest : s.latestEvent e.1.session.1.id with
  | none =>
    rw [latest,LedgerState.session_none latest] at valid
    exact .inl ⟨rfl,by simpa [validTransition] using valid⟩
  | some before =>
    rw [latest,LedgerState.session_latest latest] at valid
    simp only [validTransition] at valid
    split at valid
    · rename_i continues
      refine .inr ⟨before,rfl,continues,?_⟩
      cases kind : e.1.eventType with
      | opened => simp [kind] at valid
      | answered => exact .inl ⟨rfl,by simpa [kind] using valid⟩
      | conflicted => exact .inr (.inl ⟨rfl,by simpa [kind] using valid⟩)
      | proposed => exact .inr (.inr (.inl ⟨rfl,by simpa [kind] using valid⟩))
      | closed => exact .inr (.inr (.inr ⟨rfl,by simpa [kind] using valid⟩))
    · cases valid

-- The status that the session must have had before an event that is not its first.
def fromStatus : ClarificationEventType → SessionStatus
  | .closed => .proposed
  | _ => .opened

theorem valid_status {s : LedgerState}
    (valid : validTransition (s.session e.1.session.1.id) e (s.latestEvent e.1.session.1.id) = some true)
    (latest : s.latestEvent e.1.session.1.id = some before) : before.1.session.1.status = fromStatus e.1.eventType := by
  rcases valid_cases valid with ⟨absent,_⟩ | ⟨found,same,_,kinds⟩
  · rw [absent] at latest
    cases latest
  · rw [latest] at same
    cases same
    rcases kinds with ⟨kind,rule⟩ | ⟨kind,rule⟩ | ⟨kind,rule⟩ | ⟨kind,rule⟩
    · simp only [answersSession,Bool.and_eq_true,decide_eq_true_eq] at rule
      rw [kind]
      exact rule.1.1.1.1.1
    · obtain ⟨ref,_,rule⟩ := Option.map_eq_some_iff.mp rule
      simp only [Bool.and_eq_true,decide_eq_true_eq] at rule
      rw [kind]
      exact rule.1.1.1.1.1
    · simp only [proposesSession,Bool.and_eq_true,decide_eq_true_eq] at rule
      rw [kind]
      exact rule.1.1.1.1.1.1
    · simp only [closesSession,Bool.and_eq_true,decide_eq_true_eq] at rule
      rw [kind]
      exact rule.1.1.1.1.1.1

end ClarificationEvent

namespace Replay

variable {s s' : Replay}

theorem clarify_iff (e : ClarificationEvent) : s.clarify e = some s' ↔
    e.validTransition (s.session e.1.session.1.id) (s.latestEvent e.1.session.1.id) = some true ∧
      (e.1.eventType = .closed → s.closesDecided e = true) ∧
      s' = ⟨s.extend (.clarification e),
        if e.1.eventType = .proposed then e.1.proposalId.map fun id => (id,e.1.session.1.id) else s.pending⟩ := by
  unfold clarify
  split
  · rename_i refused
    simp [refused]
  · rename_i valid
    split
    · rename_i refused
      simp only [reduceCtorEq,false_iff]
      rintro ⟨_,closes,_⟩
      exact refused.2 (closes refused.1)
    · rename_i closes
      have bound : e.1.eventType = .closed → s.closesDecided e = true := by
        intro kind
        by_contra failed
        exact closes ⟨kind,failed⟩
      simp only [Option.some.injEq,not_not.mp valid,true_and]
      exact ⟨fun same => ⟨bound,same.symm⟩,fun found => found.2.symm⟩

theorem propose_iff (p : IntentProposal) : s.propose p = some s' ↔
    s.proposal p.1.id = none ∧ (∀ binding ∈ p.1.binding, s.boundToSession p binding = true) ∧
      s' = ⟨s.extend (.proposal p),if p.1.binding.isSome then none else s.pending⟩ := by
  unfold propose
  split
  · rename_i known
    simp only [reduceCtorEq,false_iff]
    rintro ⟨absent,_⟩
    simp [absent] at known
  · rename_i fresh
    have absent : s.proposal p.1.id = none := by simpa using fresh
    split
    · rename_i plain
      simp only [Option.some.injEq,absent,plain,true_and,Option.isSome_none]
      exact ⟨fun same => ⟨nofun,same.symm⟩,fun found => found.2.symm⟩
    · rename_i binding bound
      simp only [absent,bound,true_and,Option.mem_some_iff,forall_eq',Option.isSome_some,if_true]
      split
      · rename_i holds
        simp only [Option.some.injEq,holds,true_and]
        exact eq_comm
      · rename_i fails
        simp [fails]

theorem settle_iff (d : ProposalDecisionRecord) : s.settle d = some s' ↔
    ∃ p, s.proposal d.1.proposalId = some p ∧ decides p d = true ∧ s.decision d.1.proposalId = none ∧
      (∀ binding ∈ p.1.binding, s.governed binding d = true) ∧ s' = ⟨s.extend (.decision d),s.pending⟩ := by
  unfold settle
  cases found : s.proposal d.1.proposalId with
  | none => simp
  | some p =>
    simp only [Option.some.injEq,exists_eq_left']
    split
    · rename_i refused
      simp only [reduceCtorEq,false_iff]
      rintro ⟨repeats,absent,_⟩
      rcases refused with different | known
      · exact different repeats
      · simp [absent] at known
    · rename_i passes
      simp only [not_or,not_not,Option.not_isSome_iff_eq_none] at passes
      simp only [passes,true_and]
      split
      · rename_i governs
        have each : ∀ binding ∈ p.1.binding, s.governed binding d = true := by
          intro binding bound
          simpa [Option.mem_def.mp bound] using governs
        simp only [Option.some.injEq]
        exact ⟨fun same => ⟨each,same.symm⟩,fun found => found.2.symm⟩
      · rename_i refused
        simp only [reduceCtorEq,false_iff]
        rintro ⟨each,_⟩
        apply refused
        cases bound : p.1.binding with
        | none => rfl
        | some binding => exact each binding bound

-- One frame: what it needs and what it leaves.
theorem step_cases (stepped : s.step n r = some s') : r.sequence = n ∧ s.awaits r.payload = true ∧
    s'.toLedgerState = s.extend r.payload ∧
    ((∃ e, r.payload = .clarification e ∧ s.clarify e = some s') ∨ (∃ p, r.payload = .proposal p ∧ s.propose p = some s') ∨
      ∃ d, r.payload = .decision d ∧ s.settle d = some s') := by
  unfold step at stepped
  split at stepped
  · cases stepped
  · rename_i passes
    simp only [not_or,not_not] at passes
    refine ⟨passes.1,passes.2,?_⟩
    cases kind : r.payload with
    | clarification e =>
      rw [kind] at stepped
      obtain ⟨_,_,same⟩ := (clarify_iff e).mp stepped
      exact ⟨by rw [same],.inl ⟨e,rfl,stepped⟩⟩
    | proposal p =>
      rw [kind] at stepped
      obtain ⟨_,_,same⟩ := (propose_iff p).mp stepped
      exact ⟨by rw [same],.inr (.inl ⟨p,rfl,stepped⟩)⟩
    | decision d =>
      rw [kind] at stepped
      obtain ⟨_,_,_,_,_,same⟩ := (settle_iff d).mp stepped
      exact ⟨by rw [same],.inr (.inr ⟨d,rfl,stepped⟩)⟩

-- Proposals have different identifiers, and a session that stands proposed has
-- its proposal, unless that is the one still to come.
structure Sound (s : Replay) : Prop where
  unique : (s.proposals.map fun p => p.1.id).Nodup
  followed : ∀ sid e, s.latestEvent sid = some e → e.1.eventType = .proposed → ∀ id ∈ e.1.proposalId,
    s.pending = some (id,sid) ∨ (s.proposal id).isSome = true

theorem start_sound : start.Sound where
  unique := .nil
  followed sid e found := by simp [start,LedgerState.latestEvent,LedgerState.empty] at found

theorem clarify_sound (sound : s.Sound) (waits : s.pending = none) (clarified : s.clarify e = some s') : s'.Sound := by
  obtain ⟨_,_,rfl⟩ := (clarify_iff e).mp clarified
  refine ⟨sound.unique,?_⟩
  intro sid latest found proposed id named
  by_cases same : e.1.session.1.id = sid
  · subst same
    rw [LedgerState.latest_same] at found
    cases found
    left
    simp [proposed,Option.mem_def.mp named]
  · rw [LedgerState.latest_other _ _ same] at found
    right
    simpa [waits] using sound.followed sid latest found proposed id named

theorem propose_sound (sound : s.Sound) (awaited : s.awaits (.proposal p) = true) (proposed : s.propose p = some s') : s'.Sound := by
  obtain ⟨absent,bound,rfl⟩ := (propose_iff p).mp proposed
  constructor
  · have fresh : p.1.id ∉ s.proposals.map fun p => p.1.id := by
      intro member
      obtain ⟨q,inside,same⟩ := List.mem_map.mp member
      have missed := List.find?_eq_none.mp absent q inside
      simp [same] at missed
    simp only [LedgerState.extend_proposals,List.map_append,List.map_cons,List.map_nil]
    exact List.nodup_append.mpr ⟨sound.unique,by simp,by simpa using fun a inside (same : a = p.1.id) => fresh (same ▸ inside)⟩
  · intro sid latest found kind id named
    right
    rcases sound.followed sid latest found kind id named with pending | known
    · -- the one still to come is this one
      simp only [awaits,pending,Option.all_some,Option.any_eq_true,Bool.and_eq_true,beq_iff_eq] at awaited
      obtain ⟨_,_,same,_⟩ := awaited
      simp [LedgerState.proposal_proposal,same]
    · exact LedgerState.proposal_kept known _

theorem step_sound (sound : s.Sound) (stepped : s.step n r = some s') : s'.Sound := by
  obtain ⟨_,awaited,_,⟨e,kind,clarified⟩ | ⟨p,kind,proposed⟩ | ⟨d,kind,settled⟩⟩ := step_cases stepped
  · rw [kind] at awaited
    exact clarify_sound sound (by simpa [awaits] using awaited) clarified
  · rw [kind] at awaited
    exact propose_sound sound awaited proposed
  · obtain ⟨p,_,_,_,_,rfl⟩ := (settle_iff d).mp settled
    exact ⟨sound.unique,sound.followed⟩

theorem replay_sound (sound : s.Sound) (ran : replay step n s rs = some s') : s'.Sound := by
  induction rs generalizing n s with
  | nil =>
    cases ran
    exact sound
  | cons r rs ih =>
    obtain ⟨middle,stepped,ran⟩ := Option.bind_eq_some_iff.mp ran
    exact ih (step_sound sound stepped) ran

-- A replayed state holds the records, each at its place.
theorem replay_extends (ran : replay step n s rs = some s') :
    s'.toLedgerState = (rs.map IntentLedgerRecord.payload).foldl LedgerState.extend s.toLedgerState ∧
      rs.map IntentLedgerRecord.sequence = List.range' n rs.length := by
  induction rs generalizing n s with
  | nil =>
    cases ran
    exact ⟨rfl,rfl⟩
  | cons r rs ih =>
    obtain ⟨middle,stepped,ran⟩ := Option.bind_eq_some_iff.mp ran
    obtain ⟨place,_,grown,_⟩ := step_cases stepped
    obtain ⟨same,places⟩ := ih ran
    rw [grown] at same
    exact ⟨same,by simp [List.range'_succ,place,places]⟩

theorem finish_iff (s : Replay) (l : LedgerState) :
    s.finish = some l ↔ s.pending = none ∧ (∀ p ∈ s.proposals, s.closed p = true) ∧ s.toLedgerState = l := by
  unfold finish
  split
  · rename_i refused
    simp only [reduceCtorEq,false_iff]
    rintro ⟨none,closed,_⟩
    rcases refused with some | open'
    · simp [none] at some
    · exact open' (List.all_eq_true.mpr closed)
  · rename_i passes
    simp only [not_or,not_not,Option.not_isSome_iff_eq_none] at passes
    simp only [passes.1,true_and,Option.some.injEq]
    exact ⟨fun same => ⟨List.all_eq_true.mp passes.2,same⟩,fun found => found.2⟩

end Replay

namespace IntentProposalStore

variable (lax : Coercions)

-- A content is accepted exactly when it is the writing of records that replay
-- to the end.
theorem decode_iff (content : Utf8.Bytes) (s : LedgerState) : decode lax content = some s ↔
    ∃ rs r, content = contentOf (IntentLedgerRecord.codec lax) rs ∧ replay Replay.step 0 Replay.start rs = some r ∧ r.finish = some s := by
  unfold decode
  simp only [Option.bind_eq_some_iff,read_iff (IntentLedgerRecord.object lax)]
  constructor
  · rintro ⟨r,⟨rs,same,_,ran⟩,ended⟩
    exact ⟨rs,r,same,ran,ended⟩
  · rintro ⟨rs,r,same,ran,ended⟩
    exact ⟨r,⟨rs,same,fun r _ => Codec.Finite.finite (c := IntentLedgerRecord.codec lax) r,ran⟩,ended⟩

-- One more record on an accepted content is one more step from its state.
theorem decode_append {content : Utf8.Bytes} {s : LedgerState} (got : decode lax content = some s) (payload : LedgerPayload) :
    (⟨s,none⟩ : Replay).Sound ∧ (∀ p ∈ s.proposals, (⟨s,none⟩ : Replay).closed p = true) ∧
      ∃ n, decode lax (append lax content payload) = ((⟨s,none⟩ : Replay).step n ⟨n,payload⟩).bind Replay.finish := by
  obtain ⟨rs,r,rfl,ran,ended⟩ := (decode_iff lax content s).mp got
  obtain ⟨settled,closed,same⟩ := (Replay.finish_iff r s).mp ended
  have whole : r = ⟨s,none⟩ := by
    cases r
    simp_all
  subst whole
  refine ⟨Replay.replay_sound Replay.start_sound ran,closed,rs.length,?_⟩
  have grown : append lax (contentOf (IntentLedgerRecord.codec lax) rs) payload =
      contentOf (IntentLedgerRecord.codec lax) (rs ++ [⟨rs.length,payload⟩]) := by
    rw [append,lines_count]
    simp [contentOf]
  rw [grown]
  ext s'
  rw [decode_iff]
  constructor
  · rintro ⟨rs',r',same,again,done⟩
    have records := contentOf_injective same
    rw [←records,replay_last,ran] at again
    exact Option.bind_eq_some_iff.mpr ⟨r',again,done⟩
  · intro stepped
    obtain ⟨r',again,done⟩ := Option.bind_eq_some_iff.mp stepped
    exact ⟨_,r',rfl,by rw [replay_last,ran]; exact again,done⟩

end IntentProposalStore
