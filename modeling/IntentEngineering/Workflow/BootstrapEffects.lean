import IntentEngineering.Graphs.ApplierSpec
import IntentEngineering.Storage.ReplayAgreement
import IntentEngineering.Stores.ProposalClosure
import IntentEngineering.Workflow.Bootstrap

open Schema ByteFrames LocalTransaction Interrupt

-- A call under faults has changed nothing, or it has left what `P` allows. A
-- death may leave either.
def Lands (c : Coordinator) (P : Contents → Prop) (contents : Contents) (result : Except Halt Unit) (disk : Disk) : Prop :=
  (result ≠ .ok () ∧ effective c disk = some contents) ∨
    ((result = .ok () ∨ result = .error .died) ∧ ∃ ends, P ends ∧ effective c disk = some ends)

-- A rollback behind the commit runs through, and no cancellation arrives there.
def Quiet (c : Coordinator) (transactionId : String) (script : Script) (start : World Disk) : Prop :=
  LateRollbackUndisturbed c true transactionId script.body start ∧ CancelledEarly c true transactionId script.body start

section Landing

theorem guarded_lands {act : Act Disk Unit} {P : Contents → Prop}
    (inner : ∀ result after, act start = (result,after) → Lands c P contents result after.state)
    (ran : LocalChangeSetExecutor.guardCancellation c rollbackBaseExceptions act start = (result,after)) :
    Lands c P contents result after.state := by
  unfold LocalChangeSetExecutor.guardCancellation at ran
  rw [run_catch] at ran
  cases first : act start with
  | mk outcome middle =>
    have landed := inner outcome middle first
    rw [first] at ran
    cases outcome with
    | ok value =>
      cases ran
      exact landed
    | error halt =>
      dsimp only at ran
      split at ran
      · rename_i cancelled
        rcases landed with ⟨_,still⟩ | ⟨impossible | impossible,_⟩
        · rw [run_bind] at ran
          cases recovered : recoverUnlocked c middle with
          | mk outcome last =>
            rw [recovered] at ran
            cases outcome with
            | ok done =>
              cases ran
              obtain ⟨same,closed⟩ := (recover_spec c contents).ok still recovered
              exact .inl ⟨by simp,by rw [effective_none closed,same]⟩
            | error halt =>
              cases ran
              exact .inl ⟨by simp,(recover_spec c contents).error still recovered⟩
        · cases impossible
        · cases impossible
          cases cancelled.1
      · cases ran
        exact landed

-- A guarded transaction with a script lands where the script leads.
theorem script_lands (settled : effective c disk = some contents) (quiet : Quiet c transactionId script ⟨disk,schedule⟩)
    (ran : LocalChangeSetExecutor.guardCancellation c true (transaction c true transactionId script.body) ⟨disk,schedule⟩ =
      (result,after)) : Lands c (fun ends => script.perform c contents = some ends) contents result after.state := by
  apply guarded_lands _ ran
  intro outcome middle inner
  exact transaction_effect settled quiet.1 quiet.2 inner

end Landing

namespace BootstrapService

section Specs
variable {env : WriteEnv} {config : ProjectConfig SourceRoles}

theorem identified_some {kind : String} {c : ChangeSetDraft} {changeset : ChangeSet} (built : ChangeSet.identify kind c = some changeset) :
    changeset.1 = c.identified kind := by
  unfold ChangeSet.identify at built
  split at built
  · cases built
    rfl
  · cases built

-- What an activation is about: the confirmed nodes, and the edges they have with
-- each other and with nodes outside the proposal.
def outside (p : ProposalDraft) (id : String) : Prop := id ∉ p.coreNodeIds ∧ id ∉ p.provisionalNodeIds

structure Touches (p : ProposalDraft) (selected : List String) (e : Edge) : Prop where
  origin : e.fromId ∈ selected ∨ outside p e.fromId
  target : e.toId ∈ selected ∨ outside p e.toId
  confirmed : e.fromId ∈ selected ∨ e.toId ∈ selected

theorem graphBeforeIds_mem {p : ProposalDraft} {id : String} : id ∈ graphBeforeIds p ↔
    (∃ e ∈ p.changeset.1.edgesAdded, id = e.fromId ∨ id = e.toId) ∧ outside p id := by
  simp [graphBeforeIds,outside]

theorem edgeSelected_iff {p : ProposalDraft} {selected : List String} {e : Edge} (member : e ∈ p.changeset.1.edgesAdded) :
    edgeSelected p selected e = true ↔ Touches p selected e := by
  have origin : e.fromId ∈ graphBeforeIds p ↔ outside p e.fromId := by
    rw [graphBeforeIds_mem]
    exact and_iff_right ⟨e,member,.inl rfl⟩
  have target : e.toId ∈ graphBeforeIds p ↔ outside p e.toId := by
    rw [graphBeforeIds_mem]
    exact and_iff_right ⟨e,member,.inr rfl⟩
  simp only [edgeSelected,Bool.and_eq_true,Bool.or_eq_true,List.contains_iff_mem,List.mem_append,origin,target]
  constructor
  · intro fits
    exact ⟨fits.1.1,fits.1.2,fits.2⟩
  · intro touches
    exact ⟨⟨touches.origin,touches.target⟩,touches.confirmed⟩

theorem selectedNodes_mem {p : ProposalDraft} {m : Node} : m ∈ selectedNodes p selected actor at' ↔
    ∃ n ∈ p.changeset.1.nodesAdded, n.id ∈ selected ∧ activatedNode actor at' n = m := by
  simp [selectedNodes,and_assoc]

theorem selectedEdges_mem {p : ProposalDraft} {m : Edge} : m ∈ selectedEdges p selected actor at' ↔
    ∃ e ∈ p.changeset.1.edgesAdded, Touches p selected e ∧ activatedEdge actor at' e = m := by
  simp only [selectedEdges,List.mem_map,List.mem_filter,and_assoc]
  refine exists_congr fun e => and_congr_right fun member => ?_
  rw [edgeSelected_iff member]

-- The change set of an activation only adds.
structure Activates (p : ProposalDraft) (selected : List String) (actor : String) (at' : UtcTime) (c : ChangeSetDraft) : Prop where
  baseline : (c.baselineGraphVersion : Int) = p.baselineGraphVersion
  author : c.actor = actor ∧ c.timestamp = at'.1
  nodesAdded : c.nodesAdded = selectedNodes p selected actor at'
  edgesAdded : c.edgesAdded = selectedEdges p selected actor at'
  nodesKept : c.nodesUpdated = [] ∧ c.nodesSuperseded = []
  edgesKept : c.edgesUpdated = [] ∧ c.edgesSuperseded = []
  unchanged : c.confidenceChanges = [] ∧ c.implementationStatusChanges = []
  caseless : c.reconciliationCasesCreated = [] ∧ c.reconciliationCasesResolved = []

theorem activationChangeset_some {p : ProposalDraft} {changeset : ChangeSet}
    (built : activationChangeset p selected actor at' = some changeset) : Activates p selected actor at' changeset.1 := by
  unfold activationChangeset at built
  dsimp only at built
  split at built
  · cases built
  · rename_i natural
    rw [identified_some built]
    refine ⟨?_,⟨rfl,rfl⟩,rfl,rfl,⟨rfl,rfl⟩,⟨rfl,rfl⟩,⟨rfl,rfl⟩,⟨rfl,rfl⟩⟩
    exact Int.toNat_of_nonneg (by omega)

theorem decision_some {p : ProposalDraft} {d : ProposalDecisionRecord} (built : decision p changeset actor at' = some d) :
    d.1.proposalId = p.id ∧ d.1.proposalDigest = p.digest ∧ d.1.actor = actor ∧ d.1.decidedAt = at'.1 ∧
      d.1.baselineGraphVersion = p.baselineGraphVersion ∧ d.1.form = .second changeset.1.addedNodes changeset.1.id := by
  unfold decision ProposalDecisionRecord.identify at built
  split at built
  · cases built
    exact ⟨rfl,rfl,rfl,rfl,rfl,rfl⟩
  · cases built

theorem activatable_kind {p : ProposalDraft} (fits : activatable p selected at' = true) : p.kind = .bootstrap := by
  simp only [activatable,Bool.and_eq_true,decide_eq_true_eq] at fits
  exact fits.1.1.1.1.1.1

-- What stands when `_activate` has its change set and its decision.
structure Planned (env : WriteEnv) (config : ProjectConfig SourceRoles) (call : ActivationCall) (got seen : Contents) (a : Activation)
    (at' : UtcTime) : Prop where
  time : call.at' = at'.1
  local' : call.actor = config.localActor
  selectable : selectable call.confirmedNodeIds = true
  found : ∃ state, IntentProposalStore.decode env.lax (ledgerOf got) = some state ∧ state.proposal call.proposalId = some a.proposal
  activatable : activatable a.proposal.1 call.confirmedNodeIds at' = true
  readable : ∃ found, snapshot env seen = some found ∧ refsAllowed a.proposal.1.evidenceRefs found.evidence.records [call.actor] = true
  changeset : activationChangeset a.proposal.1 call.confirmedNodeIds call.actor at' = some a.changeset
  decision : decision a.proposal.1 a.changeset call.actor at' = some a.decision

theorem plan_iff {call : ActivationCall} : plan env config call got seen = some a ↔ ∃ at', Planned env config call got seen a at' := by
  constructor
  · intro planned
    unfold plan at planned
    obtain ⟨at',utc,planned⟩ := Option.bind_eq_some_iff.mp planned
    have time : call.at' = at'.1 := by
      unfold requireUtc at utc
      split at utc
      · cases utc
        rfl
      · cases utc
    split at planned
    · cases planned
    rename_i allowed
    obtain ⟨state,read,planned⟩ := Option.bind_eq_some_iff.mp planned
    obtain ⟨p,found,planned⟩ := Option.bind_eq_some_iff.mp planned
    split at planned
    · cases planned
    rename_i fits
    obtain ⟨shot,seen,planned⟩ := Option.bind_eq_some_iff.mp planned
    split at planned
    · cases planned
    rename_i granted
    obtain ⟨changeset,built,planned⟩ := Option.bind_eq_some_iff.mp planned
    obtain ⟨d,decided,planned⟩ := Option.bind_eq_some_iff.mp planned
    cases planned
    simp only [not_or,not_not,Bool.not_eq_false] at allowed fits granted
    exact ⟨at',time,allowed.1,allowed.2,⟨state,read,found⟩,fits,⟨shot,seen,granted⟩,built,decided⟩
  · intro planned
    obtain ⟨at',p⟩ := planned
    obtain ⟨state,read,found⟩ := p.found
    obtain ⟨shot,seen,granted⟩ := p.readable
    have utc : requireUtc call.at' = some at' := by
      rw [p.time,requireUtc,dif_pos at'.2]
    unfold plan
    simp only [utc,p.local',p.selectable,read,found,p.activatable,seen,Option.bind_eq_bind,Option.bind_some]
    have granted' := granted
    have built := p.changeset
    have decided := p.decision
    rw [p.local'] at granted' built decided
    simp [granted',built,decided]

-- What stands when `_activate` opens its transaction.
structure Prepared (env : WriteEnv) (config : ProjectConfig SourceRoles) (call : ActivationCall) (reads : ActivationReads)
    (a : Activation) (request : ChangeRequest) : Prop where
  planned : plan env config call reads.got reads.seen = some a
  undecided : decisionFor env a.proposal.1.id reads.asked = some none
  current : ∃ graph, (reads.loaded "graph").bind (GraphStore.parseGraph env.lax env.yaml) = some graph ∧
    (graph.1.version : Int) = a.proposal.1.baselineGraphVersion
  readable : ∃ state, IntentProposalStore.decode env.lax (ledgerOf reads.taken) = some state
  request : request = activationRequest env a (ledgerOf reads.taken)

theorem prepareActivation_apply {call : ActivationCall} :
    prepareActivation env config call reads = some (.apply a request) ↔ Prepared env config call reads a request := by
  constructor
  · intro prepared
    unfold prepareActivation at prepared
    obtain ⟨a',planned,prepared⟩ := Option.bind_eq_some_iff.mp prepared
    obtain ⟨decided,asked,prepared⟩ := Option.bind_eq_some_iff.mp prepared
    cases decided with
    | some existing => cases prepared
    | none =>
      dsimp only at prepared
      obtain ⟨graph,parsed,prepared⟩ := Option.bind_eq_some_iff.mp prepared
      split at prepared
      · cases prepared
      rename_i current
      obtain ⟨state,read,prepared⟩ := Option.bind_eq_some_iff.mp prepared
      cases prepared
      exact ⟨planned,asked,⟨graph,parsed,not_not.mp current⟩,⟨state,read⟩,rfl⟩
  · intro p
    obtain ⟨graph,parsed,current⟩ := p.current
    obtain ⟨state,read⟩ := p.readable
    unfold prepareActivation
    simp [p.planned,p.undecided,parsed,current,read,p.request]

theorem prepareActivation_replay {call : ActivationCall} :
    prepareActivation env config call reads = some (.replay a existing) ↔
      plan env config call reads.got reads.seen = some a ∧ decisionFor env a.proposal.1.id reads.asked = some (some existing) := by
  constructor
  · intro prepared
    unfold prepareActivation at prepared
    obtain ⟨a',planned,prepared⟩ := Option.bind_eq_some_iff.mp prepared
    obtain ⟨decided,asked,prepared⟩ := Option.bind_eq_some_iff.mp prepared
    cases decided with
    | some existing =>
      cases prepared
      exact ⟨planned,asked⟩
    | none =>
      dsimp only at prepared
      obtain ⟨graph,parsed,prepared⟩ := Option.bind_eq_some_iff.mp prepared
      split at prepared
      · cases prepared
      obtain ⟨state,read,prepared⟩ := Option.bind_eq_some_iff.mp prepared
      cases prepared
  · intro both
    unfold prepareActivation
    simp [both.1,both.2]

-- What stands when `_propose` opens its transaction.
structure Proposes (env : WriteEnv) (config : ProjectConfig SourceRoles) (s : BootstrapSubmission) (principals : List String)
    (seen listed taken : Contents) (p : IntentProposal) (script : Script) : Prop where
  validated : ∃ found changeset, snapshot env seen = some found ∧ validateSubmission config s.1 found principals = some changeset ∧
    proposal s.1 changeset = some p
  fresh : ∃ state, IntentProposalStore.decode env.lax (ledgerOf listed) = some state ∧ state.proposal p.1.id = none
  readable : ∃ state, IntentProposalStore.decode env.lax (ledgerOf taken) = some state
  script : script = proposeScript env seen (ledgerOf taken) p

theorem prepareProposal_submit {s : BootstrapSubmission} {principals : List String}
    (prepared : prepareProposal env config s principals seen listed taken = some (.submit p script)) :
    Proposes env config s principals seen listed taken p script := by
  unfold prepareProposal at prepared
  split at prepared
  · cases prepared
  obtain ⟨found,shot,prepared⟩ := Option.bind_eq_some_iff.mp prepared
  obtain ⟨changeset,validated,prepared⟩ := Option.bind_eq_some_iff.mp prepared
  obtain ⟨p',built,prepared⟩ := Option.bind_eq_some_iff.mp prepared
  obtain ⟨state,listed,prepared⟩ := Option.bind_eq_some_iff.mp prepared
  split at prepared
  · split at prepared
    · cases prepared
    · cases prepared
  · rename_i fresh
    obtain ⟨state',taken,prepared⟩ := Option.bind_eq_some_iff.mp prepared
    cases prepared
    exact ⟨⟨found,changeset,shot,validated,built⟩,⟨state,listed,fresh⟩,⟨state',taken⟩,rfl⟩

theorem proposal_some {s : SubmissionDraft} {changeset : ChangeSet} {p : IntentProposal} (built : proposal s changeset = some p) :
    ∃ id, p.1 = ⟨⟨id,.bootstrap,s.actor,s.timestamp.1,s.baselineGraphVersion,s.evidenceRefs,s.sourceRoles.assignments,
      changeset,s.coreNodeIds,s.provisionalNodeIds,s.assumptions,s.unansweredQuestions,s.conflictingAuthors,s.destructive⟩,none⟩ := by
  unfold proposal IntentProposal.identify at built
  split at built
  · cases built
    exact ⟨_,rfl⟩
  · cases built

theorem propose_performed {p : IntentProposal} {ledger : Utf8.Bytes} {contents ends : Contents}
    (performed : (proposeScript env seen ledger p).perform c contents = some ends) :
    contents "intent_proposals" = some ledger ∧
      ends = Script.put "intent_proposals" (ledger ++ frame env ledger (.proposal p)) contents := by
  obtain ⟨first,graph,rest⟩ := Option.bind_eq_some_iff.mp performed
  obtain ⟨second,evidence,rest⟩ := Option.bind_eq_some_iff.mp rest
  obtain ⟨third,found,written⟩ := Option.bind_eq_some_iff.mp rest
  have one := require_performed graph
  have two := require_performed evidence
  have three := require_performed found
  subst one two three
  have same : third "intent_proposals" = some ledger := by
    simp only [Script.require,Script.perform] at found
    split at found
    · split at found
      · assumption
      · cases found
    · cases found
  simp only [Script.perform] at written
  split at written
  · cases written
    rw [same]
    exact ⟨rfl,rfl⟩
  · cases written

end Specs

section Ledger
variable {lax : Coercions} {env : WriteEnv} {s : LedgerState} {ledger : Utf8.Bytes}

theorem frame_append (payload : LedgerPayload) :
    ledger ++ frame env ledger payload = IntentProposalStore.append env.lax ledger payload := rfl

-- The ledger behind a decision of the second version.
theorem decided_readable {p : IntentProposal} {d : ProposalDecisionRecord} (read : IntentProposalStore.decode env.lax ledger = some s)
    (found : s.proposal d.1.proposalId = some p) (repeats : Replay.decides p d = true) (second : d.1.form = .second nodes changesetId) :
    IntentProposalStore.decode env.lax (ledger ++ frame env ledger (.decision d)) =
      if p.1.binding = none ∧ s.decision d.1.proposalId = none then some (s.extend (.decision d)) else none := by
  obtain ⟨sound,closed,n,outcome⟩ := IntentProposalStore.decode_append env.lax read (.decision d)
  rw [frame_append,outcome]
  split
  · rename_i fits
    exact Replay.plain_decision sound closed found fits.1 repeats fits.2 n
  · rename_i unfit
    refine Option.eq_none_iff_forall_ne_some.mpr fun l taken => unfit ?_
    obtain ⟨s',settled,_⟩ := (Replay.settled_step _ _ _).mp taken
    obtain ⟨q,same,_,fresh,held,_⟩ := (Replay.settle_iff d).mp settled
    have twin : q = p := Option.some.inj (same.symm.trans found)
    subst twin
    refine ⟨?_,fresh⟩
    cases bound : q.1.binding with
    | none => rfl
    | some binding =>
      have governed := held binding bound
      simp [Replay.governed,second] at governed

-- The ledger behind a proposal without a session.
theorem proposed_readable {p : IntentProposal} (read : IntentProposalStore.decode env.lax ledger = some s) (plain : p.1.binding = none) :
    IntentProposalStore.decode env.lax (ledger ++ frame env ledger (.proposal p)) =
      if s.proposal p.1.id = none then some (s.extend (.proposal p)) else none := by
  obtain ⟨sound,closed,n,outcome⟩ := IntentProposalStore.decode_append env.lax read (.proposal p)
  rw [frame_append,outcome]
  split
  · rename_i fresh
    exact Replay.plain_proposal closed fresh plain n
  · rename_i known
    refine Option.eq_none_iff_forall_ne_some.mpr fun l taken => known ?_
    obtain ⟨s',proposed,_⟩ := (Replay.settled_step _ _ _).mp taken
    exact ((Replay.propose_iff p).mp proposed).1

end Ledger

section Commits
variable {env : WriteEnv} {config : ProjectConfig SourceRoles}

-- What a committed activation leaves: three targets have changed.
def activatedContents (env : WriteEnv) (a : Activation) (ledger : Utf8.Bytes) (next : IntentGraph) (contents : Contents) : Contents :=
  Script.put "history" ((contents "history").getD [] ++ env.historyFrame a.changeset) <|
    Script.put "graph" (GraphStore.serializeGraph env.lax env.yaml next) <|
      Script.put "intent_proposals" (ledger ++ frame env ledger (.decision a.decision)) contents

-- What the scope of an activation asks of the contents it finds.
structure Accepts (env : WriteEnv) (a : Activation) (ledger : Utf8.Bytes) (contents : Contents) (graph next : IntentGraph) : Prop where
  parsed : (contents "graph").bind (GraphStore.parseGraph env.lax env.yaml) = some graph
  applied : Applier.applyWithCaseEffects graph a.changeset = .ok next
  cases' : ∃ s, CaseStore.parseVersions env.lax (contents "cases") = .ok s
  ledger : contents "intent_proposals" = some ledger

theorem validate_nothing {content : Option Utf8.Bytes} : CaseStore.validateCaseAppends env.lax content [] = .ok bytes ↔
    (∃ s, CaseStore.parseVersions env.lax content = .ok s) ∧ bytes = [] := by
  unfold CaseStore.validateCaseAppends
  cases read : CaseStore.parseVersions env.lax content with
  | error e => simp
  | ok s =>
    simp only [CaseStore.validateAll,List.map_nil,List.flatMap_nil,Except.ok.injEq]
    constructor
    · intro same
      exact ⟨⟨s,rfl⟩,same.symm⟩
    · intro both
      exact both.2.symm

theorem activation_performed {a : Activation} {ledger : Utf8.Bytes} {contents ends : Contents} (known : ∀ name ∈ requiredTargets, name ∈ c.targets) :
    (LocalChangeSetExecutor.script env (activationRequest env a ledger) []).perform c contents = some ends ↔
      ∃ graph next, Accepts env a ledger contents graph next ∧ ends = activatedContents env a ledger next contents := by
  have cases' := known "cases" (by simp [requiredTargets])
  have graph' := known "graph" (by simp [requiredTargets])
  have history' := known "history" (by simp [requiredTargets])
  have ledger' := known "intent_proposals" (by simp [requiredTargets])
  have opened : (LocalChangeSetExecutor.script env (activationRequest env a ledger) []).perform c contents =
      (LocalChangeSetExecutor.applyTo env (fun graph => Applier.applyWithCaseEffects graph a.changeset) (contents "graph")
        (LocalChangeSetExecutor.applyEffects env (activationRequest env a ledger) [])).perform c contents := by
    simp [LocalChangeSetExecutor.script,activationRequest,EffectBinding.unbound,LocalChangeSetExecutor.graphBinding,Script.perform,graph']
  have written (next : IntentGraph) :
      (LocalChangeSetExecutor.writeEffects env (activationRequest env a ledger) next []).perform c contents =
        if contents "intent_proposals" = some ledger then some (activatedContents env a ledger next contents) else none := by
    by_cases same : contents "intent_proposals" = some ledger
    · simp [LocalChangeSetExecutor.writeEffects,LocalChangeSetExecutor.proposalEffect,activationRequest,EffectBinding.unbound,
        Script.require,LocalChangeSetExecutor.evidenceBinding,LocalChangeSetExecutor.caseBinding,LocalChangeSetExecutor.writeGraph,
        LocalChangeSetExecutor.writeCases,Script.perform,activatedContents,graph',history',ledger',same,Script.put]
    · simp [LocalChangeSetExecutor.writeEffects,LocalChangeSetExecutor.proposalEffect,activationRequest,EffectBinding.unbound,
        Script.require,Script.perform,ledger',same]
  rw [opened]
  constructor
  · intro performed
    obtain ⟨graph,next,parsed,applied,later⟩ := applyTo_performed performed
    simp only [LocalChangeSetExecutor.applyEffects,List.any_nil,Bool.false_eq_true,if_false,Script.perform,if_pos cases'] at later
    split at later
    · cases later
    · rename_i caseBytes checked
      obtain ⟨read,rfl⟩ := validate_nothing.mp checked
      rw [written] at later
      split at later
      · rename_i same
        cases later
        exact ⟨graph,next,⟨parsed,applied,read,same⟩,rfl⟩
      · cases later
  · intro found
    obtain ⟨graph,next,accepts,rfl⟩ := found
    have checked := validate_nothing.mpr ⟨accepts.cases',rfl⟩
    simp only [LocalChangeSetExecutor.applyTo,accepts.parsed,accepts.applied,LocalChangeSetExecutor.applyEffects,List.any_nil,
      Bool.false_eq_true,if_false,Script.perform,if_pos cases',checked]
    rw [written,if_pos accepts.ledger]

theorem frame_solid (payload : LedgerPayload) : frame env ledger payload ≠ [] := by
  intro empty
  unfold frame serialize at empty
  rw [frame_bytes] at empty
  simp at empty

-- The executor's call comes down to its transaction.
theorem activation_act {a : Activation} {ledger : Utf8.Bytes} (known : ∀ name ∈ requiredTargets, name ∈ c.targets)
    (caseless : a.changeset.1.reconciliationCasesCreated = [] ∧ a.changeset.1.reconciliationCasesResolved = []) :
    LocalChangeSetExecutor.apply env c transactionId (activationRequest env a ledger) =
      LocalChangeSetExecutor.guardCancellation c true
        (transaction c true transactionId (LocalChangeSetExecutor.script env (activationRequest env a ledger) []).body) := by
  have listed := known "intent_proposals" (by simp [requiredTargets])
  have bound : LocalChangeSetExecutor.bindable c (activationRequest env a ledger).binding = true := by
    have solid : frame env ledger (.decision a.decision) ≠ [] := frame_solid _
    simp [LocalChangeSetExecutor.bindable,activationRequest,EffectBinding.unbound,listed,solid]
  have ordered : LocalChangeSetExecutor.orderedEffects (activationRequest env a ledger).changeset (activationRequest env a ledger).createdCases
      (activationRequest env a ledger).resolvedCases = some [] := by
    simp [LocalChangeSetExecutor.orderedEffects,activationRequest,caseless.1,caseless.2]
  simp only [LocalChangeSetExecutor.apply,bound,ordered,Bool.not_true,Bool.false_eq_true,if_false]
  rfl

-- An activation either changes nothing or leaves all it has to.
theorem activation_lands {a : Activation} {ledger : Utf8.Bytes} (known : ∀ name ∈ requiredTargets, name ∈ c.targets)
    (caseless : a.changeset.1.reconciliationCasesCreated = [] ∧ a.changeset.1.reconciliationCasesResolved = [])
    (settled : effective c disk = some contents)
    (quiet : Quiet c transactionId (LocalChangeSetExecutor.script env (activationRequest env a ledger) []) ⟨disk,schedule⟩)
    (ran : LocalChangeSetExecutor.apply env c transactionId (activationRequest env a ledger) ⟨disk,schedule⟩ = (result,after)) :
    Lands c (fun ends => ∃ graph next, Accepts env a ledger contents graph next ∧ ends = activatedContents env a ledger next contents)
      contents result after.state := by
  rw [activation_act known caseless] at ran
  rcases script_lands settled quiet ran with unchanged | ⟨how,ends,performed,left⟩
  · exact .inl unchanged
  · exact .inr ⟨how,ends,(activation_performed known).mp performed,left⟩

-- What an activation makes of the graph: the confirmed nodes and their edges
-- enter it as active ones, and everything else stays as it was.
structure Entered (p : ProposalDraft) (selected : List String) (actor : String) (at' : UtcTime) (graph next : IntentGraph) : Prop where
  version : (graph.1.version : Int) = p.baselineGraphVersion ∧ next.1.version = graph.1.version + 1
  confirmed : ∀ n ∈ p.changeset.1.nodesAdded, n.id ∈ selected → n.id ∉ graph.1.nodeIds ∧ next.node n.id = some (activatedNode actor at' n)
  others : ∀ id, ¬(id ∈ p.changeset.1.addedNodes ∧ id ∈ selected) → next.node id = graph.node id
  linked : ∀ e ∈ p.changeset.1.edgesAdded, Touches p selected e →
    e.id ∉ graph.1.edgeIds ∧ Keyed.find Edge.id next.1.edges e.id = some (activatedEdge actor at' e)
  otherEdges : ∀ id, (∀ e ∈ p.changeset.1.edgesAdded, e.id = id → ¬Touches p selected e) →
    Keyed.find Edge.id next.1.edges id = Keyed.find Edge.id graph.1.edges id

theorem activates_added {p : ProposalDraft} {c : ChangeSetDraft} (activates : Activates p selected actor at' c) :
    (∀ id, id ∈ c.addedNodes ↔ id ∈ p.changeset.1.addedNodes ∧ id ∈ selected) ∧
      ∀ id, id ∈ c.addedEdges ↔ ∃ e ∈ p.changeset.1.edgesAdded, Touches p selected e ∧ e.id = id := by
  constructor
  · intro id
    simp only [ChangeSetDraft.addedNodes,activates.nodesAdded,List.mem_map]
    constructor
    · rintro ⟨m,member,rfl⟩
      obtain ⟨n,inside,chosen,rfl⟩ := selectedNodes_mem.mp member
      exact ⟨⟨n,inside,rfl⟩,chosen⟩
    · rintro ⟨⟨n,inside,rfl⟩,chosen⟩
      exact ⟨activatedNode actor at' n,selectedNodes_mem.mpr ⟨n,inside,chosen,rfl⟩,rfl⟩
  · intro id
    simp only [ChangeSetDraft.addedEdges,activates.edgesAdded,List.mem_map]
    constructor
    · rintro ⟨m,member,rfl⟩
      obtain ⟨e,inside,touches,rfl⟩ := selectedEdges_mem.mp member
      exact ⟨e,inside,touches,rfl⟩
    · rintro ⟨e,inside,touches,rfl⟩
      exact ⟨activatedEdge actor at' e,selectedEdges_mem.mpr ⟨e,inside,touches,rfl⟩,rfl⟩

theorem applied_entered {p : ProposalDraft} {changeset : ChangeSet} {graph next : IntentGraph}
    (activates : Activates p selected actor at' changeset.1) (applied : Applier.applyWithCaseEffects graph changeset = .ok next) :
    Entered p selected actor at' graph next := by
  obtain ⟨nodeIds,edgeIds⟩ := activates_added activates
  have effected := Applier.applied_effected applied
  obtain ⟨admitted,_⟩ := Applier.applied_declared.mp applied
  have kept : changeset.1.updatedNodes ++ changeset.1.nodesSuperseded ++ (changeset.1.reassessed ++ changeset.1.reclaimed) = [] := by
    simp [ChangeSetDraft.updatedNodes,ChangeSetDraft.reassessed,ChangeSetDraft.reclaimed,activates.nodesKept.1,activates.nodesKept.2,
      activates.unchanged.1,activates.unchanged.2]
  have keptEdges : changeset.1.updatedEdges ++ changeset.1.edgesSuperseded = [] := by
    simp [ChangeSetDraft.updatedEdges,activates.edgesKept.1,activates.edgesKept.2]
  refine ⟨⟨?_,effected.version⟩,?_,?_,?_,?_⟩
  · rw [←admitted.baseline]
    exact activates.baseline
  · intro n member chosen
    have added : n.id ∈ changeset.1.addedNodes := (nodeIds n.id).mpr ⟨List.mem_map_of_mem member,chosen⟩
    refine ⟨admitted.nodesFresh n.id added,?_⟩
    exact effected.nodesAdded (activatedNode actor at' n)
      (activates.nodesAdded ▸ selectedNodes_mem.mpr ⟨n,member,chosen,rfl⟩)
  · intro id other
    apply effected.nodeFrame
    rw [kept,List.append_nil,nodeIds]
    exact other
  · intro e member touches
    have added : e.id ∈ changeset.1.addedEdges := (edgeIds e.id).mpr ⟨e,member,touches,rfl⟩
    refine ⟨admitted.edgesFresh e.id added,?_⟩
    exact effected.edgesAdded (activatedEdge actor at' e)
      (activates.edgesAdded ▸ selectedEdges_mem.mpr ⟨e,member,touches,rfl⟩)
  · intro id other
    apply effected.edgeFrame
    rw [keptEdges,List.append_nil,edgeIds]
    rintro ⟨e,member,touches,named⟩
    exact other e member named touches

end Commits

end BootstrapService
