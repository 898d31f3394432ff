import IntentEngineering.Workflow.BootstrapEffects

open Schema JsonLines LocalTransaction Interrupt

namespace BootstrapService

-- The decisions that only this service writes.
def enacts (d : ProposalDecisionRecord) : Bool := match d.1.form with | .second .. => true | _ => false

-- What any other writer may leave: the graph and its history as they were, or one
-- more change set in both; in the ledger more proposals, those of a session being
-- no bootstrap ones, and more decisions of the other versions.
structure Foreign (env : WriteEnv) (before after : Contents) : Prop where
  graph : (after "graph" = before "graph" ∧ after "history" = before "history") ∨
    ∃ changeset, Unbroken ((ChangeSet.codec env.lax true).dump changeset) ∧ Commits env changeset before after
  ledger : ∀ s, IntentProposalStore.decode env.lax (ledgerOf before) = some s →
    ∃ s' proposals decisions, IntentProposalStore.decode env.lax (ledgerOf after) = some s' ∧
      s'.proposals = s.proposals ++ proposals ∧ s'.decisions = s.decisions ++ decisions ∧
      (∀ p ∈ proposals, p.1.kind = .bootstrap → p.1.binding = none) ∧ ∀ d ∈ decisions, enacts d = false

-- A call of the proposal store that stands alone is such a writer; and so is
-- whatever commits a change set and leaves the ledger alone.
theorem stored_foreign {before : Contents} {call : IntentProposalStore.Call}
    (got : IntentProposalStore.call env.lax (ledgerOf before) call = some (content,true)) (alone : call.standsAlone = true)
    (older : ∀ d, call.payload = .decision d → enacts d = false) : Foreign env before (Script.put "intent_proposals" content before) := by
  refine ⟨.inl ⟨rfl,rfl⟩,?_⟩
  intro s read
  have outcome := IntentProposalStore.call_outcome env.lax read got
  rw [if_pos alone] at outcome
  have now : ledgerOf (Script.put "intent_proposals" content before) = content := by simp [ledgerOf,Script.put]
  rw [now]
  cases call with
  | put p =>
    refine ⟨_,[p],[],outcome,rfl,(List.append_nil _).symm,?_,by simp⟩
    intro q member _
    rw [List.mem_singleton.mp member]
    simpa [IntentProposalStore.Call.standsAlone] using alone
  | decide d =>
    refine ⟨_,[],[d],outcome,(List.append_nil _).symm,rfl,by simp,?_⟩
    intro e member
    rw [List.mem_singleton.mp member]
    exact older d rfl
  | appendClarification e => exact ⟨_,[],[],outcome,(List.append_nil _).symm,(List.append_nil _).symm,by simp,by simp⟩

theorem committed_foreign {before after : Contents} {changeset : ChangeSet} (plain : Unbroken ((ChangeSet.codec env.lax true).dump changeset))
    (commits : Commits env changeset before after) (same : after "intent_proposals" = before "intent_proposals") : Foreign env before after := by
  refine ⟨.inr ⟨changeset,plain,commits⟩,?_⟩
  intro s read
  have ledger : ledgerOf after = ledgerOf before := by simp [ledgerOf,same]
  exact ⟨s,[],[],ledger ▸ read,(List.append_nil _).symm,(List.append_nil _).symm,by simp,by simp⟩

-- The disk, and every content it has had: a call in flight may have read any.
structure World where
  disk : Disk
  past : List Contents

-- The calls of the service under faults, between steps of any other writer. What
-- a call has read before its transaction may be out of date, except that the
-- ledger does not change between its look at the decisions and its bytes.
inductive Step (env : WriteEnv) (c : Coordinator) (config : ProjectConfig SourceRoles) : World → World → Prop where
  | foreign {w : World} {before after : Contents} {disk : Disk} (settled : effective c w.disk = some before)
      (left : effective c disk = some after) (other : Foreign env before after) : Step env c config w ⟨disk,after :: w.past⟩
  | propose {w : World} {s : BootstrapSubmission} {principals : List String} {seen listed taken : Contents} {p : IntentProposal}
      {script : Script} {transactionId : String} {schedule : List (Option Fault)} {result : Except Halt Unit}
      {after : Interrupt.World Disk} {ends : Contents} (inPast : listed ∈ w.past)
      (steady : listed "intent_proposals" = taken "intent_proposals")
      (prepared : prepareProposal env config s principals seen listed taken = some (.submit p script))
      (quiet : Quiet c transactionId script ⟨w.disk,schedule⟩)
      (ran : LocalChangeSetExecutor.guardCancellation c true (transaction c true transactionId script.body) ⟨w.disk,schedule⟩ =
        (result,after)) (left : effective c after.state = some ends) : Step env c config w ⟨after.state,ends :: w.past⟩
  | activate {w : World} {call : ActivationCall} {reads : ActivationReads} {a : Activation} {request : ChangeRequest}
      {transactionId : String} {schedule : List (Option Fault)} {result : Except Halt Unit} {after : Interrupt.World Disk}
      {ends : Contents} (inPast : reads.got ∈ w.past)
      (steady : reads.asked "intent_proposals" = reads.taken "intent_proposals")
      (prepared : prepareActivation env config call reads = some (.apply a request))
      (plain : Unbroken ((ChangeSet.codec env.lax true).dump a.changeset))
      (quiet : Quiet c transactionId (LocalChangeSetExecutor.script env request []) ⟨w.disk,schedule⟩)
      (ran : LocalChangeSetExecutor.apply env c transactionId request ⟨w.disk,schedule⟩ = (result,after))
      (left : effective c after.state = some ends) : Step env c config w ⟨after.state,ends :: w.past⟩

inductive Reached (env : WriteEnv) (c : Coordinator) (config : ProjectConfig SourceRoles) (start : World) : World → Prop where
  | refl : Reached env c config start start
  | step {w next : World} (earlier : Reached env c config start w) (step : Step env c config w next) : Reached env c config start next

-- One ledger goes on where the other ends.
structure Grown (s s' : LedgerState) : Prop where
  proposals : s.proposals <+: s'.proposals
  decisions : s.decisions <+: s'.decisions

namespace Grown

theorem refl (s : LedgerState) : Grown s s := ⟨List.prefix_refl _,List.prefix_refl _⟩

theorem trans {s s' s'' : LedgerState} (first : Grown s s') (second : Grown s' s'') : Grown s s'' :=
  ⟨first.proposals.trans second.proposals,first.decisions.trans second.decisions⟩

theorem extend (s : LedgerState) (payload : LedgerPayload) : Grown s (s.extend payload) := by
  cases payload with
  | proposal p => exact ⟨List.prefix_append _ _,List.prefix_refl _⟩
  | decision d => exact ⟨List.prefix_refl _,List.prefix_append _ _⟩
  | clarification e => exact ⟨List.prefix_refl _,List.prefix_refl _⟩

theorem proposal {s s' : LedgerState} {id : String} (grown : Grown s s') (found : s.proposal id = some p) : s'.proposal id = some p := by
  obtain ⟨later,whole⟩ := grown.proposals
  unfold LedgerState.proposal at found ⊢
  rw [←whole,List.find?_append,found]
  rfl

end Grown

-- A decision of the service stands beside the change set that it named: at the
-- place in the history that the baseline of its proposal says.
structure Enacted (actor : String) (state : LedgerState) (changesets : List ChangeSet) (a : Activation) (selected : List String)
    (at' : UtcTime) : Prop where
  found : state.proposal a.proposal.1.id = some a.proposal
  selectable : selectable selected = true
  activatable : activatable a.proposal.1 selected at' = true
  changeset : activationChangeset a.proposal.1 selected actor at' = some a.changeset
  decision : decision a.proposal.1 a.changeset actor at' = some a.decision
  stored : changesets[a.proposal.1.baselineGraphVersion.toNat]? = some a.changeset

theorem Enacted.later {state state' : LedgerState} {changesets later : List ChangeSet} (enacted : Enacted actor state changesets a selected at')
    (grown : Grown state state') (extended : changesets <+: later) : Enacted actor state' later a selected at' := by
  refine ⟨grown.proposal enacted.found,enacted.selectable,enacted.activatable,enacted.changeset,enacted.decision,?_⟩
  obtain ⟨rest,whole⟩ := extended
  rw [←whole]
  exact List.getElem?_append_left (List.getElem?_eq_some_iff.mp enacted.stored).1 ▸ enacted.stored

-- What an earlier content has to do with the ledger and the history now.
structure Past (env : WriteEnv) (initial : IntentGraph) (earlier : Contents) (state : LedgerState) (changesets : List ChangeSet) : Prop where
  ledger : ∃ s, IntentProposalStore.decode env.lax (ledgerOf earlier) = some s ∧ Grown s state
  history : ∃ graph before, Replayed env initial earlier graph before ∧ before <+: changesets

theorem Past.later {state state' : LedgerState} {changesets later : List ChangeSet} (past : Past env initial earlier state changesets)
    (grown : Grown state state') (extended : changesets <+: later) : Past env initial earlier state' later := by
  obtain ⟨s,read,first⟩ := past.ledger
  obtain ⟨graph,before,replayed,start⟩ := past.history
  exact ⟨⟨s,read,first.trans grown⟩,⟨graph,before,replayed,start.trans extended⟩⟩

-- The graph, its history and the ledger agree.
structure Agreed (env : WriteEnv) (config : ProjectConfig SourceRoles) (initial : IntentGraph) (contents : Contents) (graph : IntentGraph)
    (changesets : List ChangeSet) (state : LedgerState) : Prop where
  replayed : Replayed env initial contents graph changesets
  clean : Unbroken ((IntentGraph.codec env.lax).dump graph)
  closed : LedgerReader.pending (contents "history") = []
  ledger : IntentProposalStore.decode env.lax (ledgerOf contents) = some state
  unbound : ∀ p ∈ state.proposals, p.1.kind = .bootstrap → p.1.binding = none
  enacted : ∀ d ∈ state.decisions, enacts d = true →
    ∃ a selected at', Enacted config.localActor state changesets a selected at' ∧ a.decision = d
  ordered : (state.decisions.filter enacts).Pairwise fun d e => d.1.baselineGraphVersion < e.1.baselineGraphVersion

structure Kept (env : WriteEnv) (c : Coordinator) (config : ProjectConfig SourceRoles) (initial : IntentGraph) (w : World)
    (contents : Contents) (graph : IntentGraph) (changesets : List ChangeSet) (state : LedgerState) : Prop where
  settled : effective c w.disk = some contents
  agreed : Agreed env config initial contents graph changesets state
  past : ∀ earlier ∈ w.past, Past env initial earlier state changesets

section Steps
variable {env : WriteEnv} {c : Coordinator} {config : ProjectConfig SourceRoles} {initial : IntentGraph}

-- A committed change set is the next one of the history.
theorem commits_replayed {contents ends : Contents} (replayed : Replayed env initial contents graph changesets)
    (clean : Unbroken ((IntentGraph.codec env.lax).dump graph)) (closed : LedgerReader.pending (contents "history") = [])
    (plain : Unbroken ((ChangeSet.codec env.lax true).dump changeset)) (commits : Commits env changeset contents ends) :
    ∃ next, Applier.applyWithCaseEffects graph changeset = .ok next ∧ Replayed env initial ends next (changesets ++ [changeset]) ∧
      Unbroken ((IntentGraph.codec env.lax).dump next) ∧ LedgerReader.pending (ends "history") = [] := by
  obtain ⟨next,all,again,clean',closed'⟩ := commits_settled ⟨graph,changesets,replayed,clean,closed⟩ plain commits
  have whole : all = changesets ++ [changeset] := by
    obtain ⟨_,_,_,_,_,grown⟩ := commits
    have appended : ends "history" = LedgerReader.append (contents "history") ((ChangeSet.codec env.lax true).dump changeset) := grown
    obtain ⟨n,shown,read⟩ := (HistoryStore.reader env.lax).read_append replayed.history
      (HistoryStore.dump_changeset env.lax changeset) ((ChangeSet.codec env.lax true).formed changeset)
      (by simp [closed,Json.Blank]) ⟨plain,.inl rfl⟩
    have both := again.history
    rw [appended,HistoryStore.rebuild,read] at both
    exact Except.ok.inj (both.symm.trans (HistoryStore.record_changeset env.lax changesets n changeset))
  subst whole
  have applied := again.replay
  rw [List.foldlM_append,replayed.replay] at applied
  refine ⟨next,?_,again,clean',closed'⟩
  cases outcome : Applier.applyWithCaseEffects graph changeset with
  | error e => simp [outcome,bind,Except.bind] at applied
  | ok reached => simpa [outcome,bind,Except.bind,pure,Except.pure] using applied

theorem replayed_same {contents ends : Contents} (replayed : Replayed env initial contents graph changesets)
    (same : ends "graph" = contents "graph" ∧ ends "history" = contents "history") : Replayed env initial ends graph changesets := by
  refine ⟨?_,?_,replayed.replay,replayed.version,replayed.baselines⟩
  · rw [same.1]
    exact replayed.stored
  · rw [same.2]
    exact replayed.history

-- What another writer leaves is in agreement if what it found was.
theorem foreign_agreed {before after : Contents} (agreed : Agreed env config initial before graph changesets state)
    (other : Foreign env before after) : ∃ graph' later state', Agreed env config initial after graph' later state' ∧
      Grown state state' ∧ changesets <+: later := by
  obtain ⟨state',proposals,decisions,read,more,decided,unbound,foreign⟩ := other.ledger state agreed.ledger
  have grown : Grown state state' := ⟨⟨proposals,more.symm⟩,⟨decisions,decided.symm⟩⟩
  have silent : decisions.filter enacts = [] := List.filter_eq_nil_iff.mpr fun d member => by simp [foreign d member]
  have plain : ∀ p ∈ state'.proposals, p.1.kind = .bootstrap → p.1.binding = none := by
    intro p member
    rw [more] at member
    rcases List.mem_append.mp member with old | new
    · exact agreed.unbound p old
    · exact unbound p new
  have standing (later : List ChangeSet) (extended : changesets <+: later) : ∀ d ∈ state'.decisions, enacts d = true →
      ∃ a selected at', Enacted config.localActor state' later a selected at' ∧ a.decision = d := by
    intro d member second
    rw [decided] at member
    rcases List.mem_append.mp member with old | new
    · obtain ⟨a,selected,at',enacted,same⟩ := agreed.enacted d old second
      exact ⟨a,selected,at',enacted.later grown extended,same⟩
    · rw [foreign d new] at second
      cases second
  have ordered : (state'.decisions.filter enacts).Pairwise fun d e => d.1.baselineGraphVersion < e.1.baselineGraphVersion := by
    rw [decided,List.filter_append,silent,List.append_nil]
    exact agreed.ordered
  rcases other.graph with same | ⟨changeset,clean,commits⟩
  · refine ⟨graph,changesets,state',⟨replayed_same agreed.replayed same,agreed.clean,?_,read,plain,
      standing changesets (List.prefix_refl _),ordered⟩,grown,List.prefix_refl _⟩
    rw [same.2]
    exact agreed.closed
  · obtain ⟨next,_,replayed,clean',closed'⟩ := commits_replayed agreed.replayed agreed.clean agreed.closed clean commits
    have extended : changesets <+: changesets ++ [changeset] := List.prefix_append _ _
    exact ⟨next,_,state',⟨replayed,clean',closed',read,plain,standing _ extended,ordered⟩,grown,extended⟩

-- A proposal that is put into the ledger is new there.
theorem propose_agreed {contents ends listed taken : Contents} {s : BootstrapSubmission} {principals : List String}
    (agreed : Agreed env config initial contents graph changesets state) (steady : listed "intent_proposals" = taken "intent_proposals")
    (proposes : Proposes env config s principals seen listed taken p script) (performed : script.perform c contents = some ends) :
    Agreed env config initial ends graph changesets (state.extend (.proposal p)) := by
  obtain ⟨found,fresh⟩ : contents "intent_proposals" = some (ledgerOf taken) ∧
      ends = Script.put "intent_proposals" (ledgerOf taken ++ frame env (ledgerOf taken) (.proposal p)) contents := by
    rw [proposes.script] at performed
    exact propose_performed performed
  subst fresh
  have ledger : ledgerOf contents = ledgerOf taken := by simp [ledgerOf,found]
  have new : state.proposal p.1.id = none := by
    obtain ⟨earlier,read,absent⟩ := proposes.fresh
    have same : ledgerOf listed = ledgerOf taken := by simp [ledgerOf,steady]
    rw [same,←ledger,agreed.ledger] at read
    cases read
    exact absent
  obtain ⟨_,changeset,_,_,built⟩ := proposes.validated
  obtain ⟨id,shape⟩ := proposal_some built
  have plain : p.1.binding = none := by rw [shape]
  have read := proposed_readable agreed.ledger plain
  rw [if_pos new,ledger] at read
  refine ⟨replayed_same agreed.replayed ⟨rfl,rfl⟩,agreed.clean,agreed.closed,?_,?_,?_,agreed.ordered⟩
  · simpa [ledgerOf,Script.put] using read
  · intro q member
    rcases List.mem_append.mp member with old | last
    · exact agreed.unbound q old
    · rw [List.mem_singleton.mp last]
      exact fun _ => plain
  · intro d member second
    obtain ⟨a,selected,at',enacted,same⟩ := agreed.enacted d member second
    exact ⟨a,selected,at',enacted.later (Grown.extend _ _) (List.prefix_refl _),same⟩

-- A proposal that was once in the ledger is there now.
theorem got_found {earlier : Contents} {id : String} (past : Past env initial earlier state changesets)
    (found : ∃ s, IntentProposalStore.decode env.lax (ledgerOf earlier) = some s ∧ s.proposal id = some p) :
    state.proposal id = some p := by
  obtain ⟨s,read,grown⟩ := past.ledger
  obtain ⟨s',read',found⟩ := found
  rw [read] at read'
  cases read'
  exact grown.proposal found

-- What a committed activation leaves is in agreement.
theorem activate_agreed {contents ends : Contents} {call : ActivationCall} {reads : ActivationReads} {graph next : IntentGraph}
    (agreed : Agreed env config initial contents graph changesets state) (past : Past env initial reads.got state changesets)
    (steady : reads.asked "intent_proposals" = reads.taken "intent_proposals")
    (prepared : Prepared env config call reads a request)
    (plain : Unbroken ((ChangeSet.codec env.lax true).dump a.changeset))
    (accepts : Accepts env a (ledgerOf reads.taken) contents graph' next)
    (left : ends = activatedContents env a (ledgerOf reads.taken) next contents) :
    ∃ next, Agreed env config initial ends next (changesets ++ [a.changeset]) (state.extend (.decision a.decision)) := by
  obtain ⟨at',planned⟩ := plan_iff.mp prepared.planned
  obtain ⟨proposalId,digest,actor,time,baseline,form⟩ := decision_some planned.decision
  have named : a.proposal.1.id = call.proposalId := by
    obtain ⟨s,_,found⟩ := planned.found
    exact (LedgerState.proposal_found found).2
  have there : state.proposal a.proposal.1.id = some a.proposal := by
    rw [named]
    exact got_found past planned.found
  have ledger : ledgerOf contents = ledgerOf reads.taken := by simp [ledgerOf,accepts.ledger]
  have undecided : state.decision a.proposal.1.id = none := by
    have asked := prepared.undecided
    have same : ledgerOf reads.asked = ledgerOf contents := by
      rw [ledger]
      simp [ledgerOf,steady]
    rw [decisionFor,same,agreed.ledger,Option.bind_some,there] at asked
    simpa using asked
  have current : graph' = graph := Option.some.inj (accepts.parsed.symm.trans agreed.replayed.stored)
  subst current
  have alone : a.proposal.1.binding = none := agreed.unbound _ (LedgerState.proposal_found there).1 (activatable_kind planned.activatable)
  have activates := activationChangeset_some planned.changeset
  have commits : Commits env a.changeset contents ends :=
    ⟨graph',next,accepts.parsed,accepts.applied,by rw [left]; rfl,by rw [left]; rfl⟩
  obtain ⟨next',_,replayed,clean,closed⟩ := commits_replayed agreed.replayed agreed.clean agreed.closed plain commits
  have read := decided_readable agreed.ledger (proposalId ▸ there)
    (by simp [Replay.decides,digest,baseline]) form
  rw [if_pos ⟨alone,proposalId ▸ undecided⟩,ledger] at read
  -- the new change set stands where the baseline of its proposal says
  have place : a.proposal.1.baselineGraphVersion = (changesets.length : Int) := by
    obtain ⟨admitted,_⟩ := Applier.applied_declared.mp accepts.applied
    rw [←activates.baseline,admitted.baseline,agreed.replayed.version]
  have enacted : Enacted config.localActor (state.extend (.decision a.decision)) (changesets ++ [a.changeset]) a call.confirmedNodeIds at' := by
    refine ⟨(Grown.extend _ _).proposal there,planned.selectable,planned.activatable,?_,?_,?_⟩
    · rw [←planned.local']
      exact planned.changeset
    · rw [←planned.local']
      exact planned.decision
    · rw [place]
      simp
  refine ⟨next',replayed,clean,closed,?_,agreed.unbound,?_,?_⟩
  · rw [left]
    simpa [ledgerOf,activatedContents,Script.put] using read
  · intro d member second
    rcases List.mem_append.mp member with old | last
    · obtain ⟨b,selected,moment,before,same⟩ := agreed.enacted d old second
      exact ⟨b,selected,moment,before.later (Grown.extend _ _) (List.prefix_append _ _),same⟩
    · rw [List.mem_singleton.mp last]
      exact ⟨a,call.confirmedNodeIds,at',enacted,rfl⟩
  · have second : enacts a.decision = true := by simp [enacts,form]
    rw [LedgerState.extend_decisions,List.filter_append,List.filter_cons_of_pos second,List.filter_nil]
    apply List.pairwise_append.mpr
    refine ⟨agreed.ordered,List.pairwise_singleton _ _,?_⟩
    intro d member e last
    obtain ⟨inside,enacting⟩ := List.mem_filter.mp member
    obtain ⟨b,selected,moment,before,rfl⟩ := agreed.enacted d inside enacting
    rw [List.mem_singleton.mp last,baseline,place,(decision_some before.decision).2.2.2.2.1]
    have within := (List.getElem?_eq_some_iff.mp before.stored).1
    have natural := (activationChangeset_some before.changeset).baseline
    omega

theorem step_kept {w next : World} (known : ∀ name ∈ requiredTargets, name ∈ c.targets)
    (kept : Kept env c config initial w contents graph changesets state) (step : Step env c config w next) :
    ∃ contents graph changesets state, Kept env c config initial next contents graph changesets state := by
  have extended {ends : Contents} {graph' : IntentGraph} {later : List ChangeSet} {state' : LedgerState}
      (agreed : Agreed env config initial ends graph' later state') (grown : Grown state state') (more : changesets <+: later) :
      ∀ earlier ∈ ends :: w.past, Past env initial earlier state' later := by
    intro earlier member
    rcases List.mem_cons.mp member with rfl | old
    · exact ⟨⟨state',agreed.ledger,Grown.refl _⟩,⟨graph',later,agreed.replayed,List.prefix_refl _⟩⟩
    · exact (kept.past earlier old).later grown more
  cases step with
  | @foreign before after disk settled left other =>
    have same : before = contents := Option.some.inj (settled.symm.trans kept.settled)
    subst same
    obtain ⟨graph',later,state',agreed,grown,more⟩ := foreign_agreed kept.agreed other
    exact ⟨after,graph',later,state',left,agreed,extended agreed grown more⟩
  | @propose s principals seen listed taken p script transactionId schedule result after ends inPast steady prepared quiet ran left =>
    have proposes := prepareProposal_submit prepared
    have lands : Lands c (fun ends => script.perform c contents = some ends) contents result after.state := by
      have shape := proposes.script
      subst shape
      exact script_lands kept.settled quiet ran
    rcases lands with ⟨_,still⟩ | ⟨_,found,performed,reached⟩
    · have same : ends = contents := Option.some.inj (left.symm.trans still)
      subst same
      exact ⟨ends,graph,changesets,state,left,kept.agreed,extended kept.agreed (Grown.refl _) (List.prefix_refl _)⟩
    · have same : ends = found := Option.some.inj (left.symm.trans reached)
      subst same
      have agreed := propose_agreed kept.agreed steady proposes performed
      exact ⟨ends,graph,changesets,_,left,agreed,extended agreed (Grown.extend _ _) (List.prefix_refl _)⟩
  | @activate call reads a request transactionId schedule result after ends inPast steady prepared plain quiet ran left =>
    have prepared := prepareActivation_apply.mp prepared
    obtain ⟨at',planned⟩ := plan_iff.mp prepared.planned
    have caseless := (activationChangeset_some planned.changeset).caseless
    have shape := prepared.request
    subst shape
    rcases activation_lands known caseless kept.settled quiet ran with ⟨_,still⟩ | ⟨_,found,⟨graph',next,accepts,made⟩,reached⟩
    · have same : ends = contents := Option.some.inj (left.symm.trans still)
      subst same
      exact ⟨ends,graph,changesets,state,left,kept.agreed,extended kept.agreed (Grown.refl _) (List.prefix_refl _)⟩
    · have same : ends = found := Option.some.inj (left.symm.trans reached)
      subst same
      obtain ⟨next',agreed⟩ := activate_agreed kept.agreed (kept.past _ inPast) steady prepared plain accepts made
      exact ⟨ends,next',_,_,left,agreed,extended agreed (Grown.extend _ _) (List.prefix_append _ _)⟩

end Steps

-- A repository as `initialize` leaves it, with no proposal yet.
structure Begun (env : WriteEnv) (c : Coordinator) (initial : IntentGraph) (w : World) : Prop where
  initialised : Initialised env c initial w.disk
  ledger : ledgerOf w.disk.targets = []
  past : w.past = [w.disk.targets]

section Runs
variable {env : WriteEnv} {c : Coordinator} {config : ProjectConfig SourceRoles} {initial : IntentGraph} {start w : World}

theorem begun_kept (begun : Begun env c initial start) :
    ∃ contents graph changesets state, Kept env c config initial start contents graph changesets state := by
  obtain ⟨graph,changesets,replayed,clean,closed⟩ := initialised_settled begun.initialised
  have empty : IntentProposalStore.decode env.lax (ledgerOf start.disk.targets) = some LedgerState.empty := by
    rw [begun.ledger]
    rfl
  have agreed : Agreed env config initial start.disk.targets graph changesets LedgerState.empty :=
    ⟨replayed,clean,closed,empty,by simp [LedgerState.empty],by simp [LedgerState.empty],by simp [LedgerState.empty]⟩
  refine ⟨_,graph,changesets,_,effective_none begun.initialised.closed,agreed,?_⟩
  rw [begun.past]
  intro earlier member
  rw [List.mem_singleton.mp member]
  exact ⟨⟨_,empty,Grown.refl _⟩,⟨graph,changesets,replayed,List.prefix_refl _⟩⟩

theorem reached_kept (known : ∀ name ∈ requiredTargets, name ∈ c.targets) (begun : Begun env c initial start)
    (reached : Reached env c config start w) :
    ∃ contents graph changesets state, Kept env c config initial w contents graph changesets state := by
  induction reached with
  | refl => exact begun_kept begun
  | step earlier step ih =>
    obtain ⟨contents,graph,changesets,state,kept⟩ := ih
    exact step_kept known kept step

end Runs

end BootstrapService
