import IntentEngineering.Stores.CaseLifecycle
import IntentEngineering.Workflow.BootstrapAttained

open Schema JsonLines LocalTransaction Interrupt

-- Whatever has one of these values has an equal one.
@[simp] theorem Confidence.equal_self (a : Confidence) : a.equal a = true := by
  obtain ⟨x,valid⟩ := a
  cases x with
  | finite x => simp [Confidence.equal,Json.floatAmount,Json.Amount.equal]
  | infinite negative => cases valid
  | nan => cases valid

theorem equalOptions_self {equal : α → α → Bool} (same : ∀ a, equal a a = true) (o : Option α) : equalOptions equal o o = true := by
  cases o with
  | none => rfl
  | some a => exact same a

theorem equalLists_self {equal : α → α → Bool} (same : ∀ a, equal a a = true) (xs : List α) : equalLists equal xs xs = true := by
  induction xs with
  | nil => rfl
  | cons x xs ih => simp [equalLists,same x,ih]

theorem Node.equal_self (n : Node) : n.equal n = true := by
  simp [Node.equal,equalOptions_self Confidence.equal_self,equalOptions_self DateTime.same_self]

theorem Edge.equal_self (e : Edge) : e.equal e = true := by simp [Edge.equal]

theorem DecisionDraft.equal_self (d : DecisionDraft) : d.equal d = true := by simp [DecisionDraft.equal]

theorem ChangeSet.equal_self (changeset : ChangeSet) : changeset.equal changeset = true := by
  have updates := @equalLists_self NodeUpdate (fun u v => u.nodeId == v.nodeId && u.replacement.equal v.replacement)
    (by simp [Node.equal_self]) changeset.1.nodesUpdated
  have updates' := @equalLists_self EdgeUpdate (fun u v => u.edgeId == v.edgeId && u.replacement.equal v.replacement)
    (by simp [Edge.equal_self]) changeset.1.edgesUpdated
  have reassessed : ∀ c : ConfidenceChange, c.equal c = true := by simp [ConfidenceChange.equal]
  have reclaimed : ∀ c : ImplementationStatusChange, c.equal c = true := by simp [ImplementationStatusChange.equal]
  simp [ChangeSet.equal,equalLists_self Node.equal_self,equalLists_self Edge.equal_self,updates,updates',
    equalLists_self reassessed,equalLists_self reclaimed]

namespace BootstrapService

theorem decision_found {state : LedgerState} {id : String} (found : state.decision id = some d) :
    d ∈ state.decisions ∧ d.1.proposalId = id := by
  refine ⟨List.mem_of_find?_eq_some found,?_⟩
  simpa using List.find?_some found

section Safety
variable {env : WriteEnv} {c : Coordinator} {config : ProjectConfig SourceRoles} {initial : IntentGraph} {start w : World}

end Safety

section Note

theorem note_time (minutes : Nat) : DateTime.Valid 2026 2 3 8 (minutes % 60) 0 0 (some 0) :=
  ⟨by decide,by decide,by decide,⟨by decide,Nat.mod_lt _ (by decide),by decide,by decide⟩,by decide⟩

def noteTime (minutes : Nat) : UtcTime := ⟨⟨2026,2,3,8,minutes % 60,0,0,some 0,note_time minutes⟩,rfl⟩

theorem nothing_formed : (Json.obj []).WellFormed := by decide

-- A fresh repository in which one note has been captured.
def note : EvidenceRecord :=
  ⟨"evidence:1","markdown","notes.md","1",some "carol",(noteTime 0).1,"notes.md","sha256:1",⟨[],nothing_formed⟩,none,["ada"]⟩

theorem note_named : connectorText "markdown" = true := by decide
theorem note_first : 1 ≤ 1 := Nat.le_refl 1

def noteItem : EvidenceIngestion := ⟨"markdown",1,none,note,note_named,note_first⟩

def noteRole : SourceRoleAssignment := ⟨"markdown","notes.md",.proposedIntent,false⟩

theorem noteRole_bounds : ∀ role ∈ [noteRole], role.bounds = true := by decide

def noteRoles : SourceRoles := ⟨[noteRole],List.pairwise_singleton _ _,List.nodup_singleton _,noteRole_bounds⟩

def noteConfig : ProjectConfig SourceRoles := ⟨"fresh",".intent/graph.yaml","ada",[],true,false,noteRoles,.defaults⟩

def noteNode : Node :=
  ⟨"need:1","NEED","read later","proposed","agent",(noteTime 1).1,"agent",(noteTime 1).1,some .inferred,some certain,some "the note",
    some (noteTime 1).1,none,["evidence:1"]⟩

def noteDraft : SubmissionDraft := ⟨0,"agent",noteTime 1,["evidence:1"],noteRoles,[noteNode],[],["need:1"],[],[],[],[],false⟩

theorem note_valid : noteDraft.valid = true := by decide
def noteSubmission : BootstrapSubmission := ⟨noteDraft,note_valid⟩

def noteContents : Contents := fun name =>
  if name = "evidence" then LedgerReader.append none ((EvidenceEntry.association noteItem).dump plainEnv.lax)
  else if name = "intent_proposals" then some []
  else freshDisk.targets name

def noteStart : World := ⟨⟨none,noteContents,false⟩,[noteContents]⟩

theorem note_begun : Begun plainEnv runtimeCoordinator freshGraph noteStart := by
  refine ⟨⟨rfl,?_,?_,rfl,fresh_initialised.plain⟩,?_,rfl⟩
  · simpa [noteStart,noteContents] using fresh_graph
  · simpa [noteStart,noteContents] using fresh_history
  · simp [noteStart,noteContents,ledgerOf]

def noteFound : Snapshot := ⟨freshGraph,EvidenceIndex.empty.add (.association noteItem)⟩

theorem note_graph {contents : Contents} (same : contents "graph" = noteContents "graph") :
    (contents "graph").bind (GraphStore.parseGraph plainEnv.lax plainEnv.yaml) = some freshGraph := by
  have stored : noteContents "graph" = freshDisk.targets "graph" := by simp [noteContents]
  rw [same,stored,fresh_graph,Option.bind_some]
  exact GraphStore.parse_serialized _ _ _ fresh_initialised.plain

theorem note_snapshot (same : contents "graph" = noteContents "graph") (same' : contents "evidence" = noteContents "evidence") :
    snapshot plainEnv contents = some noteFound := by
  have evidence : EvidenceStore.parseEvidenceLines plainEnv.lax (contents "evidence") = .ok noteFound.evidence := by
    have plain : Unbroken ((EvidenceEntry.association noteItem).dump canonicalOnly) ∧
        Json.allFinite ((EvidenceEntry.association noteItem).dump canonicalOnly) = true := by decide
    obtain ⟨n,shown,read⟩ := (EvidenceStore.reader plainEnv.lax).read_append (EvidenceStore.reader plainEnv.lax).read_none
      ((EvidenceStore.dump_entry plainEnv.lax (.association noteItem)).imp fun _ found => found.1) (EvidenceStore.formed_entry plainEnv.lax _)
      (by decide) ⟨plain.1,.inr plain.2⟩
    rw [same']
    exact read.trans (EvidenceStore.record_entry plainEnv.lax .empty n (.association noteItem) (by decide) rfl)
  unfold snapshot
  simp only [note_graph same,evidence,Except.toOption,Option.bind_eq_bind,Option.bind_some]
  rfl

theorem note_validated : ∃ changeset, validateSubmission noteConfig noteSubmission.1 noteFound ["ada"] = some changeset := by
  apply (validateSubmission_fresh rfl (by decide) (by decide) (by decide) (by decide)).mpr
  decide

theorem note_proposed : ∃ p w, Reached plainEnv runtimeCoordinator noteConfig noteStart w ∧
    effective runtimeCoordinator w.disk = some (proposedContents plainEnv p noteContents) ∧
    Awaits plainEnv noteConfig w (proposedContents plainEnv p noteContents) noteSubmission p ∧
    proposedContents plainEnv p noteContents ∈ w.past := by
  obtain ⟨changeset,validated⟩ := note_validated
  obtain ⟨p,built⟩ := proposal_total noteSubmission.1 changeset
  have found := note_snapshot rfl rfl
  have settled : effective runtimeCoordinator noteStart.disk = some noteContents := effective_none rfl
  have empty : IntentProposalStore.decode plainEnv.lax (ledgerOf noteContents) = some LedgerState.empty := by
    have nothing : ledgerOf noteContents = [] := note_begun.ledger
    rw [nothing]
    rfl
  have known : ∀ name ∈ requiredTargets, name ∈ runtimeCoordinator.targets := by decide
  obtain ⟨quiet,after,ran,left⟩ := submission_runs known settled (by simp [noteContents]) p ""
  have alone : p.1.binding = none := by
    obtain ⟨id,shape⟩ := proposal_some built
    rw [shape]
  have read := proposed_readable empty alone
  have absent : LedgerState.empty.proposal p.1.id = none := rfl
  rw [if_pos absent] at read
  refine ⟨p,⟨after,proposedContents plainEnv p noteContents :: noteStart.past⟩,?_,left,?_,List.mem_cons_self⟩
  · apply Reached.step .refl
    exact .propose (List.mem_singleton_self _) rfl
      (submission_prepared (by decide) ⟨noteFound,changeset,found,validated,built⟩ ⟨_,empty,rfl⟩) quiet ran left
  · refine ⟨⟨noteContents,?_,noteFound,changeset,_,found,validated,built⟩,⟨LedgerState.empty.extend (.proposal p),?_,?_,rfl⟩,?_,rfl,rfl,?_⟩
    · exact List.mem_cons_of_mem _ (List.mem_singleton_self _)
    · simpa [proposedContents,ledgerOf,Script.put] using read
    · simp [LedgerState.proposal,LedgerState.empty]
    · exact ⟨freshGraph,note_graph rfl,rfl⟩
    · intro e member
      cases member

theorem note_confirms {changeset : ChangeSet} {p : IntentProposal} (built : proposal noteSubmission.1 changeset = some p) :
    Confirms plainEnv noteConfig (proposedContents plainEnv p noteContents) p ⟨p.1.id,["need:1"],"ada",(noteTime 2).1⟩ (noteTime 2) := by
  obtain ⟨id,shape⟩ := proposal_some built
  have times : (noteTime 1).1.instant ≤ (noteTime 2).1.instant := by decide
  have allowed : refsAllowed ["evidence:1"] noteFound.evidence.records ["ada"] = true := by decide
  refine ⟨rfl,rfl,⟨rfl,?_⟩,rfl,?_,noteFound,note_snapshot rfl rfl,?_⟩
  · rw [shape]
    exact times
  · rw [shape]
    exact fun _ member => member
  · rw [shape]
    exact allowed


theorem note_changeset_plain {made : ChangeSet} (built : proposal noteSubmission.1 changeset = some p)
    (validated : Validated noteSubmission.1 graph changeset)
    (activated : activationChangeset p.1 ["need:1"] "ada" (noteTime 2) = some made) :
    Unbroken ((ChangeSet.codec plainEnv.lax true).dump made) := by
  obtain ⟨id,shape⟩ := proposal_some built
  have activated' := activated
  rw [shape] at activated'
  unfold activationChangeset at activated'
  have nodes : changeset.1.nodesAdded = [noteNode] := congrArg ChangeSetDraft.nodesAdded validated.built
  have edges : changeset.1.edgesAdded = [] := congrArg ChangeSetDraft.edgesAdded validated.built
  dsimp only at activated'
  rw [if_neg (by decide)] at activated'
  refine identified_unbroken activated' (by decide) ?_
  simp only [selectedNodes,selectedEdges,nodes,edges,List.filter_nil,List.map_nil]
  decide


-- The note is proposed, and the need in it is activated.
theorem note_decided : ∃ w contents state id d, Reached plainEnv runtimeCoordinator noteConfig noteStart w ∧
    effective runtimeCoordinator w.disk = some contents ∧ IntentProposalStore.decode plainEnv.lax (ledgerOf contents) = some state ∧
    state.decision id = some d ∧ enacts d = true := by
  have known : ∀ name ∈ requiredTargets, name ∈ runtimeCoordinator.targets := by decide
  obtain ⟨p,w,reached,settled,awaits,inPast⟩ := note_proposed
  obtain ⟨_,graph,changesets,state,kept⟩ := reached_kept known note_begun reached
  obtain rfl := Option.some.inj (settled.symm.trans kept.settled)
  obtain ⟨seen,_,found,changeset,principals,shot,validated,built⟩ := awaits.validated
  have cases' : ∃ versions, CaseStore.parseVersions plainEnv.lax (proposedContents plainEnv p noteContents "cases") = .ok versions := ⟨_,rfl⟩
  obtain ⟨after,ends,state',d,step,left,read,decided,second⟩ := awaiting_step known kept inPast awaits (note_confirms built) cases'
    fun made activated => note_changeset_plain built (validateSubmission_some validated) activated
  exact ⟨_,ends,state',p.1.id,d,reached.step step,left,read,decided,second⟩

end Note

section Safety
variable {env : WriteEnv} {c : Coordinator} {config : ProjectConfig SourceRoles} {initial : IntentGraph} {start w : World}

-- The graph that an enacted decision left is still there as long as its version is.
theorem enacted_graph {contents : Contents} (replayed : Replayed env initial contents graph changesets)
    (stored : changesets[n]? = some changeset) (current : graph.1.version = n + 1) :
    ∃ before, Applier.applyWithCaseEffects before changeset = .ok graph := by
  obtain ⟨within,here⟩ := List.getElem?_eq_some_iff.mp stored
  have last : changesets = changesets.take n ++ [changeset] := by
    have all : n + 1 = changesets.length := by rw [←current,replayed.version]
    have whole := List.take_append_getElem within
    rw [all,List.take_length,here] at whole
    exact whole.symm
  have replay := replayed.replay
  rw [last,List.foldlM_append] at replay
  cases first : (changesets.take n).foldlM Applier.applyWithCaseEffects initial with
  | error e => simp [first,bind,Except.bind] at replay
  | ok before =>
    refine ⟨before,?_⟩
    cases outcome : Applier.applyWithCaseEffects before changeset with
    | error e => simp [first,outcome,bind,Except.bind] at replay
    | ok reached => simpa [first,outcome,bind,Except.bind,pure,Except.pure] using replay

-- The replay of an enacted activation finds the graph, until the next change set.
theorem enacted_replay {contents : Contents} {state : LedgerState} (replayed : Replayed env initial contents graph changesets)
    (enacted : Enacted actor state changesets a selected at') :
    replayResult env a a.decision contents contents =
      if (graph.1.version : Int) = a.proposal.1.baselineGraphVersion + 1 then some graph else none := by
  have form := (decision_some enacted.decision).2.2.2.2.2
  have activates := activationChangeset_some enacted.changeset
  have natural := activates.baseline
  by_cases current : (graph.1.version : Int) = a.proposal.1.baselineGraphVersion + 1
  · rw [if_pos current]
    obtain ⟨before,applied⟩ := enacted_graph replayed enacted.stored (by omega)
    have effected := Applier.applied_effected applied
    -- a decision names a node
    have solid : a.changeset.1.addedNodes ≠ [] := by
      have valid := a.decision.2
      simp only [DecisionDraft.valid,DecisionDraft.validForm,form,Bool.and_eq_true,Bool.not_eq_true',List.isEmpty_eq_false_iff] at valid
      exact valid.1.1.1.1
    obtain ⟨first,rest,nodes⟩ : ∃ first rest, a.changeset.1.nodesAdded = first :: rest := by
      apply List.exists_cons_of_ne_nil
      intro empty
      exact solid (by simp [ChangeSetDraft.addedNodes,empty])
    have history : HistoryStore.history env.lax (contents "history") first.id =
        .ok (changesets.filter fun changeset => (HistoryStore.subjects changeset).contains first.id) := by
      rw [HistoryStore.history,replayed.history]
      rfl
    have traced : (changesets.filter fun changeset => (HistoryStore.subjects changeset).contains first.id).any a.changeset.equal = true := by
      apply List.any_eq_true.mpr
      refine ⟨a.changeset,List.mem_filter.mpr ⟨List.mem_of_getElem? enacted.stored,?_⟩,ChangeSet.equal_self _⟩
      simp [HistoryStore.subjects,ChangeSetDraft.addedNodes,nodes]
    have nodesThere : a.changeset.1.nodesAdded.all
        (fun n => (Keyed.find Node.id graph.1.nodes n.id).any fun current => current.equal n) = true := by
      apply List.all_eq_true.mpr
      intro n inside
      have found : Keyed.find Node.id graph.1.nodes n.id = some n := effected.nodesAdded n inside
      rw [found]
      exact Node.equal_self n
    have edgesThere : a.changeset.1.edgesAdded.all
        (fun e => (Keyed.find Edge.id graph.1.edges e.id).any fun current => current.equal e) = true := by
      apply List.all_eq_true.mpr
      intro e inside
      rw [effected.edgesAdded e inside]
      exact Edge.equal_self e
    have head : a.changeset.1.nodesAdded.head? = some first := by rw [nodes]; rfl
    have fits : ¬(a.decision.1.equal a.decision.1 = false ∨
        a.decision.1.form ≠ .second a.changeset.1.addedNodes a.changeset.1.id ∨
        (graph.1.version : Int) ≠ a.proposal.1.baselineGraphVersion + 1) := by
      simp [DecisionDraft.equal_self,form,current]
    unfold replayResult
    simp only [replayed.stored,Option.bind_eq_bind,Option.bind_some,if_neg fits,head,history,Except.toOption,traced,Bool.not_true,
      Bool.false_eq_true,if_false,nodesThere,edgesThere,Bool.and_self,if_true]
    rfl
  · rw [if_neg current]
    unfold replayResult
    simp [replayed.stored,current]

-- The look at the ledger and the frame behind it are not one step. A frame that
-- was committed leaves the ledger readable exactly if the ledger that it was put
-- behind holds no such proposal, or no decision on it.
theorem commits_readable (known : ∀ name ∈ requiredTargets, name ∈ c.targets) (begun : Begun env c initial start)
    (reached : Reached env c config start w) :
    ∃ contents state, effective c w.disk = some contents ∧ IntentProposalStore.decode env.lax (ledgerOf contents) = some state ∧
      (∀ s principals seen listed taken p script transactionId schedule after ends,
        prepareProposal env config s principals seen listed taken = some (.submit p script) →
        LocalChangeSetExecutor.guardCancellation c true (transaction c true transactionId script.body) ⟨w.disk,schedule⟩ = (.ok (),after) →
        effective c after.state = some ends →
        ((IntentProposalStore.decode env.lax (ledgerOf ends)).isSome = true ↔ state.proposal p.1.id = none)) ∧
      ∀ call reads a request transactionId schedule after ends, reads.got ∈ w.past →
        prepareActivation env config call reads = some (.apply a request) →
        LocalChangeSetExecutor.apply env c transactionId request ⟨w.disk,schedule⟩ = (.ok (),after) →
        effective c after.state = some ends →
        ((IntentProposalStore.decode env.lax (ledgerOf ends)).isSome = true ↔ state.decision a.proposal.1.id = none) := by
  obtain ⟨contents,graph,changesets,state,kept⟩ := reached_kept known begun reached
  have agreed := kept.agreed
  refine ⟨contents,state,kept.settled,agreed.ledger,?_,?_⟩
  · intro s principals seen listed taken p script transactionId schedule after ends prepared ran left
    have proposes := prepareProposal_submit prepared
    have performed := returned_performed kept.settled ran left
    rw [proposes.script] at performed
    obtain ⟨found,rfl⟩ := propose_performed performed
    obtain ⟨_,changeset,_,_,built⟩ := proposes.validated
    obtain ⟨id,shape⟩ := proposal_some built
    have alone : p.1.binding = none := by rw [shape]
    have ledger : ledgerOf contents = ledgerOf taken := by simp [ledgerOf,found]
    have read := proposed_readable agreed.ledger alone
    rw [ledger] at read
    simp only [ledgerOf,Script.put,if_true,Option.getD_some] at read ⊢
    rw [read]
    split <;> simp_all
  · intro call reads a request transactionId schedule after ends inPast prepared ran left
    have prepared := prepareActivation_apply.mp prepared
    obtain ⟨at',planned⟩ := plan_iff.mp prepared.planned
    have shape := prepared.request
    subst shape
    rw [activation_act known (activationChangeset_some planned.changeset).caseless] at ran
    obtain ⟨graph',next,accepts,rfl⟩ := (activation_performed known).mp (returned_performed kept.settled ran left)
    obtain ⟨proposalId,digest,_,_,baseline,form⟩ := decision_some planned.decision
    have there : state.proposal a.proposal.1.id = some a.proposal := by
      obtain ⟨earlier,_,found⟩ := planned.found
      rw [(LedgerState.proposal_found found).2]
      exact got_found (kept.past _ inPast) planned.found
    have alone : a.proposal.1.binding = none := agreed.unbound _ (LedgerState.proposal_found there).1 (activatable_kind planned.activatable)
    have ledger : ledgerOf contents = ledgerOf reads.taken := by simp [ledgerOf,accepts.ledger]
    have read := decided_readable agreed.ledger (proposalId ▸ there) (by simp [Replay.decides,digest,baseline]) form
    rw [ledger,proposalId] at read
    have shown : ledgerOf (activatedContents env a (ledgerOf reads.taken) next contents) =
        ledgerOf reads.taken ++ frame env (ledgerOf reads.taken) (.decision a.decision) := by
      simp [ledgerOf,activatedContents,Script.put]
    rw [shown,read]
    split <;> simp_all

theorem note_commits_readable : ∃ (w : World) (after : Interrupt.World Disk) (request : ChangeRequest) (ends : Contents),
    LocalChangeSetExecutor.apply plainEnv runtimeCoordinator "" request ⟨w.disk,[]⟩ = (.ok (),after) ∧
    effective runtimeCoordinator after.state = some ends ∧
    (IntentProposalStore.decode plainEnv.lax (ledgerOf ends)).isSome = true := by
  have known : ∀ name ∈ requiredTargets, name ∈ runtimeCoordinator.targets := by decide
  obtain ⟨p,w,reached,settled,awaits,inPast⟩ := note_proposed
  obtain ⟨_,graph,changesets,state,kept⟩ := reached_kept known note_begun reached
  obtain rfl := Option.some.inj (settled.symm.trans kept.settled)
  obtain ⟨seen,_,found,changeset,principals,_,_,built⟩ := awaits.validated
  obtain ⟨a,next,_,same,prepared,activated,_,accepts,_⟩ := awaiting_prepared kept awaits (note_confirms built) ⟨_,rfl⟩
  obtain ⟨_,after,ran,left⟩ := activation_runs known settled (activationChangeset_some activated).caseless accepts ""
  obtain ⟨contents',state',settled',read,_,activations⟩ := commits_readable known note_begun reached
  obtain rfl := Option.some.inj (settled.symm.trans settled')
  refine ⟨w,⟨after,[]⟩,_,_,ran,left,(activations _ _ a _ "" [] _ _ inPast prepared ran left).mpr ?_⟩
  obtain ⟨state'',read',_,undecided⟩ := awaits.pending
  obtain rfl := Option.some.inj (read.symm.trans read')
  rw [same]
  exact undecided

end Safety

end BootstrapService
