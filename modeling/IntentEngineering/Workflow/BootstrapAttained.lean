import IntentEngineering.Workflow.BootstrapRuns

open Schema JsonLines LocalTransaction Interrupt

-- The names are hashes of what is named, not of the names.
theorem DecisionDraft.identified_digest (d : DecisionDraft) : d.identified.digest = d.digest := by
  obtain ⟨body,form⟩ := d
  cases form <;> rfl

theorem ProposalDraft.identified_digest (p : ProposalDraft) : p.identified.digest = p.digest := by
  obtain ⟨body,binding⟩ := p
  cases binding <;> rfl

theorem ChangeSetDraft.identified_solid (kind : String) (c : ChangeSetDraft) : (c.identified kind).id ≠ "" := by
  intro empty
  have shown := congrArg String.toList empty
  simp [identified,String.toList_append] at shown

theorem canonicalDigest_ascii (material : Json) : ∀ x ∈ (canonicalDigest material).toList, x.toNat < 128 := by
  intro x member
  rw [canonicalDigest,String.toList_append] at member
  rcases List.mem_append.mp member with label | hex
  · exact (by decide : ∀ x ∈ "sha256:".toList, x.toNat < 128) x label
  · exact hex_ascii (hexdigest_hex _) x hex

namespace BootstrapService

section Applying
variable {graph : IntentGraph} {changeset : ChangeSet}

theorem additions_valid (actor : String) (at' : UtcTime) (baselineGraphVersion : Nat) {evidenceRefs : List String} {nodes : List Node}
    {edges : List Edge} (nodesOnce : (nodes.map Node.id).Nodup) (edgesOnce : (edges.map Edge.id).Nodup) (evidenced : evidenceRefs ≠ []) :
    (additions actor at' baselineGraphVersion evidenceRefs nodes edges).validateMutations = true := by
  have given : evidenceRefs.isEmpty = false := by simpa using evidenced
  simp [additions,ChangeSetDraft.validateMutations,ChangeSetDraft.mutationSubjects,ChangeSetDraft.apart,ChangeSetDraft.addedNodes,
    ChangeSetDraft.updatedNodes,ChangeSetDraft.addedEdges,ChangeSetDraft.updatedEdges,ChangeSetDraft.reassessed,
    ChangeSetDraft.reclaimed,nodesOnce,edgesOnce,given]

-- A change set that only adds is refused for its nodes and edges alone.
structure Adds (c : ChangeSetDraft) : Prop where
  nodes : c.nodesUpdated = [] ∧ c.nodesSuperseded = []
  edges : c.edgesUpdated = [] ∧ c.edgesSuperseded = []
  changes : c.confidenceChanges = [] ∧ c.implementationStatusChanges = []

theorem adds_declared (graph : IntentGraph) (adds : Adds changeset.1) : Applier.declared graph changeset = { graph.1 with
    version := graph.1.version + 1
    nodes := Keyed.inOrder Node.id (graph.1.nodes ++ changeset.1.nodesAdded)
    edges := Keyed.inOrder Edge.id (graph.1.edges ++ changeset.1.edgesAdded) } := by
  have node : Applier.declaredNode changeset = id := by
    funext n
    apply Applier.declaredNode_plain <;>
      simp [ChangeSetDraft.updatedNodes,ChangeSetDraft.reassessed,ChangeSetDraft.reclaimed,adds.nodes,adds.changes]
  have edge : Applier.declaredEdge changeset = id := by
    funext e
    apply Applier.declaredEdge_plain <;> simp [ChangeSetDraft.updatedEdges,adds.edges]
  rw [Applier.declared,node,edge,List.map_id,List.map_id]

theorem adds_admitted (adds : Adds changeset.1) (baseline : changeset.1.baselineGraphVersion = graph.1.version)
    (nodesFresh : ∀ id ∈ changeset.1.addedNodes, id ∉ graph.1.nodeIds) (edgesFresh : ∀ id ∈ changeset.1.addedEdges, id ∉ graph.1.edgeIds) :
    Applier.Admitted graph changeset := by
  refine ⟨baseline,nodesFresh,?_,edgesFresh,?_,?_,?_⟩
  · simp [ChangeSetDraft.updatedNodes,ChangeSetDraft.reassessed,ChangeSetDraft.reclaimed,adds.nodes,adds.changes]
  · simp [ChangeSetDraft.updatedEdges,adds.edges]
  · simp [adds.changes]
  · simp [adds.changes]

-- Whether a node or an edge has its place in a graph.
def nodeFits (registry : TypeRegistry) (n : Node) : Prop := registry.registers n.type = true ∧ (n.sourceMode = none ∨ n.evidenceRefs ≠ [])

def edgeFits (nodeIds : List String) (e : Edge) : Prop := e.fromId ∈ nodeIds ∧ (e.external = true ∨ e.toId ∈ nodeIds)

theorem invariants_iff (g : GraphDraft) : g.assertInvariants = true ↔ g.nodeIds.Nodup ∧ g.edgeIds.Nodup ∧
    (∀ n ∈ g.nodes, nodeFits g.typeRegistry n) ∧ ∀ e ∈ g.edges, edgeFits g.nodeIds e := by
  simp [GraphDraft.assertInvariants,nodeFits,edgeFits,and_assoc]

theorem adds_applied (adds : Adds changeset.1) (admitted : Applier.Admitted graph changeset)
    (nodesFit : ∀ n ∈ changeset.1.nodesAdded, nodeFits graph.1.typeRegistry n)
    (edgesFit : ∀ e ∈ changeset.1.edgesAdded, edgeFits (graph.1.nodeIds ++ changeset.1.addedNodes) e) :
    ∃ next, Applier.applyWithCaseEffects graph changeset = .ok next := by
  have shape := adds_declared graph adds
  have groups := Applier.grouped changeset
  obtain ⟨nodesOnce,edgesOnce,nodes,edges⟩ := (invariants_iff graph.1).mp graph.2
  have nodeIds : ((Keyed.inOrder Node.id (graph.1.nodes ++ changeset.1.nodesAdded)).map Node.id).Perm
      (graph.1.nodeIds ++ changeset.1.addedNodes) := by
    have sorted := (@Keyed.inOrder_perm _ Node.id (graph.1.nodes ++ changeset.1.nodesAdded)).map Node.id
    rwa [List.map_append] at sorted
  have edgeIds : ((Keyed.inOrder Edge.id (graph.1.edges ++ changeset.1.edgesAdded)).map Edge.id).Perm
      (graph.1.edgeIds ++ changeset.1.addedEdges) := by
    have sorted := (@Keyed.inOrder_perm _ Edge.id (graph.1.edges ++ changeset.1.edgesAdded)).map Edge.id
    rwa [List.map_append] at sorted
  have valid : (Applier.declared graph changeset).assertInvariants = true := by
    rw [shape]
    apply (invariants_iff _).mpr
    refine ⟨?_,?_,?_,?_⟩
    · apply nodeIds.nodup_iff.mpr
      exact List.nodup_append.mpr ⟨nodesOnce,groups.addedNodes,fun id old new added same => admitted.nodesFresh new added (same ▸ old)⟩
    · apply edgeIds.nodup_iff.mpr
      exact List.nodup_append.mpr ⟨edgesOnce,groups.addedEdges,fun id old new added same => admitted.edgesFresh new added (same ▸ old)⟩
    · intro n member
      rcases List.mem_append.mp (Keyed.inOrder_member.mp member) with old | new
      · exact nodes n old
      · exact nodesFit n new
    · intro e member
      have there (id : String) (inside : id ∈ graph.1.nodeIds ++ changeset.1.addedNodes) :
          id ∈ (Keyed.inOrder Node.id (graph.1.nodes ++ changeset.1.nodesAdded)).map Node.id := nodeIds.mem_iff.mpr inside
      rcases List.mem_append.mp (Keyed.inOrder_member.mp member) with old | new
      · obtain ⟨origin,target⟩ := edges e old
        exact ⟨there _ (List.mem_append_left _ origin),target.imp_right fun inside => there _ (List.mem_append_left _ inside)⟩
      · obtain ⟨origin,target⟩ := edgesFit e new
        exact ⟨there _ origin,target.imp_right (there _)⟩
  exact ⟨⟨_,valid⟩,Applier.applied_declared.mpr ⟨admitted,rfl⟩⟩

end Applying

section Validated
variable {config : ProjectConfig SourceRoles}

-- What a validated submission says of its candidates.
structure Validated (s : SubmissionDraft) (graph : IntentGraph) (changeset : ChangeSet) : Prop where
  baseline : s.baselineGraphVersion = graph.1.version
  classified : classified s = true
  nodes : ∀ n ∈ s.candidateNodes, candidateNode s graph.1.typeRegistry n = true
  edges : ∀ e ∈ s.candidateEdges, candidateEdge s (graph.1.nodeIds ++ s.candidateNodes.map Node.id) e = true
  built : changeset.1 = (additions s.actor s.timestamp s.baselineGraphVersion s.evidenceRefs s.candidateNodes s.candidateEdges).identified
    "bootstrap-proposal"
  applies : ∃ next, Applier.applyWithCaseEffects graph changeset = .ok next

theorem validateSubmission_some {s : SubmissionDraft} {found : Snapshot} {principals : List String} {changeset : ChangeSet}
    (validated : validateSubmission config s found principals = some changeset) : Validated s found.graph changeset := by
  unfold validateSubmission at validated
  dsimp only at validated
  split at validated
  · rename_i fits
    obtain ⟨baseline,_,_,_,divided,nodes,edges⟩ := fits
    obtain ⟨built,identified,validated⟩ := Option.bind_eq_some_iff.mp validated
    obtain ⟨next,applied,validated⟩ := Option.bind_eq_some_iff.mp validated
    cases validated
    refine ⟨baseline,divided,List.all_eq_true.mp nodes,List.all_eq_true.mp edges,identified_some identified,next,?_⟩
    cases outcome : Applier.applyChangeset found.graph changeset with
    | error e => simp [outcome,Except.toOption] at applied
    | ok reached =>
      have same : reached = next := by simpa [outcome,Except.toOption] using applied
      subst same
      exact (Applier.applyChangeset_iff.mp outcome).2
  · cases validated

theorem classified_iff {s : SubmissionDraft} : classified s = true ↔ (s.candidateNodes.map Node.id).Nodup ∧
    (s.candidateEdges.map Edge.id).Nodup ∧ s.coreNodeIds ≠ [] ∧ (∀ id ∈ s.coreNodeIds, id ∉ s.provisionalNodeIds) ∧
    (∀ id, id ∈ s.coreNodeIds ∨ id ∈ s.provisionalNodeIds → id ∈ s.candidateNodes.map Node.id) ∧
    ∀ id ∈ s.candidateNodes.map Node.id, id ∈ s.coreNodeIds ∨ id ∈ s.provisionalNodeIds := by
  simp only [classified,Bool.and_eq_true,decide_eq_true_eq,Bool.not_eq_true',List.isEmpty_eq_false_iff,List.all_eq_true,
    List.contains_iff_mem,List.mem_append,and_assoc]
  refine and_congr_right fun _ => and_congr_right fun _ => and_congr_right fun _ => and_congr_left fun _ => ?_
  refine forall₂_congr fun id _ => ?_
  simp

theorem candidateNode_fits {s : SubmissionDraft} {registry : TypeRegistry} {n : Node} (candidate : candidateNode s registry n = true) :
    registry.registers n.type = true ∧ n.evidenceRefs ≠ [] := by
  simp only [candidateNode,Bool.and_eq_true,Bool.not_eq_true',List.isEmpty_eq_false_iff] at candidate
  exact ⟨candidate.1.1.1.1.1.1.1.1.1.1.1.1,candidate.1.1.1.1.1.1.1.2⟩

theorem candidateEdge_fits {s : SubmissionDraft} {known : List String} {e : Edge} (candidate : candidateEdge s known e = true) :
    e.fromId ∈ known ∧ e.toId ∈ known := by
  simp only [candidateEdge,Bool.and_eq_true,List.contains_iff_mem] at candidate
  exact ⟨candidate.1.1.2,candidate.1.2⟩

-- Its name breaks no line.
theorem identified_unbroken {kind : String} {draft : ChangeSetDraft} {c : ChangeSet} (built : ChangeSet.identify kind draft = some c)
    (ascii : ∀ x ∈ kind.toList, x.toNat < 128) (plain : Unbroken ((ChangeSetDraft.codec lax true).dump draft)) :
    Unbroken ((ChangeSet.codec lax true).dump c) := by
  have shape := identified_some built
  have id : UnbrokenText c.1.id := by
    rw [shape]
    apply unbroken_ascii
    intro x member
    simp only [ChangeSetDraft.identified,String.toList_append] at member
    rcases List.mem_append.mp member with first | digest
    · rcases List.mem_append.mp first with second | separator
      · rcases List.mem_append.mp second with label | middle
        · exact (by decide : ∀ x ∈ "changeset:".toList, x.toNat < 128) x label
        · exact ascii x middle
      · exact (by decide : ∀ x ∈ ":".toList, x.toNat < 128) x separator
    · exact canonicalDigest_ascii _ x digest
  rw [unbroken_strings] at plain ⊢
  change (ChangeSetDraft.codec lax true).Writes UnbrokenText draft at plain
  change (ChangeSet.codec lax true).Writes UnbrokenText c
  rw [ChangeSet.codec,writes_checked]
  simp only [ChangeSetDraft.codec,ChangeSetDraft.fields,writes_convert,writes_object,writes_required] at plain ⊢
  rw [shape] at id ⊢
  simp only [ChangeSetDraft.identified,writes_string] at plain id ⊢
  simp only [plain,id,and_self]

theorem identify_total (kind : String) {c : ChangeSetDraft} (valid : c.validateMutations = true) :
    ∃ changeset, ChangeSet.identify kind c = some changeset := by
  unfold ChangeSet.identify
  rw [dif_pos valid]
  exact ⟨_,rfl⟩

theorem SourceRoles.before_sorted (roles : SourceRoles) : roles.assignments.Pairwise SourceRoleAssignment.before := by
  have distinct := List.pairwise_map.mp roles.distinct
  refine (roles.sorted.and distinct).imp ?_
  intro a b both
  obtain ⟨sorted,apart⟩ := both
  simp only [SourceRoleAssignment.before,not_or,not_and] at sorted ⊢
  rcases lt_trichotomy a.connectorId b.connectorId with lower | same | higher
  · exact .inl lower
  · refine .inr ⟨same,lt_of_le_of_ne (not_lt.mp (sorted.2 same.symm)) ?_⟩
    intro scope
    exact apart (Prod.ext same scope)
  · exact absurd higher sorted.1

-- A submission always makes a proposal.
theorem proposal_total (s : SubmissionDraft) (changeset : ChangeSet) : ∃ p, proposal s changeset = some p := by
  unfold proposal IntentProposal.identify
  rw [dif_pos]
  · exact ⟨_,rfl⟩
  · rw [ProposalDraft.valid,ProposalDraft.identified_digest]
    have bounds : s.sourceRoles.assignments.all SourceRoleAssignment.bounds = true := List.all_eq_true.mpr s.sourceRoles.bounded
    simp [ProposalDraft.identified,bounds,SourceRoles.before_sorted]

theorem decide_total {d : DecisionDraft} (valid : d.validForm = true) : ∃ record, ProposalDecisionRecord.identify d = some record := by
  have named : d.identified.valid = true := by
    rw [DecisionDraft.valid,DecisionDraft.identified_digest,Bool.and_eq_true]
    exact ⟨valid,beq_self_eq_true _⟩
  unfold ProposalDecisionRecord.identify
  rw [dif_pos named]
  exact ⟨_,rfl⟩

-- The trial on the graph refuses only what the graph has already.
theorem validateSubmission_fresh {s : SubmissionDraft} {found : Snapshot} {principals : List String}
    (baseline : s.baselineGraphVersion = found.graph.1.version)
    (evidenced : s.evidenceRefs ≠ [] ∧ refsAllowed s.evidenceRefs found.evidence.records principals = true ∧
      rolesFit config s found.evidence = true)
    (divided : classified s = true) (nodes : s.candidateNodes.all (candidateNode s found.graph.1.typeRegistry) = true)
    (edges : s.candidateEdges.all (candidateEdge s (found.graph.1.nodeIds ++ s.candidateNodes.map Node.id)) = true) :
    (∃ changeset, validateSubmission config s found principals = some changeset) ↔
      (∀ n ∈ s.candidateNodes, n.id ∉ found.graph.1.nodeIds) ∧ ∀ e ∈ s.candidateEdges, e.id ∉ found.graph.1.edgeIds := by
  obtain ⟨nodesOnce,edgesOnce,_⟩ := classified_iff.mp divided
  obtain ⟨changeset,identified⟩ := identify_total "bootstrap-proposal"
    (additions_valid s.actor s.timestamp s.baselineGraphVersion nodesOnce edgesOnce evidenced.1)
  have shape := identified_some identified
  have nodeIds : changeset.1.addedNodes = s.candidateNodes.map Node.id := congrArg ChangeSetDraft.addedNodes shape
  have edgeIds : changeset.1.addedEdges = s.candidateEdges.map Edge.id := congrArg ChangeSetDraft.addedEdges shape
  constructor
  · intro validated
    obtain ⟨changeset',validated⟩ := validated
    have valid := validateSubmission_some validated
    obtain ⟨next,applied⟩ := valid.applies
    obtain ⟨admitted,_⟩ := Applier.applied_declared.mp applied
    have same : changeset'.1 = changeset.1 := valid.built.trans shape.symm
    constructor
    · intro n member
      apply admitted.nodesFresh
      rw [same,nodeIds]
      exact List.mem_map_of_mem member
    · intro e member
      apply admitted.edgesFresh
      rw [same,edgeIds]
      exact List.mem_map_of_mem member
  · intro fresh
    have adds : Adds changeset.1 := by
      rw [shape]
      exact ⟨⟨rfl,rfl⟩,⟨rfl,rfl⟩,⟨rfl,rfl⟩⟩
    have admits : Applier.Admitted found.graph changeset := by
      apply adds_admitted adds
      · rw [shape]
        exact baseline
      · rw [nodeIds]
        simpa using fresh.1
      · rw [edgeIds]
        simpa using fresh.2
    obtain ⟨next,applied⟩ := adds_applied adds admits
      (by
        intro n member
        rw [shape] at member
        obtain ⟨registered,refs⟩ := candidateNode_fits (List.all_eq_true.mp nodes n member)
        exact ⟨registered,.inr refs⟩)
      (by
        intro e member
        rw [shape] at member
        obtain ⟨origin,target⟩ := candidateEdge_fits (List.all_eq_true.mp edges e member)
        rw [nodeIds]
        exact ⟨origin,.inr target⟩)
    have effected : Applier.applyChangeset found.graph changeset = .ok next := by
      apply Applier.applyChangeset_iff.mpr
      rw [shape]
      exact ⟨⟨rfl,rfl⟩,applied⟩
    refine ⟨changeset,?_⟩
    unfold validateSubmission
    dsimp only
    rw [if_pos ⟨baseline,evidenced.1,evidenced.2.1,evidenced.2.2,divided,nodes,edges⟩,identified]
    simp [effected,Except.toOption]

-- A choice that names a node of the proposal makes a change set and a decision.
theorem activation_made (actor : String) (at' : UtcTime) {p : ProposalDraft} {selected : List String} (natural : 0 ≤ p.baselineGraphVersion)
    (few : p.changeset.1.nodesAdded.length ≤ DecisionDraft.maxDecisionNodeIds)
    (entering : ∃ n ∈ p.changeset.1.nodesAdded, n.id ∈ selected ∧ n.evidenceRefs ≠ []) :
    ∃ made d, activationChangeset p selected actor at' = some made ∧ decision p made actor at' = some d := by
  obtain ⟨n,offered,listed,refs⟩ := entering
  have groups := Applier.grouped p.changeset
  have chosen : activatedNode actor at' n ∈ selectedNodes p selected actor at' := selectedNodes_mem.mpr ⟨n,offered,listed,rfl⟩
  have nodeIds : (selectedNodes p selected actor at').map Node.id =
      (p.changeset.1.nodesAdded.filter fun n => selected.contains n.id).map Node.id := by
    simp only [selectedNodes,List.map_map]
    rfl
  have edgeIds : (selectedEdges p selected actor at').map Edge.id =
      (p.changeset.1.edgesAdded.filter (edgeSelected p selected)).map Edge.id := by
    simp only [selectedEdges,List.map_map]
    rfl
  have nodesOnce : ((selectedNodes p selected actor at').map Node.id).Nodup :=
    nodeIds ▸ groups.addedNodes.sublist (List.filter_sublist.map Node.id)
  have edgesOnce : ((selectedEdges p selected actor at').map Edge.id).Nodup :=
    edgeIds ▸ groups.addedEdges.sublist (List.filter_sublist.map Edge.id)
  have evidenced : Keyed.fromKeys ((selectedNodes p selected actor at').flatMap Node.evidenceRefs) ≠ [] := by
    obtain ⟨ref,member⟩ := List.exists_mem_of_ne_nil _ refs
    apply List.ne_nil_of_mem
    exact Keyed.mem_fromKeys.mpr (List.mem_flatMap.mpr ⟨_,chosen,member⟩)
  obtain ⟨made,activated⟩ := identify_total "bootstrap-activation"
    (additions_valid actor at' p.baselineGraphVersion.toNat nodesOnce edgesOnce evidenced)
  have ids : made.1.addedNodes = (selectedNodes p selected actor at').map Node.id := by
    rw [identified_some activated]
    rfl
  have solid : made.1.id ≠ "" := by
    rw [identified_some activated]
    exact ChangeSetDraft.identified_solid _ _
  have form : (⟨⟨"",p.id,p.digest,actor,[actor],at'.1,p.baselineGraphVersion⟩,.second made.1.addedNodes made.1.id⟩ :
      DecisionDraft).validForm = true := by
    have some' : made.1.addedNodes.isEmpty = false := by
      rw [ids]
      exact List.isEmpty_eq_false_iff.mpr (List.ne_nil_of_mem (List.mem_map_of_mem chosen))
    have short : made.1.addedNodes.length ≤ DecisionDraft.maxDecisionNodeIds := by
      rw [ids,nodeIds,List.length_map]
      exact (List.length_filter_le _ _).trans few
    have distinct : made.1.addedNodes.Nodup := ids ▸ nodesOnce
    simp [DecisionDraft.validForm,some',short,distinct,solid]
  obtain ⟨d,decided⟩ := decide_total form
  refine ⟨made,d,?_,decided⟩
  unfold activationChangeset
  rw [if_neg (by omega)]
  exact activated

-- Of a validated proposal any choice of its core can be activated on the graph
-- that it was validated against.
theorem selection_applies (actor : String) (at' : UtcTime) {s : BootstrapSubmission} {graph : IntentGraph} {changeset : ChangeSet} {p : IntentProposal}
    {selected : List String} (validated : Validated s.1 graph changeset) (built : proposal s.1 changeset = some p)
    (chosen : selectable selected = true) (core : ∀ id ∈ selected, id ∈ p.1.coreNodeIds) :
    ∃ made d next, activationChangeset p.1 selected actor at' = some made ∧ decision p.1 made actor at' = some d ∧
      Applier.applyWithCaseEffects graph made = .ok next := by
  obtain ⟨id,shape⟩ := proposal_some built
  obtain ⟨nodesOnce,edgesOnce,_,_,within,divided⟩ := classified_iff.mp validated.classified
  obtain ⟨_,applied⟩ := validated.applies
  obtain ⟨admitted,_⟩ := Applier.applied_declared.mp applied
  have nodesAdded : p.1.changeset.1.nodesAdded = s.1.candidateNodes := by
    rw [shape]
    exact congrArg ChangeSetDraft.nodesAdded validated.built
  have edgesAdded : p.1.changeset.1.edgesAdded = s.1.candidateEdges := by
    rw [shape]
    exact congrArg ChangeSetDraft.edgesAdded validated.built
  have cores : p.1.coreNodeIds = s.1.coreNodeIds := by rw [shape]
  have provisionals : p.1.provisionalNodeIds = s.1.provisionalNodeIds := by rw [shape]
  have version : p.1.baselineGraphVersion = (s.1.baselineGraphVersion : Int) := by rw [shape]
  -- the chosen nodes are candidates, and there is one
  have candidate (id : String) (member : id ∈ selected) : ∃ n ∈ s.1.candidateNodes, n.id = id := by
    have inside := within id (.inl (cores ▸ core id member))
    simpa using inside
  simp only [selectable,Bool.and_eq_true,Bool.not_eq_true',List.isEmpty_eq_false_iff] at chosen
  obtain ⟨first,listed⟩ := List.exists_mem_of_ne_nil _ chosen.1.1
  obtain ⟨n,offered,named⟩ := candidate first listed
  have few : p.1.changeset.1.nodesAdded.length ≤ DecisionDraft.maxDecisionNodeIds := by
    have bounds := s.2
    simp only [SubmissionDraft.valid,Bool.and_eq_true,decide_eq_true_eq] at bounds
    rw [nodesAdded]
    exact bounds.1.1.1.1.1.1.1.1.1.1.2
  obtain ⟨made,d,activated,decided⟩ := activation_made actor at' (by omega) few
    ⟨n,nodesAdded ▸ offered,named ▸ listed,(candidateNode_fits (validated.nodes n offered)).2⟩
  have activates := activationChangeset_some activated
  refine ⟨made,d,?_⟩
  have adds : Adds made.1 := ⟨activates.nodesKept,activates.edgesKept,activates.unchanged⟩
  obtain ⟨nodeIds,edgeIds⟩ := activates_added activates
  have offeredNodes : changeset.1.addedNodes = p.1.changeset.1.addedNodes := by rw [shape]
  have offeredEdges : changeset.1.addedEdges = p.1.changeset.1.addedEdges := by rw [shape]
  have admits : Applier.Admitted graph made := by
    apply adds_admitted adds
    · have baseline := activates.baseline
      have current := validated.baseline
      omega
    · intro id member
      exact admitted.nodesFresh id (offeredNodes ▸ ((nodeIds id).mp member).1)
    · intro id member
      obtain ⟨e,inside,_,rfl⟩ := (edgeIds id).mp member
      exact admitted.edgesFresh e.id (offeredEdges ▸ List.mem_map_of_mem inside)
  obtain ⟨next,done⟩ := adds_applied adds admits
    (by
      intro m member
      rw [activates.nodesAdded] at member
      obtain ⟨m',inside,_,rfl⟩ := selectedNodes_mem.mp member
      obtain ⟨registered,refs⟩ := candidateNode_fits (validated.nodes m' (nodesAdded ▸ inside))
      exact ⟨registered,.inr refs⟩)
    (by
      intro m member
      rw [activates.edgesAdded] at member
      obtain ⟨e,inside,touches,rfl⟩ := selectedEdges_mem.mp member
      obtain ⟨origin,target⟩ := candidateEdge_fits (validated.edges e (edgesAdded ▸ inside))
      -- an endpoint is confirmed, or it is no candidate and so a node of the graph
      have endpoint (id : String) (known : id ∈ graph.1.nodeIds ++ s.1.candidateNodes.map Node.id)
          (reaches : id ∈ selected ∨ outside p.1 id) : id ∈ graph.1.nodeIds ++ made.1.addedNodes := by
        rcases reaches with chosen | apart
        · obtain ⟨m,offered,rfl⟩ := candidate id chosen
          apply List.mem_append_right
          exact (nodeIds m.id).mpr ⟨List.mem_map_of_mem (nodesAdded ▸ offered),chosen⟩
        · rcases List.mem_append.mp known with old | offered
          · exact List.mem_append_left _ old
          · rcases divided id offered with one | other
            · exact absurd (cores ▸ one) apart.1
            · exact absurd (provisionals ▸ other) apart.2
      exact ⟨endpoint _ origin touches.origin,.inr (endpoint _ target touches.target)⟩)
  exact ⟨next,activated,decided,done⟩

end Validated

section Calm
variable {env : WriteEnv} {a : Activation} {ledger : Utf8.Bytes} {contents : Contents} {graph next : IntentGraph}

-- Without a fault an accepted activation runs to its end.
theorem activation_runs (known : ∀ name ∈ requiredTargets, name ∈ c.targets) (settled : effective c disk = some contents)
    (caseless : a.changeset.1.reconciliationCasesCreated = [] ∧ a.changeset.1.reconciliationCasesResolved = [])
    (accepts : Accepts env a ledger contents graph next) (transactionId : String) :
    Quiet c transactionId (LocalChangeSetExecutor.script env (activationRequest env a ledger) []) ⟨disk,[]⟩ ∧
      ∃ after, LocalChangeSetExecutor.apply env c transactionId (activationRequest env a ledger) ⟨disk,[]⟩ = (.ok (),⟨after,[]⟩) ∧
        effective c after = some (activatedContents env a ledger next contents) := by
  have performed := (activation_performed known).mpr ⟨graph,next,accepts,rfl⟩
  refine ⟨calm_conditions settled performed,?_⟩
  obtain ⟨after,ran,left,closed⟩ := transaction_calm settled performed
  refine ⟨after,?_,by rw [effective_none closed,left]⟩
  rw [activation_act known caseless]
  unfold LocalChangeSetExecutor.guardCancellation
  rw [run_catch,ran]

-- A call that returns has run its transaction.
theorem guarded_ok {act : Act Disk Unit} (ran : LocalChangeSetExecutor.guardCancellation c rollbackBaseExceptions act start = (.ok (),after)) :
    act start = (.ok (),after) := by
  unfold LocalChangeSetExecutor.guardCancellation at ran
  rw [run_catch] at ran
  cases first : act start with
  | mk outcome middle =>
    rw [first] at ran
    cases outcome with
    | ok value => exact ran
    | error halt =>
      dsimp only at ran
      split at ran
      · rw [run_bind] at ran
        cases recovered : recoverUnlocked c middle with
        | mk outcome last =>
          rw [recovered] at ran
          cases outcome <;> cases ran
      · cases ran

theorem returned_performed {script : Script} {ends : Contents} (settled : effective c disk = some contents)
    (ran : LocalChangeSetExecutor.guardCancellation c true (transaction c true transactionId script.body) ⟨disk,schedule⟩ = (.ok (),after))
    (left : effective c after.state = some ends) : script.perform c contents = some ends := by
  rcases transaction_pointwise settled (guarded_ok ran) with ⟨failed,_⟩ | ⟨found,reached,performed,now,_,whole⟩
  · exact absurd rfl failed
  · rw [performed,←whole rfl]
    exact now.symm.trans left

end Calm

section Awaiting
variable {env : WriteEnv} {c : Coordinator} {config : ProjectConfig SourceRoles} {initial : IntentGraph} {w : World}

-- A proposal that was validated on the present graph, lies undecided in the
-- ledger, and holds nothing that keeps it from being activated.
structure Awaits (env : WriteEnv) (config : ProjectConfig SourceRoles) (w : World) (contents : Contents) (s : BootstrapSubmission)
    (p : IntentProposal) : Prop where
  validated : ∃ seen ∈ w.past, ∃ found changeset principals, snapshot env seen = some found ∧
    validateSubmission config s.1 found principals = some changeset ∧ proposal s.1 changeset = some p
  pending : ∃ state, IntentProposalStore.decode env.lax (ledgerOf contents) = some state ∧
    state.proposal p.1.id = some p ∧ state.decision p.1.id = none
  current : ∃ graph, (contents "graph").bind (GraphStore.parseGraph env.lax env.yaml) = some graph ∧
    graph.1.version = s.1.baselineGraphVersion
  harmless : s.1.destructive = false ∧ s.1.conflictingAuthors = [] ∧
    ∀ e ∈ s.1.candidateEdges, e.relation ≠ .contradicts ∧ e.relation ≠ .supersedes

-- The local actor confirms a part of its core, not before it was proposed, and
-- may read its evidence.
structure Confirms (env : WriteEnv) (config : ProjectConfig SourceRoles) (contents : Contents) (p : IntentProposal) (call : ActivationCall)
    (at' : UtcTime) : Prop where
  named : call.proposalId = p.1.id
  local' : call.actor = config.localActor
  time : call.at' = at'.1 ∧ p.1.proposedAt.instant ≤ at'.1.instant
  selectable : selectable call.confirmedNodeIds = true
  core : ∀ id ∈ call.confirmedNodeIds, id ∈ p.1.coreNodeIds
  readable : ∃ found, snapshot env contents = some found ∧ refsAllowed p.1.evidenceRefs found.evidence.records [call.actor] = true

-- The graph of an earlier content is the present one if the versions are equal.
theorem past_graph {contents earlier : Contents} {earlierGraph : IntentGraph} (past : Past env initial earlier state changesets)
    (replayed : Replayed env initial contents graph changesets)
    (parsed : (earlier "graph").bind (GraphStore.parseGraph env.lax env.yaml) = some earlierGraph)
    (version : earlierGraph.1.version = graph.1.version) : earlierGraph = graph := by
  obtain ⟨other,before,again,start⟩ := past.history
  have same : other = earlierGraph := Option.some.inj (again.stored.symm.trans parsed)
  subst same
  have all : before = changesets := start.eq_of_length (by rw [←again.version,version,replayed.version])
  subst all
  exact Except.ok.inj (again.replay.symm.trans replayed.replay)

-- A validated proposal that is harmless can be activated in any choice of its core.
theorem harmless_activatable {s : BootstrapSubmission} {changeset : ChangeSet} {p : IntentProposal} {selected : List String} {at' : UtcTime}
    (validated : Validated s.1 graph changeset) (built : proposal s.1 changeset = some p)
    (harmless : s.1.destructive = false ∧ s.1.conflictingAuthors = [] ∧
      ∀ e ∈ s.1.candidateEdges, e.relation ≠ .contradicts ∧ e.relation ≠ .supersedes)
    (core : ∀ id ∈ selected, id ∈ p.1.coreNodeIds) (later : p.1.proposedAt.instant ≤ at'.1.instant) :
    activatable p.1 selected at' = true := by
  obtain ⟨id,shape⟩ := proposal_some built
  have edges : p.1.changeset.1.edgesAdded = s.1.candidateEdges := by
    rw [shape]
    exact congrArg ChangeSetDraft.edgesAdded validated.built
  have utc : p.1.proposedAt.offset = some 0 := by
    rw [shape]
    exact s.1.timestamp.2
  have plain : p.1.kind = .bootstrap ∧ p.1.destructive = false ∧ p.1.conflictingAuthors = [] := by
    rw [shape]
    exact ⟨rfl,harmless.1,harmless.2.1⟩
  have relations : p.1.changeset.1.edgesAdded.all (fun e => e.relation != .contradicts && e.relation != .supersedes) = true := by
    rw [edges]
    simpa using harmless.2.2
  have inside : selected.all p.1.coreNodeIds.contains = true := by simpa using core
  simp [activatable,plain,relations,inside,utc,later]

-- In agreement with its world, such a proposal is ready for the transaction.
theorem awaiting_prepared {contents : Contents} {s : BootstrapSubmission} {p : IntentProposal} {call : ActivationCall} {at' : UtcTime}
    (kept : Kept env c config initial w contents graph changesets state) (awaits : Awaits env config w contents s p)
    (confirms : Confirms env config contents p call at')
    (cases' : ∃ versions, CaseStore.parseVersions env.lax (contents "cases") = .ok versions) :
    ∃ a next state', a.proposal = p ∧ prepareActivation env config call ⟨contents,contents,contents,contents,contents⟩ =
        some (.apply a (activationRequest env a (ledgerOf contents))) ∧
      activationChangeset p.1 call.confirmedNodeIds call.actor at' = some a.changeset ∧ enacts a.decision = true ∧
      Accepts env a (ledgerOf contents) contents graph next ∧ Entered p.1 call.confirmedNodeIds call.actor at' graph next ∧
      IntentProposalStore.decode env.lax (ledgerOf (activatedContents env a (ledgerOf contents) next contents)) = some state' ∧
      state'.decision p.1.id = some a.decision := by
  have agreed := kept.agreed
  obtain ⟨seen,inPast,found,changeset,principals,shot,validated,built⟩ := awaits.validated
  obtain ⟨state',read,there,undecided⟩ := awaits.pending
  obtain ⟨graph',stored,current⟩ := awaits.current
  obtain rfl := Option.some.inj (read.symm.trans agreed.ledger)
  obtain rfl := Option.some.inj (stored.symm.trans agreed.replayed.stored)
  have valid := validateSubmission_some validated
  -- the graph it was validated on is still the present one
  have parsed : (seen "graph").bind (GraphStore.parseGraph env.lax env.yaml) = some found.graph := by
    obtain ⟨shown,one,rest⟩ := Option.bind_eq_some_iff.mp shot
    obtain ⟨evidence,_,made⟩ := Option.bind_eq_some_iff.mp rest
    cases made
    exact one
  have unchanged : found.graph = graph' :=
    past_graph (kept.past seen inPast) agreed.replayed parsed (valid.baseline.symm.trans current.symm)
  rw [unchanged] at valid
  obtain ⟨id,shape⟩ := proposal_some built
  have fits := harmless_activatable valid built awaits.harmless confirms.core confirms.time.2
  obtain ⟨made,d,next,activated,decided,applied⟩ := selection_applies call.actor at' valid built confirms.selectable confirms.core
  obtain ⟨proposalId,digest,_,_,baseline,form⟩ := decision_some decided
  have filled : contents "intent_proposals" = some (ledgerOf contents) := by
    cases content : contents "intent_proposals" with
    | some ledger => simp [ledgerOf,content]
    | none =>
      have empty : IntentProposalStore.decode env.lax (ledgerOf contents) = some LedgerState.empty := by
        rw [ledgerOf,content]
        rfl
      rw [agreed.ledger] at empty
      cases empty
      cases there
  have version : (graph'.1.version : Int) = p.1.baselineGraphVersion := by
    rw [shape,current]
  have prepared : Prepared env config call ⟨contents,contents,contents,contents,contents⟩ ⟨p,made,d⟩
      (activationRequest env ⟨p,made,d⟩ (ledgerOf contents)) := by
    refine ⟨plan_iff.mpr ⟨at',?_⟩,?_,⟨graph',stored,version⟩,⟨state',agreed.ledger⟩,rfl⟩
    · exact ⟨confirms.time.1,confirms.local',confirms.selectable,⟨state',agreed.ledger,confirms.named ▸ there⟩,fits,confirms.readable,
        activated,decided⟩
    · rw [decisionFor,agreed.ledger,Option.bind_some,there,undecided]
      rfl
  have alone : p.1.binding = none := by rw [shape]
  have repeats : Replay.decides p d = true := by simp [Replay.decides,digest,baseline]
  have readable := decided_readable agreed.ledger (proposalId ▸ there) repeats form
  rw [if_pos ⟨alone,proposalId ▸ undecided⟩] at readable
  refine ⟨⟨p,made,d⟩,next,_,rfl,prepareActivation_apply.mpr prepared,activated,by simp [enacts,form],⟨stored,applied,cases',filled⟩,
    applied_entered (activationChangeset_some activated) applied,readable,?_⟩
  rw [LedgerState.decision_decision,undecided,proposalId]
  simp

-- Undisturbed, the activation is a step that decides it.
theorem awaiting_step {contents : Contents} {s : BootstrapSubmission} {p : IntentProposal} {call : ActivationCall} {at' : UtcTime}
    (known : ∀ name ∈ requiredTargets, name ∈ c.targets) (kept : Kept env c config initial w contents graph changesets state)
    (inPast : contents ∈ w.past) (awaits : Awaits env config w contents s p) (confirms : Confirms env config contents p call at')
    (cases' : ∃ versions, CaseStore.parseVersions env.lax (contents "cases") = .ok versions)
    (plain : ∀ made, activationChangeset p.1 call.confirmedNodeIds call.actor at' = some made →
      Unbroken ((ChangeSet.codec env.lax true).dump made)) :
    ∃ after ends state' d, Step env c config w ⟨after,ends :: w.past⟩ ∧ effective c after = some ends ∧
      IntentProposalStore.decode env.lax (ledgerOf ends) = some state' ∧ state'.decision p.1.id = some d ∧ enacts d = true := by
  obtain ⟨a,next,state',_,prepared,activated,second,accepts,_,readable,decided⟩ := awaiting_prepared kept awaits confirms cases'
  obtain ⟨quiet,after,ran,left⟩ := activation_runs known kept.settled (activationChangeset_some activated).caseless accepts ""
  exact ⟨after,_,state',a.decision,.activate inPast rfl prepared (plain _ activated) quiet ran left,left,readable,decided,second⟩

-- So is a validated submission that has not been proposed.
theorem submission_prepared {contents : Contents} {s : BootstrapSubmission} {principals : List String} {p : IntentProposal}
    (given : validatePrincipals principals = true)
    (validated : ∃ found changeset, snapshot env contents = some found ∧ validateSubmission config s.1 found principals = some changeset ∧
      proposal s.1 changeset = some p)
    (fresh : ∃ state, IntentProposalStore.decode env.lax (ledgerOf contents) = some state ∧ state.proposal p.1.id = none) :
    prepareProposal env config s principals contents contents contents = some (.submit p (proposeScript env contents (ledgerOf contents) p)) := by
  obtain ⟨found,changeset,shot,valid,built⟩ := validated
  obtain ⟨state,read,new⟩ := fresh
  unfold prepareProposal
  simp [given,shot,valid,built,read,new]

def proposedContents (env : WriteEnv) (p : IntentProposal) (contents : Contents) : Contents :=
  Script.put "intent_proposals" (ledgerOf contents ++ frame env (ledgerOf contents) (.proposal p)) contents

-- Without a fault it is proposed.
theorem submission_runs {contents : Contents} (known : ∀ name ∈ requiredTargets, name ∈ c.targets) (settled : effective c disk = some contents)
    (filled : (contents "intent_proposals").isSome = true) (p : IntentProposal) (transactionId : String) :
    Quiet c transactionId (proposeScript env contents (ledgerOf contents) p) ⟨disk,[]⟩ ∧
      ∃ after, LocalChangeSetExecutor.guardCancellation c true
          (transaction c true transactionId (proposeScript env contents (ledgerOf contents) p).body) ⟨disk,[]⟩ = (.ok (),⟨after,[]⟩) ∧
        effective c after = some (proposedContents env p contents) := by
  have graph' := known "graph" (by simp [requiredTargets])
  have evidence' := known "evidence" (by simp [requiredTargets])
  have ledger' := known "intent_proposals" (by simp [requiredTargets])
  have held : contents "intent_proposals" = some (ledgerOf contents) := by
    obtain ⟨ledger,found⟩ := Option.isSome_iff_exists.mp filled
    simp [ledgerOf,found]
  have performed : (proposeScript env contents (ledgerOf contents) p).perform c contents = some (proposedContents env p contents) := by
    simp [proposeScript,Script.require,Script.perform,graph',evidence',ledger',held,proposedContents]
  refine ⟨calm_conditions settled performed,?_⟩
  obtain ⟨after,ran,left,closed⟩ := transaction_calm settled performed
  refine ⟨after,?_,by rw [effective_none closed,left]⟩
  unfold LocalChangeSetExecutor.guardCancellation
  rw [run_catch,ran]

end Awaiting

end BootstrapService
