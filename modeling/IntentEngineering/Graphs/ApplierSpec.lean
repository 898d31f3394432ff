import IntentEngineering.Graphs.Applier

namespace Applier
open Keyed

section Groups
variable {α β : Type} {key : α → String} {name : β → String} {change : β → α → α}

theorem fold_add {items xs ys : List α} (distinct : (items.map key).Nodup) :
    items.foldlM (add key) xs = .ok ys ↔ (∀ x ∈ items, key x ∉ xs.map key) ∧ ys = xs ++ items := by
  induction items generalizing xs with
  | nil =>
    simp only [List.foldlM_nil,List.append_nil]
    constructor
    · intro same
      cases same
      exact ⟨by simp,rfl⟩
    · intro found
      rw [found.2]
      rfl
  | cons x rest ih =>
    obtain ⟨fresh,distinct⟩ := List.nodup_cons.mp distinct
    rw [List.foldlM_cons]
    by_cases there : key x ∈ xs.map key
    · simp only [add,find_isSome.mpr there,if_true]
      constructor
      · intro impossible
        cases impossible
      · intro found
        exact absurd there (found.1 x List.mem_cons_self)
    · have absent : ¬ (find key xs (key x)).isSome = true := fun found => there (find_isSome.mp found)
      simp only [add,if_neg absent,bind,Except.bind]
      refine (ih distinct).trans ?_
      rw [List.append_assoc,List.singleton_append]
      refine and_congr_left fun _ => ?_
      constructor
      · intro later y member
        rcases List.mem_cons.mp member with rfl | member
        · exact there
        · exact fun inside => later y member (by simp only [List.map_append,List.mem_append]; exact .inl inside)
      · intro all y member inside
        rw [List.map_append,List.mem_append] at inside
        rcases inside with inside | last
        · exact all y (List.mem_cons_of_mem _ member) inside
        · have same : key y = key x := by simpa using last
          exact fresh (same ▸ List.mem_map_of_mem member)

theorem fold_modify {batch : List β} {xs ys : List α} (distinct : (batch.map name).Nodup)
    (keeps : ∀ b ∈ batch, ∀ x, key x = name b → key (change b x) = name b) :
    batch.foldlM (fun xs b => modify key xs (name b) (change b)) xs = .ok ys ↔
      (∀ b ∈ batch, name b ∈ xs.map key) ∧ ys = xs.map (changed key name change batch) := by
  have folded := fold_replace distinct keeps xs
  induction batch generalizing xs with
  | nil =>
    rw [←folded]
    simp only [List.foldlM_nil,List.foldl_nil]
    constructor
    · intro same
      cases same
      exact ⟨by simp,rfl⟩
    · intro found
      rw [found.2]
      rfl
  | cons b rest ih =>
    obtain ⟨fresh,distinct⟩ := List.nodup_cons.mp distinct
    have keepsRest : ∀ other ∈ rest, ∀ x, key x = name other → key (change other x) = name other :=
      fun other member => keeps other (List.mem_cons_of_mem _ member)
    rw [List.foldlM_cons,←folded,List.foldl_cons]
    by_cases there : name b ∈ xs.map key
    · simp only [modify,find_isSome.mpr there,if_true,bind,Except.bind]
      have ran := @ih (replace key xs (name b) (change b)) distinct keepsRest (fold_replace distinct keepsRest _)
      rw [←fold_replace distinct keepsRest] at ran
      refine ran.trans ?_
      rw [replace_keys fun x _ named => keeps b List.mem_cons_self x named]
      simp only [List.forall_mem_cons,there,true_and]
    · have absent : ¬ (find key xs (name b)).isSome = true := fun found => there (find_isSome.mp found)
      simp only [modify,if_neg absent,bind,Except.bind]
      constructor
      · intro impossible
        cases impossible
      · intro found
        exact absurd (found.1 b List.mem_cons_self) there

end Groups

section Declared
variable (graph : IntentGraph) (changeset : ChangeSet)

-- What a change set declares of a node of the graph.
def declaredNode (n : Node) : Node :=
  changed Node.id ImplementationStatusChange.claimId (reclaim changeset) changeset.1.implementationStatusChanges <|
  changed Node.id ConfidenceChange.subjectRef reassess changeset.1.confidenceChanges <|
  changed Node.id id (fun _ => supersedeNode) changeset.1.nodesSuperseded <|
  changed Node.id NodeUpdate.nodeId (fun u _ => u.replacement) changeset.1.nodesUpdated n

def declaredEdge (e : Edge) : Edge :=
  changed Edge.id id (fun _ => supersedeEdge) changeset.1.edgesSuperseded <|
  changed Edge.id EdgeUpdate.edgeId (fun u _ => u.replacement) changeset.1.edgesUpdated e

def declared : GraphDraft :=
  { graph.1 with
    version := graph.1.version + 1
    nodes := inOrder Node.id ((graph.1.nodes ++ changeset.1.nodesAdded).map (declaredNode changeset))
    edges := inOrder Edge.id ((graph.1.edges ++ changeset.1.edgesAdded).map (declaredEdge changeset)) }

-- What a change set asks of the graph it is applied to.
structure Admitted : Prop where
  baseline : changeset.1.baselineGraphVersion = graph.1.version
  nodesFresh : ∀ id ∈ changeset.1.addedNodes, id ∉ graph.1.nodeIds
  nodesPresent : ∀ id ∈ changeset.1.updatedNodes ++ changeset.1.nodesSuperseded ++ (changeset.1.reassessed ++ changeset.1.reclaimed),
    id ∈ graph.1.nodeIds
  edgesFresh : ∀ id ∈ changeset.1.addedEdges, id ∉ graph.1.edgeIds
  edgesPresent : ∀ id ∈ changeset.1.updatedEdges ++ changeset.1.edgesSuperseded, id ∈ graph.1.edgeIds
  confidences : ∀ c ∈ changeset.1.confidenceChanges, ∀ n, graph.node c.subjectRef = some n →
    equalOptions Confidence.equal n.intentFidelityConfidence (some c.priorConfidence) = true
  statuses : ∀ c ∈ changeset.1.implementationStatusChanges, ∀ n, graph.node c.claimId = some n →
    n.implementationStatus.getD .unknown = c.prior

end Declared

section Valid
variable {graph next : IntentGraph} {changeset : ChangeSet}

-- The groups of a change set: distinct subjects, and no subject in two groups
-- that exclude each other.
structure Grouped (c : ChangeSetDraft) : Prop where
  addedNodes : c.addedNodes.Nodup
  updatedNodes : c.updatedNodes.Nodup
  nodesSuperseded : c.nodesSuperseded.Nodup
  addedEdges : c.addedEdges.Nodup
  updatedEdges : c.updatedEdges.Nodup
  edgesSuperseded : c.edgesSuperseded.Nodup
  reassessed : c.reassessed.Nodup
  reclaimed : c.reclaimed.Nodup
  nodesNew : ∀ id ∈ c.addedNodes, id ∉ c.updatedNodes ∧ id ∉ c.nodesSuperseded
  edgesNew : ∀ id ∈ c.addedEdges, id ∉ c.updatedEdges ∧ id ∉ c.edgesSuperseded
  nodesOnce : ∀ id ∈ c.updatedNodes, id ∉ c.nodesSuperseded
  edgesOnce : ∀ id ∈ c.updatedEdges, id ∉ c.edgesSuperseded
  derived : ∀ id ∈ c.reassessed ++ c.reclaimed, id ∉ c.addedNodes ∧ id ∉ c.updatedNodes ∧ id ∉ c.nodesSuperseded

theorem apart_iff {xs ys : List String} : ChangeSetDraft.apart xs ys = true ↔ ∀ x ∈ xs, x ∉ ys := by
  simp [ChangeSetDraft.apart]

theorem grouped (changeset : ChangeSet) : Grouped changeset.1 := by
  have valid := changeset.2
  simp only [ChangeSetDraft.validateMutations,ChangeSetDraft.mutationSubjects,Bool.and_eq_true,List.all_cons,decide_eq_true_eq,
    apart_iff,List.mem_append,not_or] at valid
  obtain ⟨⟨⟨⟨⟨⟨⟨⟨⟨distinct,addUpdate⟩,addSupersede⟩,edgeUpdate⟩,edgeSupersede⟩,_⟩,updateSupersede⟩,edgeOnce⟩,derived⟩,_⟩ := valid
  obtain ⟨nodesAdded,nodesUpdated,nodesSuperseded,edgesAdded,edgesUpdated,edgesSuperseded,reassessed,reclaimed,_⟩ := distinct
  refine ⟨nodesAdded,nodesUpdated,nodesSuperseded,edgesAdded,edgesUpdated,edgesSuperseded,reassessed,reclaimed,
    fun id member => ⟨addUpdate id member,addSupersede id member⟩,fun id member => ⟨edgeUpdate id member,edgeSupersede id member⟩,
    updateSupersede,edgeOnce,?_⟩
  intro id member
  obtain ⟨⟨added,updated⟩,superseded⟩ := derived id (List.mem_append.mp member)
  exact ⟨added,updated,superseded⟩

theorem applied_bind {x : Applied α} {f : α → Applied β} : (x >>= f) = .ok z ↔ ∃ y, x = .ok y ∧ f y = .ok z := by
  cases x with
  | error e => simp [bind,Except.bind]
  | ok y => simp [bind,Except.bind]

section Steps
variable {α β : Type} {key : α → String} {name : β → String} {replacement : β → α} {retire : α → α}
  {added : List α} {updated : List β} {superseded : List String} {xs ys : List α}

-- The three steps over nodes or edges, as one pass over the old and the added ones.
theorem steps_iff (addedOnce : (added.map key).Nodup) (updatedOnce : (updated.map name).Nodup) (supersededOnce : superseded.Nodup)
    (matching : ∀ u, key (replacement u) = name u) (retired : ∀ x, key (retire x) = key x) :
    (do
      let xs ← added.foldlM (add key) xs
      let xs ← updated.foldlM (fun xs u => modify key xs (name u) fun _ => replacement u) xs
      superseded.foldlM (fun xs id => modify key xs id retire) xs) = .ok ys ↔
    ((∀ x ∈ added, key x ∉ xs.map key) ∧ (∀ u ∈ updated, name u ∈ (xs ++ added).map key) ∧
        ∀ id ∈ superseded, id ∈ (xs ++ added).map key) ∧
      ys = (xs ++ added).map fun x => changed key id (fun _ => retire) superseded (changed key name (fun u _ => replacement u) updated x) := by
  have once : (superseded.map id).Nodup := by
    rw [List.map_id]
    exact supersededOnce
  have keepsUpdated : ∀ u ∈ updated, ∀ x, key x = name u → key (replacement u) = name u := fun u _ _ _ => matching u
  have keepsRetired : ∀ id' ∈ superseded, ∀ x, key x = id id' → key (retire x) = id id' := fun _ _ x named => (retired x).trans named
  have keys : ((xs ++ added).map (changed key name (fun u _ => replacement u) updated)).map key = (xs ++ added).map key := by
    rw [List.map_map]
    exact List.map_congr_left fun x _ => changed_key keepsUpdated x
  have passes : ((xs ++ added).map (changed key name (fun u _ => replacement u) updated)).map
      (changed key id (fun _ => retire) superseded) =
        (xs ++ added).map fun x => changed key id (fun _ => retire) superseded (changed key name (fun u _ => replacement u) updated x) :=
    List.map_map
  rw [applied_bind,←passes]
  constructor
  · intro found
    obtain ⟨fresh,first,rest⟩ := found
    obtain ⟨replaced,second,third⟩ := applied_bind.mp rest
    obtain ⟨new,rfl⟩ := (fold_add addedOnce).mp first
    obtain ⟨present,rfl⟩ := (fold_modify updatedOnce keepsUpdated).mp second
    obtain ⟨present',rfl⟩ := (fold_modify once keepsRetired).mp third
    rw [keys] at present'
    exact ⟨⟨new,present,present'⟩,rfl⟩
  · intro found
    obtain ⟨⟨new,present,present'⟩,rfl⟩ := found
    refine ⟨_,(fold_add addedOnce).mpr ⟨new,rfl⟩,applied_bind.mpr
      ⟨_,(fold_modify updatedOnce keepsUpdated).mpr ⟨present,rfl⟩,(fold_modify once keepsRetired).mpr ⟨?_,rfl⟩⟩⟩
    rw [keys]
    exact present'

end Steps

theorem applyChanges_map (nodes : List Node) : applyChanges nodes changeset =
    (nodes.map (changed Node.id ConfidenceChange.subjectRef reassess changeset.1.confidenceChanges)).map
      (changed Node.id ImplementationStatusChange.claimId (reclaim changeset) changeset.1.implementationStatusChanges) := by
  have groups := grouped changeset
  have first : ∀ c ∈ changeset.1.confidenceChanges, ∀ n : Node, n.id = c.subjectRef → (reassess c n).id = c.subjectRef :=
    fun _ _ _ named => named
  have second : ∀ c ∈ changeset.1.implementationStatusChanges, ∀ n : Node, n.id = c.claimId → (reclaim changeset c n).id = c.claimId :=
    fun _ _ _ named => named
  rw [applyChanges,fold_replace groups.reassessed first,fold_replace groups.reclaimed second]

theorem checks_iff {items : List α} {check : α → Applied Unit} : items.forM check = .ok () ↔ ∀ item ∈ items, check item = .ok () := by
  induction items with
  | nil => simp [pure,Except.pure]
  | cons item rest ih =>
    change (check item >>= fun _ => rest.forM check) = _ ↔ _
    rw [applied_bind,List.forall_mem_cons,←ih]
    constructor
    · intro found
      obtain ⟨done,first,later⟩ := found
      exact ⟨first,later⟩
    · intro both
      exact ⟨(),both.1,both.2⟩

theorem node_present {id : String} : (graph.node id).isSome = true ↔ id ∈ graph.1.nodeIds := by
  change (find Node.id graph.1.nodes id).isSome = true ↔ id ∈ graph.1.nodes.map Node.id
  exact find_isSome

theorem checkConfidence_iff {c : ConfidenceChange} : checkConfidence graph.1.nodes c = .ok () ↔
    c.subjectRef ∈ graph.1.nodeIds ∧ ∀ n, graph.node c.subjectRef = some n →
      equalOptions Confidence.equal n.intentFidelityConfidence (some c.priorConfidence) = true := by
  rw [←node_present]
  have found : find Node.id graph.1.nodes c.subjectRef = graph.node c.subjectRef := rfl
  unfold checkConfidence
  rw [found]
  cases graph.node c.subjectRef with
  | none => simp
  | some n => by_cases same : equalOptions Confidence.equal n.intentFidelityConfidence (some c.priorConfidence) = true <;> simp [same]

theorem checkStatus_iff {c : ImplementationStatusChange} : checkStatus graph.1.nodes c = .ok () ↔
    c.claimId ∈ graph.1.nodeIds ∧ ∀ n, graph.node c.claimId = some n → n.implementationStatus.getD .unknown = c.prior := by
  rw [←node_present]
  have found : find Node.id graph.1.nodes c.claimId = graph.node c.claimId := rfl
  unfold checkStatus
  rw [found]
  cases graph.node c.claimId with
  | none => simp
  | some n => by_cases same : n.implementationStatus.getD .unknown = c.prior <;> simp [same]

-- An update of what is there is one of what was there before the additions.
theorem present_before {ids added old : List String} (apart : ∀ id ∈ ids, id ∉ added) :
    (∀ id ∈ ids, id ∈ old ++ added) ↔ ∀ id ∈ ids, id ∈ old := by
  refine forall_congr' fun id => forall_congr' fun member => ?_
  simp [apart id member]

theorem declaredNode_id (n : Node) : (declaredNode changeset n).id = n.id := by
  have updated : ∀ u ∈ changeset.1.nodesUpdated, ∀ n : Node, n.id = u.nodeId → u.replacement.id = u.nodeId := fun u _ _ _ => u.matching
  have superseded : ∀ name ∈ changeset.1.nodesSuperseded, ∀ n : Node, n.id = id name → (supersedeNode n).id = id name :=
    fun _ _ _ named => named
  have reassessed : ∀ c ∈ changeset.1.confidenceChanges, ∀ n : Node, n.id = c.subjectRef → (reassess c n).id = c.subjectRef :=
    fun _ _ _ named => named
  have reclaimed : ∀ c ∈ changeset.1.implementationStatusChanges, ∀ n : Node, n.id = c.claimId → (reclaim changeset c n).id = c.claimId :=
    fun _ _ _ named => named
  exact (changed_key reclaimed _).trans ((changed_key reassessed _).trans ((changed_key superseded _).trans (changed_key updated n)))

theorem declaredEdge_id (e : Edge) : (declaredEdge changeset e).id = e.id := by
  have updated : ∀ u ∈ changeset.1.edgesUpdated, ∀ e : Edge, e.id = u.edgeId → u.replacement.id = u.edgeId := fun u _ _ _ => u.matching
  have superseded : ∀ name ∈ changeset.1.edgesSuperseded, ∀ e : Edge, e.id = id name → (supersedeEdge e).id = id name :=
    fun _ _ _ named => named
  exact (changed_key superseded _).trans (changed_key updated e)

-- An application is accepted exactly when it is admitted, with the declared graph.
theorem applied_declared : applyWithCaseEffects graph changeset = .ok next ↔
    Admitted graph changeset ∧ next.1 = declared graph changeset := by
  have groups := grouped changeset
  have nodeSteps (nodes : List Node) := @steps_iff Node NodeUpdate Node.id NodeUpdate.nodeId NodeUpdate.replacement supersedeNode
    changeset.1.nodesAdded changeset.1.nodesUpdated changeset.1.nodesSuperseded graph.1.nodes nodes
    groups.addedNodes groups.updatedNodes groups.nodesSuperseded NodeUpdate.matching (fun _ => rfl)
  have edgeSteps (edges : List Edge) := @steps_iff Edge EdgeUpdate Edge.id EdgeUpdate.edgeId EdgeUpdate.replacement supersedeEdge
    changeset.1.edgesAdded changeset.1.edgesUpdated changeset.1.edgesSuperseded graph.1.edges edges
    groups.addedEdges groups.updatedEdges groups.edgesSuperseded EdgeUpdate.matching (fun _ => rfl)
  have nodesBefore := @present_before changeset.1.updatedNodes changeset.1.addedNodes graph.1.nodeIds
    fun id member added => (groups.nodesNew id added).1 member
  have nodesBefore' := @present_before changeset.1.nodesSuperseded changeset.1.addedNodes graph.1.nodeIds
    fun id member added => (groups.nodesNew id added).2 member
  have edgesBefore := @present_before changeset.1.updatedEdges changeset.1.addedEdges graph.1.edgeIds
    fun id member added => (groups.edgesNew id added).1 member
  have edgesBefore' := @present_before changeset.1.edgesSuperseded changeset.1.addedEdges graph.1.edgeIds
    fun id member added => (groups.edgesNew id added).2 member
  rw [applied_iff]
  constructor
  · intro found
    obtain ⟨nodes,edges,a⟩ := found
    have confidences := checks_iff.mp a.confidences
    have statuses := checks_iff.mp a.statuses
    obtain ⟨⟨nodesNew,nodesUpdated,nodesSuperseded⟩,rfl⟩ := (nodeSteps nodes).mp a.nodesApplied
    obtain ⟨⟨edgesNew,edgesUpdated,edgesSuperseded⟩,rfl⟩ := (edgeSteps edges).mp a.edgesApplied
    refine ⟨⟨a.baseline,?_,?_,?_,?_,?_,?_⟩,?_⟩
    · exact List.forall_mem_map.mpr nodesNew
    · intro id member
      rcases List.mem_append.mp member with explicit | derived
      · rcases List.mem_append.mp explicit with updated | superseded
        · refine nodesBefore.mp ?_ id updated
          simpa [ChangeSetDraft.updatedNodes,ChangeSetDraft.addedNodes,GraphDraft.nodeIds] using nodesUpdated
        · refine nodesBefore'.mp ?_ id superseded
          simpa [ChangeSetDraft.addedNodes,GraphDraft.nodeIds] using nodesSuperseded
      · rcases List.mem_append.mp derived with reassessed | reclaimed
        · obtain ⟨c,inside,rfl⟩ := List.mem_map.mp reassessed
          exact (checkConfidence_iff.mp (confidences c inside)).1
        · obtain ⟨c,inside,rfl⟩ := List.mem_map.mp reclaimed
          exact (checkStatus_iff.mp (statuses c inside)).1
    · exact List.forall_mem_map.mpr edgesNew
    · intro id member
      rcases List.mem_append.mp member with updated | superseded
      · refine edgesBefore.mp ?_ id updated
        simpa [ChangeSetDraft.updatedEdges,ChangeSetDraft.addedEdges,GraphDraft.edgeIds] using edgesUpdated
      · refine edgesBefore'.mp ?_ id superseded
        simpa [ChangeSetDraft.addedEdges,GraphDraft.edgeIds] using edgesSuperseded
    · exact fun c member => (checkConfidence_iff.mp (confidences c member)).2
    · exact fun c member => (checkStatus_iff.mp (statuses c member)).2
    · rw [a.result,applyChanges_map]
      simp only [declared,List.map_map]
      rfl
  · intro found
    obtain ⟨admitted,result⟩ := found
    have nodesThere (id : String) (member : id ∈ changeset.1.updatedNodes ++ changeset.1.nodesSuperseded) :=
      admitted.nodesPresent id (List.mem_append_left _ member)
    have derivedThere (id : String) (member : id ∈ changeset.1.reassessed ++ changeset.1.reclaimed) :=
      admitted.nodesPresent id (List.mem_append_right _ member)
    refine ⟨_,_,admitted.baseline,checks_iff.mpr ?_,checks_iff.mpr ?_,(nodeSteps _).mpr ⟨⟨?_,?_,?_⟩,rfl⟩,(edgeSteps _).mpr ⟨⟨?_,?_,?_⟩,rfl⟩,?_⟩
    · intro c member
      exact checkConfidence_iff.mpr ⟨derivedThere _ (List.mem_append_left _ (List.mem_map_of_mem member)),admitted.confidences c member⟩
    · intro c member
      exact checkStatus_iff.mpr ⟨derivedThere _ (List.mem_append_right _ (List.mem_map_of_mem member)),admitted.statuses c member⟩
    · exact fun n member => admitted.nodesFresh n.id (List.mem_map_of_mem member)
    · have present := nodesBefore.mpr fun id member => nodesThere id (List.mem_append_left _ member)
      simpa [ChangeSetDraft.updatedNodes,ChangeSetDraft.addedNodes,GraphDraft.nodeIds] using present
    · have present := nodesBefore'.mpr fun id member => nodesThere id (List.mem_append_right _ member)
      simpa [ChangeSetDraft.addedNodes,GraphDraft.nodeIds] using present
    · exact fun e member => admitted.edgesFresh e.id (List.mem_map_of_mem member)
    · have present := edgesBefore.mpr fun id member => admitted.edgesPresent id (List.mem_append_left _ member)
      simpa [ChangeSetDraft.updatedEdges,ChangeSetDraft.addedEdges,GraphDraft.edgeIds] using present
    · have present := edgesBefore'.mpr fun id member => admitted.edgesPresent id (List.mem_append_right _ member)
      simpa [ChangeSetDraft.addedEdges,GraphDraft.edgeIds] using present
    · rw [result,applyChanges_map]
      simp only [declared,List.map_map]
      rfl

-- Why an application is refused.
inductive Refused (graph : IntentGraph) (changeset : ChangeSet) : Prop where
  | stale (other : changeset.1.baselineGraphVersion ≠ graph.1.version)
  | nodeExists (id : String) (added : id ∈ changeset.1.addedNodes) (there : id ∈ graph.1.nodeIds)
  | edgeExists (id : String) (added : id ∈ changeset.1.addedEdges) (there : id ∈ graph.1.edgeIds)
  | nodeMissing (id : String)
      (mutated : id ∈ changeset.1.updatedNodes ++ changeset.1.nodesSuperseded ++ (changeset.1.reassessed ++ changeset.1.reclaimed))
      (missing : id ∉ graph.1.nodeIds)
  | edgeMissing (id : String) (mutated : id ∈ changeset.1.updatedEdges ++ changeset.1.edgesSuperseded) (missing : id ∉ graph.1.edgeIds)
  | confidencePrior (c : ConfidenceChange) (member : c ∈ changeset.1.confidenceChanges) (n : Node) (found : graph.node c.subjectRef = some n)
      (mismatch : equalOptions Confidence.equal n.intentFidelityConfidence (some c.priorConfidence) = false)
  | statusPrior (c : ImplementationStatusChange) (member : c ∈ changeset.1.implementationStatusChanges) (n : Node)
      (found : graph.node c.claimId = some n) (mismatch : n.implementationStatus.getD .unknown ≠ c.prior)
  | invariant (broken : (declared graph changeset).assertInvariants = false)

theorem refused_iff : Refused graph changeset ↔
    ¬(Admitted graph changeset ∧ (declared graph changeset).assertInvariants = true) := by
  constructor
  · intro refused both
    obtain ⟨admitted,valid⟩ := both
    cases refused with
    | stale other => exact other admitted.baseline
    | nodeExists id added there => exact admitted.nodesFresh id added there
    | edgeExists id added there => exact admitted.edgesFresh id added there
    | nodeMissing id mutated missing => exact missing (admitted.nodesPresent id mutated)
    | edgeMissing id mutated missing => exact missing (admitted.edgesPresent id mutated)
    | confidencePrior c member n found mismatch =>
      rw [admitted.confidences c member n found] at mismatch
      cases mismatch
    | statusPrior c member n found mismatch => exact mismatch (admitted.statuses c member n found)
    | invariant broken =>
      rw [valid] at broken
      cases broken
  · intro unfit
    by_contra kept
    apply unfit
    refine ⟨⟨?_,?_,?_,?_,?_,?_,?_⟩,?_⟩
    · by_contra other
      exact kept (.stale other)
    · exact fun id added there => kept (.nodeExists id added there)
    · intro id mutated
      by_contra missing
      exact kept (.nodeMissing id mutated missing)
    · exact fun id added there => kept (.edgeExists id added there)
    · intro id mutated
      by_contra missing
      exact kept (.edgeMissing id mutated missing)
    · intro c member n found
      by_contra mismatch
      exact kept (.confidencePrior c member n found (by simpa using mismatch))
    · intro c member n found
      by_contra mismatch
      exact kept (.statusPrior c member n found mismatch)
    · by_contra broken
      exact kept (.invariant (by simpa using broken))

theorem raises_iff : (∃ e, applyWithCaseEffects graph changeset = .error e) ↔ Refused graph changeset := by
  rw [refused_iff]
  constructor
  · intro raised both
    obtain ⟨e,raised⟩ := raised
    have applied := applied_declared.mpr ⟨both.1,show (⟨declared graph changeset,both.2⟩ : IntentGraph).1 = _ from rfl⟩
    rw [raised] at applied
    cases applied
  · intro unfit
    cases outcome : applyWithCaseEffects graph changeset with
    | error e => exact ⟨e,rfl⟩
    | ok next =>
      obtain ⟨admitted,result⟩ := applied_declared.mp outcome
      exact absurd ⟨admitted,result ▸ next.2⟩ unfit

section Result

theorem find_ordered {α : Type} {key : α → String} {xs : List α} {x : α} (distinct : ((inOrder key xs).map key).Nodup)
    (member : x ∈ xs) : find key (inOrder key xs) (key x) = some x := find_member distinct (inOrder_member.mpr member)

variable (applied : applyWithCaseEffects graph changeset = .ok next)
include applied

theorem result_node {n : Node} (member : n ∈ graph.1.nodes ++ changeset.1.nodesAdded) :
    next.node n.id = some (declaredNode changeset n) := by
  obtain ⟨_,result⟩ := applied_declared.mp applied
  have distinct := next.nodes_distinct
  rw [GraphDraft.nodeIds,result] at distinct
  have found := find_ordered distinct (List.mem_map_of_mem member)
  rw [declaredNode_id] at found
  rw [IntentGraph.node,result]
  exact found

theorem result_edge {e : Edge} (member : e ∈ graph.1.edges ++ changeset.1.edgesAdded) :
    find Edge.id next.1.edges e.id = some (declaredEdge changeset e) := by
  obtain ⟨_,result⟩ := applied_declared.mp applied
  have distinct := next.edges_distinct
  rw [GraphDraft.edgeIds,result] at distinct
  have found := find_ordered distinct (List.mem_map_of_mem member)
  rw [declaredEdge_id] at found
  rw [result]
  exact found

theorem result_nodeIds : ∀ id, id ∈ next.1.nodeIds ↔ id ∈ graph.1.nodeIds ∨ id ∈ changeset.1.addedNodes := by
  obtain ⟨_,result⟩ := applied_declared.mp applied
  intro id
  rw [GraphDraft.nodeIds,result,declared]
  dsimp only
  rw [((inOrder_perm _).map Node.id).mem_iff,List.map_map]
  have ids : (graph.1.nodes ++ changeset.1.nodesAdded).map (Node.id ∘ declaredNode changeset) =
      (graph.1.nodes ++ changeset.1.nodesAdded).map Node.id := List.map_congr_left fun n _ => declaredNode_id n
  rw [ids,List.map_append,List.mem_append]
  rfl

theorem result_edgeIds : ∀ id, id ∈ next.1.edgeIds ↔ id ∈ graph.1.edgeIds ∨ id ∈ changeset.1.addedEdges := by
  obtain ⟨_,result⟩ := applied_declared.mp applied
  intro id
  rw [GraphDraft.edgeIds,result,declared]
  dsimp only
  rw [((inOrder_perm _).map Edge.id).mem_iff,List.map_map]
  have ids : (graph.1.edges ++ changeset.1.edgesAdded).map (Edge.id ∘ declaredEdge changeset) =
      (graph.1.edges ++ changeset.1.edgesAdded).map Edge.id := List.map_congr_left fun e _ => declaredEdge_id e
  rw [ids,List.map_append,List.mem_append]
  rfl

end Result

-- A change set says of one node what it is to be.
structure Changed (changeset : ChangeSet) (n m : Node) : Prop where
  kept : m.id = n.id ∧ m.type = n.type ∧ m.label = n.label ∧ m.status = n.status ∧ m.createdBy = n.createdBy ∧
    m.createdAt = n.createdAt ∧ m.sourceMode = n.sourceMode
  reassessed : ∀ c ∈ changeset.1.confidenceChanges, c.subjectRef = n.id → m.intentFidelityConfidence = some c.newConfidence ∧
    m.confidenceBasis = some c.reason ∧ m.lastReassessedAt = some c.timestamp ∧
    (n.id ∉ changeset.1.reclaimed → m.lastModifiedBy = c.actor ∧ m.lastModifiedAt = c.timestamp)
  assessed : n.id ∉ changeset.1.reassessed → m.intentFidelityConfidence = n.intentFidelityConfidence ∧
    m.confidenceBasis = n.confidenceBasis ∧ m.lastReassessedAt = n.lastReassessedAt
  reclaimed : ∀ c ∈ changeset.1.implementationStatusChanges, c.claimId = n.id → m.implementationStatus = some c.new ∧
    m.lastModifiedBy = changeset.1.actor ∧ m.lastModifiedAt = changeset.1.timestamp
  claimed : n.id ∉ changeset.1.reclaimed → m.implementationStatus = n.implementationStatus
  once : m.evidenceRefs.Nodup
  merged : ∀ reference, reference ∈ m.evidenceRefs ↔ reference ∈ n.evidenceRefs ∨
    (∃ c ∈ changeset.1.confidenceChanges, c.subjectRef = n.id ∧ reference ∈ c.evidenceRefs) ∨
    ∃ c ∈ changeset.1.implementationStatusChanges, c.claimId = n.id ∧ reference ∈ c.evidenceRefs

theorem same_change {β : Type} {name : β → String} {batch : List β} (distinct : (batch.map name).Nodup) {a b : β} (first : a ∈ batch)
    (second : b ∈ batch) (same : name a = name b) : a = b := List.inj_on_of_nodup_map distinct first second same

theorem reassess_changed {n : Node} (plain : n.id ∉ changeset.1.reclaimed) {c : ConfidenceChange}
    (member : c ∈ changeset.1.confidenceChanges) (named : c.subjectRef = n.id) : Changed changeset n (reassess c n) := by
  have groups := grouped changeset
  have only (other : ConfidenceChange) (inside : other ∈ changeset.1.confidenceChanges) (same : other.subjectRef = n.id) : other = c :=
    same_change groups.reassessed inside member (same.trans named.symm)
  refine ⟨⟨rfl,rfl,rfl,rfl,rfl,rfl,rfl⟩,?_,?_,?_,fun _ => rfl,fromKeys_nodup _,?_⟩
  · intro other inside same
    rw [only other inside same]
    exact ⟨rfl,rfl,rfl,fun _ => ⟨rfl,rfl⟩⟩
  · exact fun absent => absurd (named ▸ List.mem_map_of_mem member) absent
  · intro other inside same
    exact absurd (same ▸ List.mem_map_of_mem inside) plain
  · intro reference
    simp only [reassess,mem_fromKeys,List.mem_append]
    refine or_congr_right ?_
    constructor
    · exact fun cited => .inl ⟨c,member,named,cited⟩
    · intro found
      rcases found with ⟨other,inside,same,cited⟩ | ⟨other,inside,same,_⟩
      · rw [only other inside same] at cited
        exact cited
      · exact absurd (same ▸ List.mem_map_of_mem inside) plain

theorem reclaim_changed {n : Node} (plain : n.id ∉ changeset.1.reassessed) {c : ImplementationStatusChange}
    (member : c ∈ changeset.1.implementationStatusChanges) (named : c.claimId = n.id) : Changed changeset n (reclaim changeset c n) := by
  have groups := grouped changeset
  have only (other : ImplementationStatusChange) (inside : other ∈ changeset.1.implementationStatusChanges) (same : other.claimId = n.id) :
      other = c := same_change groups.reclaimed inside member (same.trans named.symm)
  refine ⟨⟨rfl,rfl,rfl,rfl,rfl,rfl,rfl⟩,?_,fun _ => ⟨rfl,rfl,rfl⟩,?_,?_,fromKeys_nodup _,?_⟩
  · intro other inside same
    exact absurd (same ▸ List.mem_map_of_mem inside) plain
  · intro other inside same
    rw [only other inside same]
    exact ⟨rfl,rfl,rfl⟩
  · exact fun absent => absurd (named ▸ List.mem_map_of_mem member) absent
  · intro reference
    simp only [reclaim,mem_fromKeys,List.mem_append]
    refine or_congr_right ?_
    constructor
    · exact fun cited => .inr ⟨c,member,named,cited⟩
    · intro found
      rcases found with ⟨other,inside,same,_⟩ | ⟨other,inside,same,cited⟩
      · exact absurd (same ▸ List.mem_map_of_mem inside) plain
      · rw [only other inside same] at cited
        exact cited

theorem both_changed {n : Node} {c : ConfidenceChange} {claim : ImplementationStatusChange}
    (member : c ∈ changeset.1.confidenceChanges) (named : c.subjectRef = n.id)
    (member' : claim ∈ changeset.1.implementationStatusChanges) (named' : claim.claimId = n.id) :
    Changed changeset n (reclaim changeset claim (reassess c n)) := by
  have groups := grouped changeset
  have only (other : ConfidenceChange) (inside : other ∈ changeset.1.confidenceChanges) (same : other.subjectRef = n.id) : other = c :=
    same_change groups.reassessed inside member (same.trans named.symm)
  have only' (other : ImplementationStatusChange) (inside : other ∈ changeset.1.implementationStatusChanges)
      (same : other.claimId = n.id) : other = claim := same_change groups.reclaimed inside member' (same.trans named'.symm)
  refine ⟨⟨rfl,rfl,rfl,rfl,rfl,rfl,rfl⟩,?_,?_,?_,?_,fromKeys_nodup _,?_⟩
  · intro other inside same
    rw [only other inside same]
    exact ⟨rfl,rfl,rfl,fun absent => absurd (named' ▸ List.mem_map_of_mem member') absent⟩
  · exact fun absent => absurd (named ▸ List.mem_map_of_mem member) absent
  · intro other inside same
    rw [only' other inside same]
    exact ⟨rfl,rfl,rfl⟩
  · exact fun absent => absurd (named' ▸ List.mem_map_of_mem member') absent
  · intro reference
    simp only [reclaim,reassess,mem_fromKeys,List.mem_append,or_assoc]
    refine or_congr_right (or_congr ?_ ?_)
    · constructor
      · exact fun cited => ⟨c,member,named,cited⟩
      · intro found
        obtain ⟨other,inside,same,cited⟩ := found
        rw [only other inside same] at cited
        exact cited
    · constructor
      · exact fun cited => ⟨claim,member',named',cited⟩
      · intro found
        obtain ⟨other,inside,same,cited⟩ := found
        rw [only' other inside same] at cited
        exact cited

-- A node that only the derived groups name.
theorem derived_changed {n : Node} (updated : n.id ∉ changeset.1.updatedNodes) (superseded : n.id ∉ changeset.1.nodesSuperseded)
    (named : n.id ∈ changeset.1.reassessed ++ changeset.1.reclaimed) : Changed changeset n (declaredNode changeset n) := by
  have groups := grouped changeset
  have explicit : changed Node.id id (fun _ => supersedeNode) changeset.1.nodesSuperseded
      (changed Node.id NodeUpdate.nodeId (fun u _ => u.replacement) changeset.1.nodesUpdated n) = n := by
    rw [changed_other updated,changed_other (by rw [List.map_id]; exact superseded)]
  simp only [declaredNode,explicit]
  by_cases reassessed : n.id ∈ changeset.1.reassessed
  · obtain ⟨c,member,subject⟩ := List.mem_map.mp reassessed
    rw [changed_member groups.reassessed member subject.symm]
    by_cases reclaimed : n.id ∈ changeset.1.reclaimed
    · obtain ⟨claim,member',subject'⟩ := List.mem_map.mp reclaimed
      rw [changed_member (x := reassess c n) groups.reclaimed member' subject'.symm]
      exact both_changed member subject member' subject'
    · rw [changed_other (x := reassess c n) reclaimed]
      exact reassess_changed reclaimed member subject
  · have reclaimed : n.id ∈ changeset.1.reclaimed := (List.mem_append.mp named).resolve_left reassessed
    obtain ⟨claim,member',subject'⟩ := List.mem_map.mp reclaimed
    rw [changed_other reassessed,changed_member groups.reclaimed member' subject'.symm]
    exact reclaim_changed reassessed member' subject'

-- The new graph, node by node and edge by edge.
structure Effected (graph next : IntentGraph) (changeset : ChangeSet) : Prop where
  version : next.1.version = graph.1.version + 1
  header : next.1 = {graph.1 with version := next.1.version, nodes := next.1.nodes, edges := next.1.edges}
  nodesSorted : next.1.nodes.Pairwise fun a b => a.id < b.id
  edgesSorted : next.1.edges.Pairwise fun a b => a.id < b.id
  nodeFrame : ∀ id, id ∉ changeset.1.addedNodes ++ (changeset.1.updatedNodes ++ changeset.1.nodesSuperseded ++
    (changeset.1.reassessed ++ changeset.1.reclaimed)) → next.node id = graph.node id
  nodesAdded : ∀ n ∈ changeset.1.nodesAdded, next.node n.id = some n
  nodesUpdated : ∀ u ∈ changeset.1.nodesUpdated, next.node u.nodeId = some u.replacement
  nodesSuperseded : ∀ id ∈ changeset.1.nodesSuperseded, ∃ n, graph.node id = some n ∧ next.node id = some {n with status := "superseded"}
  nodesChanged : ∀ id ∈ changeset.1.reassessed ++ changeset.1.reclaimed, ∃ n m, graph.node id = some n ∧ next.node id = some m ∧
    Changed changeset n m
  edgeFrame : ∀ id, id ∉ changeset.1.addedEdges ++ (changeset.1.updatedEdges ++ changeset.1.edgesSuperseded) →
    find Edge.id next.1.edges id = find Edge.id graph.1.edges id
  edgesAdded : ∀ e ∈ changeset.1.edgesAdded, find Edge.id next.1.edges e.id = some e
  edgesUpdated : ∀ u ∈ changeset.1.edgesUpdated, find Edge.id next.1.edges u.edgeId = some u.replacement
  edgesSuperseded : ∀ id ∈ changeset.1.edgesSuperseded, ∃ e, find Edge.id graph.1.edges id = some e ∧
    find Edge.id next.1.edges id = some {e with status := "superseded"}

theorem old_node {id : String} (there : id ∈ graph.1.nodeIds) : ∃ n ∈ graph.1.nodes, n.id = id ∧ graph.node id = some n := by
  obtain ⟨n,member,rfl⟩ := List.mem_map.mp there
  exact ⟨n,member,rfl,find_member graph.nodes_distinct member⟩

theorem old_edge {id : String} (there : id ∈ graph.1.edgeIds) :
    ∃ e ∈ graph.1.edges, e.id = id ∧ find Edge.id graph.1.edges id = some e := by
  obtain ⟨e,member,rfl⟩ := List.mem_map.mp there
  exact ⟨e,member,rfl,find_member graph.edges_distinct member⟩

theorem declaredNode_plain {n : Node} (updated : n.id ∉ changeset.1.updatedNodes) (superseded : n.id ∉ changeset.1.nodesSuperseded)
    (reassessed : n.id ∉ changeset.1.reassessed) (reclaimed : n.id ∉ changeset.1.reclaimed) : declaredNode changeset n = n := by
  have superseded' : n.id ∉ changeset.1.nodesSuperseded.map id := by
    rw [List.map_id]
    exact superseded
  rw [declaredNode,changed_other updated,changed_other superseded',changed_other reassessed,changed_other reclaimed]

theorem declaredEdge_plain {e : Edge} (updated : e.id ∉ changeset.1.updatedEdges) (superseded : e.id ∉ changeset.1.edgesSuperseded) :
    declaredEdge changeset e = e := by
  rw [declaredEdge,changed_other updated,changed_other (by rw [List.map_id]; exact superseded)]

theorem declaredNode_updated {u : NodeUpdate} (member : u ∈ changeset.1.nodesUpdated) {n : Node} (named : n.id = u.nodeId) :
    declaredNode changeset n = u.replacement := by
  have groups := grouped changeset
  have updated : u.replacement.id ∈ changeset.1.updatedNodes := u.matching ▸ List.mem_map_of_mem member
  have derived (id : String) (inside : id ∈ changeset.1.reassessed ++ changeset.1.reclaimed) (same : id = u.replacement.id) : False :=
    (groups.derived id inside).2.1 (same ▸ updated)
  have superseded : u.replacement.id ∉ changeset.1.nodesSuperseded.map id := by
    rw [List.map_id]
    exact groups.nodesOnce _ updated
  rw [declaredNode,changed_member groups.updatedNodes member named,changed_other superseded,
    changed_other (fun inside => derived _ (List.mem_append_left _ inside) rfl),
    changed_other (fun inside => derived _ (List.mem_append_right _ inside) rfl)]

theorem declaredNode_superseded {n : Node} (member : n.id ∈ changeset.1.nodesSuperseded) :
    declaredNode changeset n = {n with status := "superseded"} := by
  have groups := grouped changeset
  have updated : n.id ∉ changeset.1.updatedNodes := fun inside => groups.nodesOnce _ inside member
  have once : (changeset.1.nodesSuperseded.map id).Nodup := by
    rw [List.map_id]
    exact groups.nodesSuperseded
  have derived (inside : n.id ∈ changeset.1.reassessed ++ changeset.1.reclaimed) : False := (groups.derived _ inside).2.2 member
  have step : changed Node.id id (fun _ => supersedeNode) changeset.1.nodesSuperseded n = supersedeNode n := changed_member once member rfl
  rw [declaredNode,changed_other updated,step,
    changed_other (x := supersedeNode n) (fun inside => derived (List.mem_append_left _ inside)),
    changed_other (x := supersedeNode n) (fun inside => derived (List.mem_append_right _ inside))]
  rfl

theorem declaredEdge_updated {u : EdgeUpdate} (member : u ∈ changeset.1.edgesUpdated) {e : Edge} (named : e.id = u.edgeId) :
    declaredEdge changeset e = u.replacement := by
  have groups := grouped changeset
  have superseded : u.replacement.id ∉ changeset.1.edgesSuperseded.map id := by
    rw [List.map_id]
    exact groups.edgesOnce _ (u.matching ▸ List.mem_map_of_mem member)
  rw [declaredEdge,changed_member groups.updatedEdges member named,changed_other superseded]

theorem declaredEdge_superseded {e : Edge} (member : e.id ∈ changeset.1.edgesSuperseded) :
    declaredEdge changeset e = {e with status := "superseded"} := by
  have groups := grouped changeset
  have updated : e.id ∉ changeset.1.updatedEdges := fun inside => groups.edgesOnce _ inside member
  have once : (changeset.1.edgesSuperseded.map id).Nodup := by
    rw [List.map_id]
    exact groups.edgesSuperseded
  have step : changed Edge.id id (fun _ => supersedeEdge) changeset.1.edgesSuperseded e = supersedeEdge e := changed_member once member rfl
  rw [declaredEdge,changed_other updated,step]
  rfl

theorem applied_effected (applied : applyWithCaseEffects graph changeset = .ok next) : Effected graph next changeset := by
  have groups := grouped changeset
  obtain ⟨admitted,result⟩ := applied_declared.mp applied
  have oldNode {n : Node} (member : n ∈ graph.1.nodes) := result_node applied (List.mem_append_left changeset.1.nodesAdded member)
  have oldEdge {e : Edge} (member : e ∈ graph.1.edges) := result_edge applied (List.mem_append_left changeset.1.edgesAdded member)
  refine ⟨by rw [result]; rfl,by rw [result]; rfl,?_,?_,?_,?_,?_,?_,?_,?_,?_,?_,?_⟩
  · have distinct := next.nodes_distinct
    rw [GraphDraft.nodeIds,result] at distinct
    rw [result]
    exact inOrder_strict (((inOrder_perm _).map Node.id).nodup_iff.mp distinct)
  · have distinct := next.edges_distinct
    rw [GraphDraft.edgeIds,result] at distinct
    rw [result]
    exact inOrder_strict (((inOrder_perm _).map Edge.id).nodup_iff.mp distinct)
  · intro id unnamed
    simp only [List.mem_append,not_or] at unnamed
    obtain ⟨added,⟨updated,superseded⟩,reassessed,reclaimed⟩ := unnamed
    by_cases there : id ∈ graph.1.nodeIds
    · obtain ⟨n,member,rfl,found⟩ := old_node there
      rw [oldNode member,found,declaredNode_plain updated superseded reassessed reclaimed]
    · have absent : id ∉ next.1.nodeIds := by
        rw [result_nodeIds applied id]
        exact not_or.mpr ⟨there,added⟩
      exact (find_none.mpr absent).trans (find_none.mpr there).symm
  · intro n member
    have named : n.id ∈ changeset.1.addedNodes := List.mem_map_of_mem member
    have derived (inside : n.id ∈ changeset.1.reassessed ++ changeset.1.reclaimed) : False := (groups.derived _ inside).1 named
    rw [result_node applied (List.mem_append_right _ member),declaredNode_plain (groups.nodesNew _ named).1 (groups.nodesNew _ named).2
      (fun inside => derived (List.mem_append_left _ inside)) (fun inside => derived (List.mem_append_right _ inside))]
  · intro u member
    have present := admitted.nodesPresent u.nodeId (List.mem_append_left _ (List.mem_append_left _ (List.mem_map_of_mem member)))
    obtain ⟨n,inside,named,_⟩ := old_node present
    rw [←named,oldNode inside,declaredNode_updated member named]
  · intro id member
    have present := admitted.nodesPresent id (List.mem_append_left _ (List.mem_append_right _ member))
    obtain ⟨n,inside,rfl,found⟩ := old_node present
    exact ⟨n,found,by rw [oldNode inside,declaredNode_superseded member]⟩
  · intro id member
    obtain ⟨n,inside,rfl,found⟩ := old_node (admitted.nodesPresent id (List.mem_append_right _ member))
    obtain ⟨_,updated,superseded⟩ := groups.derived _ member
    exact ⟨n,_,found,oldNode inside,derived_changed updated superseded member⟩
  · intro id unnamed
    simp only [List.mem_append,not_or] at unnamed
    obtain ⟨added,updated,superseded⟩ := unnamed
    by_cases there : id ∈ graph.1.edgeIds
    · obtain ⟨e,member,rfl,found⟩ := old_edge there
      rw [oldEdge member,found,declaredEdge_plain updated superseded]
    · have absent : id ∉ next.1.edgeIds := by
        rw [result_edgeIds applied id]
        exact not_or.mpr ⟨there,added⟩
      exact (find_none.mpr absent).trans (find_none.mpr there).symm
  · intro e member
    have named : e.id ∈ changeset.1.addedEdges := List.mem_map_of_mem member
    rw [result_edge applied (List.mem_append_right _ member),declaredEdge_plain (groups.edgesNew _ named).1 (groups.edgesNew _ named).2]
  · intro u member
    have present := admitted.edgesPresent u.edgeId (List.mem_append_left _ (List.mem_map_of_mem member))
    obtain ⟨e,inside,named,_⟩ := old_edge present
    rw [←named,oldEdge inside,declaredEdge_updated member named]
  · intro id member
    obtain ⟨e,inside,rfl,found⟩ := old_edge (admitted.edgesPresent id (List.mem_append_right _ member))
    exact ⟨e,found,by rw [oldEdge inside,declaredEdge_superseded member]⟩

-- The same change set with the entries of its groups in another order.
structure Permuted (a b : ChangeSetDraft) : Prop where
  rest : b = {a with
    nodesAdded := b.nodesAdded
    nodesUpdated := b.nodesUpdated
    nodesSuperseded := b.nodesSuperseded
    edgesAdded := b.edgesAdded
    edgesUpdated := b.edgesUpdated
    edgesSuperseded := b.edgesSuperseded
    confidenceChanges := b.confidenceChanges
    implementationStatusChanges := b.implementationStatusChanges
    reconciliationCasesCreated := b.reconciliationCasesCreated
    reconciliationCasesResolved := b.reconciliationCasesResolved}
  nodesAdded : a.nodesAdded.Perm b.nodesAdded
  nodesUpdated : a.nodesUpdated.Perm b.nodesUpdated
  nodesSuperseded : a.nodesSuperseded.Perm b.nodesSuperseded
  edgesAdded : a.edgesAdded.Perm b.edgesAdded
  edgesUpdated : a.edgesUpdated.Perm b.edgesUpdated
  edgesSuperseded : a.edgesSuperseded.Perm b.edgesSuperseded
  confidenceChanges : a.confidenceChanges.Perm b.confidenceChanges
  implementationStatusChanges : a.implementationStatusChanges.Perm b.implementationStatusChanges
  reconciliationCasesCreated : a.reconciliationCasesCreated.Perm b.reconciliationCasesCreated
  reconciliationCasesResolved : a.reconciliationCasesResolved.Perm b.reconciliationCasesResolved

section Permutation
variable {other : ChangeSet} (permuted : Permuted changeset.1 other.1)
include permuted

theorem permuted_fields : other.1.baselineGraphVersion = changeset.1.baselineGraphVersion ∧ other.1.actor = changeset.1.actor ∧
    other.1.timestamp = changeset.1.timestamp := by
  rw [permuted.rest]
  exact ⟨rfl,rfl,rfl⟩

theorem permuted_admitted (admitted : Admitted graph changeset) : Admitted graph other := by
  have added := permuted.nodesAdded.map Node.id
  have updated := permuted.nodesUpdated.map NodeUpdate.nodeId
  have reassessed := permuted.confidenceChanges.map ConfidenceChange.subjectRef
  have reclaimed := permuted.implementationStatusChanges.map ImplementationStatusChange.claimId
  have mutated := (updated.append permuted.nodesSuperseded).append (reassessed.append reclaimed)
  have edges := (permuted.edgesUpdated.map EdgeUpdate.edgeId).append permuted.edgesSuperseded
  refine ⟨(permuted_fields permuted).1.trans admitted.baseline,?_,?_,?_,?_,?_,?_⟩
  · exact fun id member => admitted.nodesFresh id (added.mem_iff.mpr member)
  · exact fun id member => admitted.nodesPresent id (mutated.mem_iff.mpr member)
  · exact fun id member => admitted.edgesFresh id ((permuted.edgesAdded.map Edge.id).mem_iff.mpr member)
  · exact fun id member => admitted.edgesPresent id (edges.mem_iff.mpr member)
  · exact fun c member => admitted.confidences c (permuted.confidenceChanges.mem_iff.mpr member)
  · exact fun c member => admitted.statuses c (permuted.implementationStatusChanges.mem_iff.mpr member)

theorem permuted_reclaim : reclaim other = reclaim changeset := by
  obtain ⟨_,actor,timestamp⟩ := permuted_fields permuted
  funext c n
  rw [reclaim,reclaim,actor,timestamp]

theorem permuted_node (n : Node) : declaredNode other n = declaredNode changeset n := by
  have groups := grouped changeset
  have once : (changeset.1.nodesSuperseded.map id).Nodup := by
    rw [List.map_id]
    exact groups.nodesSuperseded
  simp only [declaredNode,permuted_reclaim permuted,changed_perm groups.updatedNodes permuted.nodesUpdated,
    changed_perm once permuted.nodesSuperseded,changed_perm groups.reassessed permuted.confidenceChanges,
    changed_perm groups.reclaimed permuted.implementationStatusChanges]

theorem permuted_edge (e : Edge) : declaredEdge other e = declaredEdge changeset e := by
  have groups := grouped changeset
  have once : (changeset.1.edgesSuperseded.map id).Nodup := by
    rw [List.map_id]
    exact groups.edgesSuperseded
  simp only [declaredEdge,changed_perm groups.updatedEdges permuted.edgesUpdated,changed_perm once permuted.edgesSuperseded]

theorem permuted_declared (admitted : Admitted graph changeset) : declared graph other = declared graph changeset := by
  have groups := grouped changeset
  have nodeIds : ((graph.1.nodes ++ changeset.1.nodesAdded).map (declaredNode changeset)).map Node.id =
      graph.1.nodeIds ++ changeset.1.addedNodes := by
    rw [List.map_map,show (Node.id ∘ declaredNode changeset) = Node.id from funext declaredNode_id,List.map_append]
    rfl
  have edgeIds : ((graph.1.edges ++ changeset.1.edgesAdded).map (declaredEdge changeset)).map Edge.id =
      graph.1.edgeIds ++ changeset.1.addedEdges := by
    rw [List.map_map,show (Edge.id ∘ declaredEdge changeset) = Edge.id from funext declaredEdge_id,List.map_append]
    rfl
  have nodesOnce : (((graph.1.nodes ++ changeset.1.nodesAdded).map (declaredNode changeset)).map Node.id).Nodup := by
    rw [nodeIds]
    exact graph.nodes_distinct.append groups.addedNodes fun id there added => admitted.nodesFresh id added there
  have edgesOnce : (((graph.1.edges ++ changeset.1.edgesAdded).map (declaredEdge changeset)).map Edge.id).Nodup := by
    rw [edgeIds]
    exact graph.edges_distinct.append groups.addedEdges fun id there added => admitted.edgesFresh id added there
  have nodes := inOrder_congr nodesOnce ((permuted.nodesAdded.append_left graph.1.nodes).map (declaredNode changeset))
  have edges := inOrder_congr edgesOnce ((permuted.edgesAdded.append_left graph.1.edges).map (declaredEdge changeset))
  simp only [declared,funext (permuted_node permuted),funext (permuted_edge permuted),nodes,edges]

end Permutation

theorem Permuted.symm {a b : ChangeSetDraft} (permuted : Permuted a b) : Permuted b a := by
  refine ⟨?_,permuted.nodesAdded.symm,permuted.nodesUpdated.symm,permuted.nodesSuperseded.symm,permuted.edgesAdded.symm,
    permuted.edgesUpdated.symm,permuted.edgesSuperseded.symm,permuted.confidenceChanges.symm,permuted.implementationStatusChanges.symm,
    permuted.reconciliationCasesCreated.symm,permuted.reconciliationCasesResolved.symm⟩
  rw [permuted.rest]

end Valid

-- The applier raises exactly when refused, gives the declared graph otherwise,
-- and does not see the order of the entries.
theorem application_spec (graph : IntentGraph) (changeset : ChangeSet) :
    ((∃ e, applyWithCaseEffects graph changeset = .error e) ↔ Refused graph changeset) ∧
    (∀ next, applyWithCaseEffects graph changeset = .ok next → Effected graph next changeset) ∧
    ∀ other : ChangeSet, Permuted changeset.1 other.1 →
      ∀ next, applyWithCaseEffects graph changeset = .ok next ↔ applyWithCaseEffects graph other = .ok next := by
  refine ⟨raises_iff,fun _ applied => applied_effected applied,fun other permuted next => ?_⟩
  rw [applied_declared,applied_declared]
  constructor
  · intro found
    obtain ⟨admitted,result⟩ := found
    exact ⟨permuted_admitted permuted admitted,by rw [result,permuted_declared permuted admitted]⟩
  · intro found
    obtain ⟨admitted,result⟩ := found
    exact ⟨permuted_admitted permuted.symm admitted,by rw [result,permuted_declared permuted.symm admitted]⟩

end Applier
