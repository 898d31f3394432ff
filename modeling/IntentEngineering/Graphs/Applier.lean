import IntentEngineering.Library.Keyed
import IntentEngineering.Models.Graph

inductive GraphApplicationError where
  | staleGraphVersion (expected actual : Nat)
  | duplicateIdentity (identity : String)
  | unknownIdentity (identity : String)
  | confidencePriorMismatch (subject : String)
  | implementationPriorMismatch (claim : String)
  | caseEffectsRequireExecutor
  | invalidGraph
deriving DecidableEq

namespace Applier
open Keyed

abbrev Applied := Except GraphApplicationError

def checkConfidence (nodes : List Node) (c : ConfidenceChange) : Applied Unit :=
  match find Node.id nodes c.subjectRef with
  | none => .error (.unknownIdentity c.subjectRef)
  | some current =>
    if equalOptions Confidence.equal current.intentFidelityConfidence (some c.priorConfidence) then .ok ()
    else .error (.confidencePriorMismatch c.subjectRef)

def checkStatus (nodes : List Node) (c : ImplementationStatusChange) : Applied Unit :=
  match find Node.id nodes c.claimId with
  | none => .error (.unknownIdentity c.claimId)
  | some current =>
    if current.implementationStatus.getD .unknown = c.prior then .ok () else .error (.implementationPriorMismatch c.claimId)

section Groups
variable {α : Type} (key : α → String)

def add (xs : List α) (x : α) : Applied (List α) :=
  if (find key xs (key x)).isSome then .error (.duplicateIdentity (key x)) else .ok (xs ++ [x])

def modify (xs : List α) (name : String) (change : α → α) : Applied (List α) :=
  if (find key xs name).isSome then .ok (replace key xs name change) else .error (.unknownIdentity name)

end Groups

def supersedeNode (n : Node) : Node := {n with status := "superseded"}
def supersedeEdge (e : Edge) : Edge := {e with status := "superseded"}

def reassess (c : ConfidenceChange) (n : Node) : Node :=
  {n with
    intentFidelityConfidence := some c.newConfidence
    confidenceBasis := some c.reason
    lastReassessedAt := some c.timestamp
    lastModifiedBy := c.actor
    lastModifiedAt := c.timestamp
    evidenceRefs := fromKeys (n.evidenceRefs ++ c.evidenceRefs)}

def reclaim (changeset : ChangeSet) (c : ImplementationStatusChange) (n : Node) : Node :=
  {n with
    implementationStatus := some c.new
    lastModifiedBy := changeset.1.actor
    lastModifiedAt := changeset.1.timestamp
    evidenceRefs := fromKeys (n.evidenceRefs ++ c.evidenceRefs)}

def applyNodes (nodes : List Node) (changeset : ChangeSet) : Applied (List Node) := do
  let nodes ← changeset.1.nodesAdded.foldlM (add Node.id) nodes
  let nodes ← changeset.1.nodesUpdated.foldlM (fun nodes u => modify Node.id nodes u.nodeId fun _ => u.replacement) nodes
  changeset.1.nodesSuperseded.foldlM (fun nodes id => modify Node.id nodes id supersedeNode) nodes

def applyEdges (edges : List Edge) (changeset : ChangeSet) : Applied (List Edge) := do
  let edges ← changeset.1.edgesAdded.foldlM (add Edge.id) edges
  let edges ← changeset.1.edgesUpdated.foldlM (fun edges u => modify Edge.id edges u.edgeId fun _ => u.replacement) edges
  changeset.1.edgesSuperseded.foldlM (fun edges id => modify Edge.id edges id supersedeEdge) edges

-- The two groups of node changes that keep their prior state beside them.
def applyChanges (nodes : List Node) (changeset : ChangeSet) : List Node :=
  let nodes := changeset.1.confidenceChanges.foldl (fun nodes c => replace Node.id nodes c.subjectRef (reassess c)) nodes
  changeset.1.implementationStatusChanges.foldl (fun nodes c => replace Node.id nodes c.claimId (reclaim changeset c)) nodes

def validateGraph (g : GraphDraft) : Applied IntentGraph :=
  if valid : g.assertInvariants = true then .ok ⟨g,valid⟩ else .error .invalidGraph

-- `apply_changeset_with_case_effects`
def applyWithCaseEffects (graph : IntentGraph) (changeset : ChangeSet) : Applied IntentGraph := do
  if changeset.1.baselineGraphVersion ≠ graph.1.version then
    throw (.staleGraphVersion changeset.1.baselineGraphVersion graph.1.version)
  changeset.1.confidenceChanges.forM (checkConfidence graph.1.nodes)
  changeset.1.implementationStatusChanges.forM (checkStatus graph.1.nodes)
  let nodes ← applyNodes graph.1.nodes changeset
  let edges ← applyEdges graph.1.edges changeset
  validateGraph {graph.1 with
    version := graph.1.version + 1
    nodes := inOrder Node.id (applyChanges nodes changeset)
    edges := inOrder Edge.id edges}

def applyChangeset (graph : IntentGraph) (changeset : ChangeSet) : Applied IntentGraph :=
  if changeset.1.reconciliationCasesCreated ≠ [] ∨ changeset.1.reconciliationCasesResolved ≠ [] then
    .error .caseEffectsRequireExecutor
  else applyWithCaseEffects graph changeset

section
variable {graph next : IntentGraph} {changeset : ChangeSet}

theorem validateGraph_iff {g : GraphDraft} : validateGraph g = .ok next ↔ next.1 = g := by
  unfold validateGraph
  split
  · rename_i valid
    constructor
    · intro same
      cases same
      rfl
    · intro same
      cases same
      rfl
  · rename_i invalid
    constructor
    · intro same
      cases same
    · intro same
      exact absurd (same ▸ next.2) invalid

-- What an accepted application says about its change set and its result.
structure Applies (graph : IntentGraph) (changeset : ChangeSet) (next : IntentGraph) (nodes : List Node) (edges : List Edge) : Prop where
  baseline : changeset.1.baselineGraphVersion = graph.1.version
  confidences : changeset.1.confidenceChanges.forM (checkConfidence graph.1.nodes) = .ok ()
  statuses : changeset.1.implementationStatusChanges.forM (checkStatus graph.1.nodes) = .ok ()
  nodesApplied : applyNodes graph.1.nodes changeset = .ok nodes
  edgesApplied : applyEdges graph.1.edges changeset = .ok edges
  result : next.1 = {graph.1 with
    version := graph.1.version + 1
    nodes := inOrder Node.id (applyChanges nodes changeset)
    edges := inOrder Edge.id edges}

theorem applied_iff : applyWithCaseEffects graph changeset = .ok next ↔ ∃ nodes edges, Applies graph changeset next nodes edges := by
  constructor
  · intro applied
    unfold applyWithCaseEffects at applied
    split at applied
    · cases applied
    · rename_i current
      cases confidences : changeset.1.confidenceChanges.forM (checkConfidence graph.1.nodes) with
      | error e => simp [confidences,bind,Except.bind] at applied
      | ok done =>
      cases statuses : changeset.1.implementationStatusChanges.forM (checkStatus graph.1.nodes) with
      | error e => simp [confidences,statuses,bind,Except.bind] at applied
      | ok done' =>
      cases nodesApplied : applyNodes graph.1.nodes changeset with
      | error e => simp [confidences,statuses,nodesApplied,bind,Except.bind] at applied
      | ok nodes =>
      cases edgesApplied : applyEdges graph.1.edges changeset with
      | error e => simp [confidences,statuses,nodesApplied,edgesApplied,bind,Except.bind] at applied
      | ok edges =>
        simp only [confidences,statuses,nodesApplied,edgesApplied,bind,Except.bind] at applied
        exact ⟨nodes,edges,by simpa using current,confidences,statuses,nodesApplied,edgesApplied,validateGraph_iff.mp applied⟩
  · intro found
    obtain ⟨nodes,edges,a⟩ := found
    have valid := validateGraph_iff.mpr a.result
    unfold applyWithCaseEffects
    rw [if_neg (not_not_intro a.baseline)]
    simp only [a.confidences,a.statuses,a.nodesApplied,a.edgesApplied,bind,Except.bind]
    exact valid

theorem applied_version (applied : applyWithCaseEffects graph changeset = .ok next) :
    changeset.1.baselineGraphVersion = graph.1.version ∧ next.1.version = graph.1.version + 1 := by
  obtain ⟨nodes,edges,a⟩ := applied_iff.mp applied
  exact ⟨a.baseline,by rw [a.result]⟩

theorem applyChangeset_iff : applyChangeset graph changeset = .ok next ↔
    (changeset.1.reconciliationCasesCreated = [] ∧ changeset.1.reconciliationCasesResolved = []) ∧
      applyWithCaseEffects graph changeset = .ok next := by
  unfold applyChangeset
  split
  · rename_i effects
    constructor
    · intro impossible
      cases impossible
    · intro plain
      rcases effects with created | resolved
      · exact absurd plain.1.1 created
      · exact absurd plain.1.2 resolved
  · rename_i plain
    simp only [not_or,not_not] at plain
    simp [plain]

end

end Applier
