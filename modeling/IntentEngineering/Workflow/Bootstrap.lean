import IntentEngineering.Context.Provider
import IntentEngineering.Storage.Executor
import IntentEngineering.Stores.ProposalLedger
import Mathlib.Data.List.DropRight

open Schema LocalTransaction

-- `_require_utc`
def requireUtc (t : DateTime) : Option UtcTime := if utc : t.offset = some 0 then some ⟨t,utc⟩ else none

-- What the agent submits, before the bounds have been checked.
structure SubmissionDraft where
  baselineGraphVersion : Nat
  actor : String
  timestamp : UtcTime
  evidenceRefs : List String
  sourceRoles : SourceRoles
  candidateNodes : List Node
  candidateEdges : List Edge
  coreNodeIds : List String
  provisionalNodeIds : List String
  assumptions : List String
  unansweredQuestions : List String
  conflictingAuthors : List String
  destructive : Bool

namespace SubmissionDraft

def maxCandidates : Nat := 10000
def maxReferences : Nat := 10000
def maxReviewItems : Nat := 256

-- The field bounds and `require_unique_values`.
def valid (s : SubmissionDraft) : Bool :=
  bounded 1 256 s.actor && decide (s.evidenceRefs.length ≤ maxReferences) &&
    decide (s.sourceRoles.assignments.length ≤ maxReferences) && decide (s.candidateNodes.length ≤ maxCandidates) &&
    decide (s.candidateEdges.length ≤ maxCandidates) && decide (s.coreNodeIds.length ≤ maxCandidates) &&
    decide (s.provisionalNodeIds.length ≤ maxCandidates) && decide (s.assumptions.length ≤ maxReviewItems) &&
    decide (s.unansweredQuestions.length ≤ maxReviewItems) && decide (s.conflictingAuthors.length ≤ maxReviewItems) &&
    decide s.evidenceRefs.Nodup && decide s.coreNodeIds.Nodup && decide s.provisionalNodeIds.Nodup &&
    decide s.conflictingAuthors.Nodup

end SubmissionDraft

abbrev BootstrapSubmission := {s : SubmissionDraft // s.valid = true}

structure BootstrapReview where
  proposalId : String
  proposalDigest : String
  baselineGraphVersion : Int
  coreNodes : List Node
  provisionalNodes : List Node
  candidateEdges : List Edge
  candidateChangeset : ChangeSet
  assumptions : List String
  unansweredQuestions : List String

namespace BootstrapReview

def allNodes (r : BootstrapReview) : List Node := r.coreNodes ++ r.provisionalNodes

-- `validate_projection`
def validateProjection (r : BootstrapReview) : Bool :=
  let ids := r.allNodes.map Node.id
  ids.all r.candidateChangeset.1.addedNodes.contains && r.candidateChangeset.1.addedNodes.all ids.contains

end BootstrapReview

-- A change set named by the hash of the rest of it: `_changeset_id`.
def ChangeSetDraft.identified (kind : String) (c : ChangeSetDraft) : ChangeSetDraft :=
  {c with id := "changeset:" ++ kind ++ ":" ++ canonicalDigest (without "id" ((ChangeSetDraft.codec canonicalOnly false).dump c))}

def ChangeSet.identify (kind : String) (c : ChangeSetDraft) : Option ChangeSet :=
  if valid : c.validateMutations = true then some ⟨c.identified kind,valid⟩ else none

-- The same of a proposal and of a decision, whose validators repeat the hash.
def ProposalDraft.identified (p : ProposalDraft) : ProposalDraft := {p with id := "proposal:" ++ p.digest}

def IntentProposal.identify (p : ProposalDraft) : Option IntentProposal :=
  if valid : p.identified.valid = true then some ⟨p.identified,valid⟩ else none

def DecisionDraft.identified (d : DecisionDraft) : DecisionDraft := {d with id := "proposal-decision:" ++ d.digest}

def ProposalDecisionRecord.identify (d : DecisionDraft) : Option ProposalDecisionRecord :=
  if valid : d.identified.valid = true then some ⟨d.identified,valid⟩ else none

namespace BootstrapService

-- What the service asks of the transactions it is built over.
def requiredTargets : List String := ["cases","evidence","graph","history","intent_proposals"]

-- `_review_for`
def reviewFor (p : IntentProposal) : Option BootstrapReview := do
  let coreNodes ← p.1.coreNodeIds.mapM fun id => Keyed.find Node.id p.1.changeset.1.nodesAdded id
  let provisionalNodes ← p.1.provisionalNodeIds.mapM fun id => Keyed.find Node.id p.1.changeset.1.nodesAdded id
  let review : BootstrapReview := ⟨p.1.id,p.1.digest,p.1.baselineGraphVersion,coreNodes,provisionalNodes,p.1.changeset.1.edgesAdded,
    p.1.changeset,p.1.assumptions,p.1.unansweredQuestions⟩
  if review.validateProjection then some review else none

structure Snapshot where
  graph : IntentGraph
  evidence : EvidenceIndex

section
variable (env : WriteEnv) (config : ProjectConfig SourceRoles)

-- `_snapshot`
def snapshot (contents : Contents) : Option Snapshot := do
  let graph ← (contents "graph").bind (GraphStore.parseGraph env.lax env.yaml)
  let evidence ← (EvidenceStore.parseEvidenceLines env.lax (contents "evidence")).toOption
  return ⟨graph,evidence⟩

-- `_validate_principals`
def validatePrincipals (principals : List String) : Bool := !principals.isEmpty && principals.all (· != "")

-- `_principals` of the access policy.
def principalsOf (principals : List String) : List String := if principals.contains "" then [] else principals

def refsAllowed (references : List String) (records : List EvidenceRecord) (principals : List String) : Bool :=
  references.all fun reference =>
    (Keyed.latest EvidenceRecord.id records reference).any (Audience.principals (principalsOf principals)).reads

-- A scope above the locator.
def inherits (assignment : SourceRoleAssignment) (locator : String) : Bool :=
  assignment.inherited && (assignment.scope.toList.rdropWhile (· == '/') ++ ['/']).isPrefixOf locator.toList

-- `max(..., key=...)` keeps the first of the longest scopes.
def longestScope : List SourceRoleAssignment → Option SourceRoleAssignment
  | [] => none
  | first :: rest => some (rest.foldl (fun best assignment =>
      if best.scope.toList.length < assignment.scope.toList.length then assignment else best) first)

-- `_configured_role`
def configuredRole (connectorId locator : String) : Option SourceRoleAssignment :=
  let assignments := config.sourceRoles.assignments.filter fun assignment => assignment.connectorId == connectorId
  match assignments.filter fun assignment => assignment.scope == locator with
  | exact :: _ => some exact
  | [] => longestScope (assignments.filter fun assignment => inherits assignment locator)

def connectorsOf (evidence : EvidenceIndex) (evidenceId : String) : List String :=
  (evidence.ingestions.filter fun item => item.evidence.id == evidenceId).map EvidenceIngestion.connectorId

-- The submitted roles under which one piece of evidence was captured.
def matchedRoles (evidence : EvidenceIndex) (submitted : List SourceRoleAssignment) (evidenceId : String) : List SourceRoleAssignment :=
  match Keyed.latest EvidenceRecord.id evidence.records evidenceId with
  | none => []
  | some record => (connectorsOf evidence evidenceId).filterMap fun connectorId =>
      (configuredRole config connectorId record.sourceLocator).filter submitted.contains

-- Every submitted role is configured and used, and every piece of evidence has one.
def rolesFit (s : SubmissionDraft) (evidence : EvidenceIndex) : Bool :=
  let submitted := s.sourceRoles.assignments
  let matched := matchedRoles config evidence submitted
  !submitted.isEmpty && submitted.all config.sourceRoles.assignments.contains &&
    s.evidenceRefs.all (fun evidenceId => !(matched evidenceId).isEmpty) &&
    submitted.all fun role => s.evidenceRefs.any fun evidenceId => (matched evidenceId).contains role

end

-- Core and provisional nodes divide the candidates.
def classified (s : SubmissionDraft) : Bool :=
  let candidateIds := s.candidateNodes.map Node.id
  decide candidateIds.Nodup && decide (s.candidateEdges.map Edge.id).Nodup && !s.coreNodeIds.isEmpty &&
    s.coreNodeIds.all (fun id => !s.provisionalNodeIds.contains id) &&
    (s.coreNodeIds ++ s.provisionalNodeIds).all candidateIds.contains &&
    candidateIds.all (s.coreNodeIds ++ s.provisionalNodeIds).contains

-- By the agent and at the time of the submission.
def signedBy (s : SubmissionDraft) (createdBy lastModifiedBy : String) (createdAt lastModifiedAt : DateTime) : Bool :=
  createdBy == s.actor && lastModifiedBy == s.actor && createdAt.same s.timestamp.1 && lastModifiedAt.same s.timestamp.1 &&
    (requireUtc createdAt).isSome && (requireUtc lastModifiedAt).isSome

def candidateNode (s : SubmissionDraft) (registry : TypeRegistry) (n : Node) : Bool :=
  registry.registers n.type && n.id != "" && n.label != "" && n.status == "proposed" && decide (n.sourceMode = some .inferred) &&
    !n.evidenceRefs.isEmpty && decide (n.evidenceRefs.length ≤ SubmissionDraft.maxReferences) && decide n.evidenceRefs.Nodup &&
    n.evidenceRefs.all s.evidenceRefs.contains && n.intentFidelityConfidence.isSome && n.confidenceBasis.any (· != "") &&
    n.lastReassessedAt.any (fun at' => (requireUtc at').isSome) &&
    signedBy s n.createdBy n.lastModifiedBy n.createdAt n.lastModifiedAt

def candidateEdge (s : SubmissionDraft) (knownNodes : List String) (e : Edge) : Bool :=
  e.id != "" && e.status == "proposed" && knownNodes.contains e.fromId && knownNodes.contains e.toId &&
    signedBy s e.createdBy e.lastModifiedBy e.createdAt e.lastModifiedAt

-- A change set that only adds.
def additions (actor : String) (timestamp : UtcTime) (baselineGraphVersion : Nat) (evidenceRefs : List String) (nodes : List Node)
    (edges : List Edge) : ChangeSetDraft :=
  ⟨"",actor,timestamp.1,baselineGraphVersion,evidenceRefs,nodes,[],[],edges,[],[],[],[],[],[],"validated"⟩

section
variable (env : WriteEnv) (config : ProjectConfig SourceRoles)

-- `_validate_submission`
def validateSubmission (s : SubmissionDraft) (found : Snapshot) (principals : List String) : Option ChangeSet :=
  let knownNodes := found.graph.1.nodeIds ++ s.candidateNodes.map Node.id
  if s.baselineGraphVersion = found.graph.1.version ∧ s.evidenceRefs ≠ [] ∧
      refsAllowed s.evidenceRefs found.evidence.records principals = true ∧ rolesFit config s found.evidence = true ∧
      classified s = true ∧ s.candidateNodes.all (candidateNode s found.graph.1.typeRegistry) = true ∧
      s.candidateEdges.all (candidateEdge s knownNodes) = true then do
    let changeset ← ChangeSet.identify "bootstrap-proposal"
      (additions s.actor s.timestamp s.baselineGraphVersion s.evidenceRefs s.candidateNodes s.candidateEdges)
    let _ ← (Applier.applyChangeset found.graph changeset).toOption
    return changeset
  else none

-- `_proposal`
def proposal (s : SubmissionDraft) (changeset : ChangeSet) : Option IntentProposal :=
  IntentProposal.identify ⟨⟨"",.bootstrap,s.actor,s.timestamp.1,s.baselineGraphVersion,s.evidenceRefs,s.sourceRoles.assignments,
    changeset,s.coreNodeIds,s.provisionalNodeIds,s.assumptions,s.unansweredQuestions,s.conflictingAuthors,s.destructive⟩,none⟩

def ledgerOf (contents : Contents) : Utf8.Bytes := (contents "intent_proposals").getD []

-- The frame that a payload makes behind a ledger.
def frame (ledger : Utf8.Bytes) (payload : LedgerPayload) : Utf8.Bytes :=
  ByteFrames.serialize (IntentLedgerRecord.codec env.lax) ⟨(LineText.lines ByteFrames.byteRule ledger).length,payload⟩

-- The scope of `_propose`, bound to what was read before it.
def proposeScript (seen : Contents) (ledger : Utf8.Bytes) (p : IntentProposal) : Script :=
  .both (.require "graph" (seen "graph")) <| .both (.require "evidence" (seen "evidence")) <|
    .both (.require "intent_proposals" (some ledger)) (.append "intent_proposals" (frame env ledger (.proposal p)))

inductive Proposing where
  | known (stored : IntentProposal)
  | submit (p : IntentProposal) (script : Script)

-- `_propose` up to its transaction. The snapshot, the list of the proposals and
-- the bytes of the ledger are read one after the other.
def prepareProposal (s : BootstrapSubmission) (principals : List String) (seen listed taken : Contents) : Option Proposing := do
  if !validatePrincipals principals then none
  let found ← snapshot env seen
  let changeset ← validateSubmission config s.1 found principals
  let p ← proposal s.1 changeset
  let state ← IntentProposalStore.decode env.lax (ledgerOf listed)
  match state.proposal p.1.id with
  | some stored => if stored.1.equal p.1 then return .known stored else none
  | none => do
    let _ ← IntentProposalStore.decode env.lax (ledgerOf taken)
    return .submit p (proposeScript env seen (ledgerOf taken) p)

-- What `_propose` returns when its scope found other contents: the proposal, if
-- all that came in between is that very frame.
def proposedElsewhere (p : IntentProposal) (seen taken later listed : Contents) : Option BootstrapReview := do
  if later "graph" ≠ seen "graph" ∨ later "evidence" ≠ seen "evidence" ∨
      later "intent_proposals" ≠ some (ledgerOf taken ++ frame env (ledgerOf taken) (.proposal p)) then none
  let state ← IntentProposalStore.decode env.lax (ledgerOf listed)
  let stored ← state.proposal p.1.id
  if stored.1.equal p.1 then reviewFor stored else none

-- `_review`
def review (proposalId : String) (principals : List String) (got seen : Contents) : Option BootstrapReview := do
  if !validatePrincipals principals then none
  let state ← IntentProposalStore.decode env.lax (ledgerOf got)
  let p ← state.proposal proposalId
  if p.1.kind ≠ .bootstrap then none
  let found ← snapshot env seen
  if refsAllowed p.1.evidenceRefs found.evidence.records principals then reviewFor p else none

end

def activatedNode (actor : String) (at' : UtcTime) (n : Node) : Node :=
  {n with status := "active", lastModifiedBy := actor, lastModifiedAt := at'.1}

def activatedEdge (actor : String) (at' : UtcTime) (e : Edge) : Edge :=
  {e with status := "active", lastModifiedBy := actor, lastModifiedAt := at'.1}

-- `graph_before_ids`: the endpoints outside the proposal.
def graphBeforeIds (p : ProposalDraft) : List String :=
  (p.changeset.1.edgesAdded.flatMap fun e => [e.fromId,e.toId]).filter fun id =>
    !p.coreNodeIds.contains id && !p.provisionalNodeIds.contains id

-- An edge between confirmed nodes and the graph, not within the graph alone.
def edgeSelected (p : ProposalDraft) (selected : List String) (e : Edge) : Bool :=
  let allowedEndpoints := selected ++ graphBeforeIds p
  allowedEndpoints.contains e.fromId && allowedEndpoints.contains e.toId && (selected.contains e.fromId || selected.contains e.toId)

def selectedNodes (p : ProposalDraft) (selected : List String) (actor : String) (at' : UtcTime) : List Node :=
  (p.changeset.1.nodesAdded.filter fun n => selected.contains n.id).map (activatedNode actor at')

def selectedEdges (p : ProposalDraft) (selected : List String) (actor : String) (at' : UtcTime) : List Edge :=
  (p.changeset.1.edgesAdded.filter (edgeSelected p selected)).map (activatedEdge actor at')

-- `_activation_changeset`; a negative baseline is no version of a graph.
def activationChangeset (p : ProposalDraft) (selected : List String) (actor : String) (at' : UtcTime) : Option ChangeSet :=
  let nodes := selectedNodes p selected actor at'
  if p.baselineGraphVersion < 0 then none
  else ChangeSet.identify "bootstrap-activation" (additions actor at' p.baselineGraphVersion.toNat
    (Keyed.fromKeys (nodes.flatMap Node.evidenceRefs)) nodes (selectedEdges p selected actor at'))

-- `_decision`
def decision (p : ProposalDraft) (changeset : ChangeSet) (actor : String) (at' : UtcTime) : Option ProposalDecisionRecord :=
  ProposalDecisionRecord.identify ⟨⟨"",p.id,p.digest,actor,[actor],at'.1,p.baselineGraphVersion⟩,
    .second changeset.1.addedNodes changeset.1.id⟩

structure ActivationCall where
  proposalId : String
  confirmedNodeIds : List String
  actor : String
  at' : DateTime

-- What an activation is to commit.
structure Activation where
  proposal : IntentProposal
  changeset : ChangeSet
  decision : ProposalDecisionRecord

def selectable (confirmedNodeIds : List String) : Bool :=
  !confirmedNodeIds.isEmpty && confirmedNodeIds.all (· != "") && decide confirmedNodeIds.Nodup

-- A naive time of the proposal cannot be compared with `at`.
def activatable (p : ProposalDraft) (confirmedNodeIds : List String) (at' : UtcTime) : Bool :=
  decide (p.kind = .bootstrap) && !p.destructive && p.conflictingAuthors.isEmpty &&
    p.changeset.1.edgesAdded.all (fun e => e.relation != .contradicts && e.relation != .supersedes) &&
    confirmedNodeIds.all p.coreNodeIds.contains && p.proposedAt.offset.isSome && decide (p.proposedAt.instant ≤ at'.1.instant)

section
variable (env : WriteEnv) (config : ProjectConfig SourceRoles)

-- `_activate` up to the look at the decisions.
def plan (call : ActivationCall) (got seen : Contents) : Option Activation := do
  let at' ← requireUtc call.at'
  if call.actor ≠ config.localActor ∨ selectable call.confirmedNodeIds = false then none
  let state ← IntentProposalStore.decode env.lax (ledgerOf got)
  let p ← state.proposal call.proposalId
  if activatable p.1 call.confirmedNodeIds at' = false then none
  let found ← snapshot env seen
  if refsAllowed p.1.evidenceRefs found.evidence.records [call.actor] = false then none
  let changeset ← activationChangeset p.1 call.confirmedNodeIds call.actor at'
  let d ← decision p.1 changeset call.actor at'
  return ⟨p,changeset,d⟩

-- `decision_for`: none where it raises.
def decisionFor (proposalId : String) (contents : Contents) : Option (Option ProposalDecisionRecord) :=
  (IntentProposalStore.decode env.lax (ledgerOf contents)).bind fun state =>
    if (state.proposal proposalId).isSome then some (state.decision proposalId) else none

-- `_replay_result`
def replayResult (a : Activation) (existing : ProposalDecisionRecord) (loaded traced : Contents) : Option IntentGraph := do
  let graph ← (loaded "graph").bind (GraphStore.parseGraph env.lax env.yaml)
  if existing.1.equal a.decision.1 = false ∨ existing.1.form ≠ .second a.changeset.1.addedNodes a.changeset.1.id ∨
      (graph.1.version : Int) ≠ a.proposal.1.baselineGraphVersion + 1 then none
  let first ← a.changeset.1.nodesAdded.head?
  let history ← (HistoryStore.history env.lax (traced "history") first.id).toOption
  if !history.any a.changeset.equal then none
  if a.changeset.1.nodesAdded.all (fun n => (Keyed.find Node.id graph.1.nodes n.id).any fun current => current.equal n) &&
      a.changeset.1.edgesAdded.all (fun e => (Keyed.find Edge.id graph.1.edges e.id).any fun current => current.equal e) then
    return graph
  else none

-- What the executor is asked for.
def activationRequest (a : Activation) (ledger : Utf8.Bytes) : ChangeRequest :=
  ⟨a.changeset,[],[],{EffectBinding.unbound with
    intentProposalPreimage := some ledger
    intentProposalAppend := some (frame env ledger (.decision a.decision))
    rollbackBaseExceptions := true}⟩

inductive Activating where
  | replay (a : Activation) (existing : ProposalDecisionRecord)
  | apply (a : Activation) (request : ChangeRequest)

-- What the call reads: the proposal, the evidence, the decision, the graph and
-- the ledger, each at a time of its own.
structure ActivationReads where
  got : Contents
  seen : Contents
  asked : Contents
  loaded : Contents
  taken : Contents

-- `_activate` up to its transaction.
def prepareActivation (call : ActivationCall) (reads : ActivationReads) : Option Activating := do
  let a ← plan env config call reads.got reads.seen
  match ← decisionFor env a.proposal.1.id reads.asked with
  | some existing => return .replay a existing
  | none => do
    let graph ← (reads.loaded "graph").bind (GraphStore.parseGraph env.lax env.yaml)
    if (graph.1.version : Int) ≠ a.proposal.1.baselineGraphVersion then none
    let _ ← IntentProposalStore.decode env.lax (ledgerOf reads.taken)
    return .apply a (activationRequest env a (ledgerOf reads.taken))

end

end BootstrapService
