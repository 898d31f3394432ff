import IntentEngineering.Library.BoundedSearch
import IntentEngineering.Models.Graph
import IntentEngineering.Reconcile.EvidenceDetection

-- What ends a run without a report: a detection that fails, or a reasoner that
-- raises or answers what is not grounded.
inductive AssuranceError where
  | detection (e : DetectionError)
  | reasoner

-- What a reasoner is given. The copy of the graph is not validated.
structure AssuranceSnapshot where
  graph : GraphDraft
  records : List EvidenceRecord
  ingestions : List EvidenceIngestion
  existingCases : List ReconciliationCase

abbrev AssuranceReasoner := AssuranceSnapshot → Option (List DetectionInput)

namespace Assurance
open EvidenceDetection

def maxReasonedInputs : Nat := 256

def intentTypes : List String := ["CONTEXT","NEED","PRODUCT_INTENT","DESIRED_OUTCOME","ASSUMPTION","PRINCIPLE","CONSTRAINT"]

def implementationTypes : List String := ["MODULE","FILE","SYMBOL","ENDPOINT","SCHEMA","BUILD_ARTIFACT","DEPLOYMENT"]

-- `_current`
def current (ingestions : List EvidenceIngestion) (record : EvidenceRecord) : Bool := recordsAreCurrent ingestions [record]

def sameObject (a b : EvidenceRecord) : Bool := b.connectorType == a.connectorType && b.externalObjectId == a.externalObjectId

-- Whether the actor may read a record and every other version of its object.
def readable (actor : String) (records : List EvidenceRecord) (record : EvidenceRecord) : Bool :=
  let chain := records.filter (sameObject record)
  !chain.isEmpty && chain.all (evidenceAllowed actor) && evidenceAllowed actor record

def authorsOf (resolved : List EvidenceRecord) : List String :=
  ((resolved.filterMap EvidenceRecord.author).filter (· != "")).dedup.insertionSort (· ≤ ·)

-- The side that a node makes of its records.
def sideFrom (n : Node) (sourceMode : SourceMode) (confidence : Confidence) (resolved : List EvidenceRecord) (current : Bool) :
    Except DetectionError (Option EvidenceSide) :=
  let authors := authorsOf resolved
  if authors = [] then .ok none
  else (latestTime (resolved.map EvidenceRecord.observedAt)).bind fun latest =>
    match latest with
    | none => .ok none
    | some observedAt =>
      let evidenceRefs := n.evidenceRefs.insertionSort (· ≤ ·)
      if valid : namedAll evidenceRefs = true ∧ namedAll authors = true then
        .ok (some ⟨n.type,n.label,evidenceRefs,observedAt,authors,confidence,sourceMode,current,valid.1,valid.2⟩)
      else .error .validationError

-- `_side`
def side (actor : String) (records : List EvidenceRecord) (ingestions : List EvidenceIngestion) (n : Node) :
    Except DetectionError (Option EvidenceSide) :=
  match n.sourceMode, n.intentFidelityConfidence with
  | some sourceMode, some confidence =>
    if n.evidenceRefs = [] then .ok none
    else match n.evidenceRefs.mapM (Keyed.latest EvidenceRecord.id records) with
      | none => .ok none
      | some resolved =>
        if resolved.all (readable actor records) then sideFrom n sourceMode confidence resolved (resolved.all (current ingestions))
        else .ok none
  | _, _ => .ok none

-- A node and what its evidence says to the actor.
structure Seen where
  node : Node
  side : EvidenceSide

def Seen.id (s : Seen) : String := s.node.id

-- What an actor sees of a graph: its active nodes that have a side. The edges
-- are those between active nodes, seen or not.
structure View where
  seen : List Seen
  allActiveEdges : List Edge

def allNodes (graph : IntentGraph) : List Node := graph.1.nodes.filter fun n => n.status == "active" || n.status == "provisional"

def allActiveEdges (graph : IntentGraph) : List Edge :=
  let ids := (allNodes graph).map Node.id
  graph.1.edges.filter fun e => e.status == "active" && ids.contains e.fromId && ids.contains e.toId

def seenNode (actor : String) (records : List EvidenceRecord) (ingestions : List EvidenceIngestion) (n : Node) :
    Except DetectionError (Option Seen) := (side actor records ingestions n).map fun found => found.map (Seen.mk n)

def view (actor : String) (graph : IntentGraph) (records : List EvidenceRecord) (ingestions : List EvidenceIngestion) :
    Except DetectionError View :=
  ((allNodes graph).mapM (seenNode actor records ingestions)).map fun sides => ⟨sides.reduceOption,allActiveEdges graph⟩

namespace View

def find (v : View) (id : String) : Option Seen := Keyed.find Seen.id v.seen id

def sees (v : View) (id : String) : Bool := (v.find id).isSome

-- The seen ends of edges that lead out of sight.
def obscured (v : View) : List String :=
  v.allActiveEdges.flatMap fun e =>
    ([(e.fromId,e.toId),(e.toId,e.fromId)].filter fun pair => v.sees pair.1 && !v.sees pair.2).map Prod.fst

def activeEdges (v : View) : List Edge := v.allActiveEdges.filter fun e => v.sees e.fromId && v.sees e.toId

def linked (v : View) (id : String) : List String :=
  v.activeEdges.flatMap fun e => (if e.fromId = id then [e.toId] else []) ++ if e.toId = id then [e.fromId] else []

def typed (v : View) (types : List String) (id : String) : Bool := (v.find id).any fun s => types.contains s.node.type

-- The nodes that a relation leads to from one node.
def targets (v : View) (id : String) (relation : RelationType) (types : List String) : List Seen :=
  v.activeEdges.filterMap fun e =>
    if e.fromId = id ∧ e.relation = relation then (v.find e.toId).filter fun s => types.contains s.node.type else none

-- `_reaches_implementation`
def reachesImplementation (v : View) (start : String) : Bool :=
  BoundedSearch.search v.linked (v.typed implementationTypes) 2 [start] [start]

end View

-- `_observation`; the subject comes first among the affected nodes.
def affectedRefs (affected : List Seen) : List String := (affected.map Seen.id).dedup.insertionSort (· ≤ ·)

theorem sides_evidenced (subject : Seen) (others : List Seen) :
    ((subject :: others).map Seen.side).flatMap EvidenceSide.evidenceRefs ≠ [] := by
  have named := subject.side.referenced
  simp only [namedAll,Bool.and_eq_true,Bool.not_eq_true',List.isEmpty_eq_false_iff] at named
  simp [named.1]

def observation (subject : Seen) (caseType : ReconciliationCaseType) (detectorId : String) (others : List Seen) : DriftObservation :=
  let affected := subject :: others
  let sides := affected.map Seen.side
  ⟨subject.id,caseType,affectedRefs affected,sides,detectorId,
    DriftObservation.fingerprintOf detectorId subject.id (affectedRefs affected) sides,true,hexdigest_hex _,sides_evidenced subject others⟩

section Detectors
variable (v : View)

-- A current node of one kind that no node of another kind is linked to.
def missing (types among : List String) (caseType : ReconciliationCaseType) (detectorId : String) (s : Seen) : List DriftObservation :=
  if types.contains s.node.type && s.side.current && !(v.linked s.id).any (v.typed among) then [observation s caseType detectorId []] else []

def intentWithoutRequirement : Seen → List DriftObservation :=
  missing v intentTypes ["REQUIREMENT"] .intentLag "intent_without_requirement"

def requirementWithoutIntent : Seen → List DriftObservation :=
  missing v ["REQUIREMENT"] intentTypes .orphanRequirement "requirement_without_intent"

def undocumentedCode : Seen → List DriftObservation :=
  missing v implementationTypes (intentTypes ++ ["REQUIREMENT","DECISION"]) .undocumentedCode "undocumented_code"

-- The first pass over the nodes.
def gaps : List DriftObservation :=
  (Keyed.inOrder Seen.id v.seen).flatMap fun s =>
    if v.obscured.contains s.id then []
    else intentWithoutRequirement v s ++ requirementWithoutIntent v s ++ undocumentedCode v s

def codeLag (e : Edge) (left right : Seen) : Except DetectionError (List DriftObservation) :=
  if e.relation = .implementedBy ∧ left.node.type = "REQUIREMENT" ∧ implementationTypes.contains right.node.type = true then
    (right.node.lastModifiedAt.less left.node.lastModifiedAt).map fun later =>
      if later && left.side.current && right.side.current then [observation left .codeLag "code_lag" [right]] else []
  else .ok []

def sameAuthors (a b : EvidenceSide) : Bool := a.authors.all b.authors.contains && b.authors.all a.authors.contains

def conflictingSources (e : Edge) (left right : Seen) : List DriftObservation :=
  if e.relation = .contradicts ∧ left.node.sourceMode = some .explicit ∧ right.node.sourceMode = some .explicit ∧
      left.side.current = true ∧ right.side.current = true ∧ sameAuthors left.side right.side = false then
    [observation left .conflictingSources "conflicting_sources" [right]]
  else []

def edgeConflicts (e : Edge) : Except DetectionError (List DriftObservation) :=
  match v.find e.fromId, v.find e.toId with
  | some left, some right =>
    if v.obscured.contains left.id || v.obscured.contains right.id then .ok []
    else (codeLag e left right).map fun lags => lags ++ conflictingSources e left right
  | _, _ => .ok []

-- The pass over the edges.
def conflicts : Except DetectionError (List DriftObservation) :=
  ((Keyed.inOrder Edge.id v.activeEdges).mapM (m := Except DetectionError) (edgeConflicts v)).map List.flatten

def testLag (requirement : Seen) : Except DetectionError (List DriftObservation) :=
  let implementations := v.targets requirement.id .implementedBy implementationTypes
  let tests := v.targets requirement.id .verifiedBy ["TEST"]
  let affected := requirement :: (implementations ++ tests)
  if implementations = [] ∨ tests = [] ∨ affected.all (fun s => s.side.current) = false then .ok []
  else (latestTime (implementations.map fun s => s.node.lastModifiedAt)).bind fun implemented =>
    (latestTime (tests.map fun s => s.node.lastModifiedAt)).bind fun tested =>
      match implemented, tested with
      | some implemented, some tested => (tested.less implemented).map fun later =>
          if later then [observation requirement .testLag "test_lag" (implementations ++ tests)] else []
      | _, _ => .ok []

-- The pass over the requirements.
def testLags : Except DetectionError (List DriftObservation) :=
  ((Keyed.inOrder Seen.id (v.seen.filter fun s => s.node.type == "REQUIREMENT" && !v.obscured.contains s.id)).mapM
    (m := Except DetectionError) (testLag v)).map List.flatten

def relevantProvisionalIntent (s : Seen) : List DriftObservation :=
  if intentTypes.contains s.node.type && (s.node.status == "provisional" || decide (s.node.sourceMode = some .inferred)) &&
      s.side.current && v.reachesImplementation s.id then
    [observation s .possibleIntentChange "relevant_provisional_intent" []]
  else []

def staleSourceEvidence (s : Seen) : List DriftObservation :=
  if s.side.current then [] else [observation s .ambiguousDivergence "stale_source_evidence" []]

-- The last pass over the nodes.
def doubts : List DriftObservation :=
  (Keyed.inOrder Seen.id v.seen).flatMap fun s =>
    if v.obscured.contains s.id then [] else relevantProvisionalIntent v s ++ staleSourceEvidence s

def candidates : Except DetectionError (List DriftObservation) :=
  (conflicts v).bind fun found => (testLags v).map fun lags => gaps v ++ found ++ lags ++ doubts v

-- The nodes with nothing hidden beside them.
def groundedNodes : List Seen := v.seen.filter fun s => !v.obscured.contains s.id

def roles (item : DetectionInput) : List (Option EvidenceSide × List String) :=
  [(item.requirement,["REQUIREMENT"]),(item.implementation,implementationTypes),(item.test,["TEST"]),(item.decision,["DECISION"])]

def sidesOf (item : DetectionInput) : List EvidenceSide := [item.requirement,item.implementation,item.test,item.decision].reduceOption

-- Each side that is given, with the referenced nodes of its kind that have it.
def matched (item : DetectionInput) : List (EvidenceSide × List String) :=
  let referenced := item.subjectRef :: item.affectedRefs
  (roles item).filterMap fun role => role.1.map fun given =>
    (given,((groundedNodes v).filter fun s => s.side.equal given && role.2.contains s.node.type && referenced.contains s.id).map Seen.id)

def mappedSemantics (implementationIds : List String) : Bool :=
  let ids := (groundedNodes v).map Seen.id
  implementationIds.any fun id => (v.linked id).any fun target =>
    ids.contains target && v.typed (intentTypes ++ ["REQUIREMENT","DECISION"]) target

-- `_grounded_reasoning`
def groundedReasoning (item : DetectionInput) : Bool :=
  let ids := (groundedNodes v).map Seen.id
  ids.contains item.subjectRef && item.affectedRefs.all ids.contains && (matched v item).all (fun found => !found.2.isEmpty) &&
    item.implementation.all (fun implementation =>
      item.hasMappedSemantics == mappedSemantics v ((((matched v item).find? fun found => found.1.equal implementation).map Prod.snd).getD [])) &&
    (sidesOf item).all fun given => (groundedNodes v).any (fun s => s.side.equal given) && given.current

end Detectors

section Reasoning
variable (actor : String) (graph : IntentGraph) (records : List EvidenceRecord) (ingestions : List EvidenceIngestion)
  (existingCases : List ReconciliationCase)

-- A case of which the actor sees all that it refers to.
def visibleCase (nodeIds recordIds : List String) (case : ReconciliationCase) : Bool :=
  nodeIds.contains case.subjectRef && case.affectedRefs.all nodeIds.contains && !case.evidenceSides.isEmpty &&
    case.evidenceSides.all fun s => !s.evidenceRefs.isEmpty && s.evidenceRefs.all recordIds.contains

def sequenced (a b : EvidenceIngestion) : Prop :=
  a.connectorId < b.connectorId ∨ a.connectorId = b.connectorId ∧ a.sequence ≤ b.sequence

instance (a b : EvidenceIngestion) : Decidable (sequenced a b) := inferInstanceAs (Decidable (_ ∨ _))

def snapshot (v : View) : AssuranceSnapshot :=
  let visible := records.filter (evidenceAllowed actor)
  let nodeIds := v.seen.map Seen.id
  ⟨{graph.1 with
      nodes := Keyed.inOrder Node.id (v.seen.map Seen.node)
      edges := Keyed.inOrder Edge.id (graph.1.edges.filter fun e => nodeIds.contains e.fromId && nodeIds.contains e.toId)},
    Keyed.inOrder EvidenceRecord.id visible,
    (ingestions.filter fun item =>
      (Keyed.latest EvidenceRecord.id visible item.evidence.id).any fun record => item.evidence.equal record).insertionSort sequenced,
    Keyed.inOrder ReconciliationCase.id (existingCases.filter (visibleCase nodeIds (visible.map EvidenceRecord.id)))⟩

-- What the reasoner adds to the candidates.
def reasoned (reasoner : Option AssuranceReasoner) (v : View) : Except AssuranceError (List DriftObservation) :=
  match reasoner with
  | none => .ok []
  | some answer => match answer (snapshot actor graph records ingestions existingCases v) with
    | none => .error .reasoner
    | some items =>
      if maxReasonedInputs < items.length then .error .reasoner
      else (items.mapM (m := Except AssuranceError) fun item =>
        if groundedReasoning v item then (Detectors.detectDrift item).mapError .detection else .error .reasoner).map List.flatten

-- One observation for each subject that no case is about.
def report (found : List DriftObservation) : List DriftObservation :=
  (DriftObservation.selectDriftObservations found).filter fun o =>
    !(existingCases.map ReconciliationCase.fingerprint).contains o.fingerprint &&
      !(existingCases.map ReconciliationCase.subjectRef).contains o.subjectRef

-- `detect`
def detect (reasoner : Option AssuranceReasoner) : Except AssuranceError (List DriftObservation) :=
  if ¬(records.map EvidenceRecord.id).Nodup ∨ ¬(ingestions.map fun item => (item.connectorId,item.sequence)).Nodup then .ok []
  else ((view actor graph records ingestions).mapError .detection).bind fun v =>
    ((candidates v).mapError .detection).bind fun found =>
      (reasoned actor graph records ingestions existingCases reasoner v).map fun more => report existingCases (found ++ more)

end Reasoning

end Assurance
