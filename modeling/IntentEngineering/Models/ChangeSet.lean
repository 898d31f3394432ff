import IntentEngineering.Models.Reconciliation

open Schema Binary64

-- Node types are kept by their spelling, known or namespaced.
structure Node where
  id : String
  type : String
  label : String
  status : String
  createdBy : String
  createdAt : DateTime
  lastModifiedBy : String
  lastModifiedAt : DateTime
  sourceMode : Option SourceMode
  intentFidelityConfidence : Option Confidence
  confidenceBasis : Option String
  lastReassessedAt : Option DateTime
  implementationStatus : Option ImplementationStatus
  evidenceRefs : List String

namespace Node

def fields (lax : Coercions) :=
  Fields.defaulted "confidence_basis" Codec.optionalString none <|
  Fields.required "created_at" lax.timeCodec <|
  Fields.required "created_by" Codec.string <|
  Fields.defaulted "evidence_refs" Codec.string.list [] <|
  Fields.required "id" Codec.string <|
  Fields.defaulted "implementation_status" (ImplementationStatus.codec.nullable nofun) none <|
  Fields.defaulted "intent_fidelity_confidence" lax.optionalConfidenceCodec none <|
  Fields.required "label" Codec.string <|
  Fields.required "last_modified_at" lax.timeCodec <|
  Fields.required "last_modified_by" Codec.string <|
  Fields.defaulted "last_reassessed_at" lax.optionalTimeCodec none <|
  Fields.defaulted "source_mode" (SourceMode.codec.nullable nofun) none <|
  Fields.required "status" Codec.string <|
  Fields.required "type" Codec.string <|
  Fields.nil

def codec (lax : Coercions) : Codec Node :=
  (Codec.object (fields lax)).convert
    (fun (confidenceBasis,createdAt,createdBy,evidenceRefs,id,implementationStatus,intentFidelityConfidence,label,
        lastModifiedAt,lastModifiedBy,lastReassessedAt,sourceMode,status,type,_) =>
      some ⟨id,type,label,status,createdBy,createdAt,lastModifiedBy,lastModifiedAt,sourceMode,intentFidelityConfidence,
        confidenceBasis,lastReassessedAt,implementationStatus,evidenceRefs⟩)
    (fun n => (n.confidenceBasis,n.createdAt,n.createdBy,n.evidenceRefs,n.id,n.implementationStatus,
      n.intentFidelityConfidence,n.label,n.lastModifiedAt,n.lastModifiedBy,n.lastReassessedAt,n.sourceMode,n.status,n.type,()))
    (fun _ => rfl)

def equal (a b : Node) : Bool :=
  a.id == b.id && a.type == b.type && a.label == b.label && a.status == b.status && a.createdBy == b.createdBy &&
    a.createdAt.same b.createdAt && a.lastModifiedBy == b.lastModifiedBy && a.lastModifiedAt.same b.lastModifiedAt &&
    decide (a.sourceMode = b.sourceMode) &&
    equalOptions Confidence.equal a.intentFidelityConfidence b.intentFidelityConfidence &&
    a.confidenceBasis == b.confidenceBasis && equalOptions DateTime.same a.lastReassessedAt b.lastReassessedAt &&
    decide (a.implementationStatus = b.implementationStatus) && a.evidenceRefs == b.evidenceRefs

end Node

structure Edge where
  id : String
  fromId : String
  relation : RelationType
  toId : String
  status : String
  createdBy : String
  createdAt : DateTime
  lastModifiedBy : String
  lastModifiedAt : DateTime
  external : Bool

namespace Edge

-- The endpoints have an alias and a name each.
def aliasFields (lax : Coercions) :=
  Fields.required "created_at" lax.timeCodec <|
  Fields.required "created_by" Codec.string <|
  Fields.defaulted "external" lax.flagCodec false <|
  Fields.required "from" Codec.string <|
  Fields.required "id" Codec.string <|
  Fields.required "last_modified_at" lax.timeCodec <|
  Fields.required "last_modified_by" Codec.string <|
  Fields.required "relation" RelationType.codec <|
  Fields.required "status" Codec.string <|
  Fields.required "to" Codec.string <|
  Fields.nil

def nameFields (lax : Coercions) :=
  Fields.required "created_at" lax.timeCodec <|
  Fields.required "created_by" Codec.string <|
  Fields.defaulted "external" lax.flagCodec false <|
  Fields.required "from_id" Codec.string <|
  Fields.required "id" Codec.string <|
  Fields.required "last_modified_at" lax.timeCodec <|
  Fields.required "last_modified_by" Codec.string <|
  Fields.required "relation" RelationType.codec <|
  Fields.required "status" Codec.string <|
  Fields.required "to_id" Codec.string <|
  Fields.nil

abbrev Parts := DateTime × String × Bool × String × String × DateTime × String × RelationType × String × String × Unit

def build : Parts → Edge
  | (createdAt,createdBy,external,fromId,id,lastModifiedAt,lastModifiedBy,relation,status,toId,_) =>
    ⟨id,fromId,relation,toId,status,createdBy,createdAt,lastModifiedBy,lastModifiedAt,external⟩

def parts (e : Edge) : Parts :=
  (e.createdAt,e.createdBy,e.external,e.fromId,e.id,e.lastModifiedAt,e.lastModifiedBy,e.relation,e.status,e.toId,())

def aliased (lax : Coercions) : Codec Edge := (Codec.object (aliasFields lax)).convert (some ∘ build) parts fun _ => rfl

def plain (lax : Coercions) : Codec Edge := (Codec.object (nameFields lax)).convert (some ∘ build) parts fun _ => rfl

-- Written by alias or by name, an edge is read under either.
def codec (lax : Coercions) (byAlias : Bool) : Codec Edge :=
  if byAlias then (aliased lax).lax (plain lax).load else (plain lax).lax (aliased lax).load

def equal (a b : Edge) : Bool :=
  a.id == b.id && a.fromId == b.fromId && decide (a.relation = b.relation) && a.toId == b.toId && a.status == b.status &&
    a.createdBy == b.createdBy && a.createdAt.same b.createdAt && a.lastModifiedBy == b.lastModifiedBy &&
    a.lastModifiedAt.same b.lastModifiedAt && a.external == b.external

end Edge

structure NodeUpdate where
  nodeId : String
  replacement : Node
  matching : replacement.id = nodeId

namespace NodeUpdate

def codec (lax : Coercions) : Codec NodeUpdate :=
  (Codec.object (Fields.required "node_id" Codec.string <| Fields.required "replacement" (Node.codec lax) <| Fields.nil)).convert
    (fun (nodeId,replacement,_) => if matching : replacement.id = nodeId then some ⟨nodeId,replacement,matching⟩ else none)
    (fun u => (u.nodeId,u.replacement,()))
    (fun u => by simp [u.matching])

end NodeUpdate

structure EdgeUpdate where
  edgeId : String
  replacement : Edge
  matching : replacement.id = edgeId

namespace EdgeUpdate

def codec (lax : Coercions) (byAlias : Bool) : Codec EdgeUpdate :=
  (Codec.object (Fields.required "edge_id" Codec.string <| Fields.required "replacement" (Edge.codec lax byAlias) <| Fields.nil)).convert
    (fun (edgeId,replacement,_) => if matching : replacement.id = edgeId then some ⟨edgeId,replacement,matching⟩ else none)
    (fun u => (u.edgeId,u.replacement,()))
    (fun u => by simp [u.matching])

end EdgeUpdate

structure ConfidenceChange where
  changeId : String
  timestamp : DateTime
  actor : String
  subjectRef : String
  changeKind : ChangeKind
  priorConfidence : Confidence
  newConfidence : Confidence
  evidenceRefs : List String
  reason : String
  evidenced : evidenceRefs ≠ []
  material : priorConfidence.equal newConfidence = false

namespace ConfidenceChange

def fields (lax : Coercions) :=
  Fields.required "actor" Codec.string <|
  Fields.required "change_id" Codec.string <|
  Fields.required "change_kind" ChangeKind.codec <|
  Fields.required "evidence_refs" Codec.string.list <|
  Fields.required "new_confidence" lax.confidenceCodec <|
  Fields.required "prior_confidence" lax.confidenceCodec <|
  Fields.required "reason" Codec.string <|
  Fields.required "subject_ref" Codec.string <|
  Fields.required "timestamp" lax.timeCodec <|
  Fields.nil

def codec (lax : Coercions) : Codec ConfidenceChange :=
  (Codec.object (fields lax)).convert
    (fun (actor,changeId,changeKind,evidenceRefs,newConfidence,priorConfidence,reason,subjectRef,timestamp,_) =>
      if valid : evidenceRefs ≠ [] ∧ priorConfidence.equal newConfidence = false then
        some ⟨changeId,timestamp,actor,subjectRef,changeKind,priorConfidence,newConfidence,evidenceRefs,reason,valid.1,valid.2⟩
      else none)
    (fun c => (c.actor,c.changeId,c.changeKind,c.evidenceRefs,c.newConfidence,c.priorConfidence,c.reason,c.subjectRef,c.timestamp,()))
    (fun c => by simp [c.evidenced,c.material])

def equal (a b : ConfidenceChange) : Bool :=
  a.changeId == b.changeId && a.timestamp.same b.timestamp && a.actor == b.actor && a.subjectRef == b.subjectRef &&
    decide (a.changeKind = b.changeKind) && a.priorConfidence.equal b.priorConfidence &&
    a.newConfidence.equal b.newConfidence && a.evidenceRefs == b.evidenceRefs && a.reason == b.reason

end ConfidenceChange

structure ImplementationStatusChange where
  claimId : String
  prior : ImplementationStatus
  new : ImplementationStatus
  evidenceRefs : List String
  evidenced : evidenceRefs ≠ []
  material : prior ≠ new

namespace ImplementationStatusChange

theorem prior_last : ∀ n ∈ ([] : List String).head?, "prior" < n := by simp

theorem new_first : ∀ n ∈ ["prior"].head?, "new" < n := by decide +kernel

def fields :=
  Fields.required "claim_id" Codec.string <|
  Fields.required "evidence_refs" Codec.string.list <|
  Fields.required "new" ImplementationStatus.codec (Fields.required "prior" ImplementationStatus.codec Fields.nil prior_last) new_first

def codec : Codec ImplementationStatusChange :=
  (Codec.object fields).convert
    (fun (claimId,evidenceRefs,new,prior,_) =>
      if valid : evidenceRefs ≠ [] ∧ prior ≠ new then some ⟨claimId,prior,new,evidenceRefs,valid.1,valid.2⟩ else none)
    (fun c => (c.claimId,c.evidenceRefs,c.new,c.prior,()))
    (fun c => by simp [c.evidenced,c.material])

def equal (a b : ImplementationStatusChange) : Bool :=
  a.claimId == b.claimId && decide (a.prior = b.prior) && decide (a.new = b.new) && a.evidenceRefs == b.evidenceRefs

end ImplementationStatusChange

-- A change set before its validator has seen it.
structure ChangeSetDraft where
  id : String
  actor : String
  timestamp : DateTime
  baselineGraphVersion : Nat
  evidenceRefs : List String
  nodesAdded : List Node
  nodesUpdated : List NodeUpdate
  nodesSuperseded : List String
  edgesAdded : List Edge
  edgesUpdated : List EdgeUpdate
  edgesSuperseded : List String
  confidenceChanges : List ConfidenceChange
  implementationStatusChanges : List ImplementationStatusChange
  reconciliationCasesCreated : List String
  reconciliationCasesResolved : List String
  validationStatus : String

namespace ChangeSetDraft

variable (c : ChangeSetDraft)

def addedNodes : List String := c.nodesAdded.map Node.id
def updatedNodes : List String := c.nodesUpdated.map NodeUpdate.nodeId
def addedEdges : List String := c.edgesAdded.map Edge.id
def updatedEdges : List String := c.edgesUpdated.map EdgeUpdate.edgeId
def reassessed : List String := c.confidenceChanges.map ConfidenceChange.subjectRef
def reclaimed : List String := c.implementationStatusChanges.map ImplementationStatusChange.claimId

-- `is_semantic`
def isSemantic : Bool :=
  !(c.nodesAdded.isEmpty && c.nodesUpdated.isEmpty && c.nodesSuperseded.isEmpty && c.edgesAdded.isEmpty &&
    c.edgesUpdated.isEmpty && c.edgesSuperseded.isEmpty && c.confidenceChanges.isEmpty &&
    c.implementationStatusChanges.isEmpty && c.reconciliationCasesCreated.isEmpty && c.reconciliationCasesResolved.isEmpty)

def mutationSubjects : List (List String) :=
  [c.addedNodes,c.updatedNodes,c.nodesSuperseded,c.addedEdges,c.updatedEdges,c.edgesSuperseded,c.reassessed,c.reclaimed,
    c.reconciliationCasesCreated,c.reconciliationCasesResolved]

def apart (xs ys : List String) : Bool := xs.all fun x => !ys.contains x

-- `validate_mutations`
def validateMutations : Bool :=
  c.mutationSubjects.all (fun subjects => decide subjects.Nodup) &&
    apart c.addedNodes c.updatedNodes && apart c.addedNodes c.nodesSuperseded &&
    apart c.addedEdges c.updatedEdges && apart c.addedEdges c.edgesSuperseded &&
    apart c.reconciliationCasesCreated c.reconciliationCasesResolved &&
    apart c.updatedNodes c.nodesSuperseded && apart c.updatedEdges c.edgesSuperseded &&
    apart (c.reassessed ++ c.reclaimed) (c.addedNodes ++ c.updatedNodes ++ c.nodesSuperseded) &&
    (!c.isSemantic || !c.evidenceRefs.isEmpty)

def fields (lax : Coercions) (byAlias : Bool) :=
  Fields.required "actor" Codec.string <|
  Fields.required "baseline_graph_version" lax.naturalCodec <|
  Fields.required "confidence_changes" (ConfidenceChange.codec lax).list <|
  Fields.required "edges_added" (Edge.codec lax byAlias).list <|
  Fields.required "edges_superseded" Codec.string.list <|
  Fields.required "edges_updated" (EdgeUpdate.codec lax byAlias).list <|
  Fields.required "evidence_refs" Codec.string.list <|
  Fields.required "id" Codec.string <|
  Fields.required "implementation_status_changes" ImplementationStatusChange.codec.list <|
  Fields.required "nodes_added" (Node.codec lax).list <|
  Fields.required "nodes_superseded" Codec.string.list <|
  Fields.required "nodes_updated" (NodeUpdate.codec lax).list <|
  Fields.required "reconciliation_cases_created" Codec.string.list <|
  Fields.required "reconciliation_cases_resolved" Codec.string.list <|
  Fields.required "timestamp" lax.timeCodec <|
  Fields.required "validation_status" Codec.string <|
  Fields.nil

def codec (lax : Coercions) (byAlias : Bool) : Codec ChangeSetDraft :=
  (Codec.object (fields lax byAlias)).convert
    (fun (actor,baselineGraphVersion,confidenceChanges,edgesAdded,edgesSuperseded,edgesUpdated,evidenceRefs,id,
        implementationStatusChanges,nodesAdded,nodesSuperseded,nodesUpdated,reconciliationCasesCreated,
        reconciliationCasesResolved,timestamp,validationStatus,_) =>
      some ⟨id,actor,timestamp,baselineGraphVersion,evidenceRefs,nodesAdded,nodesUpdated,nodesSuperseded,edgesAdded,
        edgesUpdated,edgesSuperseded,confidenceChanges,implementationStatusChanges,reconciliationCasesCreated,
        reconciliationCasesResolved,validationStatus⟩)
    (fun c => (c.actor,c.baselineGraphVersion,c.confidenceChanges,c.edgesAdded,c.edgesSuperseded,c.edgesUpdated,
      c.evidenceRefs,c.id,c.implementationStatusChanges,c.nodesAdded,c.nodesSuperseded,c.nodesUpdated,
      c.reconciliationCasesCreated,c.reconciliationCasesResolved,c.timestamp,c.validationStatus,()))
    (fun _ => rfl)

end ChangeSetDraft

-- Only a validated change set is one.
abbrev ChangeSet := {c : ChangeSetDraft // c.validateMutations = true}

namespace ChangeSet

def codec (lax : Coercions) (byAlias : Bool) : Codec ChangeSet :=
  (ChangeSetDraft.codec lax byAlias).checked ChangeSetDraft.validateMutations

def equal (a b : ChangeSet) : Bool :=
  a.1.id == b.1.id && a.1.actor == b.1.actor && a.1.timestamp.same b.1.timestamp &&
    a.1.baselineGraphVersion == b.1.baselineGraphVersion && a.1.evidenceRefs == b.1.evidenceRefs &&
    equalLists Node.equal a.1.nodesAdded b.1.nodesAdded &&
    equalLists (fun x y => x.nodeId == y.nodeId && x.replacement.equal y.replacement) a.1.nodesUpdated b.1.nodesUpdated &&
    a.1.nodesSuperseded == b.1.nodesSuperseded && equalLists Edge.equal a.1.edgesAdded b.1.edgesAdded &&
    equalLists (fun x y => x.edgeId == y.edgeId && x.replacement.equal y.replacement) a.1.edgesUpdated b.1.edgesUpdated &&
    a.1.edgesSuperseded == b.1.edgesSuperseded && equalLists ConfidenceChange.equal a.1.confidenceChanges b.1.confidenceChanges &&
    equalLists ImplementationStatusChange.equal a.1.implementationStatusChanges b.1.implementationStatusChanges &&
    a.1.reconciliationCasesCreated == b.1.reconciliationCasesCreated &&
    a.1.reconciliationCasesResolved == b.1.reconciliationCasesResolved && a.1.validationStatus == b.1.validationStatus

end ChangeSet

section Finite

variable (lax : Coercions) (byAlias : Bool)

instance : SourceMode.codec.Finite := inferInstanceAs (Codec.spelled ..).Finite
instance : ImplementationStatus.codec.Finite := inferInstanceAs (Codec.spelled ..).Finite
instance : ChangeKind.codec.Finite := inferInstanceAs (Codec.spelled ..).Finite
instance : RelationType.codec.Finite := inferInstanceAs (Codec.spelled ..).Finite
instance : lax.optionalTimeCodec.Finite := inferInstanceAs (Codec.nullable ..).Finite
instance : lax.flagCodec.Finite := inferInstanceAs (Codec.lax ..).Finite
instance : lax.naturalCodec.Finite := inferInstanceAs (Codec.natural ..).Finite

instance : lax.optionalConfidenceCodec.Finite where
  finite
    | none => rfl
    | some a => Codec.Finite.finite (c := lax.confidenceCodec) a

instance : (Node.fields lax).Finite := by unfold Node.fields; infer_instance
instance : (Edge.aliasFields lax).Finite := by unfold Edge.aliasFields; infer_instance
instance : (Edge.nameFields lax).Finite := by unfold Edge.nameFields; infer_instance
instance : (ConfidenceChange.fields lax).Finite := by unfold ConfidenceChange.fields; infer_instance
instance : ImplementationStatusChange.fields.Finite := by unfold ImplementationStatusChange.fields; infer_instance

instance : (Node.codec lax).Finite := inferInstanceAs (Codec.convert ..).Finite

instance : (Edge.aliased lax).Finite :=
  ⟨fun e => Codec.Finite.finite (c := Codec.object (Edge.aliasFields lax)) e.parts⟩

instance : (Edge.plain lax).Finite :=
  ⟨fun e => Codec.Finite.finite (c := Codec.object (Edge.nameFields lax)) e.parts⟩

instance : (Edge.codec lax byAlias).Finite := by
  unfold Edge.codec
  split <;> infer_instance

instance : (NodeUpdate.codec lax).Finite := inferInstanceAs (Codec.convert ..).Finite
instance : (EdgeUpdate.codec lax byAlias).Finite := inferInstanceAs (Codec.convert ..).Finite
instance : (ConfidenceChange.codec lax).Finite := inferInstanceAs (Codec.convert ..).Finite
instance : ImplementationStatusChange.codec.Finite := inferInstanceAs (Codec.convert ..).Finite

instance : (ChangeSetDraft.fields lax byAlias).Finite := by unfold ChangeSetDraft.fields; infer_instance
instance : (ChangeSetDraft.codec lax byAlias).Finite := inferInstanceAs (Codec.convert ..).Finite
instance : (ChangeSet.codec lax byAlias).Finite := inferInstanceAs (Codec.checked ..).Finite

end Finite
