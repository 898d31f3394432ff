import IntentEngineering.Reconcile.Detectors
import IntentEngineering.Stores.GraphStore

open Schema Json

-- The two libraries behind a declaration: the YAML loader of the front matter, and
-- what the model reads beside the canonical spellings, among them of `Literal[1]`.
structure DetectionEnv where
  lax : Coercions
  yaml : Yaml
  one : Json → Option Int

structure SideDeclaration where
  label : {s : String // !s.isEmpty}
  claim : {s : String // !s.isEmpty}
  evidenceRefs : List String
  confidence : Confidence
  sourceMode : SourceMode
  current : Option Bool
  authors : List String
  observedAt : Option DateTime

namespace SideDeclaration

def fields (lax : Coercions) :=
  Fields.leading "authors" Codec.string.list (some []) <|
  Fields.leading "claim" (Codec.string.checked fun s => !s.isEmpty) none <|
  Fields.leading "confidence" lax.confidenceCodec none <|
  Fields.leading "current" (lax.flagCodec.nullable nofun) (some none) <|
  Fields.leading "evidence_refs" Codec.string.list none <|
  Fields.leading "label" (Codec.string.checked fun s => !s.isEmpty) none <|
  Fields.leading "observed_at" lax.optionalTimeCodec (some none) <|
  Fields.nil.push "source_mode" SourceMode.codec (some .explicit) (Fields.before_nil _)

def codec (lax : Coercions) : Codec SideDeclaration :=
  (Codec.object (fields lax)).convert
    (fun (authors,claim,confidence,current,evidenceRefs,label,observedAt,sourceMode,_) =>
      some ⟨label,claim,evidenceRefs,confidence,sourceMode,current,authors,observedAt⟩)
    (fun s => (s.authors,s.claim,s.confidence,s.current,s.evidenceRefs,s.label,s.observedAt,s.sourceMode,()))
    (fun _ => rfl)

theorem codec_solid (lax : Coercions) (side : SideDeclaration) : (codec lax).dump side ≠ .null := by
  obtain ⟨ms,dumped⟩ : ∃ ms, (codec lax).dump side = .obj ms := ⟨_,rfl⟩
  rw [dumped]
  exact Json.noConfusion

end SideDeclaration

def SemanticCompatibility.spelling : SemanticCompatibility → String
  | .aligns => "aligns"
  | .contradicts => "contradicts"
  | .unknown => "unknown"

def SemanticCompatibility.codec : Codec SemanticCompatibility :=
  .spelled spelling [.aligns,.contradicts,.unknown] (by intro a; cases a <;> decide)

structure DetectionDeclaration where
  subjectRef : String
  affectedRefs : List String
  requirement : Option SideDeclaration
  implementation : Option SideDeclaration
  test : Option SideDeclaration
  decision : Option SideDeclaration
  requirementVersion : Option Int
  implementationVersion : Option Int
  testVersion : Option Int
  decisionVersion : Option Int
  compatibility : SemanticCompatibility
  requirementActive : Bool
  hasMappedSemantics : Bool
  materialCodeChange : Bool

namespace DetectionDeclaration
variable (env : DetectionEnv)

def sideCodec : Codec (Option SideDeclaration) := (SideDeclaration.codec env.lax).nullable (SideDeclaration.codec_solid env.lax)

def versionCodec : Codec (Option Int) := (Codec.int.lax env.lax.integer).nullable nofun

def fields :=
  Fields.required "affected_refs" Codec.string.list <|
  Fields.required "compatibility" SemanticCompatibility.codec <|
  Fields.defaulted "decision" (sideCodec env) none <|
  Fields.defaulted "decision_version" (versionCodec env) none <|
  Fields.defaulted "has_mapped_semantics" env.lax.flagCodec true <|
  Fields.defaulted "implementation" (sideCodec env) none <|
  Fields.defaulted "implementation_version" (versionCodec env) none <|
  Fields.defaulted "material_code_change" env.lax.flagCodec false <|
  Fields.defaulted "requirement" (sideCodec env) none <|
  Fields.defaulted "requirement_active" env.lax.flagCodec true <|
  Fields.defaulted "requirement_version" (versionCodec env) none <|
  Fields.defaulted "schema_version" ((Codec.int.lax env.one).only 1) () <|
  Fields.required "subject_ref" Codec.string <|
  Fields.defaulted "test" (sideCodec env) none <|
  Fields.defaulted "test_version" (versionCodec env) none <|
  Fields.nil

-- `model_validate`, after an absent `schema_version` has been set to 1.
def codec : Codec DetectionDeclaration :=
  (Codec.object (fields env)).convert
    (fun (affectedRefs,compatibility,decision,decisionVersion,hasMappedSemantics,implementation,implementationVersion,
        materialCodeChange,requirement,requirementActive,requirementVersion,_,subjectRef,test,testVersion,_) =>
      some ⟨subjectRef,affectedRefs,requirement,implementation,test,decision,requirementVersion,implementationVersion,
        testVersion,decisionVersion,compatibility,requirementActive,hasMappedSemantics,materialCodeChange⟩)
    (fun d => (d.affectedRefs,d.compatibility,d.decision,d.decisionVersion,d.hasMappedSemantics,d.implementation,
      d.implementationVersion,d.materialCodeChange,d.requirement,d.requirementActive,d.requirementVersion,(),d.subjectRef,
      d.test,d.testVersion,()))
    (fun _ => rfl)

end DetectionDeclaration

structure ResolvedSide where
  side : EvidenceSide
  records : List EvidenceRecord

namespace EvidenceDetection

-- The text before the first place where a mark stands.
def textBefore (mark : List Char) : List Char → Option (List Char)
  | [] => none
  | c :: cs => if mark.isPrefixOf (c :: cs) then some [] else (textBefore mark cs).map (c :: ·)

def only : List α → Option α
  | [one] => some one
  | _ => none

section
variable (env : DetectionEnv)

-- `_front_matter`
def frontMatter (content : String) : Option Members :=
  if "---\n".toList.isPrefixOf content.toList then
    (textBefore "\n---\n".toList (content.toList.drop 4)).bind fun text =>
      match env.yaml.load (Utf8.encode text) with
      | some (.obj loaded) => match loaded.lookup "intent_engineering" with
        | some (.obj metadata) => some metadata
        | _ => none
      | _ => none
  else none

-- `_raw_declaration`; a null one is as good as none.
def rawDeclaration (record : EvidenceRecord) : Option Json :=
  match record.payload.1.lookup "detection_input" with
  | none | some .null => match record.payload.1.lookup "content" with
    | some (.str content) => (frontMatter env content).bind fun metadata => metadata.lookup "detection_input"
    | _ => none
  | some raw => some raw

-- `_declaration`
def declaration (record : EvidenceRecord) : Option DetectionDeclaration :=
  match rawDeclaration env record with
  | some (.obj raw) => (DetectionDeclaration.codec env).load (.obj raw)
  | _ => none

end

-- `_git_path_matches`
def gitPathMatches (record : EvidenceRecord) (path : String) : Bool :=
  record.connectorType == "git" && match record.payload.1.lookup "changed_paths" with
    | some (.arr paths) => paths.any fun changed => (Json.str path).equal changed
    | _ => false

-- `_resolve_reference`
def resolveReference (declaring : EvidenceRecord) (records : List EvidenceRecord) (reference : String) : Option EvidenceRecord :=
  if reference = "$self" then some declaring
  else if "source:".toList.isPrefixOf reference.toList then
    let source := reference.toList.drop "source:".length
    let connector := source.takeWhile (· != ':')
    let externalId := (source.dropWhile (· != ':')).drop 1
    if connector = [] ∨ externalId = [] then none
    else only (records.filter fun record => record.connectorType.toList == connector && record.externalObjectId.toList == externalId)
  else if "git-path:".toList.isPrefixOf reference.toList then
    let path := reference.toList.drop "git-path:".length
    if path = [] then none else only (records.filter fun record => gitPathMatches record (String.ofList path))
  else only (records.filter fun record => record.id == reference)

-- `evidence_allowed` for one actor.
def evidenceAllowed (actor : String) (record : EvidenceRecord) : Bool := record.acl.isEmpty || record.acl.contains actor

-- `refs_allowed`; of two records under one id the later is the indexed one.
def refsAllowed (references : List String) (records : List EvidenceRecord) (actor : String) : Bool :=
  references.all fun reference => (records.reverse.find? fun record => record.id == reference).any (evidenceAllowed actor)

-- `_records_are_current`
def recordsAreCurrent (ingestions : List EvidenceIngestion) (records : List EvidenceRecord) : Bool :=
  records.all fun record =>
    let associations := ingestions.filter fun item => item.evidence.id == record.id
    !associations.isEmpty && associations.all fun association => !ingestions.any fun item =>
      item.connectorId == association.connectorId && item.evidence.connectorType == record.connectorType &&
        item.evidence.externalObjectId == record.externalObjectId && decide (association.sequence < item.sequence)

-- `max` of times: the first that no other one exceeds.
def latestTime : List DateTime → Except DetectionError (Option DateTime)
  | [] => .ok none
  | first :: rest => (rest.foldlM (m := Except DetectionError) (fun (best time : DateTime) => (best.less time).map fun newer => if newer then time else best) first).map some

-- `_resolve_side`
def resolveSide (declaring : EvidenceRecord) (records : List EvidenceRecord) (ingestions : List EvidenceIngestion) (actor : String)
    (side : SideDeclaration) : Except DetectionError (Option ResolvedSide) :=
  if side.evidenceRefs = [] ∨ ¬side.evidenceRefs.Nodup then .ok none
  else match side.evidenceRefs.mapM (resolveReference declaring records) with
    | none => .ok none
    | some resolved =>
      let evidenceIds := (resolved.map EvidenceRecord.id).insertionSort (· ≤ ·)
      let authors := (resolved.filterMap EvidenceRecord.author).filter (· != "") |>.dedup.insertionSort (· ≤ ·)
      let current := recordsAreCurrent ingestions resolved
      if ¬evidenceIds.Nodup ∨ refsAllowed evidenceIds resolved actor = false ∨ authors = [] ∨ side.current.any (· != current) = true then
        .ok none
      else (latestTime (resolved.map EvidenceRecord.observedAt)).bind fun latest =>
        match latest with
        | none => .ok none
        | some observedAt =>
          if valid : namedAll evidenceIds = true ∧ namedAll authors = true then
            .ok (some ⟨⟨side.label.1,side.claim.1,evidenceIds,observedAt,authors,side.confidence,side.sourceMode,current,
              valid.1,valid.2⟩,resolved⟩)
          else .error .validationError

-- `_declared_order`
def declaredOrder (left right : Int) : EvidenceOrder :=
  if left < right then .before else if right < left then .after else .tied

-- The one member of a set of orders.
def agreed (orders : List EvidenceOrder) : EvidenceOrder := (only orders.dedup).getD .unknown

-- `left_by_connector` and `right_by_connector`: a later association of one
-- connector replaces the earlier.
def sequenceIn (ingestions : List EvidenceIngestion) (id connectorId : String) : Option Nat :=
  (ingestions.reverse.find? fun item => item.evidence.id == id && item.connectorId == connectorId).map EvidenceIngestion.sequence

-- `_record_order`
def recordOrder (ingestions : List EvidenceIngestion) (left right : EvidenceRecord) : Except DetectionError EvidenceOrder :=
  if left.connectorType = right.connectorType ∧ left.externalObjectId = right.externalObjectId then
    .ok (agreed ((ingestions.map EvidenceIngestion.connectorId).filterMap fun connectorId =>
      (sequenceIn ingestions left.id connectorId).bind fun first =>
        (sequenceIn ingestions right.id connectorId).map fun second => declaredOrder first second))
  else chronological left.observedAt right.observedAt

-- `_side_order`
def sideOrder (ingestions : List EvidenceIngestion) (left right : ResolvedSide) : Except DetectionError EvidenceOrder :=
  ((left.records.flatMap fun first => right.records.map fun second => (first,second)).mapM
    (m := Except DetectionError) fun pair => recordOrder ingestions pair.1 pair.2).map agreed

-- The next step of a reading that has found what it needs so far.
def andThen (found : Except DetectionError (Option α)) (next : α → Except DetectionError (Option β)) : Except DetectionError (Option β) :=
  found.bind fun result => match result with
    | none => .ok none
    | some value => next value

section
variable (records : List EvidenceRecord) (ingestions : List EvidenceIngestion) (actor : String)

-- One side of a declaration, apart from the evidence of the sides before it.
def resolveNext (declaring : EvidenceRecord) (declared : Option SideDeclaration) (previous : List String) :
    Except DetectionError (Option (Option ResolvedSide × List String)) :=
  match declared with
  | none => .ok (some (none,previous))
  | some side => andThen (resolveSide declaring records ingestions actor side) fun resolved =>
      if resolved.side.evidenceRefs.any (fun reference => decide (reference ∈ previous)) then .ok none
      else .ok (some (some resolved,previous ++ resolved.side.evidenceRefs))

-- What a comparison of two sides gives; none where a side is absent.
def derivedOrder (left right : Option ResolvedSide) (leftVersion rightVersion : Option Int) :
    Except DetectionError (Option (Option EvidenceOrder)) :=
  match left, right with
  | some left, some right => (sideOrder ingestions left right).map fun derived =>
      match leftVersion, rightVersion with
      | some first, some second => if declaredOrder first second = derived then some (some derived) else none
      | _, _ => some (some derived)
  | _, _ => .ok (some none)

-- `_input_from_record`
def inputFromRecord (env : DetectionEnv) (graphIds : List String) (declaring : EvidenceRecord) :
    Except DetectionError (Option DetectionInput) :=
  match declaration env declaring with
  | none => .ok none
  | some declared =>
    if refsAllowed [declaring.id] [declaring] actor = false then .ok none
    else if declared.subjectRef ∉ graphIds ∨ ¬∀ reference ∈ declared.affectedRefs, reference ∈ graphIds then .ok none
    else
      andThen (resolveNext records ingestions actor declaring declared.requirement []) fun requirement =>
      andThen (resolveNext records ingestions actor declaring declared.implementation requirement.2) fun implementation =>
      andThen (resolveNext records ingestions actor declaring declared.test implementation.2) fun test =>
      andThen (resolveNext records ingestions actor declaring declared.decision test.2) fun decision =>
      andThen (derivedOrder ingestions requirement.1 implementation.1 declared.requirementVersion declared.implementationVersion) fun first =>
      andThen (derivedOrder ingestions decision.1 requirement.1 declared.decisionVersion declared.requirementVersion) fun second =>
      andThen (derivedOrder ingestions implementation.1 decision.1 declared.implementationVersion declared.decisionVersion) fun third =>
      andThen (derivedOrder ingestions test.1 decision.1 declared.testVersion declared.decisionVersion) fun fourth =>
      andThen (derivedOrder ingestions implementation.1 test.1 declared.implementationVersion declared.testVersion) fun fifth =>
      .ok (some {
        subjectRef := declared.subjectRef
        affectedRefs := declared.affectedRefs
        requirement := requirement.1.map ResolvedSide.side
        implementation := implementation.1.map ResolvedSide.side
        test := test.1.map ResolvedSide.side
        decision := decision.1.map ResolvedSide.side
        requirementImplementationOrder := first
        decisionRequirementOrder := second
        implementationDecisionOrder := third
        testDecisionOrder := fourth
        implementationTestOrder := fifth
        compatibility := declared.compatibility
        requirementActive := declared.requirementActive
        hasMappedSemantics := declared.hasMappedSemantics
        materialCodeChange := declared.materialCodeChange })

end

-- `by_id`; `none` where a record differs from the one indexed before it.
def indexRecords : List EvidenceRecord → List EvidenceRecord → Option (List EvidenceRecord)
  | byId, [] => some byId
  | byId, record :: rest => match byId.find? fun indexed => indexed.id == record.id with
    | none => indexRecords (byId ++ [record]) rest
    | some previous =>
      if previous.equal record then indexRecords (byId.map fun indexed => if indexed.id = record.id then record else indexed) rest
      else none

def candidates (env : DetectionEnv) (graphIds : List String) (actor : String) (ingestions : List EvidenceIngestion)
    (stable : List EvidenceRecord) : Except DetectionError (List DriftObservation) :=
  ((Keyed.inOrder EvidenceRecord.id stable).mapM (m := Except DetectionError) fun record =>
    (inputFromRecord stable ingestions actor env graphIds record).bind fun input => match input with
      | none => .ok []
      | some input => Detectors.detectDrift input).map List.flatten

-- `detect_evidence_drift`
def detectEvidenceDrift (env : DetectionEnv) (records : List EvidenceRecord) (graph : IntentGraph) (actor : String)
    (ingestions : List EvidenceIngestion) : Except DetectionError (List DriftObservation) :=
  match indexRecords [] records with
  | none => .ok []
  | some stable => (candidates env (graph.1.nodes.map Node.id) actor ingestions stable).map DriftObservation.selectDriftObservations

end EvidenceDetection
