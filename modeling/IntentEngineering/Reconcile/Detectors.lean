import IntentEngineering.Reconcile.DriftSelection

inductive EvidenceOrder where
  | before
  | after
  | tied
  | unknown
deriving DecidableEq

inductive SemanticCompatibility where
  | aligns
  | contradicts
  | unknown
deriving DecidableEq

-- What ends a detection without a result: a comparison of a naive time with an
-- aware one, or a side that does not validate.
inductive DetectionError where
  | typeError
  | validationError
deriving DecidableEq

structure DetectionInput where
  subjectRef : String
  affectedRefs : List String
  requirement : Option EvidenceSide
  implementation : Option EvidenceSide
  test : Option EvidenceSide
  decision : Option EvidenceSide
  requirementImplementationOrder : Option EvidenceOrder
  decisionRequirementOrder : Option EvidenceOrder
  implementationDecisionOrder : Option EvidenceOrder
  testDecisionOrder : Option EvidenceOrder
  implementationTestOrder : Option EvidenceOrder
  compatibility : SemanticCompatibility
  requirementActive : Bool
  hasMappedSemantics : Bool
  materialCodeChange : Bool

-- `a < b` of two times.
def DateTime.less (a b : DateTime) : Except DetectionError Bool :=
  if a.offset.isSome = b.offset.isSome then .ok (decide (a.instant < b.instant)) else .error .typeError

def chronological (left right : DateTime) : Except DetectionError EvidenceOrder :=
  (left.less right).bind fun earlier =>
    if earlier then .ok .before
    else (right.less left).map fun later => if later then .after else .tied

namespace Detectors

-- `_order`
def order (declared : Option EvidenceOrder) (left right : EvidenceSide) : Except DetectionError EvidenceOrder :=
  match declared with
  | some known => .ok known
  | none => chronological left.observedAt right.observedAt

-- Whether an order has to be, and is, the later one; later conditions of a
-- detector are looked at only where the ones before hold.
def whenAfter (found : Except DetectionError EvidenceOrder) (next : Except DetectionError (Option DriftObservation)) :
    Except DetectionError (Option DriftObservation) :=
  found.bind fun known => if known = .after then next else .ok none

def allCurrent (sides : List EvidenceSide) : Bool := sides.all EvidenceSide.current

def canonicalAffectedRefs (affectedRefs : List String) : List String := affectedRefs.dedup.insertionSort (· ≤ ·)

-- `_observation`, of the sides that there are.
def observation (input : DetectionInput) (caseType : ReconciliationCaseType) (detectorId : String) (sides : List (Option EvidenceSide)) :
    Except DetectionError (Option DriftObservation) :=
  let evidenceSides := sides.reduceOption
  let affectedRefs := canonicalAffectedRefs input.affectedRefs
  if evidenced : evidenceSides.flatMap EvidenceSide.evidenceRefs ≠ [] then
    .ok (some ⟨input.subjectRef,caseType,affectedRefs,evidenceSides,detectorId,
      DriftObservation.fingerprintOf detectorId input.subjectRef affectedRefs evidenceSides,true,hexdigest_hex _,evidenced⟩)
  else .error .validationError

def detectConflictingSources (input : DetectionInput) : Except DetectionError (Option DriftObservation) :=
  let candidates := [input.requirement,input.decision,input.implementation,input.test].reduceOption.filter fun side =>
    side.current && decide (side.sourceMode = .explicit)
  let authors := (candidates.flatMap EvidenceSide.authors).dedup
  if input.compatibility ≠ .contradicts ∨ candidates.length < 2 ∨ authors.length < 2 then .ok none
  else observation input .conflictingSources "conflicting_sources" (candidates.map some)

def detectRequirementLag (input : DetectionInput) : Except DetectionError (Option DriftObservation) :=
  match input.requirement, input.implementation, input.test, input.decision with
  | some requirement, some implementation, some test, some decision =>
    if input.compatibility ≠ .aligns ∨ decision.sourceMode ≠ .explicit ∨
        allCurrent [requirement,decision,implementation,test] = false then .ok none
    else whenAfter (order input.decisionRequirementOrder decision requirement) <|
      whenAfter (order input.implementationDecisionOrder implementation decision) <|
      whenAfter (order input.testDecisionOrder test decision) <|
      observation input .requirementLag "requirement_lag" [some requirement,some decision,some implementation,some test]
  | _, _, _, _ => .ok none

def detectCodeLag (input : DetectionInput) : Except DetectionError (Option DriftObservation) :=
  match input.requirement, input.implementation with
  | some requirement, some implementation =>
    if input.requirementActive = false ∨ allCurrent [requirement,implementation] = false then .ok none
    else whenAfter (order input.requirementImplementationOrder requirement implementation) <|
      observation input .codeLag "code_lag" [some requirement,some implementation,input.test]
  | _, _ => .ok none

def detectTestLag (input : DetectionInput) : Except DetectionError (Option DriftObservation) :=
  match input.requirement, input.implementation, input.test with
  | some requirement, some implementation, some test =>
    if input.requirementActive = false ∨ allCurrent [requirement,implementation,test] = false then .ok none
    else whenAfter (order input.implementationTestOrder implementation test) <|
      observation input .testLag "test_lag" [some requirement,some implementation,some test]
  | _, _, _ => .ok none

def detectUndocumentedCode (input : DetectionInput) : Except DetectionError (Option DriftObservation) :=
  if input.implementation.isNone = true ∨ input.materialCodeChange = false ∨ input.hasMappedSemantics = true then .ok none
  else observation input .undocumentedCode "undocumented_code" [input.implementation]

def detectAmbiguousDivergence (input : DetectionInput) : Except DetectionError (Option DriftObservation) :=
  let sides := [input.requirement,input.decision,input.implementation,input.test].reduceOption
  if input.compatibility ≠ .unknown ∨ sides.length < 2 then .ok none
  else observation input .ambiguousDivergence "ambiguous_divergence" (sides.map some)

-- `DETECTORS`
def detectors : List (DetectionInput → Except DetectionError (Option DriftObservation)) :=
  [detectConflictingSources,detectRequirementLag,detectCodeLag,detectTestLag,detectUndocumentedCode,detectAmbiguousDivergence]

def sortsBefore (a b : DriftObservation) : Bool :=
  decide (a.caseType.spelling < b.caseType.spelling) ||
    (a.caseType.spelling == b.caseType.spelling && decide (a.fingerprint ≤ b.fingerprint))

-- `detect_drift`: every detector runs, the first observation of a subject stays.
def detectDrift (input : DetectionInput) : Except DetectionError (List DriftObservation) :=
  (detectors.mapM (m := Except DetectionError) fun detector => detector input).map fun found =>
    (found.reduceOption.foldl DriftObservation.setDefault []).mergeSort sortsBefore

end Detectors
