import IntentEngineering.Library.PyEqual
import IntentEngineering.Library.PyText
import IntentEngineering.Models.Vocabulary

open Schema Binary64

-- A finite number from 0 to 1; the negative zero is one.
def isConfidence : Float64 → Bool
  | .finite x => decide (x.magnitude = 0) || (!x.negative && decide (x.magnitude ≤ 1))
  | _ => false

abbrev Confidence := {x : Float64 // isConfidence x = true}

def Confidence.equal (a b : Confidence) : Bool := (Json.floatAmount a.1).equal (Json.floatAmount b.1)

namespace Coercions

variable (lax : Coercions)

def confidenceCodec : Codec Confidence := (Codec.float.lax lax.number).checked isConfidence

def optionalConfidenceCodec : Codec (Option Confidence) :=
  lax.confidenceCodec.nullable fun a (absent : Json.float a.1 = .null) => Json.noConfusion absent

-- A confidence is never infinite or NaN.
instance : lax.confidenceCodec.Finite where
  finite a := by
    obtain ⟨x,valid⟩ := a
    cases x with
    | finite x => rfl
    | infinite negative => cases valid
    | nan => cases valid

end Coercions

def ReconciliationStatus.allowedTransitions : ReconciliationStatus → List ReconciliationStatus
  | .opened => [.proposed,.deferred,.falsePositive]
  | .proposed => [.needsHuman]
  | .needsHuman => [.resolved]
  | .resolved => []
  | .deferred => []
  | .falsePositive => []

-- Not empty, and every entry has text.
def namedAll (refs : List String) : Bool := !refs.isEmpty && refs.all PyText.hasText

structure EvidenceSide where
  label : String
  claim : String
  evidenceRefs : List String
  observedAt : DateTime
  authors : List String
  confidence : Confidence
  sourceMode : SourceMode
  current : Bool
  referenced : namedAll evidenceRefs = true
  authored : namedAll authors = true

namespace EvidenceSide

def equal (a b : EvidenceSide) : Bool :=
  a.label == b.label && a.claim == b.claim && a.evidenceRefs == b.evidenceRefs && a.observedAt.same b.observedAt &&
    a.authors == b.authors && a.confidence.equal b.confidence && decide (a.sourceMode = b.sourceMode) && a.current == b.current

def fields (lax : Coercions) :=
  Fields.required "authors" Codec.string.list <|
  Fields.required "claim" Codec.string <|
  Fields.required "confidence" lax.confidenceCodec <|
  Fields.defaulted "current" lax.flagCodec true <|
  Fields.required "evidence_refs" Codec.string.list <|
  Fields.required "label" Codec.string <|
  Fields.required "observed_at" lax.timeCodec <|
  Fields.defaulted "source_mode" SourceMode.codec .explicit <|
  Fields.nil

def codec (lax : Coercions) : Codec EvidenceSide :=
  (Codec.object (fields lax)).convert
    (fun (authors,claim,confidence,current,evidenceRefs,label,observedAt,sourceMode,_) =>
      if valid : namedAll evidenceRefs = true ∧ namedAll authors = true then
        some ⟨label,claim,evidenceRefs,observedAt,authors,confidence,sourceMode,current,valid.1,valid.2⟩
      else none)
    (fun s => (s.authors,s.claim,s.confidence,s.current,s.evidenceRefs,s.label,s.observedAt,s.sourceMode,()))
    (fun s => by simp [s.referenced,s.authored])

end EvidenceSide

structure ClassificationEvent where
  actor : String
  at' : DateTime
  prior : ReconciliationStatus
  new : ReconciliationStatus
  attributed : actor ≠ ""

namespace ClassificationEvent

def equal (a b : ClassificationEvent) : Bool :=
  a.actor == b.actor && a.at'.same b.at' && decide (a.prior = b.prior) && decide (a.new = b.new)

def fields (lax : Coercions) :=
  Fields.required "actor" Codec.string <|
  Fields.required "at" lax.timeCodec <|
  Fields.required "new" ReconciliationStatus.codec <|
  Fields.required "prior" ReconciliationStatus.codec <|
  Fields.nil

def codec (lax : Coercions) : Codec ClassificationEvent :=
  (Codec.object (fields lax)).convert
    (fun (actor,at',new,prior,_) => if attributed : actor ≠ "" then some ⟨actor,at',prior,new,attributed⟩ else none)
    (fun e => (e.actor,e.at',e.new,e.prior,()))
    (fun e => by simp [e.attributed])

-- Each event continues from the status before it; the last one is returned.
def lifecycle : ReconciliationStatus → List ClassificationEvent → Option ReconciliationStatus
  | status, [] => some status
  | status, event :: rest =>
    if event.prior = status ∧ event.new ∈ event.prior.allowedTransitions then lifecycle event.new rest else none

end ClassificationEvent

-- `Field(pattern=r"^[0-9a-f]{64}$")`
def isFingerprint (s : String) : Bool := PyText.isHexDigest s.toList

-- The case validator: some evidence, a contiguous history that ends in the
-- status, and a resolution exactly for a resolved case.
structure ReconciliationCase.Valid (evidenceSides : List EvidenceSide) (status : ReconciliationStatus)
    (resolution : Option ResolutionAction) (resolvedByChangeset : Option String) (history : List ClassificationEvent) : Prop where
  evidence : evidenceSides.flatMap EvidenceSide.evidenceRefs ≠ []
  lifecycle : ClassificationEvent.lifecycle .opened history = some status
  resolved : status = .resolved → resolution.isSome ∧ resolvedByChangeset.isSome
  unresolved : status ≠ .resolved → resolution = none ∧ resolvedByChangeset = none

instance : Decidable (ReconciliationCase.Valid evidenceSides status resolution resolvedByChangeset history) :=
  decidable_of_iff (evidenceSides.flatMap EvidenceSide.evidenceRefs ≠ [] ∧
      ClassificationEvent.lifecycle .opened history = some status ∧
      (status = .resolved → resolution.isSome ∧ resolvedByChangeset.isSome) ∧
      (status ≠ .resolved → resolution = none ∧ resolvedByChangeset = none))
    ⟨fun ⟨evidence,lifecycle,resolved,unresolved⟩ => ⟨evidence,lifecycle,resolved,unresolved⟩,
      fun valid => ⟨valid.evidence,valid.lifecycle,valid.resolved,valid.unresolved⟩⟩

structure ReconciliationCase where
  id : String
  subjectRef : String
  caseType : ReconciliationCaseType
  affectedRefs : List String
  evidenceSides : List EvidenceSide
  detectorId : String
  fingerprint : String
  createdAt : DateTime
  createdBy : String
  status : ReconciliationStatus
  requiresHuman : Bool
  alternatives : List ReconciliationCaseType
  impact : String
  resolution : Option ResolutionAction
  resolvedByChangeset : Option String
  history : List ClassificationEvent
  printed : isFingerprint fingerprint = true
  attributed : createdBy ≠ ""
  valid : ReconciliationCase.Valid evidenceSides status resolution resolvedByChangeset history

def equalOptions (equal : α → α → Bool) : Option α → Option α → Bool
  | none, none => true
  | some x, some y => equal x y
  | _, _ => false

def equalLists (equal : α → α → Bool) : List α → List α → Bool
  | [], [] => true
  | x :: xs, y :: ys => equal x y && equalLists equal xs ys
  | _, _ => false

namespace ReconciliationCase

def equal (a b : ReconciliationCase) : Bool :=
  a.id == b.id && a.subjectRef == b.subjectRef && decide (a.caseType = b.caseType) && a.affectedRefs == b.affectedRefs &&
    equalLists EvidenceSide.equal a.evidenceSides b.evidenceSides && a.detectorId == b.detectorId &&
    a.fingerprint == b.fingerprint && a.createdAt.same b.createdAt && a.createdBy == b.createdBy &&
    decide (a.status = b.status) && a.requiresHuman == b.requiresHuman && decide (a.alternatives = b.alternatives) &&
    a.impact == b.impact && decide (a.resolution = b.resolution) && a.resolvedByChangeset == b.resolvedByChangeset &&
    equalLists ClassificationEvent.equal a.history b.history

def fields (lax : Coercions) :=
  Fields.required "affected_refs" Codec.string.list <|
  Fields.defaulted "alternatives" ReconciliationCaseType.codec.list [] <|
  Fields.required "case_type" ReconciliationCaseType.codec <|
  Fields.required "created_at" lax.timeCodec <|
  Fields.required "created_by" Codec.string <|
  Fields.required "detector_id" Codec.string <|
  Fields.required "evidence_sides" (EvidenceSide.codec lax).list <|
  Fields.required "fingerprint" Codec.string <|
  Fields.defaulted "history" (ClassificationEvent.codec lax).list [] <|
  Fields.required "id" Codec.string <|
  Fields.defaulted "impact" Codec.string "" <|
  Fields.defaulted "requires_human" lax.flagCodec true <|
  Fields.defaulted "resolution" (ResolutionAction.codec.nullable nofun) none <|
  Fields.defaulted "resolved_by_changeset" Codec.optionalString none <|
  Fields.defaulted "status" ReconciliationStatus.codec .opened <|
  Fields.required "subject_ref" Codec.string <|
  Fields.nil

def codec (lax : Coercions) : Codec ReconciliationCase :=
  (Codec.object (fields lax)).convert
    (fun (affectedRefs,alternatives,caseType,createdAt,createdBy,detectorId,evidenceSides,fingerprint,history,id,impact,
        requiresHuman,resolution,resolvedByChangeset,status,subjectRef,_) =>
      if valid : isFingerprint fingerprint = true ∧ createdBy ≠ "" ∧
          Valid evidenceSides status resolution resolvedByChangeset history then
        some ⟨id,subjectRef,caseType,affectedRefs,evidenceSides,detectorId,fingerprint,createdAt,createdBy,status,
          requiresHuman,alternatives,impact,resolution,resolvedByChangeset,history,valid.1,valid.2.1,valid.2.2⟩
      else none)
    (fun c => (c.affectedRefs,c.alternatives,c.caseType,c.createdAt,c.createdBy,c.detectorId,c.evidenceSides,c.fingerprint,
      c.history,c.id,c.impact,c.requiresHuman,c.resolution,c.resolvedByChangeset,c.status,c.subjectRef,()))
    (fun c => by simp [c.printed,c.attributed,c.valid])

theorem resolution_solid (action : ResolutionAction) : ResolutionAction.codec.dump action ≠ .null := by
  cases action <;> exact nofun

-- The members after `created_by`.
def later (lax : Coercions) :=
  Fields.required "detector_id" Codec.string <|
  Fields.required "evidence_sides" (EvidenceSide.codec lax).list <|
  Fields.required "fingerprint" Codec.string <|
  Fields.defaulted "history" (ClassificationEvent.codec lax).list [] <|
  Fields.required "id" Codec.string <|
  Fields.defaulted "impact" Codec.string "" <|
  Fields.defaulted "requires_human" lax.flagCodec true <|
  Fields.defaulted "resolution" (ResolutionAction.codec.nullable resolution_solid) none <|
  Fields.defaulted "resolved_by_changeset" Codec.optionalString none <|
  Fields.defaulted "status" ReconciliationStatus.codec .opened <|
  Fields.required "subject_ref" Codec.string <|
  Fields.nil

end ReconciliationCase
