import IntentEngineering.Library.Keyed
import IntentEngineering.Models.Tasks
import IntentEngineering.Models.Reconciliation
import IntentEngineering.Library.JsonChars
import Mathlib.Data.List.Dedup

structure DriftObservation where
  subjectRef : String
  caseType : ReconciliationCaseType
  affectedRefs : List String
  evidenceSides : List EvidenceSide
  detectorId : String
  fingerprint : String
  requiresHuman : Bool
  printed : isFingerprint fingerprint = true
  evidenced : evidenceSides.flatMap EvidenceSide.evidenceRefs ≠ []

namespace DriftObservation

-- `_fingerprint`
def fingerprintOf (detectorId subjectRef : String) (affectedRefs : List String) (sides : List EvidenceSide) : String :=
  Sha256.hexdigest (Utf8.encode (Json.asciiText (.obj [
    ("affected_refs",.arr ((affectedRefs.insertionSort (· ≤ ·)).map .str)),
    ("detector_id",.str detectorId),
    ("evidence_refs",.arr (((sides.flatMap EvidenceSide.evidenceRefs).dedup.insertionSort (· ≤ ·)).map .str)),
    ("subject_ref",.str subjectRef)])))

-- `_DETECTOR_ORDER`
def detectorOrder : List (String × Nat) :=
  [("conflicting_sources",0),("requirement_lag",1),("code_lag",2),("test_lag",3),("undocumented_code",4),
   ("intent_without_requirement",5),("requirement_without_intent",6),("relevant_provisional_intent",7),
   ("stale_source_evidence",8),("ambiguous_divergence",9)]

def rank (o : DriftObservation) : Nat := (detectorOrder.lookup o.detectorId).getD 100

def precedes (a b : DriftObservation) : Bool :=
  decide (a.rank < b.rank) || (a.rank == b.rank && decide (a.fingerprint ≤ b.fingerprint))

-- `selected.setdefault`
def setDefault (selected : List DriftObservation) (o : DriftObservation) : List DriftObservation :=
  if (selected.map subjectRef).contains o.subjectRef then selected else selected ++ [o]

def selectDriftObservations (candidates : List DriftObservation) : List DriftObservation :=
  ((candidates.mergeSort precedes).foldl setDefault []).mergeSort fun a b => decide (a.fingerprint ≤ b.fingerprint)

theorem setDefault_subjects {selected : List DriftObservation} {o : DriftObservation} {subject : String} :
    subject ∈ (setDefault selected o).map subjectRef ↔ subject ∈ selected.map subjectRef ∨ subject = o.subjectRef := by
  unfold setDefault
  split
  · rename_i there
    rw [List.contains_iff_mem] at there
    constructor
    · exact .inl
    · intro found
      rcases found with found | rfl
      · exact found
      · exact there
  · simp

theorem defaults_subjects (candidates : List DriftObservation) (selected : List DriftObservation) {subject : String} :
    subject ∈ (candidates.foldl setDefault selected).map subjectRef ↔
      subject ∈ selected.map subjectRef ∨ subject ∈ candidates.map subjectRef := by
  induction candidates generalizing selected with
  | nil => simp
  | cons o rest ih =>
    rw [List.foldl_cons,ih,setDefault_subjects,List.map_cons,List.mem_cons,or_assoc]

-- One observation is kept for each subject that has any.
theorem selected_subjects {candidates : List DriftObservation} {subject : String} :
    subject ∈ (selectDriftObservations candidates).map subjectRef ↔ subject ∈ candidates.map subjectRef := by
  have sorted : (selectDriftObservations candidates).map subjectRef |>.Perm
      (((candidates.mergeSort precedes).foldl setDefault []).map subjectRef) := (List.mergeSort_perm _ _).map _
  have ordered : ((candidates.mergeSort precedes).map subjectRef).Perm (candidates.map subjectRef) := (List.mergeSort_perm _ _).map _
  rw [sorted.mem_iff,defaults_subjects,ordered.mem_iff]
  simp

end DriftObservation
