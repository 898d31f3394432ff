import IntentEngineering.Models.Reconciliation
import Mathlib.Data.List.Sort
import Mathlib.Data.List.Dedup
import Mathlib.Data.String.Basic

namespace ReconciliationCase

-- `all_evidence_refs`: each reference once, in order.
def allEvidenceRefs (case : ReconciliationCase) : List String :=
  (case.evidenceSides.flatMap EvidenceSide.evidenceRefs).dedup.insertionSort (· ≤ ·)

-- `model_copy` with another lifecycle, validated again.
def withLifecycle (case : ReconciliationCase) (status : ReconciliationStatus) (resolution : Option ResolutionAction)
    (resolvedByChangeset : Option String) (history : List ClassificationEvent) : Option ReconciliationCase :=
  if valid : Valid case.evidenceSides status resolution resolvedByChangeset history then
    some {case with
      status := status
      resolution := resolution
      resolvedByChangeset := resolvedByChangeset
      history := history
      valid := valid}
  else none

-- `transition_case`
def transition (case : ReconciliationCase) (target : ReconciliationStatus) (actor : String) (at' : DateTime)
    (resolution : Option ResolutionAction) (changesetId : Option String) : Option ReconciliationCase :=
  if target ∉ case.status.allowedTransitions then none
  else if target = .resolved ∧ (resolution = none ∨ changesetId = none) then none
  else if attributed : actor ≠ "" then
    case.withLifecycle target (if target = .resolved then resolution else none)
      (if target = .resolved then changesetId else none) (case.history ++ [⟨actor,at',case.status,target,attributed⟩])
  else none

theorem withLifecycle_kept {case next : ReconciliationCase} {reached : ReconciliationStatus} {action : Option ResolutionAction}
    {events : List ClassificationEvent} (built : case.withLifecycle reached action changesetId events = some next) :
    next.id = case.id ∧ next.subjectRef = case.subjectRef ∧ next.affectedRefs = case.affectedRefs ∧
      next.evidenceSides = case.evidenceSides ∧ next.status = reached ∧ next.resolvedByChangeset = changesetId := by
  unfold withLifecycle at built
  split at built
  · cases built
    exact ⟨rfl,rfl,rfl,rfl,rfl,rfl⟩
  · cases built

theorem transition_kept {case next : ReconciliationCase} {action : Option ResolutionAction}
    (moved : case.transition target actor at' action changesetId = some next) :
    next.id = case.id ∧ next.subjectRef = case.subjectRef ∧ next.affectedRefs = case.affectedRefs ∧
      next.evidenceSides = case.evidenceSides ∧ next.status = target := by
  unfold transition at moved
  split at moved
  · cases moved
  · split at moved
    · cases moved
    · split at moved
      · obtain ⟨id,subject,refs,sides,status,_⟩ := withLifecycle_kept moved
        exact ⟨id,subject,refs,sides,status⟩
      · cases moved

end ReconciliationCase
