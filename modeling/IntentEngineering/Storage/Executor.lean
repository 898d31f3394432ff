import IntentEngineering.Mutations.Committer

open Schema LocalTransaction Interrupt

-- The scope gives up when a target no longer has the content it is bound to.
def LocalTransaction.Script.require (name : String) (content : Option Utf8.Bytes) : Script :=
  .read name fun found => if found = content then .done else .leave

-- What the caller of `apply` binds. Of the read-only extras, whether each still
-- has the content it had.
structure EffectBinding where
  intentProposalPreimage : Option Utf8.Bytes
  intentProposalAppend : Option Utf8.Bytes
  graphPreimage : Option Utf8.Bytes
  evidencePreimage : Option Utf8.Bytes
  casePreimage : Option Utf8.Bytes
  bindCasePreimage : Bool
  rollbackBaseExceptions : Bool
  extrasUnchanged : Bool

def EffectBinding.unbound : EffectBinding := ⟨none,none,none,none,none,false,false,true⟩

structure ChangeRequest where
  changeset : ChangeSet
  createdCases : List ReconciliationCase
  resolvedCases : List ReconciliationCase
  binding : EffectBinding

namespace LocalChangeSetExecutor

-- `_ordered_effects`
def orderedEffects (changeset : ChangeSet) (created resolved : List ReconciliationCase) : Option (List ReconciliationCase) :=
  let createdIds := created.map ReconciliationCase.id
  let resolvedIds := resolved.map ReconciliationCase.id
  if ¬createdIds.Nodup ∨ ¬resolvedIds.Nodup ∨ createdIds ≠ changeset.1.reconciliationCasesCreated ∨
      resolvedIds ≠ changeset.1.reconciliationCasesResolved then none
  else if created.any fun case => case.status ≠ .opened then none
  else if resolved.any fun case => case.status ≠ .resolved || case.resolvedByChangeset ≠ some changeset.1.id then none
  else some (created ++ resolved)

-- The checks of the arguments.
def bindable (c : Coordinator) (binding : EffectBinding) : Bool :=
  binding.intentProposalPreimage.isSome == binding.intentProposalAppend.isSome &&
    binding.intentProposalAppend != some [] &&
    (binding.intentProposalAppend.isNone || c.targets.contains "intent_proposals") &&
    (binding.evidencePreimage.isNone || c.targets.contains "evidence") &&
    (binding.casePreimage.isNone || binding.bindCasePreimage)

section
variable (env : WriteEnv)

def proposalEffect (binding : EffectBinding) : Script :=
  match binding.intentProposalAppend with
  | none => .done
  | some content => .both (.require "intent_proposals" binding.intentProposalPreimage) (.append "intent_proposals" content)

def evidenceBinding (binding : EffectBinding) : Script :=
  if binding.evidencePreimage.isSome then .require "evidence" binding.evidencePreimage else .done

def caseBinding (binding : EffectBinding) : Script :=
  if binding.bindCasePreimage then .require "cases" binding.casePreimage else .done

def graphBinding (binding : EffectBinding) : Script :=
  if binding.graphPreimage.isSome then .require "graph" binding.graphPreimage else .done

-- The graph and the change set that led to it.
def writeGraph (changeset : ChangeSet) (next : IntentGraph) : Script :=
  .both (.write "graph" (GraphStore.serializeGraph env.lax env.yaml next)) (.append "history" (env.historyFrame changeset))

def writeCases (caseBytes : Utf8.Bytes) : Script := if caseBytes = [] then .done else .append "cases" caseBytes

-- What the scope does once it has the graph and the case ledger.
def writeEffects (request : ChangeRequest) (next : IntentGraph) (caseBytes : Utf8.Bytes) : Script :=
  .both (proposalEffect request.binding) <| .both (evidenceBinding request.binding) <| .both (caseBinding request.binding) <|
    .both (writeGraph env request.changeset next) (writeCases caseBytes)

def applyEffects (request : ChangeRequest) (effects : List ReconciliationCase) (next : IntentGraph) : Script :=
  if effects.any (unknownToGraph next) then .leave
  else .read "cases" fun cases =>
    match CaseStore.validateCaseAppends env.lax cases effects with
    | .error _ => .leave
    | .ok caseBytes => writeEffects env request next caseBytes

def applyTo (apply : IntentGraph → Applier.Applied IntentGraph) (graphContent : Option Utf8.Bytes) (next : IntentGraph → Script) :
    Script :=
  match graphContent.bind (GraphStore.parseGraph env.lax env.yaml) with
  | none => .leave
  | some graph => match apply graph with
    | .error _ => .leave
    | .ok applied => next applied

def script (request : ChangeRequest) (effects : List ReconciliationCase) : Script :=
  if !request.binding.extrasUnchanged then .leave
  else .both (graphBinding request.binding) <| .read "graph" fun graphContent =>
    applyTo env (fun graph => Applier.applyWithCaseEffects graph request.changeset) graphContent (applyEffects env request effects)

-- A caught cancellation is followed by a recovery and raised again.
def guardCancellation (c : Coordinator) (rollbackBaseExceptions : Bool) (act : Act Disk Unit) : Act Disk Unit :=
  tryCatch act fun halt =>
    if halt = .baseException ∧ rollbackBaseExceptions = true then do
      let _ ← recoverUnlocked c
      throw halt
    else throw halt

def apply (c : Coordinator) (transactionId : String) (request : ChangeRequest) : Act Disk Unit :=
  if !bindable c request.binding then throw .exception
  else match orderedEffects request.changeset request.createdCases request.resolvedCases with
    | none => throw .exception
    | some effects => guardCancellation c request.binding.rollbackBaseExceptions
        (transaction c request.binding.rollbackBaseExceptions transactionId (script env request effects).body)

end

end LocalChangeSetExecutor

namespace GraphStore

variable (env : WriteEnv)

def applyScript (changeset : ChangeSet) : Script :=
  .read "graph" fun graphContent => LocalChangeSetExecutor.applyTo env (fun graph => Applier.applyChangeset graph changeset)
    graphContent (LocalChangeSetExecutor.writeGraph env changeset)

-- `YamlGraphStore.apply`
def apply (c : Coordinator) (transactionId : String) (changeset : ChangeSet) : Act Disk Unit :=
  transaction c false transactionId (applyScript env changeset).body

end GraphStore
