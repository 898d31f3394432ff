import IntentEngineering.Capture.CheckpointValidation
import IntentEngineering.Library.Keyed
import IntentEngineering.Stores.IngestionLedger

namespace EvidenceStore

-- `ledger` for a connector of a type.
def ledger (lax : Coercions) (content : Option Utf8.Bytes) (connectorId connectorType : String) :
    Except MigrationError (List EvidenceIngestion) :=
  match parseEvidenceLines lax content with
  | .error e => .error (.store e)
  | .ok s =>
    if s.records.any fun record => s.legacyIds.contains record.id &&
        !(s.ledger connectorId).any (fun item => item.evidence.id == record.id) && record.connectorType == connectorType then
      .error (.legacyAssociationRequired connectorId)
    else .ok ((s.ledger connectorId).filter fun item => item.evidence.connectorType == connectorType)

end EvidenceStore

-- `is_exact_consumed_prefix`
def isExactConsumedPrefix (consumed ledger : List String) : Bool :=
  decide (consumed.length ≤ ledger.length) && consumed == ledger.take consumed.length

-- The steps of `SyncOrchestrator.run` for one connector. Each is one critical
-- section or one call of the connector, the reasoner or the detectors.
namespace SyncOrchestrator

structure Connector where
  id : String
  type : String

structure StoredCheckpoint extends SyncCheckpoint where
  committedAt : UtcTime

-- `==` of two checkpoints.
def StoredCheckpoint.equal (a b : StoredCheckpoint) : Bool :=
  a.connectorId == b.connectorId && decide (a.cursor = b.cursor) && a.committedAt.1.same b.committedAt.1 &&
    a.consumedEvidenceIds == b.consumedEvidenceIds

def consumedIds (checkpoint : Option StoredCheckpoint) : List String :=
  match checkpoint with
  | none => []
  | some checkpoint => checkpoint.consumedEvidenceIds

-- The evidence file and the connector's checkpoint.
structure Workspace where
  evidence : IngestionState
  checkpoint : Option StoredCheckpoint

namespace Workspace

def empty : Workspace := ⟨⟨none,[],fun _ => []⟩,none⟩

def settled (w : Workspace) (out : EvidenceStore.Outcome) : Workspace := {w with evidence := w.evidence.settle (.ok out)}

-- The connector's authenticated ledger in sequence order.
def ledger (lax : Coercions) (c : Connector) (w : Workspace) : Except EvidenceStore.MigrationError (List EvidenceIngestion) :=
  EvidenceStore.ledger lax w.evidence.content c.id c.type

end Workspace

structure EvidenceDelta where
  added : List EvidenceRecord
  priorVersions : List (String × String)
  ingestions : List EvidenceIngestion

-- What a run has gathered so far.
structure Capture where
  prior : Option StoredCheckpoint
  discovered : List (Option EvidenceRecord)
  delta : EvidenceDelta

namespace Capture

-- The evidence the run holds: what its checkpoint lists, then its records.
def held (capture : Capture) : List String := consumedIds capture.prior ++ capture.delta.added.map EvidenceRecord.id

def setVersion (versions : List (String × String)) (object predecessor : String) : List (String × String) :=
  (object,predecessor) :: versions.filter fun entry => entry.1 != object

-- The unconsumed part of an authenticated ledger.
def load (prior : Option StoredCheckpoint) (ledger : List EvidenceIngestion) : Capture :=
  let ingestions := ledger.filter fun item => !(consumedIds prior).contains item.evidence.id
  ⟨prior,[],⟨ingestions.map EvidenceIngestion.evidence,
    (ingestions.filterMap fun item => item.predecessorId.map fun predecessor => (item.evidence.externalObjectId,predecessor)).foldl
      (fun versions entry => setVersion versions entry.1 entry.2) [],ingestions⟩⟩

-- A record that has been associated, as the ledger has it.
def take (capture : Capture) (record : EvidenceRecord) (ingestion : EvidenceIngestion) : Capture :=
  let versions := match ingestion.predecessorId with
    | none => capture.delta.priorVersions
    | some predecessor => setVersion capture.delta.priorVersions record.externalObjectId predecessor
  if capture.held.contains record.id then {capture with delta := {capture.delta with priorVersions := versions}}
  else {capture with delta := ⟨capture.delta.added ++ [record],versions,capture.delta.ingestions ++ [ingestion]⟩}

end Capture

inductive Phase where
  | idle
  | begun (prior : Option StoredCheckpoint)
  | migrating (prior : Option StoredCheckpoint) (rest : List EvidenceRecord)
  | loading (prior : Option StoredCheckpoint)
  | ready (capture : Capture)
  | capturing (capture : Capture) (rest : List (Option EvidenceRecord))
  | associated (capture : Capture) (record : EvidenceRecord) (rest : List (Option EvidenceRecord))
  | captured (capture : Capture)
  | reasoned (capture : Capture)
  | detected (capture : Capture)
  | prepared (prior : Option StoredCheckpoint) (checkpoint : StoredCheckpoint)
  | ended (succeeded : Bool)

-- What the environment decides for a turn. A stage may raise, a write that
-- raises may have `landed`; `discovered` holds what fetching and normalizing
-- each source object gives, if anything.
structure Answer where
  fails : Bool
  landed : Bool
  discovered : List (Option EvidenceRecord)
  cursor : Option (List Char)
  committedAt : UtcTime

-- `checkpoint_after_discovery` over the ledger read once more.
def checkpointAfterDiscovery (c : Connector) (answer : Answer) (ledger : List EvidenceIngestion) (capture : Capture) : Option StoredCheckpoint :=
  let consumed := Keyed.fromKeys capture.held
  if consumed.all fun id => ledger.any fun item => item.evidence.id == id then
    let cursor := if capture.discovered.isEmpty && answer.cursor.isNone then capture.prior.bind (·.cursor) else answer.cursor
    if unique : consumed.Nodup then some ⟨⟨c.id,cursor,consumed,unique⟩,answer.committedAt⟩ else none
  else none

def advanced (prior : Option StoredCheckpoint) (checkpoint : StoredCheckpoint) : Bool :=
  match prior with
  | none => true
  | some prior => decide (checkpoint.cursor ≠ prior.cursor) || checkpoint.consumedEvidenceIds != prior.consumedEvidenceIds

def sameCheckpoint : Option StoredCheckpoint → Option StoredCheckpoint → Bool
  | none,none => true
  | some a,some b => a.equal b
  | _,_ => false

section
variable (lax : Coercions) (c : Connector) (answer : Answer)

-- `_persist_evidence`
def persist (w : Workspace) (record : EvidenceRecord) (next : Phase) : Workspace × Phase :=
  match EvidenceStore.associate lax w.evidence.content c.id record with
  | .error _ => (w,.ended false)
  | .ok out =>
    if answer.fails then (if answer.landed then w.settled out else w,.ended false)
    else (w.settled out,next)

def turn (w : Workspace) : Phase → Workspace × Phase
  | .idle => if answer.fails then (w,.ended false) else (w,.begun w.checkpoint)
  | .begun prior =>
    match EvidenceStore.migrateLegacy lax w.evidence.content c.id c.type with
    | .error _ => (w,.ended false)
    | .ok candidates => if answer.fails then (w,.ended false) else (w,.migrating prior candidates)
  | .migrating prior [] => (w,.loading prior)
  | .migrating prior (record :: rest) => persist lax c answer w record (.migrating prior rest)
  | .loading prior =>
    match w.ledger lax c with
    | .error _ => (w,.ended false)
    | .ok ledger =>
      if answer.fails || !isExactConsumedPrefix (consumedIds prior) (ledger.map fun item => item.evidence.id) then (w,.ended false)
      else (w,.ready (.load prior ledger))
  | .ready capture =>
    if answer.fails then (w,.ended false)
    else (w,.capturing {capture with discovered := answer.discovered} answer.discovered)
  | .capturing capture [] => (w,.captured capture)
  | .capturing _ (none :: _) => (w,.ended false)
  | .capturing capture (some record :: rest) =>
    if record.connectorType != c.type then (w,.ended false)
    else persist lax c answer w record (.associated capture record rest)
  | .associated capture record rest =>
    match w.ledger lax c with
    | .error _ => (w,.ended false)
    | .ok ledger =>
      match ledger.reverse.find? fun item => item.evidence.id == record.id with
      | none => (w,.ended false)
      | some ingestion => if answer.fails then (w,.ended false) else (w,.capturing (capture.take record ingestion) rest)
  -- Reasoning is skipped where there is nothing new.
  | .captured capture => if answer.fails && !capture.delta.added.isEmpty then (w,.ended false) else (w,.reasoned capture)
  | .reasoned capture => if answer.fails then (w,.ended false) else (w,.detected capture)
  | .detected capture =>
    match w.ledger lax c with
    | .error _ => (w,.ended false)
    | .ok ledger =>
      if answer.fails then (w,.ended false)
      else match checkpointAfterDiscovery c answer ledger capture with
        | none => (w,.ended false)
        | some checkpoint => if advanced capture.prior checkpoint then (w,.prepared capture.prior checkpoint) else (w,.ended true)
  | .prepared prior checkpoint =>
    if !sameCheckpoint w.checkpoint prior then (w,.ended false)
    else if answer.fails then (if answer.landed then {w with checkpoint := some checkpoint} else w,.ended false)
    else ({w with checkpoint := some checkpoint},.ended true)
  | .ended succeeded => (w,.ended succeeded)

end

-- The runs that share the workspace.
structure System where
  workspace : Workspace
  phase : Nat → Phase

structure Move where
  run : Nat
  answer : Answer

namespace System

def start : System := ⟨.empty,fun _ => .idle⟩

variable (lax : Coercions) (c : Connector)

def step (s : System) (move : Move) : System :=
  let next := turn lax c move.answer s.workspace (s.phase move.run)
  ⟨next.1,Function.update s.phase move.run next.2⟩

def steps (s : System) (moves : List Move) : System := moves.foldl (step lax c) s

end System

end SyncOrchestrator
