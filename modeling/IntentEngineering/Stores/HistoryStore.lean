import IntentEngineering.Library.JsonLedger
import IntentEngineering.Models.ChangeSet

open Schema

inductive HistoryStoreError where
  | encoding
  | invalidRecord (line : Nat)
deriving DecidableEq

namespace HistoryStore

variable (lax : Coercions)

def record (s : List ChangeSet) (n : Nat) (v : Json) : Except HistoryStoreError (List ChangeSet) :=
  match v with
  | .obj _ =>
    match (ChangeSet.codec lax true).load v with
    | none => .error (.invalidRecord n)
    | some changeset => .ok (s ++ [changeset])
  | _ => .error (.invalidRecord n)

def reader : LedgerReader HistoryStoreError (List ChangeSet) where
  start := []
  dialect := Json.plainDialect
  known := Json.plainDialect_known
  keepends := true
  skipsBlank := true
  encoding := .encoding
  blank := .invalidRecord
  malformed := .invalidRecord
  record s n _ v := record lax s n v
  objects s n _ v s' got := by
    unfold record at got
    split at got
    · exact ⟨_,rfl⟩
    · cases got

-- `_rebuild_index_unlocked`: every change set in file order.
def rebuild (content : Option Utf8.Bytes) : Except HistoryStoreError (List ChangeSet) := (reader lax).read content

-- `_subjects`
def subjects (changeset : ChangeSet) : List String :=
  let c := changeset.1
  c.addedNodes ++ c.updatedNodes ++ c.nodesSuperseded ++ c.addedEdges ++ c.updatedEdges ++ c.edgesSuperseded ++
    c.reassessed ++ c.reclaimed ++ c.reconciliationCasesCreated ++ c.reconciliationCasesResolved

def append (content : Option Utf8.Bytes) (changeset : ChangeSet) : Except HistoryStoreError (Option Utf8.Bytes) :=
  match rebuild lax content with
  | .error e => .error e
  | .ok _ => .ok (LedgerReader.append content ((ChangeSet.codec lax true).dump changeset))

-- The index holds a change set once under each of its subjects.
def history (content : Option Utf8.Bytes) (subjectId : String) : Except HistoryStoreError (List ChangeSet) :=
  (rebuild lax content).map fun changesets => changesets.filter fun changeset => (subjects changeset).contains subjectId

theorem dump_changeset (changeset : ChangeSet) : ∃ ms, (ChangeSet.codec lax true).dump changeset = .obj ms := ⟨_,rfl⟩

theorem record_changeset (s : List ChangeSet) (n : Nat) (changeset : ChangeSet) :
    record lax s n ((ChangeSet.codec lax true).dump changeset) = .ok (s ++ [changeset]) := by
  have read := (ChangeSet.codec lax true).exact changeset
  obtain ⟨ms,shape⟩ := dump_changeset lax changeset
  rw [shape] at read ⊢
  simp only [record,read]

end HistoryStore
