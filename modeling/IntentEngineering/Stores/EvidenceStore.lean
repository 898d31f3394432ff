import IntentEngineering.Library.JsonLedger
import IntentEngineering.Models.Evidence

open Schema

inductive EvidenceStoreError where
  | encoding
  | invalidRecord (line : Nat)
  | conflictingEvidenceId (id : String)
  | invalidIngestion
deriving DecidableEq

-- What the parser returns, together with its per-connector entries, which are
-- the ingestions of one connector in file order.
structure EvidenceIndex where
  records : List EvidenceRecord
  ingestions : List EvidenceIngestion
  legacyIds : List String

-- One appended record: a raw row or a connector association.
inductive EvidenceEntry where
  | legacy (record : EvidenceRecord)
  | association (ingestion : EvidenceIngestion)

def EvidenceEntry.record : EvidenceEntry → EvidenceRecord
  | .legacy record => record
  | .association ingestion => ingestion.evidence

def EvidenceEntry.dump (lax : Coercions) : EvidenceEntry → Json
  | .legacy record => (EvidenceRecord.codec lax).dump record
  | .association ingestion => (EvidenceIngestion.codec lax).dump ingestion

namespace EvidenceIndex

def empty : EvidenceIndex := ⟨[],[],[]⟩

def find (s : EvidenceIndex) (id : String) : Option EvidenceRecord := s.records.find? fun record => record.id == id

def ledger (s : EvidenceIndex) (connectorId : String) : List EvidenceIngestion :=
  s.ingestions.filter fun item => item.connectorId == connectorId

-- The latest entry of the ledger for the same external object.
def predecessor (ledger : List EvidenceIngestion) (record : EvidenceRecord) : Option String :=
  ((ledger.filter fun item => item.evidence.connectorType == record.connectorType &&
    item.evidence.externalObjectId == record.externalObjectId).getLast?).map fun item => item.evidence.id

-- `records.setdefault`
def setDefault (s : EvidenceIndex) (record : EvidenceRecord) : List EvidenceRecord :=
  if (s.find record.id).isSome then s.records else s.records ++ [record]

-- The index with one more entry in it.
def add (s : EvidenceIndex) : EvidenceEntry → EvidenceIndex
  | .legacy record =>
    ⟨s.setDefault record,s.ingestions,if s.legacyIds.contains record.id then s.legacyIds else s.legacyIds ++ [record.id]⟩
  | .association ingestion => ⟨s.setDefault ingestion.evidence,s.ingestions ++ [ingestion],s.legacyIds⟩

def conflicts (s : EvidenceIndex) (record : EvidenceRecord) : Bool :=
  match s.find record.id with
  | some existing => !existing.equal record
  | none => false

def contiguous (s : EvidenceIndex) (ingestion : EvidenceIngestion) : Bool :=
  let ledger := s.ledger ingestion.connectorId
  ingestion.sequence == ledger.length + 1 &&
    !ledger.any (fun item => item.evidence.id == ingestion.evidence.id) &&
    decide (ingestion.predecessorId = predecessor ledger ingestion.evidence)

end EvidenceIndex

namespace EvidenceStore

variable (lax : Coercions)

-- A payload with a storage version is an association, any other a raw row.
def readEntry (ms : Json.Members) : Option EvidenceEntry :=
  if (ms.lookup "storage_schema_version").isSome then ((EvidenceIngestion.codec lax).load (.obj ms)).map .association
  else ((EvidenceRecord.codec lax).load (.obj ms)).map .legacy

def admissible (s : EvidenceIndex) : EvidenceEntry → Bool
  | .legacy _ => true
  | .association ingestion => s.contiguous ingestion

def record (s : EvidenceIndex) (n : Nat) (v : Json) : Except EvidenceStoreError EvidenceIndex :=
  match v with
  | .obj ms =>
    match readEntry lax ms with
    | none => .error (.invalidRecord n)
    | some entry =>
      if !admissible s entry then .error (.invalidRecord n)
      else if s.conflicts entry.record then .error (.conflictingEvidenceId entry.record.id)
      else .ok (s.add entry)
  | _ => .error (.invalidRecord n)

def reader : LedgerReader EvidenceStoreError EvidenceIndex where
  start := .empty
  dialect := Json.strictDialect
  known := Json.strictDialect_known
  keepends := false
  skipsBlank := true
  encoding := .encoding
  blank := .invalidRecord
  malformed := .invalidRecord
  record s n _ v := record lax s n v
  objects s n _ v s' got := by
    unfold record at got
    split at got
    · exact ⟨_,rfl⟩
    · cases got

def parseEvidenceLines (content : Option Utf8.Bytes) : Except EvidenceStoreError EvidenceIndex := (reader lax).read content

-- What a call leaves in the file, the entry it appended, and what it returns.
structure Outcome where
  content : Option Utf8.Bytes
  entry : Option EvidenceEntry
  returned : Bool

def append (content : Option Utf8.Bytes) (entry : EvidenceEntry) (returned : Bool) : Outcome :=
  ⟨LedgerReader.append content (entry.dump lax),some entry,returned⟩

def put (content : Option Utf8.Bytes) (record : EvidenceRecord) : Except EvidenceStoreError Outcome :=
  match parseEvidenceLines lax content with
  | .error e => .error e
  | .ok s =>
    match s.find record.id with
    | some existing => if existing.equal record then .ok ⟨content,none,false⟩ else .error (.conflictingEvidenceId record.id)
    | none => .ok (append lax content (.legacy record) true)

def associate (content : Option Utf8.Bytes) (connectorId : String) (record : EvidenceRecord) : Except EvidenceStoreError Outcome :=
  match parseEvidenceLines lax content with
  | .error e => .error e
  | .ok s =>
    if s.conflicts record then .error (.conflictingEvidenceId record.id)
    else
      let ledger := s.ledger connectorId
      if ledger.any (fun item => item.evidence.id == record.id) then .ok ⟨content,none,false⟩
      else if named : connectorText connectorId = true then
        let ingestion : EvidenceIngestion := ⟨connectorId,ledger.length + 1,EvidenceIndex.predecessor ledger record,record,named,by omega⟩
        .ok (append lax content (.association ingestion) (s.find record.id).isNone)
      else .error .invalidIngestion

inductive Request where
  | put (record : EvidenceRecord)
  | associate (connectorId : String) (record : EvidenceRecord)

def call (content : Option Utf8.Bytes) : Request → Except EvidenceStoreError Outcome
  | .put record => put lax content record
  | .associate connectorId record => associate lax content connectorId record

theorem reader_record (s : EvidenceIndex) (n : Nat) (shown : List Char) (v : Json) :
    (reader lax).record s n shown v = record lax s n v := rfl

theorem dump_entry (entry : EvidenceEntry) : ∃ ms, entry.dump lax = .obj ms ∧ readEntry lax ms = some entry := by
  cases entry with
  | legacy record =>
    have shape : (EvidenceRecord.codec lax).dump record = .obj ((EvidenceRecord.fields lax).dump _) := rfl
    refine ⟨_,shape,?_⟩
    rw [readEntry,lookup_dumped (EvidenceRecord.fields lax) _ (by decide),←shape,(EvidenceRecord.codec lax).exact record]
    rfl
  | association ingestion =>
    have shape : (EvidenceIngestion.codec lax).dump ingestion = .obj ((EvidenceIngestion.fields lax).dump _) := rfl
    refine ⟨_,shape,?_⟩
    rw [readEntry,if_pos (lookup_present (EvidenceIngestion.fields lax) _ (by decide)),←shape,(EvidenceIngestion.codec lax).exact ingestion]
    rfl

theorem formed_entry (entry : EvidenceEntry) : (entry.dump lax).WellFormed := by
  cases entry with
  | legacy record => exact (EvidenceRecord.codec lax).formed record
  | association ingestion => exact (EvidenceIngestion.codec lax).formed ingestion

theorem record_entry (s : EvidenceIndex) (n : Nat) (entry : EvidenceEntry) (fits : admissible s entry = true)
    (same : s.conflicts entry.record = false) : record lax s n (entry.dump lax) = .ok (s.add entry) := by
  obtain ⟨ms,shape,read⟩ := dump_entry lax entry
  simp [record,shape,read,fits,same]

-- What an accepted call does: nothing, or one append of an entry that the index
-- it was checked against takes.
theorem call_spec (got : call lax content request = .ok out) :
    ∃ s, parseEvidenceLines lax content = .ok s ∧
      ((out.entry = none ∧ out.content = content) ∨
        ∃ entry, out.entry = some entry ∧ out.content = LedgerReader.append content (entry.dump lax) ∧
          ∀ n, record lax s n (entry.dump lax) = .ok (s.add entry)) := by
  cases request with
  | put fresh =>
    simp only [call,put] at got
    split at got
    · cases got
    · rename_i s read
      refine ⟨s,read,?_⟩
      split at got
      · split at got
        · cases got
          exact .inl ⟨rfl,rfl⟩
        · cases got
      · rename_i absent
        cases got
        exact .inr ⟨_,rfl,rfl,fun n => record_entry lax s n _ rfl (by simp [EvidenceIndex.conflicts,EvidenceEntry.record,absent])⟩
  | associate connectorId fresh =>
    simp only [call,associate] at got
    split at got
    · cases got
    · rename_i s read
      refine ⟨s,read,?_⟩
      split at got
      · cases got
      · rename_i noConflict
        split at got
        · cases got
          exact .inl ⟨rfl,rfl⟩
        · rename_i unassociated
          split at got
          · cases got
            refine .inr ⟨_,rfl,rfl,fun n => record_entry lax s n _ ?_ (by simpa [EvidenceEntry.record] using noConflict)⟩
            simpa [admissible,EvidenceIndex.contiguous] using unassociated
          · cases got

-- A record whose identifier is taken is refused exactly when it is another one.
theorem associate_held {fresh : EvidenceRecord} (read : parseEvidenceLines lax content = .ok s) (held : s.find fresh.id = some existing) :
    associate lax content connectorId fresh = .error (.conflictingEvidenceId fresh.id) ↔ existing.equal fresh = false := by
  have conflicts : s.conflicts fresh = !existing.equal fresh := by simp only [EvidenceIndex.conflicts,held]
  simp only [associate,read,conflicts]
  cases existing.equal fresh with
  | false => simp
  | true =>
    simp only [Bool.not_true,Bool.false_eq_true,if_false,Bool.true_eq_false,iff_false]
    intro refused
    split at refused
    · cases refused
    · split at refused <;> cases refused

end EvidenceStore
