import IntentEngineering.Library.JsonLedger
import IntentEngineering.Models.Mutations

open Schema

-- What the immutable ledger needs of its record type.
structure RecordModel (ρ : Type) where
  codec : Codec ρ
  id : ρ → String
  equal : ρ → ρ → Bool
  objects : ∀ r, ∃ ms, codec.dump r = .obj ms

-- A stored record with the line it was read from.
structure StoredRecord (ρ : Type) where
  record : ρ
  encoding : List Char

namespace ImmutableStore

variable {ρ : Type} (model : RecordModel ρ)

def find (s : List (StoredRecord ρ)) (id : String) : Option (StoredRecord ρ) :=
  s.find? fun stored => model.id stored.record == id

-- The payload is written out again and read by the model's own parser.
def readRecord (v : Json) : Option ρ :=
  match v with
  | .obj _ => (Json.loads Json.plainDialect (Json.text v)).bind model.codec.load
  | _ => none

-- A line may repeat a record, byte for byte.
def record (s : List (StoredRecord ρ)) (line : List Char) (v : Json) : Except Unit (List (StoredRecord ρ)) :=
  match readRecord model v with
  | none => .error ()
  | some fresh =>
    match find model s (model.id fresh) with
    | some existing => if model.equal existing.record fresh && decide (existing.encoding = line) then .ok s else .error ()
    | none => .ok (s ++ [⟨fresh,line⟩])

def reader : LedgerReader Unit (List (StoredRecord ρ)) where
  start := []
  dialect := Json.strictDialect
  known := Json.strictDialect_known
  keepends := false
  skipsBlank := false
  encoding := ()
  blank _ := ()
  malformed _ := ()
  record s _ line v := record model s line v
  objects s _ line v s' got := by
    unfold record readRecord at got
    split at got
    · cases got
    · rename_i read
      split at read
      · exact ⟨_,rfl⟩
      · cases read

-- `_decode_unlocked`, with what it keeps of each line.
def decode (content : Option Utf8.Bytes) : Except Unit (List (StoredRecord ρ)) := (reader model).read content

-- `list`
def list (content : Option Utf8.Bytes) : Except Unit (List ρ) := (decode model content).map fun s => s.map StoredRecord.record

inductive PutResult where
  | added (content : Option Utf8.Bytes)
  | duplicate
  | invalid
  | conflict

-- `_put_result`
def putResult (content : Option Utf8.Bytes) (fresh : ρ) : PutResult :=
  match decode model content with
  | .error _ => .invalid
  | .ok s =>
    match find model s (model.id fresh) with
    | some existing => if model.equal existing.record fresh then .duplicate else .conflict
    | none => .added (LedgerReader.append content (model.codec.dump fresh))

inductive MutationStoreError where
  | invalid
  | conflict
deriving DecidableEq

def put (content : Option Utf8.Bytes) (fresh : ρ) : Except MutationStoreError (Option Utf8.Bytes × Bool) :=
  match putResult model content fresh with
  | .added content' => .ok (content',true)
  | .duplicate => .ok (content,false)
  | .invalid => .error .invalid
  | .conflict => .error .conflict

theorem readRecord_dump (fresh : ρ) : readRecord model (model.codec.dump fresh) = some fresh := by
  obtain ⟨ms,shape⟩ := model.objects fresh
  have formed := model.codec.formed fresh
  have read := model.codec.exact fresh
  rw [shape] at formed read ⊢
  have again := Json.loads_text Json.plainDialect formed (.inl rfl) (w := []) (by simp [Json.Blank])
  rw [List.nil_append] at again
  simp only [readRecord,again,Option.bind_some,read]

theorem record_fresh (absent : find model s (model.id fresh) = none) (line : List Char) :
    record model s line (model.codec.dump fresh) = .ok (s ++ [⟨fresh,line⟩]) := by
  simp only [record,readRecord_dump,absent]

theorem put_spec (got : put model content fresh = .ok (content',added)) :
    ∃ s, decode model content = .ok s ∧
      ((added = false ∧ content' = content) ∨
        added = true ∧ content' = LedgerReader.append content (model.codec.dump fresh) ∧
          ∀ line, record model s line (model.codec.dump fresh) = .ok (s ++ [⟨fresh,line⟩])) := by
  simp only [put,putResult] at got
  cases read : decode model content with
  | error e => simp [read] at got
  | ok s =>
    refine ⟨s,rfl,?_⟩
    simp only [read] at got
    cases known : find model s (model.id fresh) with
    | none =>
      simp only [known,Except.ok.injEq,Prod.mk.injEq] at got
      exact .inr ⟨got.2.symm,got.1.symm,record_fresh model known⟩
    | some existing =>
      simp only [known] at got
      cases same : model.equal existing.record fresh with
      | false => simp [same] at got
      | true =>
        simp only [same,if_true,Except.ok.injEq,Prod.mk.injEq] at got
        exact .inl ⟨got.2.symm,got.1.symm⟩

end ImmutableStore

def writePlanModel (lax : Coercions) (sha256 : Utf8.Bytes → String) : RecordModel (WritePlan lax sha256) where
  codec := WritePlan.codec lax sha256
  id p := p.1.id
  equal a b := a.1.equal b.1
  objects _ := ⟨_,rfl⟩

def approvalModel (lax : Coercions) (sha256 : Utf8.Bytes → String) : RecordModel (ApprovalRecord lax sha256) where
  codec := ApprovalRecord.codec lax sha256
  id a := a.1.id
  equal a b := a.1.equal b.1
  objects _ := ⟨_,rfl⟩
