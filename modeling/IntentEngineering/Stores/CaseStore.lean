import IntentEngineering.Library.JsonLedger
import IntentEngineering.Models.Reconciliation

open Schema

inductive CaseStoreError where
  | encoding
  | blankRecord (line : Nat)
  | invalidRecord (line : Nat)
  | notMapping
  | conflictingCaseId (id : String)
  | conflictingFingerprint (fingerprint : String)
deriving DecidableEq

-- A dictionary assignment: the newest entry of a key is found first.
def assign (entries : List (String × α)) (key : String) (value : α) : List (String × α) := (key,value) :: entries

structure CaseIndex where
  latestById : List (String × ReconciliationCase)
  byFingerprint : List (String × ReconciliationCase)

-- Every version in file order, with the indexes over them.
structure CaseLedger where
  versions : List ReconciliationCase
  index : CaseIndex

namespace CaseIndex

-- `latest_by_id[case.id] = case` and `by_fingerprint[case.fingerprint] = case`
def store (s : CaseIndex) (case : ReconciliationCase) : CaseIndex :=
  ⟨assign s.latestById case.id case,assign s.byFingerprint case.fingerprint case⟩

-- The fingerprint belongs to a case of another identity.
def ownedElsewhere (s : CaseIndex) (case : ReconciliationCase) : Bool :=
  match s.byFingerprint.lookup case.fingerprint with
  | some owner => owner.id != case.id
  | none => false

-- `previous == case`
def isLatest (s : CaseIndex) (case : ReconciliationCase) : Bool :=
  match s.latestById.lookup case.id with
  | some previous => previous.equal case
  | none => false

end CaseIndex

namespace CaseStore

variable (lax : Coercions)

def lifecycleFields : List String := ["status","resolution","resolved_by_changeset","history"]

-- `_immutable_identity`: the written case without its lifecycle.
def immutableIdentity (case : ReconciliationCase) : Json :=
  match (ReconciliationCase.codec lax).dump case with
  | .obj ms => .obj (ms.filter fun m => !lifecycleFields.contains m.1)
  | v => v

-- The history of `case` is that of `previous` and one event from the previous
-- status to the new one.
def extendsLifecycle (previous case : ReconciliationCase) : Bool :=
  match case.history.getLast? with
  | none => false
  | some last =>
    decide (case.history.length = previous.history.length + 1) &&
      equalLists ClassificationEvent.equal case.history.dropLast previous.history &&
      decide (last.prior = previous.status) && decide (last.new = case.status)

-- `_record_version`
def recordVersion (exactIsNoop : Bool) (s : CaseIndex) (case : ReconciliationCase) : Except CaseStoreError (CaseIndex × Bool) :=
  if s.ownedElsewhere case then
    .error (.conflictingFingerprint case.fingerprint)
  else
    match s.latestById.lookup case.id with
    | none => .ok (s.store case,true)
    | some previous =>
      if !Json.equal (immutableIdentity lax previous) (immutableIdentity lax case) then .error (.conflictingCaseId case.id)
      else if previous.equal case then
        if exactIsNoop then .ok (s,false) else .error (.conflictingCaseId case.id)
      else if previous.status = case.status then .error (.conflictingCaseId case.id)
      else if !extendsLifecycle previous case then .error (.conflictingCaseId case.id)
      else .ok (s.store case,true)

-- A case written before `created_by` existed names its earliest actor, or else
-- its detector. `none` stands for a record without either.
def migrateLegacyCasePayload (ms : Json.Members) : Option Json.Members :=
  if (ms.lookup "created_by").isSome then some ms
  else
    let earliest := match ms.lookup "history" with
      | some (.arr (.obj event :: _)) =>
        match event.lookup "actor" with
        | some (.str actor) => PyText.strip actor.toList
        | _ => []
      | _ => []
    if earliest ≠ [] then some (Json.insertMember "created_by" (.str (String.ofList earliest)) ms)
    else match ms.lookup "detector_id" with
      | some (.str detector) =>
        if PyText.hasText detector then some (Json.insertMember "created_by" (.str ("detector:" ++ detector)) ms) else none
      | _ => none

def readCase (v : Json) : Option ReconciliationCase :=
  match v with
  | .obj ms => (migrateLegacyCasePayload ms).bind fun migrated => (ReconciliationCase.codec lax).load (.obj migrated)
  | _ => none

def record (s : CaseLedger) (n : Nat) (v : Json) : Except CaseStoreError CaseLedger :=
  match v with
  | .obj _ =>
    match readCase lax v with
    | none => .error (.invalidRecord n)
    | some case =>
      match recordVersion lax true s.index case with
      | .error e => .error e
      | .ok (index,_) => .ok ⟨s.versions ++ [case],index⟩
  | _ => .error .notMapping

def reader : LedgerReader CaseStoreError CaseLedger where
  start := ⟨[],⟨[],[]⟩⟩
  dialect := Json.plainDialect
  known := Json.plainDialect_known
  keepends := true
  skipsBlank := false
  encoding := .encoding
  blank := .blankRecord
  malformed := .invalidRecord
  record s n _ v := record lax s n v
  objects s n _ v s' got := by
    unfold record at got
    split at got
    · exact ⟨_,rfl⟩
    · cases got

-- `_parse_versions_with_history`
def parseVersions (content : Option Utf8.Bytes) : Except CaseStoreError CaseLedger := (reader lax).read content

def parseCaseVersions (content : Option Utf8.Bytes) : Except CaseStoreError (List ReconciliationCase) :=
  (parseVersions lax content).map CaseLedger.versions

def put (content : Option Utf8.Bytes) (case : ReconciliationCase) : Except CaseStoreError (Option Utf8.Bytes × Bool) :=
  match parseVersions lax content with
  | .error e => .error e
  | .ok s =>
    if s.index.isLatest case then .ok (content,false)
    else match recordVersion lax true s.index case with
      | .error e => .error e
      | .ok _ => .ok (LedgerReader.append content ((ReconciliationCase.codec lax).dump case),true)

-- The loop of `validate_case_appends`.
def validateAll : CaseIndex → List ReconciliationCase → Except CaseStoreError CaseIndex
  | s, [] => .ok s
  | s, case :: rest =>
    match recordVersion lax false s case with
    | .error e => .error e
    | .ok (s',_) => validateAll s' rest

-- The bytes it returns are the frames of the cases, one behind the other.
def validateCaseAppends (content : Option Utf8.Bytes) (cases : List ReconciliationCase) : Except CaseStoreError Utf8.Bytes :=
  match parseVersions lax content with
  | .error e => .error e
  | .ok s =>
    match validateAll lax s.index cases with
    | .error e => .error e
    | .ok _ => .ok (Utf8.encode ((cases.map (ReconciliationCase.codec lax).dump).flatMap JsonLines.frame))

theorem dump_case (case : ReconciliationCase) : ∃ ms, (ReconciliationCase.codec lax).dump case = .obj ms ∧
    readCase lax (.obj ms) = some case := by
  have shape : (ReconciliationCase.codec lax).dump case = .obj ((ReconciliationCase.fields lax).dump _) := rfl
  refine ⟨_,shape,?_⟩
  simp only [readCase,migrateLegacyCasePayload]
  rw [if_pos (lookup_present (ReconciliationCase.fields lax) _ (by decide)),Option.bind_some,←shape]
  exact (ReconciliationCase.codec lax).exact case

-- What the strict check takes, the parser takes with the same indexes.
theorem recordVersion_strict (got : recordVersion lax false s case = .ok (s',added)) :
    recordVersion lax true s case = .ok (s',added) := by
  simp only [recordVersion] at got ⊢
  split at got
  · cases got
  · rename_i owned
    rw [if_neg owned]
    split at got
    · exact got
    · split at got
      · cases got
      · rename_i identity
        rw [if_neg identity]
        split at got
        · cases got
        · rename_i changed
          rw [if_neg changed]
          exact got

theorem record_case (s : CaseLedger) (taken : recordVersion lax true s.index case = .ok (index,added)) (n : Nat) :
    record lax s n ((ReconciliationCase.codec lax).dump case) = .ok ⟨s.versions ++ [case],index⟩ := by
  obtain ⟨ms,shape,read⟩ := dump_case lax case
  rw [shape]
  simp only [record,read,taken]

theorem put_spec (got : put lax content case = .ok (content',added)) :
    ∃ s, parseVersions lax content = .ok s ∧
      ((added = false ∧ content' = content) ∨
        added = true ∧ content' = LedgerReader.append content ((ReconciliationCase.codec lax).dump case) ∧
          ∃ index, ∀ n, record lax s n ((ReconciliationCase.codec lax).dump case) = .ok ⟨s.versions ++ [case],index⟩) := by
  simp only [put] at got
  split at got
  · cases got
  · rename_i s read
    refine ⟨s,read,?_⟩
    split at got
    · cases got
      exact .inl ⟨rfl,rfl⟩
    · split at got
      · cases got
      · rename_i found taken
        cases got
        exact .inr ⟨rfl,rfl,found.1,record_case lax s taken⟩

end CaseStore
