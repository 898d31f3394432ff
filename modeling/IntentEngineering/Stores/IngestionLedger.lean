import IntentEngineering.Mutations.Committer
import IntentEngineering.Stores.LedgerFraming
import IntentEngineering.Storage.ReplayAgreement

open Schema Json JsonLines

namespace EvidenceStore

-- `LegacyAssociationRequired` is the one error `migrate_legacy` raises itself.
inductive MigrationError where
  | store (error : EvidenceStoreError)
  | legacyAssociationRequired (connectorId : String)

-- What `migrate_legacy` reads under the lock; it associates these one by one
-- after it has given the lock back.
def migrateLegacy (lax : Coercions) (content : Option Utf8.Bytes) (connectorId connectorType : String) :
    Except MigrationError (List EvidenceRecord) :=
  match parseEvidenceLines lax content with
  | .error e => .error (.store e)
  | .ok s =>
    let candidates := s.records.filter fun record => s.legacyIds.contains record.id && record.connectorType == connectorType &&
      !(s.ledger connectorId).any (fun item => item.evidence.id == record.id)
    if candidates = [] then .ok []
    else if connectorId != connectorType || !(["markdown","git"] : List String).contains connectorType then
      .error (.legacyAssociationRequired connectorId)
    else .ok candidates

end EvidenceStore

-- What the reader can read back.
def EvidenceEntry.Legible (lax : Coercions) (entry : EvidenceEntry) : Prop :=
  Unbroken (entry.dump lax) ∧ allFinite (entry.dump lax) = true

-- The file, the entries appended to it so far, and what each running
-- `migrate_legacy` call has yet to associate.
structure IngestionState where
  content : Option Utf8.Bytes
  entries : List EvidenceEntry
  migrating : Nat → List (String × EvidenceRecord)

-- One critical section of one handle.
inductive IngestionCall (env : WriteEnv) where
  | put (record : EvidenceRecord)
  | associate (connectorId : String) (record : EvidenceRecord)
  | migrate (handle : Nat) (connectorId connectorType : String)
  | migrated (handle : Nat)
  | commit (committer : LocalWriteCommitter) (request : LocalWriteCommitter.Request env) (kept : Bool)

namespace IngestionState

section
variable (env : WriteEnv) (s : IngestionState)

-- A refused call writes nothing.
def settle : Except EvidenceStoreError EvidenceStore.Outcome → IngestionState
  | .ok out => {s with
      content := out.content
      entries := s.entries ++ out.entry.toList}
  | .error _ => s

def waiting (handle : Nat) (rest : List (String × EvidenceRecord)) : IngestionState :=
  {s with migrating := fun other => if other = handle then rest else s.migrating other}

theorem next_positive (ledger : List EvidenceIngestion) : 0 < ledger.length + 1 := Nat.succ_pos _

-- The entry whose frame `_evidence_append` returns.
def ingested (request : LocalWriteCommitter.Request env) (evidence : EvidenceRecord) : Option EvidenceEntry :=
  match EvidenceStore.parseEvidenceLines env.lax s.content with
  | .error _ => none
  | .ok index =>
    let connectorId := LocalWriteCommitter.connectorId env request
    let ledger := index.ledger connectorId
    if named : connectorText connectorId = true then
      some (.association ⟨connectorId,ledger.length + 1,EvidenceIndex.predecessor ledger evidence,evidence,named,next_positive ledger⟩)
    else none

-- A commit that is given up restores the file before another handle sees it.
def turn : IngestionCall env → IngestionState
  | .put record => s.settle (EvidenceStore.put env.lax s.content record)
  | .associate connectorId record => s.settle (EvidenceStore.associate env.lax s.content connectorId record)
  | .migrate handle connectorId connectorType =>
    match EvidenceStore.migrateLegacy env.lax s.content connectorId connectorType with
    | .ok candidates => s.waiting handle (candidates.map fun record => (connectorId,record))
    | .error _ => s
  | .migrated handle =>
    match s.migrating handle with
    | [] => s
    | (connectorId,record) :: rest =>
      match EvidenceStore.associate env.lax s.content connectorId record with
      | .ok out => (s.settle (.ok out)).waiting handle rest
      | .error _ => s.waiting handle []
  | .commit committer request kept =>
    match LocalWriteCommitter.evidence env committer request with
    | none => s
    | some evidence =>
      match LocalWriteCommitter.evidenceAppend env request s.content evidence with
      | none => s
      | some bytes =>
        if kept then {s with
          content := some (s.content.getD [] ++ bytes)
          entries := s.entries ++ (s.ingested env request evidence).toList}
        else s

def run (calls : List (IngestionCall env)) : IngestionState := calls.foldl (fun s call => s.turn env call) s

end

end IngestionState

-- What holds of a ledger with these entries in it.
structure IngestionLedger.Sound (entries : List EvidenceEntry) : Prop where
  sequences : ∀ connectorId, ((EvidenceIndex.ofEntries entries).ledger connectorId).map EvidenceIngestion.sequence =
    List.range' 1 ((EvidenceIndex.ofEntries entries).ledger connectorId).length
  once : ∀ connectorId, (((EvidenceIndex.ofEntries entries).ledger connectorId).map fun item => item.evidence.id).Nodup
  chained : ∀ connectorId before item after, (EvidenceIndex.ofEntries entries).ledger connectorId = before ++ item :: after →
    item.predecessorId = EvidenceIndex.predecessor before item.evidence
  immutable : ∀ entry ∈ entries, ∃ record, (EvidenceIndex.ofEntries entries).find entry.record.id = some record ∧
    (record = entry.record ∨ record.equal entry.record = true)

namespace IngestionLedger

theorem ofEntries_snoc (entries : List EvidenceEntry) (entry : EvidenceEntry) :
    EvidenceIndex.ofEntries (entries ++ [entry]) = (EvidenceIndex.ofEntries entries).add entry := by
  simp [EvidenceIndex.ofEntries]

theorem add_records (s : EvidenceIndex) (entry : EvidenceEntry) : (s.add entry).records = s.setDefault entry.record := by
  cases entry <;> rfl

-- The first record of an identifier stays.
theorem find_add (s : EvidenceIndex) (entry : EvidenceEntry) (id : String) :
    (s.add entry).find id = (s.find id).or (if entry.record.id == id then some entry.record else none) := by
  rw [EvidenceIndex.find,add_records,EvidenceIndex.setDefault]
  split
  · rename_i present
    by_cases same : entry.record.id = id
    · rw [same] at present
      rw [Option.or_of_isSome present]
      rfl
    · simp [same,EvidenceIndex.find]
  · rw [List.find?_append,List.find?_singleton]
    rfl

theorem ledger_legacy (s : EvidenceIndex) (record : EvidenceRecord) (connectorId : String) :
    (s.add (.legacy record)).ledger connectorId = s.ledger connectorId := rfl

theorem ledger_association (s : EvidenceIndex) (ingestion : EvidenceIngestion) (connectorId : String) :
    (s.add (.association ingestion)).ledger connectorId =
      s.ledger connectorId ++ (if ingestion.connectorId = connectorId then [ingestion] else []) := by
  simp only [EvidenceIndex.add,EvidenceIndex.ledger,List.filter_append]
  congr 1
  by_cases same : ingestion.connectorId = connectorId <;> simp [same]

theorem found_kept (entries more : List EvidenceEntry) (found : (EvidenceIndex.ofEntries entries).find ref = some record) :
    (EvidenceIndex.ofEntries (entries ++ more)).find ref = some record := by
  induction more using List.reverseRecOn with
  | nil => rwa [List.append_nil]
  | append_singleton more entry ih => rw [←List.append_assoc,ofEntries_snoc,find_add,ih,Option.some_or]

-- One more entry that the reader takes.
theorem sound_step (sound : Sound entries) (fits : EvidenceStore.admissible (EvidenceIndex.ofEntries entries) entry = true)
    (same : (EvidenceIndex.ofEntries entries).conflicts entry.record = false) : Sound (entries ++ [entry]) := by
  have immutable : ∀ e ∈ entries ++ [entry], ∃ record, (EvidenceIndex.ofEntries (entries ++ [entry])).find e.record.id = some record ∧
      (record = e.record ∨ record.equal e.record = true) := by
    intro e member
    rcases List.mem_append.mp member with old | new
    · obtain ⟨record,found,equals⟩ := sound.immutable e old
      exact ⟨record,found_kept entries [entry] found,equals⟩
    · rw [List.mem_singleton.mp new,ofEntries_snoc,find_add]
      cases found : (EvidenceIndex.ofEntries entries).find entry.record.id with
      | none => exact ⟨entry.record,by simp,.inl rfl⟩
      | some record =>
        refine ⟨record,rfl,.inr ?_⟩
        simpa [EvidenceIndex.conflicts,found] using same
  cases entry with
  | legacy record =>
    refine ⟨?_,?_,?_,immutable⟩
    · intro connectorId
      rw [ofEntries_snoc,ledger_legacy]
      exact sound.sequences connectorId
    · intro connectorId
      rw [ofEntries_snoc,ledger_legacy]
      exact sound.once connectorId
    · intro connectorId before item after
      rw [ofEntries_snoc,ledger_legacy]
      exact sound.chained connectorId before item after
  | association ingestion =>
    simp only [EvidenceStore.admissible,EvidenceIndex.contiguous,Bool.and_eq_true,beq_iff_eq,decide_eq_true_eq,
      Bool.not_eq_true'] at fits
    obtain ⟨⟨sequence,fresh⟩,predecessor⟩ := fits
    refine ⟨?_,?_,?_,immutable⟩
    · intro connectorId
      rw [ofEntries_snoc,ledger_association]
      split
      · rename_i mine
        rw [mine] at sequence
        rw [List.map_append,sound.sequences connectorId,List.length_append,List.length_singleton,List.range'_1_concat]
        simp [sequence,Nat.add_comm]
      · rw [List.append_nil]
        exact sound.sequences connectorId
    · intro connectorId
      rw [ofEntries_snoc,ledger_association]
      split
      · rename_i mine
        rw [mine] at fresh
        rw [List.map_append,List.map_singleton,List.nodup_append]
        refine ⟨sound.once connectorId,List.nodup_singleton _,?_⟩
        intro old member new last equal
        rw [List.mem_singleton.mp last] at equal
        obtain ⟨item,present,same⟩ := List.mem_map.mp member
        have met : ((EvidenceIndex.ofEntries entries).ledger connectorId).any
            (fun item => item.evidence.id == ingestion.evidence.id) = true :=
          List.any_eq_true.mpr ⟨item,present,by simp [same,equal]⟩
        rw [fresh] at met
        cases met
      · rw [List.append_nil]
        exact sound.once connectorId
    · intro connectorId before item after shape
      rw [ofEntries_snoc,ledger_association] at shape
      split at shape
      · rename_i mine
        rw [mine] at predecessor
        rcases List.eq_nil_or_concat after with rfl | ⟨front,last,rfl⟩
        · obtain ⟨same,last⟩ := List.append_inj' shape rfl
          rw [←same,←(List.cons.inj last).1]
          exact predecessor
        · rw [List.concat_eq_append,←List.cons_append,←List.append_assoc] at shape
          exact sound.chained connectorId before item front (List.append_inj' shape rfl).1
      · rw [List.append_nil] at shape
        exact sound.chained connectorId before item after shape

theorem record_taken (taken : EvidenceStore.record lax s n (EvidenceEntry.dump lax entry) = .ok s') :
    EvidenceStore.admissible s entry = true ∧ s.conflicts entry.record = false := by
  obtain ⟨ms,shape,read⟩ := EvidenceStore.dump_entry lax entry
  simp only [EvidenceStore.record,shape,read] at taken
  split at taken
  · cases taken
  · rename_i fits
    split at taken
    · cases taken
    · rename_i same
      exact ⟨by simpa using fits,by simpa using same⟩

section Runs
variable {env : WriteEnv}

abbrev Grown (env : WriteEnv) := (EvidenceStore.reader env.lax).Grown (EvidenceEntry.dump env.lax) id EvidenceIndex.add

-- An absent ledger and an empty one read alike.
def Grows (env : WriteEnv) (s : IngestionState) : Prop :=
  ∃ content, content.getD [] = s.content.getD [] ∧ Grown env content s.entries

theorem grown_index (grown : Grown env content entries) (read : EvidenceStore.parseEvidenceLines env.lax content = .ok s) :
    s = EvidenceIndex.ofEntries entries :=
  ((EvidenceStore.reader env.lax).grown_read _ _ _ (fun e => (EvidenceStore.dump_entry env.lax e).imp fun _ found => found.1)
    (EvidenceStore.formed_entry env.lax) grown).2.2 s read

theorem grown_sound (grown : Grown env content entries) : Sound entries := by
  induction grown with
  | empty =>
    refine ⟨fun _ => rfl,fun _ => .nil,?_,fun _ member => absurd member List.not_mem_nil⟩
    intro connectorId before item after shape
    exact absurd shape.symm (List.append_ne_nil_of_right_ne_nil before (List.cons_ne_nil item after))
  | @append content entries s entry earlier readable takes ih =>
    obtain ⟨s',taken,_⟩ := takes 0 []
    obtain ⟨fits,same⟩ := record_taken taken
    rw [grown_index earlier readable] at fits same
    exact sound_step ih fits same

theorem same_content {s : IngestionState} (same : content.getD [] = s.content.getD []) :
    EvidenceStore.parseEvidenceLines env.lax content = EvidenceStore.parseEvidenceLines env.lax s.content := by
  rw [EvidenceStore.parseEvidenceLines,EvidenceStore.parseEvidenceLines,←LedgerReader.read_getD,same,LedgerReader.read_getD]

theorem settle_grows {s : IngestionState} (grows : Grows env s) (called : EvidenceStore.call env.lax s.content request = outcome) :
    Grows env (s.settle outcome) := by
  cases outcome with
  | error e => exact grows
  | ok out =>
    obtain ⟨content,same,grown⟩ := grows
    obtain ⟨index,read,⟨none,kept⟩ | ⟨entry,some,grew,takes⟩⟩ := EvidenceStore.call_spec env.lax called
    · refine ⟨content,?_,?_⟩
      · rw [IngestionState.settle,kept,same]
      · simpa [IngestionState.settle,none] using grown
    · rw [←same_content same] at read
      refine ⟨LedgerReader.append content (entry.dump env.lax),?_,?_⟩
      · simp [IngestionState.settle,grew,LedgerReader.append,same]
      · simpa [IngestionState.settle,some] using LedgerReader.Grown.append grown read fun n _ => ⟨_,takes n,rfl⟩

theorem ledger_member (member : item ∈ (EvidenceIndex.ofEntries entries).ledger connectorId) : EvidenceEntry.association item ∈ entries := by
  have ingested := (List.mem_filter.mp member).1
  rw [EvidenceIndex.ofEntries_ingestions] at ingested
  obtain ⟨entry,present,shape⟩ := List.mem_filterMap.mp ingested
  cases entry with
  | legacy record => cases shape
  | association other =>
    cases shape
    exact present

-- `_evidence_append` in the committer, which writes its own entries.
theorem commit_grows {s : IngestionState} (grows : Grows env s) (appended : LocalWriteCommitter.evidenceAppend env request s.content evidence = some bytes) :
    Grows env {s with
      content := some (s.content.getD [] ++ bytes)
      entries := s.entries ++ (s.ingested env request evidence).toList} := by
  obtain ⟨content,same,grown⟩ := grows
  unfold LocalWriteCommitter.evidenceAppend at appended
  unfold IngestionState.ingested
  cases read : EvidenceStore.parseEvidenceLines env.lax s.content with
  | error e => simp [read] at appended
  | ok index =>
    simp only [read] at appended
    split at appended
    · cases appended
    · rename_i unknown
      split at appended
      · rename_i named
        cases appended
        have absent : index.find evidence.id = none := by simpa using unknown
        rw [←same_content same] at read
        have shown : index = EvidenceIndex.ofEntries s.entries := grown_index grown read
        have fresh : (index.ledger (LocalWriteCommitter.connectorId env request)).any (fun item => item.evidence.id == evidence.id) = false := by
          apply List.any_eq_false.mpr
          intro item member
          rw [shown] at member absent
          obtain ⟨record,found,_⟩ := (grown_sound grown).immutable _ (ledger_member member)
          intro equal
          rw [EvidenceEntry.record,beq_iff_eq.mp equal,absent] at found
          cases found
        let ingestion : EvidenceIngestion := ⟨LocalWriteCommitter.connectorId env request,
          (index.ledger (LocalWriteCommitter.connectorId env request)).length + 1,
          EvidenceIndex.predecessor (index.ledger (LocalWriteCommitter.connectorId env request)) evidence,evidence,named,Nat.succ_pos _⟩
        have fits : EvidenceStore.admissible index (.association ingestion) = true := by
          simp [EvidenceStore.admissible,EvidenceIndex.contiguous,ingestion,fresh]
        have takes := fun n => EvidenceStore.record_entry env.lax index n (.association ingestion) fits
          (by simp [EvidenceIndex.conflicts,EvidenceEntry.record,ingestion,absent])
        refine ⟨LedgerReader.append content ((EvidenceEntry.association ingestion).dump env.lax),?_,?_⟩
        · simp [LedgerReader.append,same,EvidenceEntry.dump,ingestion]
        · simp only [dif_pos named,Option.toList_some]
          exact LedgerReader.Grown.append grown read fun n _ => ⟨_,takes n,rfl⟩
      · cases appended

theorem turn_grows (grows : Grows env s) (call : IngestionCall env) : Grows env (s.turn env call) := by
  cases call with
  | put record => exact settle_grows grows (rfl : EvidenceStore.call env.lax s.content (.put record) = _)
  | associate connectorId record => exact settle_grows grows (rfl : EvidenceStore.call env.lax s.content (.associate connectorId record) = _)
  | migrate handle connectorId connectorType =>
    simp only [IngestionState.turn]
    split <;> exact grows
  | migrated handle =>
    simp only [IngestionState.turn]
    split
    · exact grows
    · rename_i connectorId record rest _
      have settled := settle_grows grows (rfl : EvidenceStore.call env.lax s.content (.associate connectorId record) = _)
      split
      · rename_i out called
        rw [show EvidenceStore.call env.lax s.content (.associate connectorId record) = .ok out from called] at settled
        exact settled
      · exact grows
  | commit committer request kept =>
    simp only [IngestionState.turn]
    split
    · exact grows
    · split
      · exact grows
      · rename_i appended
        split
        · exact commit_grows grows appended
        · exact grows

-- Entries are only ever appended.
theorem turn_appends (s : IngestionState) (call : IngestionCall env) : ∃ more, (s.turn env call).entries = s.entries ++ more := by
  have settles (outcome : Except EvidenceStoreError EvidenceStore.Outcome) : ∃ more, (s.settle outcome).entries = s.entries ++ more := by
    cases outcome with
    | ok out => exact ⟨_,rfl⟩
    | error e => exact ⟨[],by simp [IngestionState.settle]⟩
  cases call with
  | put record => exact settles _
  | associate connectorId record => exact settles _
  | migrate handle connectorId connectorType =>
    simp only [IngestionState.turn]
    split <;> exact ⟨[],by simp [IngestionState.waiting]⟩
  | migrated handle =>
    simp only [IngestionState.turn]
    split
    · exact ⟨[],by simp⟩
    · split
      · exact settles _
      · exact ⟨[],by simp [IngestionState.waiting]⟩
  | commit committer request kept =>
    simp only [IngestionState.turn]
    split
    · exact ⟨[],by simp⟩
    · split
      · exact ⟨[],by simp⟩
      · split
        · exact ⟨_,rfl⟩
        · exact ⟨[],by simp⟩

theorem run_appends (calls : List (IngestionCall env)) : ∀ (s : IngestionState), ∃ more, (s.run env calls).entries = s.entries ++ more := by
  induction calls with
  | nil => exact fun s => ⟨[],by simp [IngestionState.run]⟩
  | cons call rest ih =>
    intro s
    obtain ⟨first,grew⟩ := turn_appends s call
    obtain ⟨later,grown⟩ := ih (s.turn env call)
    refine ⟨first ++ later,?_⟩
    rw [←List.append_assoc,←grew,←grown]
    rfl

theorem run_grows (grows : Grows env s) (calls : List (IngestionCall env)) : Grows env (s.run env calls) := by
  induction calls generalizing s with
  | nil => exact grows
  | cons call rest ih => exact ih (turn_grows grows call)

-- What a reached content reads as, and when it reads.
theorem grows_reads {s : IngestionState} (grows : Grows env s) :
    ((∃ index, EvidenceStore.parseEvidenceLines env.lax s.content = .ok index) ↔ ∀ entry ∈ s.entries, entry.Legible env.lax) ∧
      (∀ index, EvidenceStore.parseEvidenceLines env.lax s.content = .ok index → index = EvidenceIndex.ofEntries s.entries) ∧
      Sound s.entries := by
  obtain ⟨content,same,grown⟩ := grows
  obtain ⟨_,readable,_⟩ := (EvidenceStore.reader env.lax).grown_read _ _ _
    (fun e => (EvidenceStore.dump_entry env.lax e).imp fun _ found => found.1) (EvidenceStore.formed_entry env.lax) grown
  rw [←same_content same]
  refine ⟨?_,fun index read => grown_index grown read,grown_sound grown⟩
  simpa [LedgerReader.Legible,EvidenceStore.reader,strictDialect,EvidenceEntry.Legible,EvidenceStore.parseEvidenceLines] using readable

end Runs

end IngestionLedger

section Main
variable (env : WriteEnv)

-- The ledger of one moment: it reads, as the entries appended so far, and these
-- are in order.
def IngestionState.Holds (s : IngestionState) : Prop :=
  EvidenceStore.parseEvidenceLines env.lax s.content = .ok (EvidenceIndex.ofEntries s.entries) ∧ IngestionLedger.Sound s.entries

-- However the calls of all handles interleave, the ledger holds at a moment
-- exactly when no record appended until then has a separator in a string or a
-- number that is not finite. A record once found stays.
theorem ingestion_ledger {start : IngestionState} (calls more : List (IngestionCall env)) (empty : start.content.getD [] = []) (unwritten : start.entries = []) :
    ((start.run env calls).Holds env ↔ ∀ entry ∈ (start.run env calls).entries, entry.Legible env.lax) ∧
    ∀ s s', EvidenceStore.parseEvidenceLines env.lax (start.run env calls).content = .ok s →
      EvidenceStore.parseEvidenceLines env.lax (start.run env (calls ++ more)).content = .ok s' →
        ∀ id record, s.find id = some record → s'.find id = some record := by
  have first : IngestionLedger.Grows env start := ⟨none,empty.symm,by rw [unwritten]; exact .empty⟩
  have grows := fun calls => IngestionLedger.grows_reads (IngestionLedger.run_grows first calls)
  constructor
  · obtain ⟨readable,same,sound⟩ := grows calls
    rw [←readable]
    constructor
    · exact fun holds => ⟨_,holds.1⟩
    · intro ⟨s,read⟩
      exact ⟨by rw [read,same s read],sound⟩
  · intro s s' read later id record found
    rw [(grows calls).2.1 s read] at found
    rw [(grows (calls ++ more)).2.1 s' later]
    obtain ⟨extra,grown⟩ := IngestionLedger.run_appends more (start.run env calls)
    have shape : (start.run env (calls ++ more)).entries = (start.run env calls).entries ++ extra := by
      rw [←grown]
      simp [IngestionState.run]
    rw [shape]
    exact IngestionLedger.found_kept _ extra found

end Main

def absentLedger : IngestionState := ⟨none,[],fun _ => []⟩

theorem plain_note_held : (absentLedger.run plainEnv [.put plainNote]).Holds plainEnv :=
  (ingestion_ledger plainEnv [.put plainNote] [] (rfl : absentLedger.content.getD [] = []) rfl).1.mpr (by
    intro entry member
    rw [List.mem_singleton.mp member]
    exact ⟨plainNote_legible.1,by decide⟩)

-- One put with a line separator in its text.
theorem separator_note_spoils : ¬ (absentLedger.run plainEnv [.put separatorNote]).Holds plainEnv := by
  have reads := IngestionLedger.grows_reads (IngestionLedger.run_grows ⟨none,rfl,.empty⟩ [.put separatorNote] :
    IngestionLedger.Grows plainEnv (absentLedger.run plainEnv [.put separatorNote]))
  intro holds
  exact separatorNote_broken (reads.1.mp ⟨_,holds.1⟩ _ (List.mem_singleton.mpr rfl)).1
