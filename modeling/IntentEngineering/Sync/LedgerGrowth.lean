import IntentEngineering.Sync.Turns

-- What the runs of one connector leave in an evidence file that only they
-- write to.
namespace SyncOrchestrator
variable {env : WriteEnv} {c : Connector}

theorem prefix_exact {consumed ledger : List String} : isExactConsumedPrefix consumed ledger = true ↔ consumed <+: ledger := by
  unfold isExactConsumedPrefix
  rw [Bool.and_eq_true,decide_eq_true_iff,beq_iff_eq,List.prefix_iff_eq_take]
  constructor
  · exact fun exact => exact.2
  · intro same
    refine ⟨?_,same⟩
    rw [same]
    exact List.length_take_le' ..

theorem checkpoint_consumed (made : checkpointAfterDiscovery c answer ledger capture = some checkpoint) :
    checkpoint.consumedEvidenceIds = Keyed.fromKeys capture.held := by
  unfold checkpointAfterDiscovery at made
  simp only at made
  split at made
  · split at made
    · cases made
      rfl
    · cases made
  · cases made

def Own (c : Connector) (entry : EvidenceEntry) : Prop :=
  ∃ item, entry = .association item ∧ item.connectorId = c.id ∧ item.evidence.connectorType = c.type

theorem own_legacy (own : ∀ entry ∈ entries, Own c entry) : (EvidenceIndex.ofEntries entries).legacyIds = [] := by
  induction entries using List.reverseRecOn with
  | nil => rfl
  | append_singleton entries entry ih =>
    obtain ⟨item,rfl,_,_⟩ := own _ (List.mem_append_right _ (List.mem_singleton.mpr rfl))
    rw [IngestionLedger.ofEntries_snoc]
    exact ih fun earlier member => own _ (List.mem_append_left _ member)

theorem own_ledger (own : ∀ entry ∈ entries, Own c entry) :
    ((EvidenceIndex.ofEntries entries).ledger c.id).map EvidenceEntry.association = entries := by
  induction entries using List.reverseRecOn with
  | nil => rfl
  | append_singleton entries entry ih =>
    obtain ⟨item,rfl,mine,_⟩ := own _ (List.mem_append_right _ (List.mem_singleton.mpr rfl))
    rw [IngestionLedger.ofEntries_snoc,IngestionLedger.ledger_association,if_pos mine,List.map_append,
      ih fun earlier member => own _ (List.mem_append_left _ member)]
    rfl

theorem own_typed (own : ∀ entry ∈ entries, Own c entry) (member : item ∈ (EvidenceIndex.ofEntries entries).ledger c.id) :
    item.evidence.connectorType = c.type := by
  obtain ⟨other,same,_,typed⟩ := own _ (IngestionLedger.ledger_member member)
  cases same
  exact typed

theorem ofEntries_find (entries : List EvidenceEntry) (id : String) :
    (EvidenceIndex.ofEntries entries).find id = (entries.find? fun entry => entry.record.id == id).map EvidenceEntry.record := by
  induction entries using List.reverseRecOn with
  | nil => rfl
  | append_singleton entries entry ih =>
    rw [IngestionLedger.ofEntries_snoc,IngestionLedger.find_add,ih,List.find?_append,List.find?_singleton]
    cases entries.find? fun entry => entry.record.id == id with
    | some earlier => rfl
    | none =>
      by_cases same : (entry.record.id == id) = true
      · simp [same]
      · simp [same]

-- The entry that `associate` appends.
def ingest (c : Connector) (named : connectorText c.id = true) (ledger : List EvidenceIngestion) (record : EvidenceRecord) : EvidenceIngestion :=
  ⟨c.id,ledger.length + 1,EvidenceIndex.predecessor ledger record,record,named,IngestionState.next_positive ledger⟩

def known (ledger : List EvidenceIngestion) (record : EvidenceRecord) : Option EvidenceIngestion :=
  ledger.find? fun item => item.evidence.id == record.id

namespace Workspace

-- What has been ingested, in order.
def ids (w : Workspace) : List String := w.evidence.entries.map fun entry => entry.record.id

def index (w : Workspace) : EvidenceIndex := .ofEntries w.evidence.entries

structure Backed (env : WriteEnv) (c : Connector) (w : Workspace) : Prop where
  grows : IngestionLedger.Grows env w.evidence
  own : ∀ entry ∈ w.evidence.entries, Own c entry

variable {w : Workspace}

theorem empty_backed : (empty).Backed env c :=
  ⟨⟨none,rfl,.empty⟩,fun _ member => absurd member List.not_mem_nil⟩

theorem read_index (backed : w.Backed env c) (read : EvidenceStore.parseEvidenceLines env.lax w.evidence.content = .ok s) : s = w.index :=
  (IngestionLedger.grows_reads backed.grows).2.1 s read

theorem ids_ledger (backed : w.Backed env c) : (w.index.ledger c.id).map (fun item => item.evidence.id) = w.ids := by
  have whole := congrArg (List.map fun entry => entry.record.id) (own_ledger backed.own)
  rw [List.map_map] at whole
  exact whole

theorem ids_nodup (backed : w.Backed env c) : w.ids.Nodup := by
  rw [←ids_ledger backed]
  exact (IngestionLedger.grows_reads backed.grows).2.2.once c.id

theorem ledger_known (backed : w.Backed env c) (taken : w.ledger env.lax c = .ok items) : items = w.index.ledger c.id := by
  unfold ledger EvidenceStore.ledger at taken
  cases read : EvidenceStore.parseEvidenceLines env.lax w.evidence.content with
  | error e =>
    rw [read] at taken
    cases taken
  | ok s =>
    rw [read,read_index backed read] at taken
    simp only at taken
    split at taken
    · cases taken
    · cases taken
      apply List.filter_eq_self.mpr
      intro item member
      exact beq_iff_eq.mpr (own_typed backed.own member)

theorem ledger_ids (backed : w.Backed env c) (taken : w.ledger env.lax c = .ok items) : items.map (fun item => item.evidence.id) = w.ids := by
  rw [ledger_known backed taken]
  exact ids_ledger backed

-- The file has no legacy rows.
theorem migrates_nothing (backed : w.Backed env c) (got : EvidenceStore.migrateLegacy env.lax w.evidence.content c.id c.type = .ok candidates) :
    candidates = [] := by
  unfold EvidenceStore.migrateLegacy at got
  cases read : EvidenceStore.parseEvidenceLines env.lax w.evidence.content with
  | error e =>
    rw [read] at got
    cases got
  | ok s =>
    have unclaimed : s.legacyIds = [] := by
      rw [read_index backed read]
      exact own_legacy backed.own
    rw [read] at got
    simp [unclaimed] at got
    exact got

theorem settled_ids (out : EvidenceStore.Outcome) : (w.settled out).ids = w.ids ++ out.entry.toList.map fun entry => entry.record.id :=
  List.map_append ..

theorem settled_checkpoint (out : EvidenceStore.Outcome) : (w.settled out).checkpoint = w.checkpoint := rfl

-- One association: the identifier is in the ledger already, or is the next one.
theorem associated (backed : w.Backed env c) (typed : record.connectorType = c.type)
    (got : EvidenceStore.associate env.lax w.evidence.content c.id record = .ok out) :
    (w.settled out).Backed env c ∧ ((out.entry = none ∧ record.id ∈ w.ids) ∨
      ∃ item, out.entry = some (.association item) ∧ item.connectorId = c.id ∧ item.evidence = record ∧ record.id ∉ w.ids) := by
  have called : EvidenceStore.call env.lax w.evidence.content (.associate c.id record) = .ok out := got
  have grows : IngestionLedger.Grows env (w.settled out).evidence := IngestionLedger.settle_grows backed.grows called
  unfold EvidenceStore.associate at got
  cases read : EvidenceStore.parseEvidenceLines env.lax w.evidence.content with
  | error e =>
    rw [read] at got
    cases got
  | ok s =>
    have listed : (s.ledger c.id).any (fun item => item.evidence.id == record.id) = true ↔ record.id ∈ w.ids := by
      rw [read_index backed read,←ids_ledger backed]
      simp only [List.any_eq_true,beq_iff_eq,List.mem_map]
    rw [read] at got
    simp only at got
    split at got
    · cases got
    · split at got
      · rename_i present
        cases got
        refine ⟨⟨grows,?_⟩,.inl ⟨rfl,listed.mp present⟩⟩
        simpa [settled,IngestionState.settle] using backed.own
      · rename_i absent
        split at got
        · rename_i named
          cases got
          refine ⟨⟨grows,?_⟩,.inr ⟨_,rfl,rfl,rfl,fun member => absent (listed.mpr member)⟩⟩
          intro entry member
          rcases List.mem_append.mp member with earlier | fresh
          · exact backed.own entry earlier
          · cases List.mem_singleton.mp fresh
            exact ⟨_,rfl,rfl,typed⟩
        · cases got

-- A file all of whose entries can be read back.
def Readable (lax : Coercions) (w : Workspace) : Prop := ∀ entry ∈ w.evidence.entries, entry.Legible lax

theorem readable_parses (backed : w.Backed env c) (readable : w.Readable env.lax) :
    EvidenceStore.parseEvidenceLines env.lax w.evidence.content = .ok w.index := by
  obtain ⟨s,read⟩ := (IngestionLedger.grows_reads backed.grows).1.mpr readable
  rw [read,read_index backed read]

theorem ledger_reads (backed : w.Backed env c) : w.ledger env.lax c = .ok items ↔ w.Readable env.lax ∧ items = w.index.ledger c.id := by
  constructor
  · intro taken
    refine ⟨?_,ledger_known backed taken⟩
    apply (IngestionLedger.grows_reads backed.grows).1.mp
    unfold ledger EvidenceStore.ledger at taken
    cases read : EvidenceStore.parseEvidenceLines env.lax w.evidence.content with
    | error e =>
      rw [read] at taken
      cases taken
    | ok s => exact ⟨s,rfl⟩
  · rintro ⟨readable,rfl⟩
    have unclaimed : w.index.legacyIds = [] := own_legacy backed.own
    have mine : ((w.index.ledger c.id).filter fun item => item.evidence.connectorType == c.type) = w.index.ledger c.id :=
      List.filter_eq_self.mpr fun item member => beq_iff_eq.mpr (own_typed backed.own member)
    simp [ledger,EvidenceStore.ledger,readable_parses backed readable,unclaimed,mine]

theorem migrates_none (backed : w.Backed env c) (readable : w.Readable env.lax) :
    EvidenceStore.migrateLegacy env.lax w.evidence.content c.id c.type = .ok [] := by
  have unclaimed : w.index.legacyIds = [] := own_legacy backed.own
  simp [EvidenceStore.migrateLegacy,readable_parses backed readable,unclaimed]

theorem index_find (backed : w.Backed env c) (record : EvidenceRecord) :
    w.index.find record.id = (known (w.index.ledger c.id) record).map EvidenceIngestion.evidence := by
  have whole : w.index.find record.id = (((w.index.ledger c.id).map EvidenceEntry.association).find? fun entry =>
      entry.record.id == record.id).map EvidenceEntry.record := by
    rw [index,own_ledger backed.own]
    exact ofEntries_find ..
  rw [whole,List.find?_map,Option.map_map]
  rfl

-- `associate` on a file that reads.
theorem associate_reads (backed : w.Backed env c) (readable : w.Readable env.lax) (record : EvidenceRecord) :
    EvidenceStore.associate env.lax w.evidence.content c.id record =
      match known (w.index.ledger c.id) record with
      | some item => if item.evidence.equal record then .ok ⟨w.evidence.content,none,false⟩ else .error (.conflictingEvidenceId record.id)
      | none =>
        if named : connectorText c.id = true then
          .ok (EvidenceStore.append env.lax w.evidence.content (.association (ingest c named (w.index.ledger c.id) record)) true)
        else .error .invalidIngestion := by
  have found := index_find backed record
  have listed : (w.index.ledger c.id).any (fun item => item.evidence.id == record.id) = (known (w.index.ledger c.id) record).isSome :=
    List.isSome_find?.symm
  cases present : known (w.index.ledger c.id) record with
  | some item =>
    rw [present] at found listed
    simp only [EvidenceStore.associate,readable_parses backed readable,EvidenceIndex.conflicts,found,listed,Option.map_some,
      Option.isSome_some,if_true]
    cases item.evidence.equal record <;> rfl
  | none =>
    rw [present] at found listed
    simp only [EvidenceStore.associate,readable_parses backed readable,EvidenceIndex.conflicts,found,listed,Option.map_none,
      Option.isSome_none]
    rfl

theorem settled_ledger (entry : out.entry = some (.association item)) (mine : item.connectorId = c.id) :
    (w.settled out).index.ledger c.id = w.index.ledger c.id ++ [item] := by
  simp only [settled,index,IngestionState.settle,entry,Option.toList_some]
  rw [IngestionLedger.ofEntries_snoc,IngestionLedger.ledger_association,if_pos mine]

theorem settled_unchanged (out : EvidenceStore.Outcome) (kept : out.entry = none) : (w.settled out).evidence.entries = w.evidence.entries := by
  simp [settled,IngestionState.settle,kept]

end Workspace

-- The record's ledger entry, which is the only one under its identifier.
theorem reversed_known (distinct : (ledger.map fun (item : EvidenceIngestion) => item.evidence.id).Nodup) (record : EvidenceRecord) :
    (ledger.reverse.find? fun item => item.evidence.id == record.id) = known ledger record := by
  unfold known
  induction ledger with
  | nil => rfl
  | cons item rest ih =>
    obtain ⟨fresh,others⟩ := List.nodup_cons.mp distinct
    rw [List.reverse_cons,List.find?_append,ih others]
    by_cases same : item.evidence.id = record.id
    · have absent : (rest.find? fun other => other.evidence.id == record.id) = none := by
        apply List.find?_eq_none.mpr
        intro other member equal
        exact fresh (List.mem_map.mpr ⟨other,member,(beq_iff_eq.mp equal).trans same.symm⟩)
      simp [same,absent]
    · simp [same]

theorem ledger_distinct {w : Workspace} (backed : w.Backed env c) : ((w.index.ledger c.id).map fun item => item.evidence.id).Nodup := by
  rw [Workspace.ids_ledger backed]
  exact Workspace.ids_nodup backed

-- Nothing is left of a legacy file.
def Clean : Phase → Prop
  | .migrating _ rest => rest = []
  | _ => True

theorem turned_backed {w : Workspace} (backed : w.Backed env c) (clean : Clean phase) (turned : Turned env.lax c answer w phase w' phase') :
    w'.Backed env c ∧ w.ids <+: w'.ids ∧ Clean phase' := by
  cases turned with
  | migrates got => exact ⟨backed,List.prefix_rfl,Workspace.migrates_nothing backed got⟩
  | brings got => cases clean
  | bringsLast got => cases clean
  | associates typed got =>
    refine ⟨(Workspace.associated backed typed got).1,?_,trivial⟩
    rw [Workspace.settled_ids]
    exact List.prefix_append ..
  | associatesLast typed got =>
    refine ⟨(Workspace.associated backed typed got).1,?_,trivial⟩
    rw [Workspace.settled_ids]
    exact List.prefix_append ..
  | writes same => exact ⟨⟨backed.grows,backed.own⟩,List.prefix_rfl,trivial⟩
  | _ => exact ⟨backed,List.prefix_rfl,trivial⟩

namespace System
variable {s : System}

structure Backed (env : WriteEnv) (c : Connector) (s : System) : Prop where
  workspace : s.workspace.Backed env c
  clean : ∀ run, Clean (s.phase run)

theorem start_backed : start.Backed env c := ⟨Workspace.empty_backed,fun _ => trivial⟩

theorem step_backed (backed : s.Backed env c) (move : Move) : (s.step env.lax c move).Backed env c := by
  obtain ⟨kept,_,clean⟩ := turned_backed backed.workspace (backed.clean move.run) (turn_turned _ _ move.answer _ _)
  refine ⟨kept,fun run => ?_⟩
  by_cases same : run = move.run
  · subst same
    simpa only [step,Function.update_self] using clean
  · simpa only [step,Function.update_of_ne same] using backed.clean run

theorem steps_backed (backed : s.Backed env c) (moves : List Move) : (s.steps env.lax c moves).Backed env c := by
  induction moves generalizing s with
  | nil => exact backed
  | cons move rest ih => exact ih (step_backed backed move)

end System

end SyncOrchestrator
