import IntentEngineering.Sync.LedgerGrowth

-- What a run does that nothing fails in.
namespace SyncOrchestrator

theorem equal_self (checkpoint : StoredCheckpoint) : checkpoint.equal checkpoint = true := by
  simp [StoredCheckpoint.equal,DateTime.same]

theorem sameCheckpoint_self (checkpoint : Option StoredCheckpoint) : sameCheckpoint checkpoint checkpoint = true := by
  cases checkpoint with
  | none => rfl
  | some checkpoint => exact equal_self checkpoint

-- A checkpoint that nothing advances lists what it listed.
theorem unadvanced_consumed (kept : advanced prior checkpoint = false) : consumedIds prior = checkpoint.consumedEvidenceIds := by
  cases prior with
  | none => cases kept
  | some prior =>
    simp only [advanced,Bool.or_eq_false_iff,bne_eq_false_iff_eq] at kept
    exact kept.2.symm

section Calm
variable {env : WriteEnv} {c : Connector} {w : Workspace}

theorem opening_turns (answer : Answer) (backed : w.Backed env c) (readable : w.Readable env.lax) (consumed : consumedIds w.checkpoint <+: w.ids)
    (calm : answer.fails = false) :
    turns env.lax c [answer,answer,answer,answer,answer] (w,.idle) =
      (w,.capturing {Capture.load w.checkpoint (w.index.ledger c.id) with discovered := answer.discovered} answer.discovered) := by
  have read := (Workspace.ledger_reads backed).mpr ⟨readable,rfl⟩
  have exact : isExactConsumedPrefix (consumedIds w.checkpoint) ((w.index.ledger c.id).map fun item => item.evidence.id) = true := by
    rw [Workspace.ids_ledger backed]
    exact prefix_exact.mpr consumed
  simp [turns,turn,calm,Workspace.migrates_none backed readable,read,exact]

-- A record that its connector has ingested already.
theorem known_turns (answer : Answer) (capture : Capture) (record : EvidenceRecord) (rest : List (Option EvidenceRecord))
    (backed : w.Backed env c) (readable : w.Readable env.lax) (calm : answer.fails = false)
    (typed : record.connectorType = c.type) (present : known (w.index.ledger c.id) record = some item)
    (same : item.evidence.equal record = true) :
    turns env.lax c [answer,answer] (w,.capturing capture (some record :: rest)) = (w,.capturing (capture.take record item) rest) := by
  have read := (Workspace.ledger_reads backed).mpr ⟨readable,rfl⟩
  have kept : w.settled ⟨w.evidence.content,none,false⟩ = w := by simp [Workspace.settled,IngestionState.settle]
  simp [turns,turn,persist,calm,typed,Workspace.associate_reads backed readable,present,same,kept,read,
    reversed_known (ledger_distinct backed)]

theorem readable_settled (readable : w.Readable env.lax) (entry : out.entry = some added) (legible : added.Legible env.lax) :
    (w.settled out).Readable env.lax := by
  intro other member
  simp only [Workspace.settled,IngestionState.settle,entry,Option.toList_some] at member
  rcases List.mem_append.mp member with earlier | fresh
  · exact readable other earlier
  · rw [List.mem_singleton.mp fresh]
    exact legible

-- The workspace with one more record of the connector in it.
def Workspace.ingested (lax : Coercions) (w : Workspace) (item : EvidenceIngestion) : Workspace :=
  w.settled (EvidenceStore.append lax w.evidence.content (.association item) true)

theorem ingested_backed (record : EvidenceRecord) (backed : w.Backed env c) (readable : w.Readable env.lax) (named : connectorText c.id = true)
    (typed : record.connectorType = c.type) (absent : known (w.index.ledger c.id) record = none) :
    (w.ingested env.lax (ingest c named (w.index.ledger c.id) record)).Backed env c := by
  have got := Workspace.associate_reads backed readable record
  simp only [absent,dif_pos named] at got
  exact (Workspace.associated backed typed got).1

theorem ingested_ledger (mine : item.connectorId = c.id) : (w.ingested lax item).index.ledger c.id = w.index.ledger c.id ++ [item] :=
  Workspace.settled_ledger rfl mine

theorem fresh_turns (answer : Answer) (capture : Capture) (record : EvidenceRecord) (rest : List (Option EvidenceRecord))
    (backed : w.Backed env c) (readable : w.Readable env.lax) (calm : answer.fails = false)
    (typed : record.connectorType = c.type) (absent : known (w.index.ledger c.id) record = none) (named : connectorText c.id = true)
    (legible : (EvidenceEntry.association (ingest c named (w.index.ledger c.id) record)).Legible env.lax) :
    turns env.lax c [answer,answer] (w,.capturing capture (some record :: rest)) =
      (w.ingested env.lax (ingest c named (w.index.ledger c.id) record),
        .capturing (capture.take record (ingest c named (w.index.ledger c.id) record)) rest) := by
  have backed' := ingested_backed record backed readable named typed absent
  have ledger' : (w.ingested env.lax (ingest c named (w.index.ledger c.id) record)).index.ledger c.id =
      w.index.ledger c.id ++ [ingest c named (w.index.ledger c.id) record] := ingested_ledger rfl
  have read := (Workspace.ledger_reads backed').mpr ⟨readable_settled readable rfl legible,ledger'.symm⟩
  have associates := Workspace.associate_reads backed readable record
  rw [absent] at associates
  simp only [dif_pos named] at associates
  have found : ((w.index.ledger c.id ++ [ingest c named (w.index.ledger c.id) record]).reverse.find? fun item =>
      item.evidence.id == record.id) = some (ingest c named (w.index.ledger c.id) record) := by
    rw [List.reverse_append,List.reverse_singleton,List.singleton_append,List.find?_cons_of_pos]
    exact beq_self_eq_true record.id
  simp only [turns,List.foldl_cons,List.foldl_nil,turn,typed,bne_self_eq_false,Bool.false_eq_true,if_false,persist,associates,calm]
  unfold Workspace.ingested at read ⊢
  simp only [read,found]

theorem closing_turns (answer : Answer) (capture : Capture) (backed : w.Backed env c) (readable : w.Readable env.lax) (calm : answer.fails = false)
    (held : ∀ id ∈ capture.held, id ∈ w.ids) (current : capture.prior = w.checkpoint) :
    ∃ checkpoint, turns env.lax c [answer,answer,answer,answer,answer] (w,.capturing capture []) =
      ({w with checkpoint := checkpoint},.ended true) ∧ consumedIds checkpoint = Keyed.fromKeys capture.held := by
  have read := (Workspace.ledger_reads backed).mpr ⟨readable,rfl⟩
  have ingested : ((Keyed.fromKeys capture.held).all fun id => (w.index.ledger c.id).any fun item => item.evidence.id == id) = true := by
    apply List.all_eq_true.mpr
    intro id member
    have listed := held id (Keyed.mem_fromKeys.mp member)
    rw [←Workspace.ids_ledger backed] at listed
    obtain ⟨item,present,same⟩ := List.mem_map.mp listed
    exact List.any_eq_true.mpr ⟨item,present,beq_iff_eq.mpr same⟩
  obtain ⟨checkpoint,made⟩ : ∃ checkpoint, checkpointAfterDiscovery c answer (w.index.ledger c.id) capture = some checkpoint := by
    simp [checkpointAfterDiscovery,ingested,Keyed.fromKeys_nodup]
  cases new : advanced capture.prior checkpoint with
  | true =>
    refine ⟨some checkpoint,?_,checkpoint_consumed made⟩
    rw [current] at new
    simp [turns,turn,calm,read,made,current,new,sameCheckpoint_self]
  | false =>
    refine ⟨w.checkpoint,?_,?_⟩
    · simp [turns,turn,calm,read,made,new]
    · rw [←current,unadvanced_consumed new]
      exact checkpoint_consumed made

end Calm

-- The built-in connector of Markdown files, and two notes that it may find.
def markdownConnector : Connector := ⟨"markdown","markdown"⟩

theorem markdown_named : connectorText markdownConnector.id = true := by decide

def firstNote : EvidenceRecord := note "evidence:1" "first"
def lateNote : EvidenceRecord := note "evidence:2" "late"

def firstItem : EvidenceIngestion := ingest markdownConnector markdown_named [] firstNote
def lateItem : EvidenceIngestion := ingest markdownConnector markdown_named [firstItem] lateNote

theorem firstItem_legible : (EvidenceEntry.association firstItem).Legible plainEnv.lax := ⟨by decide,by decide⟩
theorem lateItem_legible : (EvidenceEntry.association lateItem).Legible plainEnv.lax := ⟨by decide,by decide⟩

def finding (records : List EvidenceRecord) : Answer := ⟨false,false,records.map some,none,⟨noon,rfl⟩⟩

-- A workspace that has the first note.
def noted : Workspace := Workspace.empty.ingested plainEnv.lax firstItem

theorem noted_backed : noted.Backed plainEnv markdownConnector :=
  ingested_backed firstNote Workspace.empty_backed (fun _ member => absurd member List.not_mem_nil) markdown_named rfl rfl

theorem noted_readable : noted.Readable plainEnv.lax :=
  readable_settled (fun _ member => absurd member List.not_mem_nil) rfl firstItem_legible

theorem noted_ledger : noted.index.ledger markdownConnector.id = [firstItem] := ingested_ledger rfl

theorem first_turns : turns plainEnv.lax markdownConnector (List.replicate 7 (finding [firstNote])) (Workspace.empty,.idle) =
    (noted,.capturing (Capture.take {Capture.load none [] with discovered := [some firstNote]} firstNote firstItem) []) := by
  have readable : Workspace.empty.Readable plainEnv.lax := fun _ member => absurd member List.not_mem_nil
  have opened := opening_turns (c := markdownConnector) (finding [firstNote]) Workspace.empty_backed readable List.prefix_rfl rfl
  have taken := fresh_turns (finding [firstNote]) {Capture.load none [] with discovered := [some firstNote]} firstNote []
    Workspace.empty_backed readable rfl rfl rfl markdown_named firstItem_legible
  change turns plainEnv.lax markdownConnector (List.replicate 5 (finding [firstNote]) ++ List.replicate 2 (finding [firstNote])) _ = _
  rw [turns_append]
  exact (congrArg (turns plainEnv.lax markdownConnector _) opened).trans taken

end SyncOrchestrator
