import IntentEngineering.Sync.CalmRuns

-- What the checkpoint lists has been reasoned about, and what it does not list
-- is in the next delta.
namespace SyncOrchestrator
variable {env : WriteEnv} {c : Connector}

-- A run had this evidence in its delta when its detection was committed.
def Processed (lax : Coercions) (c : Connector) (moves : List Move) (id : String) : Prop :=
  ∃ before after run capture, moves = before ++ after ∧ (System.start.steps lax c before).phase run = .detected capture ∧
    id ∈ capture.delta.added.map EvidenceRecord.id

-- What a run takes for consumed.
def consumedBy : Phase → List String
  | .idle | .ended _ => []
  | .begun prior | .migrating prior _ | .loading prior => consumedIds prior
  | .ready capture | .capturing capture _ | .associated capture _ _ | .captured capture | .reasoned capture | .detected capture =>
    consumedIds capture.prior
  | .prepared _ checkpoint => checkpoint.consumedEvidenceIds

theorem turned_consumes {w : Workspace} (turned : Turned lax c answer w phase w' phase') :
    (∀ id ∈ consumedIds w'.checkpoint, id ∈ consumedIds w.checkpoint ∨ id ∈ consumedBy phase) ∧
    ∀ id ∈ consumedBy phase', id ∈ consumedIds w.checkpoint ∨ id ∈ consumedBy phase ∨
      ∃ capture, phase = .detected capture ∧ id ∈ capture.delta.added.map EvidenceRecord.id := by
  cases turned with
  | stops => exact ⟨fun _ => .inl,fun _ member => absurd member List.not_mem_nil⟩
  | begins => exact ⟨fun _ => .inl,fun _ => .inl⟩
  | bringsLast | associatesLast | finishes => exact ⟨fun _ => .inl,fun _ member => absurd member List.not_mem_nil⟩
  | takes read found =>
    refine ⟨fun _ => .inl,fun id member => .inr (.inl ?_)⟩
    simp only [consumedBy,Capture.take] at member
    split at member <;> exact member
  | @prepares ledger capture checkpoint read made new =>
    refine ⟨fun _ => .inl,fun id member => .inr ?_⟩
    simp only [consumedBy,checkpoint_consumed made] at member
    rcases List.mem_append.mp (Keyed.mem_fromKeys.mp member) with earlier | fresh
    · exact .inl earlier
    · exact .inr ⟨capture,rfl,fresh⟩
  | writes same => exact ⟨fun _ => .inr,fun _ member => absurd member List.not_mem_nil⟩
  | _ => exact ⟨fun _ => .inl,fun _ member => .inr (.inl member)⟩

theorem processed_later {id : String} (processed : Processed lax c moves id) (more : List Move) : Processed lax c (moves ++ more) id := by
  obtain ⟨before,after,run,capture,rfl,detected,member⟩ := processed
  exact ⟨before,after ++ more,run,capture,List.append_assoc ..,detected,member⟩

theorem consumed_processed (moves : List Move) :
    (∀ id ∈ consumedIds (System.start.steps lax c moves).workspace.checkpoint, Processed lax c moves id) ∧
    ∀ run, ∀ id ∈ consumedBy ((System.start.steps lax c moves).phase run), Processed lax c moves id := by
  induction moves using List.reverseRecOn with
  | nil => exact ⟨fun _ member => absurd member List.not_mem_nil,fun _ _ member => absurd member List.not_mem_nil⟩
  | append_singleton moves move ih =>
    obtain ⟨stored,carried⟩ := ih
    have next : System.start.steps lax c (moves ++ [move]) = (System.start.steps lax c moves).step lax c move := List.foldl_append
    obtain ⟨writes,carries⟩ := turned_consumes (turn_turned lax c move.answer (System.start.steps lax c moves).workspace
      ((System.start.steps lax c moves).phase move.run))
    rw [next]
    constructor
    · intro id member
      rcases writes id member with earlier | held
      · exact processed_later (stored id earlier) _
      · exact processed_later (carried move.run id held) _
    · intro run id member
      by_cases same : run = move.run
      · subst same
        simp only [System.step,Function.update_self] at member
        rcases carries id member with earlier | held | ⟨capture,detected,fresh⟩
        · exact processed_later (stored id earlier) _
        · exact processed_later (carried move.run id held) _
        · exact processed_later ⟨moves,[],move.run,capture,(List.append_nil _).symm,detected,fresh⟩ _
      · simp only [System.step,Function.update_of_ne same] at member
        exact processed_later (carried run id member) _

-- What a run that nothing comes between has gathered, over a ledger.
structure Gathered (checkpoint : Option StoredCheckpoint) (ledger : List EvidenceIngestion) (capture : Capture) : Prop where
  prior : capture.prior = checkpoint
  added : capture.delta.added = capture.delta.ingestions.map EvidenceIngestion.evidence
  whole : ∃ before, ledger = before ++ capture.delta.ingestions ∧ before.map (fun item => item.evidence.id) = consumedIds checkpoint

theorem gathered_held (gathered : Gathered checkpoint ledger capture) : capture.held = ledger.map fun item => item.evidence.id := by
  obtain ⟨before,rfl,same⟩ := gathered.whole
  rw [Capture.held,gathered.prior,gathered.added,List.map_append,same,List.map_map]
  rfl

-- The rest of a ledger whose beginning is consumed.
theorem load_gathered {checkpoint : Option StoredCheckpoint} (exact : consumedIds checkpoint <+: ledger.map fun item => item.evidence.id)
    (distinct : (ledger.map fun item => item.evidence.id).Nodup) : Gathered checkpoint ledger (.load checkpoint ledger) := by
  obtain ⟨rest,whole⟩ := exact
  obtain ⟨before,after,rfl,consumed,rfl⟩ := List.map_eq_append_iff.mp whole.symm
  have dropped : (before.filter fun item => !(consumedIds checkpoint).contains item.evidence.id) = [] := by
    apply List.filter_eq_nil_iff.mpr
    intro item member
    have listed : item.evidence.id ∈ consumedIds checkpoint := consumed ▸ List.mem_map.mpr ⟨item,member,rfl⟩
    simp [listed]
  have kept : (after.filter fun item => !(consumedIds checkpoint).contains item.evidence.id) = after := by
    apply List.filter_eq_self.mpr
    intro item member
    rw [List.map_append] at distinct
    have apart := (List.nodup_append.mp distinct).2.2
    have fresh : item.evidence.id ∉ consumedIds checkpoint := by
      intro listed
      rw [←consumed] at listed
      exact apart _ listed _ (List.mem_map.mpr ⟨item,member,rfl⟩) rfl
    simpa using fresh
  refine ⟨rfl,rfl,before,?_,consumed⟩
  simp only [Capture.load,List.filter_append,dropped,kept,List.nil_append]

-- Where such a run stands.
def Alone (c : Connector) (w : Workspace) : Phase → Prop
  | .idle | .ended _ => True
  | .begun prior | .loading prior | .prepared prior _ => prior = w.checkpoint
  | .migrating prior rest => prior = w.checkpoint ∧ rest = []
  | .ready capture | .capturing capture _ | .captured capture | .reasoned capture | .detected capture =>
    Gathered w.checkpoint (w.index.ledger c.id) capture
  | .associated capture record _ => ∃ ledger more, w.index.ledger c.id = ledger ++ more ∧ Gathered w.checkpoint ledger capture ∧
    ((more = [] ∧ record.id ∈ ledger.map fun item => item.evidence.id) ∨
      ∃ item, more = [item] ∧ item.evidence = record ∧ record.id ∉ ledger.map fun item => item.evidence.id)

theorem take_gathered {capture : Capture} (distinct : ((ledger ++ more).map fun item => item.evidence.id).Nodup)
    (gathered : Gathered checkpoint ledger capture)
    (found : ((ledger ++ more).reverse.find? fun item => item.evidence.id == record.id) = some ingestion)
    (grown : (more = [] ∧ record.id ∈ ledger.map fun item => item.evidence.id) ∨
      ∃ item, more = [item] ∧ item.evidence = record ∧ record.id ∉ ledger.map fun item => item.evidence.id) :
    Gathered checkpoint (ledger ++ more) (capture.take record ingestion) := by
  have held := gathered_held gathered
  rcases grown with ⟨rfl,member⟩ | ⟨item,rfl,rfl,fresh⟩
  · rw [←held] at member
    rw [List.append_nil]
    simp only [Capture.take,List.contains_iff_mem,if_pos member]
    exact ⟨gathered.prior,gathered.added,gathered.whole⟩
  · have mine : ingestion = item := by
      rw [List.reverse_append,List.reverse_singleton,List.singleton_append,List.find?_cons_of_pos] at found
      · exact (Option.some.inj found).symm
      · exact beq_self_eq_true item.evidence.id
    subst mine
    obtain ⟨before,whole,same⟩ := gathered.whole
    rw [←held] at fresh
    simp only [Capture.take,List.contains_iff_mem,if_neg fresh]
    refine ⟨gathered.prior,?_,before,?_,same⟩
    · simp only [gathered.added,List.map_append,List.map_singleton]
    · simp only [whole,List.append_assoc]

theorem turned_alone {w : Workspace} (backed : w.Backed env c) (alone : Alone c w phase)
    (turned : Turned env.lax c answer w phase w' phase') : Alone c w' phase' := by
  cases turned with
  | stops | rests | finishes | bringsLast | associatesLast | writes => trivial
  | begins => exact rfl
  | migrates got => exact ⟨alone,Workspace.migrates_nothing backed got⟩
  | migrated => exact alone.1
  | brings got => exact absurd alone.2 (List.cons_ne_nil _ _)
  | loads read exact =>
    obtain rfl : _ = w'.checkpoint := alone
    cases Workspace.ledger_known backed read
    exact load_gathered (prefix_exact.mp exact) (ledger_distinct backed)
  | discovers => exact ⟨alone.prior,alone.added,alone.whole⟩
  | captures | reasons | detects => exact alone
  | @associates record out capture rest typed got =>
    obtain ⟨_,⟨kept,member⟩ | ⟨item,entry,mine,same,fresh⟩⟩ := Workspace.associated backed typed got
    · have still : (w.settled out).index = w.index := congrArg EvidenceIndex.ofEntries (Workspace.settled_unchanged out kept)
      rw [←Workspace.ids_ledger backed] at member
      exact ⟨_,[],by rw [still,List.append_nil],alone,.inl ⟨rfl,member⟩⟩
    · rw [←Workspace.ids_ledger backed] at fresh
      exact ⟨_,[item],Workspace.settled_ledger entry mine,alone,.inr ⟨item,rfl,same,fresh⟩⟩
  | takes read found =>
    obtain ⟨ledger,more,shape,gathered,grown⟩ := alone
    have distinct := ledger_distinct backed
    rw [Workspace.ledger_known backed read,shape] at found
    rw [shape] at distinct
    change Gathered w'.checkpoint (w'.index.ledger c.id) _
    rw [shape]
    exact take_gathered distinct gathered found grown
  | prepares read made new => exact alone.prior

theorem turns_alone (answers : List Answer) (state : Workspace × Phase) (backed : state.1.Backed env c) (clean : Clean state.2)
    (alone : Alone c state.1 state.2) :
    (turns env.lax c answers state).1.Backed env c ∧ Alone c (turns env.lax c answers state).1 (turns env.lax c answers state).2 := by
  induction answers generalizing state with
  | nil => exact ⟨backed,alone⟩
  | cons answer rest ih =>
    have turned := turn_turned env.lax c answer state.1 state.2
    obtain ⟨kept,_,cleaned⟩ := turned_backed backed clean turned
    exact ih _ kept cleaned (turned_alone backed alone turned)

-- A run that has stored nothing yet leaves the checkpoint as it was.
def Unstored : Phase → Prop
  | .ended _ => False
  | _ => True

theorem turned_stored {w : Workspace} (turned : Turned lax c answer w phase w' phase') (unstored : Unstored phase') :
    Unstored phase ∧ w'.checkpoint = w.checkpoint := by
  cases turned with
  | stops | rests | bringsLast | associatesLast | finishes | writes => cases unstored
  | _ => exact ⟨trivial,rfl⟩

theorem turns_stored (answers : List Answer) (state : Workspace × Phase) (unstored : Unstored (turns lax c answers state).2) :
    Unstored state.2 ∧ (turns lax c answers state).1.checkpoint = state.1.checkpoint := by
  induction answers generalizing state with
  | nil => exact ⟨unstored,rfl⟩
  | cons answer rest ih =>
    obtain ⟨next,same⟩ := ih _ unstored
    obtain ⟨earlier,kept⟩ := turned_stored (turn_turned ..) next
    exact ⟨earlier,same.trans kept⟩

-- Whatever has failed in whichever runs before.
theorem evidence_processed (env : WriteEnv) (c : Connector) (moves : List Move) :
    (∀ id ∈ consumedIds (System.start.steps env.lax c moves).workspace.checkpoint, Processed env.lax c moves id) ∧
    ∀ (run : Nat) (answers : List Answer) (capture : Capture) (ledger : List EvidenceIngestion),
      (System.start.steps env.lax c moves).phase run = .idle →
      ((System.start.steps env.lax c moves).steps env.lax c (answers.map (Move.mk run))).phase run = .captured capture →
      ((System.start.steps env.lax c moves).steps env.lax c (answers.map (Move.mk run))).workspace.ledger env.lax c = .ok ledger →
      ∀ item ∈ ledger, item.evidence.id ∉ consumedIds (System.start.steps env.lax c moves).workspace.checkpoint →
        item ∈ capture.delta.ingestions ∧ item.evidence ∈ capture.delta.added := by
  refine ⟨(consumed_processed moves).1,?_⟩
  intro run answers capture ledger idle reaches read item member unlisted
  have started : System.start.Backed env c := System.start_backed
  have backed := System.steps_backed started moves
  rw [steps_alone,idle] at reaches read
  simp only [Function.update_self] at reaches
  obtain ⟨kept,alone⟩ := turns_alone answers ((System.start.steps env.lax c moves).workspace,.idle) backed.workspace trivial trivial
  have same := (turns_stored answers ((System.start.steps env.lax c moves).workspace,.idle)
    (by rw [reaches]; trivial)).2
  rw [reaches] at alone
  obtain ⟨before,whole,consumed⟩ := alone.whole
  rw [Workspace.ledger_known kept read,whole] at member
  have fresh : item ∈ capture.delta.ingestions := by
    rcases List.mem_append.mp member with earlier | later
    · rw [same] at consumed
      exact absurd (consumed ▸ List.mem_map.mpr ⟨item,earlier,rfl⟩) unlisted
    · exact later
  rw [alone.added]
  exact ⟨fresh,List.mem_map.mpr ⟨item,fresh,rfl⟩⟩

-- A run that stops right after it has ingested the first note, and one that finds nothing new.
def crashed : List Move := (List.replicate 7 (finding [firstNote])).map (Move.mk 0)
def recovering : List Answer := List.replicate 6 (finding [])

def recovered : Capture := {Capture.load none [firstItem] with discovered := []}

theorem crashed_steps : (System.start.steps plainEnv.lax markdownConnector crashed).workspace = noted ∧
    (System.start.steps plainEnv.lax markdownConnector crashed).phase 1 = .idle := by
  have steps := steps_alone plainEnv.lax markdownConnector System.start 0 (List.replicate 7 (finding [firstNote]))
  rw [show (System.start.workspace,System.start.phase 0) = (Workspace.empty,Phase.idle) from rfl,first_turns] at steps
  rw [crashed,steps]
  refine ⟨rfl,?_⟩
  simp only [Function.update_of_ne (show 1 ≠ 0 by decide)]
  rfl

theorem crashed_note_processed :
    ((System.start.steps plainEnv.lax markdownConnector crashed).steps plainEnv.lax markdownConnector (recovering.map (Move.mk 1))).phase 1 =
      .captured recovered ∧ firstItem ∈ recovered.delta.ingestions ∧ firstNote ∈ recovered.delta.added := by
  obtain ⟨workspace,idle⟩ := crashed_steps
  have opened := opening_turns (finding []) noted_backed noted_readable List.nil_prefix rfl
  have whole : turns plainEnv.lax markdownConnector recovering (noted,.idle) = (noted,.captured recovered) := by
    change turns plainEnv.lax markdownConnector (List.replicate 5 (finding []) ++ [finding []]) _ = _
    rw [turns_append,show turns plainEnv.lax markdownConnector (List.replicate 5 (finding [])) (noted,.idle) = _ from opened,noted_ledger]
    rfl
  have steps := steps_alone plainEnv.lax markdownConnector (System.start.steps plainEnv.lax markdownConnector crashed) 1 recovering
  rw [workspace,idle,whole] at steps
  have reaches : ((System.start.steps plainEnv.lax markdownConnector crashed).steps plainEnv.lax markdownConnector
      (recovering.map (Move.mk 1))).phase 1 = .captured recovered := by
    rw [steps]
    simp only [Function.update_self]
  refine ⟨reaches,?_⟩
  refine (evidence_processed plainEnv markdownConnector crashed).2 1 recovering recovered [firstItem] idle reaches ?_ firstItem
    (List.mem_singleton.mpr rfl) ?_
  · rw [steps]
    exact (Workspace.ledger_reads noted_backed).mpr ⟨noted_readable,noted_ledger.symm⟩
  · rw [workspace]
    exact List.not_mem_nil

end SyncOrchestrator
