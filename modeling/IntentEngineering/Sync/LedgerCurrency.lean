import IntentEngineering.Capture.EvidenceIdentity
import IntentEngineering.Sync.ConsumedPrefix

-- What a run finds upstream and what the ledger then has last of each object.
namespace SyncOrchestrator
variable {env : WriteEnv} {c : Connector}

-- Whether an object is found once more.
def Again (batch : List (Option EvidenceRecord)) (record : EvidenceRecord) : Prop :=
  ∃ later, some later ∈ batch ∧ later.externalObjectId = record.externalObjectId

-- The last that a run finds of an object.
def LastFound (batch : List (Option EvidenceRecord)) (record : EvidenceRecord) : Prop :=
  ∃ before after, batch = before ++ some record :: after ∧ ¬ Again after record

-- The object's entry of the highest sequence holds the record.
def Current (ledger : List EvidenceIngestion) (record : EvidenceRecord) : Prop :=
  ∃ item ∈ ledger, item.evidence.externalObjectId = record.externalObjectId ∧
    (∀ other ∈ ledger, other.evidence.externalObjectId = record.externalObjectId → other.sequence ≤ item.sequence) ∧
    (item.evidence = record ∨ item.evidence.equal record = true)

-- A run that finds this upstream.
def sync (lax : Coercions) (c : Connector) (w : Workspace) (batch : List (Option EvidenceRecord)) (answers : List Answer) :
    Workspace × Phase :=
  turns lax c (answers.map fun answer => {answer with discovered := batch}) (w,.idle)

-- A run can succeed, and one that does leaves the last that it found last in the ledger.
def UpToDate (lax : Coercions) (c : Connector) (w : Workspace) (batch : List (Option EvidenceRecord)) : Prop :=
  (∃ answers, (sync lax c w batch answers).2 = .ended true) ∧
  ∀ answers ledger record, (sync lax c w batch answers).2 = .ended true →
    (sync lax c w batch answers).1.ledger lax c = .ok ledger → LastFound batch record → Current ledger record

-- The object's last entry.
def newest (ledger : List EvidenceIngestion) (object : String) : Option EvidenceIngestion :=
  (ledger.filter fun item => item.evidence.externalObjectId == object).getLast?

-- Each record that is found is in the ledger as the last entry of its object,
-- or is found to be out of date itself, or is new and can be read back.
def Settles (lax : Coercions) (c : Connector) : List EvidenceIngestion → List (Option EvidenceRecord) → Prop
  | _, [] => True
  | _, none :: _ => False
  | ledger, some record :: rest =>
    record.connectorType = c.type ∧
      match known ledger record with
      | some item => item.evidence.equal record = true ∧ (newest ledger record.externalObjectId = some item ∨ Again rest record) ∧
          Settles lax c ledger rest
      | none => ∃ named : connectorText c.id = true, (EvidenceEntry.association (ingest c named ledger record)).Legible lax ∧
          Settles lax c (ledger ++ [ingest c named ledger record]) rest

-- What a batch makes of a ledger when all of it is accepted.
inductive Absorbs (lax : Coercions) (c : Connector) : List EvidenceIngestion → List (Option EvidenceRecord) → List EvidenceIngestion → Prop where
  | done : Absorbs lax c ledger [] ledger
  | present (typed : record.connectorType = c.type) (found : known ledger record = some item) (same : item.evidence.equal record = true)
    (rest : Absorbs lax c ledger batch after) : Absorbs lax c ledger (some record :: batch) after
  | fresh (typed : record.connectorType = c.type) (absent : known ledger record = none) (named : connectorText c.id = true)
    (legible : (EvidenceEntry.association (ingest c named ledger record)).Legible lax)
    (rest : Absorbs lax c (ledger ++ [ingest c named ledger record]) batch after) : Absorbs lax c ledger (some record :: batch) after

section Ledgers
variable {lax : Coercions} {ledger : List EvidenceIngestion}

structure Ordered (ledger : List EvidenceIngestion) : Prop where
  sequences : ledger.map EvidenceIngestion.sequence = List.range' 1 ledger.length
  once : (ledger.map fun item => item.evidence.id).Nodup

theorem backed_ordered {w : Workspace} (backed : w.Backed env c) : Ordered (w.index.ledger c.id) :=
  ⟨(IngestionLedger.grows_reads backed.grows).2.2.sequences c.id,ledger_distinct backed⟩

theorem ingest_ordered (ordered : Ordered ledger) (named : connectorText c.id = true) (absent : known ledger record = none) :
    Ordered (ledger ++ [ingest c named ledger record]) := by
  constructor
  · rw [List.map_append,ordered.sequences,List.length_append,List.length_singleton,List.range'_concat]
    simp [ingest,Nat.add_comm]
  · rw [List.map_append]
    refine List.nodup_append.mpr ⟨ordered.once,List.nodup_singleton _,?_⟩
    intro id member other single same
    obtain ⟨item,there,rfl⟩ := List.mem_map.mp member
    rw [List.mem_singleton.mp single] at same
    exact List.find?_eq_none.mp absent item there (beq_iff_eq.mpr same)

theorem absorbs_ordered (ordered : Ordered ledger) (absorbs : Absorbs lax c ledger batch after) : Ordered after := by
  induction absorbs with
  | done => exact ordered
  | present typed found same rest ih => exact ih ordered
  | fresh typed absent named legible rest ih => exact ih (ingest_ordered ordered named absent)

theorem newest_ingest (ledger : List EvidenceIngestion) (named : connectorText c.id = true) (record : EvidenceRecord) :
    newest (ledger ++ [ingest c named ledger record]) record.externalObjectId = some (ingest c named ledger record) := by
  simp [newest,List.filter_append,ingest]

theorem newest_other (named : connectorText c.id = true) (other : record.externalObjectId ≠ object) :
    newest (ledger ++ [ingest c named ledger record]) object = newest ledger object := by
  simp [newest,List.filter_append,ingest,other]

-- Records of other objects leave the last entry of an object.
theorem absorbs_newest {record : EvidenceRecord} (absorbs : Absorbs lax c ledger batch after) (last : ¬ Again batch record) :
    newest after record.externalObjectId = newest ledger record.externalObjectId := by
  induction absorbs with
  | done => rfl
  | present typed found same rest ih =>
    exact ih fun ⟨later,member,object⟩ => last ⟨later,List.mem_cons_of_mem _ member,object⟩
  | @fresh ledger first batch after typed absent named legible rest ih =>
    have other : first.externalObjectId ≠ record.externalObjectId := fun object => last ⟨first,List.mem_cons_self,object⟩
    rw [ih fun ⟨later,member,object⟩ => last ⟨later,List.mem_cons_of_mem _ member,object⟩]
    exact newest_other named other

theorem absorbs_extends (absorbs : Absorbs lax c ledger batch after) : ledger <+: after := by
  induction absorbs with
  | done => exact List.prefix_rfl
  | present typed found same rest ih => exact ih
  | fresh typed absent named legible rest ih => exact (List.prefix_append ..).trans ih

theorem ordered_increasing (ordered : Ordered ledger) : ledger.Pairwise fun a b => a.sequence < b.sequence := by
  have increasing : (ledger.map EvidenceIngestion.sequence).Pairwise (· < ·) := by
    rw [ordered.sequences]
    exact List.pairwise_lt_range'
  exact List.pairwise_map.mp increasing

theorem newest_highest (ordered : Ordered ledger) :
    newest ledger object = some item ↔ item ∈ ledger ∧ item.evidence.externalObjectId = object ∧
      ∀ other ∈ ledger, other.evidence.externalObjectId = object → other.sequence ≤ item.sequence := by
  have listed (other : EvidenceIngestion) : other ∈ (ledger.filter fun item => item.evidence.externalObjectId == object) ↔
      other ∈ ledger ∧ other.evidence.externalObjectId = object := by
    rw [List.mem_filter,beq_iff_eq]
  have increasing : (ledger.filter fun item => item.evidence.externalObjectId == object).Pairwise fun a b => a.sequence < b.sequence :=
    (ordered_increasing ordered).sublist List.filter_sublist
  unfold newest
  rw [List.getLast?_eq_some_iff]
  constructor
  · rintro ⟨front,shape⟩
    rw [shape] at listed increasing
    obtain ⟨member,same⟩ := (listed item).mp (by simp)
    refine ⟨member,same,fun other there object => ?_⟩
    rcases List.mem_append.mp ((listed other).mpr ⟨there,object⟩) with earlier | last
    · exact Nat.le_of_lt ((List.pairwise_append.mp increasing).2.2 _ earlier _ (List.mem_singleton.mpr rfl))
    · rw [List.mem_singleton.mp last]
  · rintro ⟨member,same,highest⟩
    have there := (listed item).mpr ⟨member,same⟩
    rcases List.eq_nil_or_concat (ledger.filter fun item => item.evidence.externalObjectId == object) with empty | ⟨front,last,shape⟩
    · rw [empty] at there
      cases there
    · rw [List.concat_eq_append] at shape
      rw [shape] at listed increasing there ⊢
      have bound : last.sequence ≤ item.sequence := by
        obtain ⟨lastThere,lastSame⟩ := (listed last).mp (by simp)
        exact highest last lastThere lastSame
      rcases List.mem_append.mp there with earlier | final
      · have below := (List.pairwise_append.mp increasing).2.2 _ earlier _ (List.mem_singleton.mpr rfl)
        omega
      · rw [List.mem_singleton.mp final]
        exact ⟨front,rfl⟩

theorem current_newest {record : EvidenceRecord} (ordered : Ordered ledger) :
    Current ledger record ↔ ∃ item, newest ledger record.externalObjectId = some item ∧
      (item.evidence = record ∨ item.evidence.equal record = true) := by
  simp only [Current,newest_highest ordered]
  constructor
  · rintro ⟨item,member,object,highest,holds⟩
    exact ⟨item,⟨member,object,highest⟩,holds⟩
  · rintro ⟨item,⟨member,object,highest⟩,holds⟩
    exact ⟨item,member,object,highest,holds⟩

theorem known_spec (found : known ledger record = some item) : item ∈ ledger ∧ item.evidence.id = record.id := by
  unfold known at found
  exact ⟨List.mem_of_find?_eq_some found,by simpa using List.find?_some found⟩

-- The one entry that can hold a record is the one under its identifier.
theorem holder_known (ordered : Ordered ledger) (found : known ledger record = some item) (member : other ∈ ledger)
    (holds : other.evidence = record ∨ other.evidence.equal record = true) : other = item := by
  have same : other.evidence.id = record.id := by
    rcases holds with equal | equal
    · rw [equal]
    · simp only [EvidenceRecord.equal,Bool.and_eq_true,beq_iff_eq] at equal
      exact equal.1.1.1.1.1.1.1.1.1.1
  obtain ⟨there,identifier⟩ := known_spec found
  exact List.inj_on_of_nodup_map ordered.once member there (same.trans identifier.symm)

theorem present_current {record : EvidenceRecord} (ordered : Ordered ledger) (found : known ledger record = some item)
    (same : item.evidence.equal record = true) (absorbs : Absorbs lax c ledger batch after) (last : ¬ Again batch record) :
    Current after record ↔ newest ledger record.externalObjectId = some item := by
  rw [current_newest (absorbs_ordered ordered absorbs),absorbs_newest absorbs last]
  constructor
  · rintro ⟨other,latest,holds⟩
    rw [latest,holder_known ordered found ((newest_highest ordered).mp latest).1 holds]
  · exact fun latest => ⟨item,latest,.inr same⟩

theorem lastFound_cons {record : EvidenceRecord} : LastFound (some first :: batch) record ↔ (first = record ∧ ¬ Again batch record) ∨ LastFound batch record := by
  constructor
  · rintro ⟨before,after,shape,last⟩
    cases before with
    | nil =>
      cases shape
      exact .inl ⟨rfl,last⟩
    | cons head front =>
      cases shape
      exact .inr ⟨front,after,rfl,last⟩
  · rintro (⟨rfl,last⟩ | ⟨before,after,rfl,last⟩)
    · exact ⟨[],batch,rfl,last⟩
    · exact ⟨some first :: before,after,rfl,last⟩

-- By induction on what is absorbed.
theorem absorbs_settles (ordered : Ordered ledger) (absorbs : Absorbs lax c ledger batch after) :
    (∀ record, LastFound batch record → Current after record) ↔ Settles lax c ledger batch := by
  induction absorbs with
  | done =>
    refine ⟨fun _ => trivial,fun _ record ⟨before,rest,shape,_⟩ => ?_⟩
    exact absurd shape.symm (List.append_ne_nil_of_right_ne_nil before (List.cons_ne_nil _ rest))
  | @present ledger first item batch after typed found same rest ih =>
    have current := fun last => present_current ordered found same rest last
    simp only [Settles,found,typed,true_and,same]
    rw [←ih ordered]
    constructor
    · intro all
      refine ⟨?_,fun record last => all record (lastFound_cons.mpr (.inr last))⟩
      by_cases again : Again batch first
      · exact .inr again
      · exact .inl ((current again).mp (all first (lastFound_cons.mpr (.inl ⟨rfl,again⟩))))
    · rintro ⟨newer,later⟩ record last
      rcases lastFound_cons.mp last with ⟨rfl,final⟩ | last
      · exact (current final).mpr (newer.resolve_right final)
      · exact later record last
  | @fresh ledger first batch after typed absent named legible rest ih =>
    have ordered' := ingest_ordered ordered named absent
    simp only [Settles,absent,typed,true_and]
    constructor
    · intro all
      exact ⟨named,legible,(ih ordered').mp fun record last => all record (lastFound_cons.mpr (.inr last))⟩
    · rintro ⟨_,_,settles⟩ record last
      rcases lastFound_cons.mp last with ⟨rfl,final⟩ | last
      · rw [current_newest (absorbs_ordered ordered' rest),absorbs_newest rest final,newest_ingest]
        exact ⟨_,rfl,.inl rfl⟩
      · exact (ih ordered').mpr settles record last

theorem settles_absorbs (settles : Settles lax c ledger batch) : ∃ after, Absorbs lax c ledger batch after := by
  induction batch generalizing ledger with
  | nil => exact ⟨ledger,.done⟩
  | cons source batch ih =>
    cases source with
    | none => cases settles
    | some record =>
      obtain ⟨typed,settles⟩ := settles
      cases found : known ledger record with
      | some item =>
        rw [found] at settles
        obtain ⟨same,_,rest⟩ := settles
        exact (ih rest).imp fun _ absorbs => .present typed found same absorbs
      | none =>
        rw [found] at settles
        obtain ⟨named,legible,rest⟩ := settles
        exact (ih rest).imp fun _ absorbs => .fresh typed found named legible absorbs

end Ledgers

section Runs
variable {w : Workspace} {batch : List (Option EvidenceRecord)} {start : List EvidenceIngestion}

-- Where a run over a batch stands that began with a ledger.
def Traced (env : WriteEnv) (c : Connector) (start : List EvidenceIngestion) (batch : List (Option EvidenceRecord)) (w : Workspace) : Phase → Prop
  | .idle | .begun _ | .migrating _ _ | .loading _ => w.index.ledger c.id = start
  | .ready _ => w.Readable env.lax ∧ w.index.ledger c.id = start
  | .capturing _ rest => w.Readable env.lax ∧
    ∀ after, Absorbs env.lax c (w.index.ledger c.id) rest after → Absorbs env.lax c start batch after
  | .associated _ _ rest => w.Readable env.lax →
    ∀ after, Absorbs env.lax c (w.index.ledger c.id) rest after → Absorbs env.lax c start batch after
  | .captured _ | .reasoned _ | .detected _ | .prepared _ _ | .ended true =>
    w.Readable env.lax ∧ Absorbs env.lax c start batch (w.index.ledger c.id)
  | .ended false => True

-- The record that a run has just associated.
theorem associates_traced (backed : w.Backed env c) (readable : w.Readable env.lax) (typed : record.connectorType = c.type)
    (got : EvidenceStore.associate env.lax w.evidence.content c.id record = .ok out)
    (traced : ∀ after, Absorbs env.lax c (w.index.ledger c.id) (some record :: rest) after → Absorbs env.lax c start batch after)
    (readable' : (w.settled out).Readable env.lax) :
    ∀ after, Absorbs env.lax c ((w.settled out).index.ledger c.id) rest after → Absorbs env.lax c start batch after := by
  intro after absorbs
  rw [Workspace.associate_reads backed readable] at got
  cases found : known (w.index.ledger c.id) record with
  | some item =>
    simp only [found] at got
    split at got
    · rename_i same
      cases got
      have still : (w.settled ⟨w.evidence.content,none,false⟩).index = w.index :=
        congrArg EvidenceIndex.ofEntries (Workspace.settled_unchanged _ rfl)
      rw [still] at absorbs
      exact traced after (.present typed found same absorbs)
    · cases got
  | none =>
    simp only [found] at got
    split at got
    · rename_i named
      cases got
      have legible := readable' _ (List.mem_append_right _ (List.mem_singleton.mpr rfl))
      rw [Workspace.settled_ledger rfl rfl] at absorbs
      exact traced after (.fresh typed found named legible absorbs)
    · cases got

theorem turned_traced (backed : w.Backed env c) (clean : Clean phase) (traced : Traced env c start batch w phase)
    (turned : Turned env.lax c answer w phase w' phase') (upstream : answer.discovered = batch) : Traced env c start batch w' phase' := by
  cases turned with
  | stops | bringsLast | associatesLast => trivial
  | rests | begins | migrates | migrated | reasons | detects | prepares | finishes => exact traced
  | brings => cases clean
  | loads read exact => exact ⟨((Workspace.ledger_reads backed).mp read).1,traced⟩
  | discovers =>
    obtain ⟨readable,rfl⟩ := traced
    rw [upstream]
    exact ⟨readable,fun _ absorbs => absorbs⟩
  | captures => exact ⟨traced.1,traced.2 _ .done⟩
  | associates typed got => exact associates_traced backed traced.1 typed got traced.2
  | takes read found =>
    have readable := ((Workspace.ledger_reads backed).mp read).1
    exact ⟨readable,traced readable⟩
  | @writes prior checkpoint succeeded same =>
    cases succeeded with
    | true => exact traced
    | false => trivial

theorem turns_traced (answers : List Answer) (state : Workspace × Phase) (backed : state.1.Backed env c) (clean : Clean state.2)
    (traced : Traced env c start batch state.1 state.2) (upstream : ∀ answer ∈ answers, answer.discovered = batch) :
    (turns env.lax c answers state).1.Backed env c ∧
      Traced env c start batch (turns env.lax c answers state).1 (turns env.lax c answers state).2 := by
  induction answers generalizing state with
  | nil => exact ⟨backed,traced⟩
  | cons answer rest ih =>
    have turned := turn_turned env.lax c answer state.1 state.2
    obtain ⟨kept,_,cleaned⟩ := turned_backed backed clean turned
    exact ih _ kept cleaned (turned_traced backed clean traced turned (upstream _ List.mem_cons_self))
      fun other member => upstream other (List.mem_cons_of_mem _ member)

-- A run that succeeds has absorbed what it found.
theorem success_absorbs (backed : w.Backed env c) (succeeded : (sync env.lax c w batch answers).2 = .ended true) :
    (sync env.lax c w batch answers).1.Backed env c ∧ (sync env.lax c w batch answers).1.Readable env.lax ∧
      Absorbs env.lax c (w.index.ledger c.id) batch ((sync env.lax c w batch answers).1.index.ledger c.id) := by
  have traced := turns_traced (answers.map fun answer => {answer with discovered := batch}) (w,.idle) backed trivial
    (rfl : Traced env c (w.index.ledger c.id) batch w .idle) (by
      intro answer member
      obtain ⟨_,_,rfl⟩ := List.mem_map.mp member
      rfl)
  unfold sync at succeeded ⊢
  rw [succeeded] at traced
  exact traced

-- What is absorbed only adds to a file.
theorem absorbs_readable {w' : Workspace} (backed : w.Backed env c) (backed' : w'.Backed env c) (readable : w'.Readable env.lax)
    (absorbs : Absorbs env.lax c (w.index.ledger c.id) batch (w'.index.ledger c.id)) : w.Readable env.lax := by
  intro entry member
  apply readable
  have before : entry ∈ (w.index.ledger c.id).map EvidenceEntry.association := by rwa [Workspace.index,own_ledger backed.own]
  obtain ⟨item,there,rfl⟩ := List.mem_map.mp before
  have later : EvidenceEntry.association item ∈ (w'.index.ledger c.id).map EvidenceEntry.association :=
    List.mem_map.mpr ⟨item,(absorbs_extends absorbs).subset there,rfl⟩
  rwa [Workspace.index,own_ledger backed'.own] at later

theorem held_taken {capture : Capture} {record : EvidenceRecord} {w' : Workspace} (held : ∀ id ∈ capture.held, id ∈ w.ids) (member : record.id ∈ w'.ids)
    (grown : w.ids ⊆ w'.ids) : ∀ id ∈ (capture.take record item).held, id ∈ w'.ids := by
  intro id there
  rw [Capture.take_held] at there
  split at there
  · exact grown (held id there)
  · rcases List.mem_append.mp there with earlier | last
    · exact grown (held id earlier)
    · rw [List.mem_singleton.mp last]
      exact member

theorem take_prior (capture : Capture) (record : EvidenceRecord) (item : EvidenceIngestion) : (capture.take record item).prior = capture.prior := by
  simp only [Capture.take]
  split <;> rfl

-- Nothing fails while a batch is absorbed.
theorem absorbing_turns (answer : Answer) (calm : answer.fails = false) (absorbs : Absorbs env.lax c ledger batch after) (backed : w.Backed env c)
    (readable : w.Readable env.lax) (shown : w.index.ledger c.id = ledger) (capture : Capture) (held : ∀ id ∈ capture.held, id ∈ w.ids)
    (current : capture.prior = w.checkpoint) :
    ∃ n w' capture', turns env.lax c (List.replicate n answer) (w,.capturing capture batch) = (w',.capturing capture' []) ∧
      w'.Backed env c ∧ w'.Readable env.lax ∧ (∀ id ∈ capture'.held, id ∈ w'.ids) ∧ capture'.prior = w'.checkpoint := by
  induction absorbs generalizing w capture with
  | done => exact ⟨0,w,capture,rfl,backed,readable,held,current⟩
  | @present ledger record item batch after typed found same rest ih =>
    subst shown
    have taken := known_turns answer capture record batch backed readable calm typed found same
    have member : record.id ∈ w.ids := by
      obtain ⟨there,identifier⟩ := known_spec found
      rw [←Workspace.ids_ledger backed,←identifier]
      exact List.mem_map.mpr ⟨item,there,rfl⟩
    obtain ⟨n,w',capture',rest,kept⟩ := ih backed readable rfl (capture.take record item)
      (held_taken held member fun _ there => there) (by rw [take_prior,current])
    refine ⟨2 + n,w',capture',?_,kept⟩
    rw [List.replicate_add,turns_append]
    exact (congrArg (turns env.lax c _) taken).trans rest
  | @fresh ledger record batch after typed absent named legible rest ih =>
    subst shown
    have taken := fresh_turns answer capture record batch backed readable calm typed absent named legible
    have backed' := ingested_backed record backed readable named typed absent
    have ids : (w.ingested env.lax (ingest c named (w.index.ledger c.id) record)).ids = w.ids ++ [record.id] := Workspace.settled_ids _
    obtain ⟨n,w',capture',rest,kept⟩ := ih backed' (readable_settled readable rfl legible) (ingested_ledger rfl)
      (capture.take record (ingest c named (w.index.ledger c.id) record))
      (held_taken held (by rw [ids]; exact List.mem_append_right _ (List.mem_singleton.mpr rfl))
        (by rw [ids]; exact List.subset_append_left ..)) (by rw [take_prior,current]; rfl)
    refine ⟨2 + n,w',capture',?_,kept⟩
    rw [List.replicate_add,turns_append]
    exact (congrArg (turns env.lax c _) taken).trans rest

theorem absorbs_success (backed : w.Backed env c) (readable : w.Readable env.lax) (consumed : consumedIds w.checkpoint <+: w.ids)
    (absorbs : Absorbs env.lax c (w.index.ledger c.id) batch after) : ∃ answers, (sync env.lax c w batch answers).2 = .ended true := by
  let answer : Answer := ⟨false,false,batch,none,⟨noon,rfl⟩⟩
  have opened := opening_turns answer backed readable consumed rfl
  have gathered : Gathered w.checkpoint (w.index.ledger c.id) (.load w.checkpoint (w.index.ledger c.id)) :=
    load_gathered (by rw [Workspace.ids_ledger backed]; exact consumed) (ledger_distinct backed)
  have held : ∀ id ∈ (Capture.load w.checkpoint (w.index.ledger c.id)).held, id ∈ w.ids := by
    rw [gathered_held gathered,Workspace.ids_ledger backed]
    exact fun _ member => member
  obtain ⟨n,w',capture',taken,backed',readable',held',current⟩ := absorbing_turns answer rfl absorbs backed readable rfl
    {Capture.load w.checkpoint (w.index.ledger c.id) with discovered := batch} held rfl
  obtain ⟨checkpoint,closed,_⟩ := closing_turns answer capture' backed' readable' rfl held' current
  refine ⟨List.replicate 5 answer ++ (List.replicate n answer ++ List.replicate 5 answer),?_⟩
  have upstream : (List.replicate 5 answer ++ (List.replicate n answer ++ List.replicate 5 answer)).map
      (fun answer => {answer with discovered := batch}) = List.replicate 5 answer ++ (List.replicate n answer ++ List.replicate 5 answer) := by
    simp only [List.map_append,List.map_replicate]
    rfl
  rw [sync,upstream,turns_append,show turns env.lax c (List.replicate 5 answer) (w,.idle) = _ from opened,turns_append,taken]
  exact congrArg Prod.snd closed

end Runs

-- The workspace after a history of runs, in each of which anything may fail.
def afterRuns (lax : Coercions) (c : Connector) (history : List (List Answer)) : Workspace :=
  history.foldl (fun w answers => (turns lax c answers (w,.idle)).1) .empty

theorem runs_one (lax : Coercions) (c : Connector) (answers : List Answer) :
    afterRuns lax c [answers] = (turns lax c answers (.empty,.idle)).1 := rfl

theorem ingested_entries (w : Workspace) (item : EvidenceIngestion) :
    (w.ingested lax item).evidence.entries = w.evidence.entries ++ [.association item] := rfl

theorem turned_entries (turned : Turned lax c answer w phase w' phase') : w.evidence.entries <+: w'.evidence.entries := by
  cases turned with
  | brings | bringsLast | associates | associatesLast => exact List.prefix_append ..
  | _ => exact List.prefix_rfl

theorem turns_entries (answers : List Answer) (state : Workspace × Phase) :
    state.1.evidence.entries <+: (turns lax c answers state).1.evidence.entries := by
  induction answers generalizing state with
  | nil => exact List.prefix_rfl
  | cons answer rest ih => exact (turned_entries (turn_turned lax c answer state.1 state.2)).trans (ih _)

-- Later runs only add to the ledger.
theorem runs_entries (lax : Coercions) (c : Connector) (history later : List (List Answer)) :
    (afterRuns lax c history).evidence.entries <+: (afterRuns lax c (history ++ later)).evidence.entries := by
  induction later using List.reverseRecOn with
  | nil => rw [List.append_nil]
  | append_singleton later answers ih =>
    rw [←List.append_assoc]
    refine ih.trans ?_
    rw [afterRuns,afterRuns,List.foldl_append (l := history ++ later)]
    exact turns_entries answers (_,.idle)

theorem runs_fitting (history : List (List Answer)) : (System.mk (afterRuns env.lax c history) fun _ => .idle).Fitting env c := by
  induction history using List.reverseRecOn with
  | nil => exact System.start_fitting
  | append_singleton history answers ih =>
    have orderly := System.alone_orderly 0 answers ih.backed trivial
    have fitting := System.steps_fitting _ ih orderly
    rw [steps_alone] at fitting
    rw [afterRuns,List.foldl_append]
    exact ⟨⟨fitting.backed.workspace,fun _ => trivial⟩,fitting.stored,fun _ => trivial⟩

theorem runs_backed (history : List (List Answer)) : (afterRuns env.lax c history).Backed env c := (runs_fitting history).backed.workspace

-- A memo at the time that its file was last written.
def memoRecord (t : UtcTime) (modifiedNs : Int) : EvidenceRecord :=
  (Markdown.rawFile "ada" "path:memo.md" (CaptureConnector.memo modifiedNs) t ['m','e','m','o']).normalizeRawSource

def memoItem (t : UtcTime) (modifiedNs : Int) : EvidenceIngestion := ingest markdownConnector markdown_named [] (memoRecord t modifiedNs)

theorem digest_unbroken {kind : String} (ascii : ∀ c ∈ kind.toList, c.toNat < 128) (message : Utf8.Bytes) :
    JsonLines.UnbrokenText (kind ++ Sha256.hexdigest message) := by
  apply JsonLines.unbroken_ascii
  intro c member
  rw [String.toList_append] at member
  rcases List.mem_append.mp member with first | later
  · exact ascii c first
  · have hex := Markdown.hexdigest_hex message c later
    simp only [PyText.isHex,Bool.or_eq_true,decide_eq_true_eq] at hex
    omega

theorem text_strings (s : String) (unbroken : JsonLines.UnbrokenText s) :
    ∀ x ∈ (Schema.Codec.string.dump s).strings, JsonLines.UnbrokenText x := by
  simpa [Schema.Codec.string,Json.strings] using unbroken

theorem memo_legible (t : UtcTime) (modifiedNs : Int) : (EvidenceEntry.association (memoItem t modifiedNs)).Legible plainEnv.lax := by
  have hash : JsonLines.UnbrokenText (memoRecord t modifiedNs).contentHash := digest_unbroken (by decide) _
  have id : JsonLines.UnbrokenText (memoRecord t modifiedNs).id := digest_unbroken (by decide) _
  have time : ∀ s ∈ (plainEnv.lax.timeCodec.dump (memoRecord t modifiedNs).observedAt).strings, JsonLines.UnbrokenText s := time_unbroken _
  have payload : ∀ s ∈ (Json.obj (memoRecord t modifiedNs).payload.1).strings, JsonLines.UnbrokenText s := by
    intro s member
    have listed : s ∈ ["content","memo","path","memo.md"] := member
    exact (by decide : ∀ s ∈ ["content","memo","path","memo.md"], JsonLines.UnbrokenText s) s listed
  constructor
  · simp only [EvidenceEntry.dump,EvidenceIngestion.codec,EvidenceIngestion.fields,EvidenceRecord.codec,Schema.Codec.convert,Schema.Codec.object,
      EvidenceRecord.fields,Schema.Fields.required,Schema.Fields.defaulted,Schema.Fields.push,Schema.Fields.nil,JsonLines.unbroken_strings,
      Json.strings,Json.stringsMembers,List.forall_mem_cons,List.forall_mem_append]
    exact ⟨by decide,text_strings "markdown" (by decide),by decide,⟨by decide,fun _ member => absurd member List.not_mem_nil,by decide,
      text_strings "ada" (by decide),by decide,text_strings "markdown" (by decide),by decide,text_strings _ hash,by decide,
      text_strings "path:memo.md" (by decide),by decide,text_strings _ hash,by decide,text_strings _ id,by decide,time,by decide,
      fun _ member => absurd member List.not_mem_nil,by decide,payload,by decide,text_strings "memo.md" (by decide),
      fun _ member => absurd member List.not_mem_nil⟩,by decide,fun _ member => absurd member List.not_mem_nil,by decide,
      fun _ member => absurd member List.not_mem_nil,by decide,fun _ member => absurd member List.not_mem_nil,
      fun _ member => absurd member List.not_mem_nil⟩
  · rfl

theorem memo_known (t u : UtcTime) (m n : Int) (rest : List EvidenceIngestion) :
    known (memoItem t m :: rest) (memoRecord u n) = some (memoItem t m) := by
  have same : ((memoRecord t m).id == (memoRecord u n).id) = true := beq_iff_eq.mpr rfl
  exact List.find?_cons_of_pos same

-- The memo is captured, and its file written again with what it has in it.
theorem memo_run (t : UtcTime) (modifiedNs : Int) : ∃ checkpoint,
    turns plainEnv.lax markdownConnector (List.replicate 12 (finding [memoRecord t modifiedNs])) (Workspace.empty,.idle) =
      ({Workspace.empty.ingested plainEnv.lax (memoItem t modifiedNs) with checkpoint := checkpoint},.ended true) := by
  have unread : Workspace.empty.Readable plainEnv.lax := fun _ member => absurd member List.not_mem_nil
  have opened := opening_turns (finding [memoRecord t modifiedNs]) empty_markdown unread List.prefix_rfl rfl
  have taken := fresh_turns (finding [memoRecord t modifiedNs])
    {Capture.load none [] with discovered := [some (memoRecord t modifiedNs)]} (memoRecord t modifiedNs) [] empty_markdown unread rfl rfl rfl
    markdown_named (memo_legible t modifiedNs)
  have backed := ingested_backed (memoRecord t modifiedNs) empty_markdown unread markdown_named rfl rfl
  have held : ∀ id ∈ (Capture.take {Capture.load none [] with discovered := [some (memoRecord t modifiedNs)]} (memoRecord t modifiedNs)
      (memoItem t modifiedNs)).held, id ∈ (Workspace.empty.ingested plainEnv.lax (memoItem t modifiedNs)).ids :=
    held_taken (w := Workspace.empty) (fun _ member => absurd member List.not_mem_nil) (List.mem_singleton.mpr rfl) fun _ member => absurd member List.not_mem_nil
  obtain ⟨checkpoint,closed,_⟩ := closing_turns (finding [memoRecord t modifiedNs]) _ backed
    (readable_settled unread rfl (memo_legible t modifiedNs)) rfl held rfl
  refine ⟨checkpoint,?_⟩
  rw [show 12 = 5 + (2 + 5) from rfl,List.replicate_add,List.replicate_add,turns_append,turns_append]
  exact (congrArg (fun state => turns _ _ _ (turns _ _ _ state)) opened).trans ((congrArg (turns _ _ _) taken).trans closed)

def memoRun : List Answer := List.replicate 12 (finding [memoRecord CaptureConnector.firstNoon 1735732800000000000])

theorem memos_apart : (memoRecord CaptureConnector.firstNoon 1735732800000000000).equal
    (memoRecord CaptureConnector.secondNoon 1735819200000000000) = false := by
  have times : CaptureConnector.firstNoon.1.same CaptureConnector.secondNoon.1 = false := by decide
  simp [EvidenceRecord.equal,memoRecord,RawSourceObject.normalizeRawSource,Markdown.rawFile,times]

-- A ledger that has the memo takes no other record of it.
theorem memo_refused {w : Workspace} (backed : w.Backed plainEnv markdownConnector)
    (entries : w.evidence.entries = .association (memoItem t m) :: rest) (apart : (memoRecord t m).equal (memoRecord u n) = false)
    (answers : List Answer) : (sync plainEnv.lax markdownConnector w [some (memoRecord u n)] answers).2 ≠ .ended true := by
  intro succeeded
  obtain ⟨item,tail,ledger,same,_⟩ := List.map_eq_cons_iff.mp ((own_ledger backed.own).trans entries)
  cases same
  obtain ⟨_,_,absorbs⟩ := success_absorbs backed succeeded
  rw [show w.index.ledger markdownConnector.id = _ from ledger] at absorbs
  have found := memo_known t u m n tail
  cases absorbs with
  | present typed present same rest =>
    cases found.symm.trans present
    exact absurd (apart.symm.trans same) Bool.false_ne_true
  | fresh typed absent named legible rest => cases found.symm.trans absent

end SyncOrchestrator
