import IntentEngineering.Graphs.AppliedStrings
import IntentEngineering.Models.Tasks
import IntentEngineering.Storage.Executor
import IntentEngineering.Storage.TransactionCalm

open Schema JsonLines LocalTransaction Interrupt

section Strings
variable {lax : Coercions}

theorem hex_ascii {cs : List Char} (hex : PyText.isHexDigest cs = true) : ∀ c ∈ cs, c.toNat < 128 := by
  simp only [PyText.isHexDigest,Bool.and_eq_true,List.all_eq_true] at hex
  intro c member
  have digit := hex.2 c member
  simp only [PyText.isHex,Bool.or_eq_true,decide_eq_true_eq] at digit
  omega

theorem prefixed_ascii {kind s : String} (ascii : ∀ c ∈ kind.toList, c.toNat < 128) (shaped : isPrefixedHash kind s = true) :
    ∀ c ∈ s.toList, c.toNat < 128 := by
  simp only [isPrefixedHash,Bool.and_eq_true] at shaped
  obtain ⟨rest,split⟩ := List.isPrefixOf_iff_prefix.mp shaped.1
  have hex := hex_ascii shaped.2
  rw [←split,List.drop_left] at hex
  rw [←split]
  intro c member
  rcases List.mem_append.mp member with first | later
  · exact ascii c first
  · exact hex c later

theorem time_unbroken (t : DateTime) : lax.timeCodec.Writes UnbrokenText t := by
  have ascii := DateTime.text_ascii t
  simp only [Codec.Writes,Coercions.timeCodec,Codec.lax,DateTime.codec,Codec.convert,Codec.string,Json.strings,
    List.mem_singleton,forall_eq]
  apply unbroken_ascii
  simpa using ascii

end Strings

-- The operations that write the graph and its history.
inductive GraphCall (env : WriteEnv) where
  | apply (request : ChangeRequest)
  | graphApply (changeset : ChangeSet)
  | commit (committer : LocalWriteCommitter) (request : LocalWriteCommitter.Request env)

namespace GraphCall
variable {env : WriteEnv}

def act (c : Coordinator) (transactionId : String) : GraphCall env → Act Disk Unit
  | .apply request => LocalChangeSetExecutor.apply env c transactionId request
  | .graphApply changeset => GraphStore.apply env c transactionId changeset
  | .commit committer request => committer.commitSuccess env request c transactionId

-- The transaction that a call opens, if it gets that far.
def opens (c : Coordinator) : GraphCall env → Option (Bool × Script)
  | .apply request =>
    if !LocalChangeSetExecutor.bindable c request.binding then none
    else (LocalChangeSetExecutor.orderedEffects request.changeset request.createdCases request.resolvedCases).map fun effects =>
      (request.binding.rollbackBaseExceptions,LocalChangeSetExecutor.script env request effects)
  | .graphApply changeset => some (false,GraphStore.applyScript env changeset)
  | .commit committer request =>
    if !committer.admits env request then none
    else (committer.evidence env request).map fun evidence => (false,LocalWriteCommitter.script env request evidence)

-- No string that reaches the change set holds a line separator.
def Plain : GraphCall env → Prop
  | .apply request => Unbroken ((ChangeSet.codec env.lax true).dump request.changeset)
  | .graphApply changeset => Unbroken ((ChangeSet.codec env.lax true).dump changeset)
  | .commit _ request =>
    UnbrokenText request.receipt.1.executedBy ∧ UnbrokenText request.plan.1.caseId ∧
      ∀ ref ∈ request.plan.1.evidenceRefs, UnbrokenText ref

end GraphCall

-- One call, the identifier of its transaction and the faults that meet it.
structure Turn (env : WriteEnv) where
  call : GraphCall env
  transactionId : String
  schedule : List (Option Fault)

namespace Turn
variable {env : WriteEnv}

def run (c : Coordinator) (turn : Turn env) (disk : Disk) : Except Halt Unit × World Disk :=
  turn.call.act c turn.transactionId ⟨disk,turn.schedule⟩

-- The change set is plain, a rollback behind the commit runs through, and no
-- cancellation arrives there.
def Meets (c : Coordinator) (turn : Turn env) (disk : Disk) : Prop :=
  turn.call.Plain ∧ ∀ rollbackBaseExceptions script, turn.call.opens c = some (rollbackBaseExceptions,script) →
    LateRollbackUndisturbed c rollbackBaseExceptions turn.transactionId script.body ⟨disk,turn.schedule⟩ ∧
      CancelledEarly c rollbackBaseExceptions turn.transactionId script.body ⟨disk,turn.schedule⟩

end Turn

-- Every order of calls, each under faults of its own.
inductive Runs (env : WriteEnv) (c : Coordinator) (start : Disk) : Disk → Prop where
  | start : Runs env c start start
  | turn (earlier : Runs env c start disk) (turn : Turn env) (meets : turn.Meets c disk) :
      Runs env c start (turn.run c disk).2.state

section
variable (env : WriteEnv)

-- The stored graph is what the history makes of the initial one.
structure Replayed (initial : IntentGraph) (contents : Contents) (graph : IntentGraph) (changesets : List ChangeSet) : Prop where
  stored : (contents "graph").bind (GraphStore.parseGraph env.lax env.yaml) = some graph
  history : HistoryStore.rebuild env.lax (contents "history") = .ok changesets
  replay : changesets.foldlM Applier.applyWithCaseEffects initial = .ok graph
  version : graph.1.version = changesets.length
  baselines : changesets.map (fun changeset => changeset.1.baselineGraphVersion) = List.range changesets.length

-- What a call that returns has done to the graph and the history.
def Commits (changeset : ChangeSet) (contents ends : Contents) : Prop :=
  ∃ graph next, (contents "graph").bind (GraphStore.parseGraph env.lax env.yaml) = some graph ∧
    Applier.applyWithCaseEffects graph changeset = .ok next ∧
    ends "graph" = some (GraphStore.serializeGraph env.lax env.yaml next) ∧
    ends "history" = some ((contents "history").getD [] ++ env.historyFrame changeset)

-- The same with what keeps it readable.
def Settled (initial : IntentGraph) (contents : Contents) : Prop :=
  ∃ graph changesets, Replayed env initial contents graph changesets ∧
    Unbroken ((IntentGraph.codec env.lax).dump graph) ∧ LedgerReader.pending (contents "history") = []

end

section Steps
variable {env : WriteEnv} {initial : IntentGraph}

theorem commits_settled {contents ends : Contents} (settled : Settled env initial contents)
    (plain : Unbroken ((ChangeSet.codec env.lax true).dump changeset)) (commits : Commits env changeset contents ends) :
    Settled env initial ends := by
  obtain ⟨graph,changesets,replayed,clean,closed⟩ := settled
  obtain ⟨current,next,parsed,applied,written,grown⟩ := commits
  have same : current = graph := by
    have both := parsed.symm.trans replayed.stored
    exact Option.some.inj both
  subst same
  have status : UnbrokenText "superseded" := by decide
  have kept : Unbroken ((IntentGraph.codec env.lax).dump next) := Applier.applied_writes status clean plain applied
  obtain ⟨baseline,version⟩ := Applier.applied_version applied
  have appended : ends "history" = LedgerReader.append (contents "history") ((ChangeSet.codec env.lax true).dump changeset) := grown
  refine ⟨next,changesets ++ [changeset],⟨?_,?_,?_,?_,?_⟩,kept,?_⟩
  · rw [written]
    exact GraphStore.parse_serialized env.lax env.yaml next kept
  · obtain ⟨n,shown,read⟩ := (HistoryStore.reader env.lax).read_append replayed.history
      (HistoryStore.dump_changeset env.lax changeset) ((ChangeSet.codec env.lax true).formed changeset)
      (by simp [closed,Json.Blank]) ⟨plain,.inl rfl⟩
    rw [appended,HistoryStore.rebuild,read]
    exact HistoryStore.record_changeset env.lax changesets n changeset
  · rw [List.foldlM_append,replayed.replay]
    simp only [List.foldlM_cons,List.foldlM_nil,bind,Except.bind,applied]
    rfl
  · rw [version,replayed.version,List.length_append,List.length_singleton]
  · rw [List.map_append,replayed.baselines,List.length_append,List.length_singleton,List.range_succ,List.map_singleton,baseline,
      replayed.version]
  · rw [appended]
    exact (HistoryStore.reader env.lax).pending_append replayed.history _

-- The graph and the frame are all that a writer puts into those two targets.
theorem writeGraph_performed {contents ends : Contents}
    (performed : (LocalChangeSetExecutor.writeGraph env changeset next).perform c contents = some ends) :
    ends "graph" = some (GraphStore.serializeGraph env.lax env.yaml next) ∧
      ends "history" = some ((contents "history").getD [] ++ env.historyFrame changeset) := by
  simp only [LocalChangeSetExecutor.writeGraph,Script.perform] at performed
  split at performed
  · simp only [Option.bind_some] at performed
    split at performed
    · cases performed
      exact ⟨rfl,rfl⟩
    · cases performed
  · cases performed

theorem require_performed {contents ends : Contents} (performed : (Script.require name content).perform c contents = some ends) :
    ends = contents := by
  simp only [Script.require,Script.perform] at performed
  split at performed
  · split at performed
    · cases performed
      rfl
    · cases performed
  · cases performed

theorem applyTo_performed {apply : IntentGraph → Applier.Applied IntentGraph} {then' : IntentGraph → Script} {contents ends : Contents}
    (performed : (LocalChangeSetExecutor.applyTo env apply content then').perform c contents = some ends) :
    ∃ graph next, content.bind (GraphStore.parseGraph env.lax env.yaml) = some graph ∧ apply graph = .ok next ∧
      (then' next).perform c contents = some ends := by
  unfold LocalChangeSetExecutor.applyTo at performed
  split at performed
  · cases performed
  · rename_i graph parsed
    split at performed
    · cases performed
    · rename_i next applied
      exact ⟨graph,next,parsed,applied,performed⟩

theorem bound_performed {bound : Bool} {contents ends : Contents}
    (performed : (if bound = true then Script.require name content else .done).perform c contents = some ends) : ends = contents := by
  split at performed
  · exact require_performed performed
  · cases performed
    rfl

theorem proposalEffect_spares (binding : EffectBinding) (other : "intent_proposals" ≠ name) :
    (LocalChangeSetExecutor.proposalEffect binding).Spares name := by
  unfold LocalChangeSetExecutor.proposalEffect
  split
  · trivial
  · refine ⟨?_,other⟩
    intro content
    change Script.Spares name (if content = binding.intentProposalPreimage then .done else .leave)
    split <;> trivial

theorem writeCases_spares (caseBytes : Utf8.Bytes) (other : "cases" ≠ name) :
    (LocalChangeSetExecutor.writeCases caseBytes).Spares name := by
  unfold LocalChangeSetExecutor.writeCases
  split
  · trivial
  · exact other

theorem writeEffects_performed {contents ends : Contents}
    (performed : (LocalChangeSetExecutor.writeEffects env request next caseBytes).perform c contents = some ends) :
    ends "graph" = some (GraphStore.serializeGraph env.lax env.yaml next) ∧
      ends "history" = some ((contents "history").getD [] ++ env.historyFrame request.changeset) := by
  unfold LocalChangeSetExecutor.writeEffects at performed
  obtain ⟨proposed,first,rest⟩ := Option.bind_eq_some_iff.mp performed
  obtain ⟨witnessed,second,rest⟩ := Option.bind_eq_some_iff.mp rest
  obtain ⟨checked,third,rest⟩ := Option.bind_eq_some_iff.mp rest
  obtain ⟨written,fourth,last⟩ := Option.bind_eq_some_iff.mp rest
  have sameWitnessed := bound_performed second
  have sameChecked := bound_performed third
  subst sameWitnessed sameChecked
  obtain ⟨graphAfter,historyAfter⟩ := writeGraph_performed fourth
  rw [Script.perform_spared (writeCases_spares caseBytes (by decide)) last,
    Script.perform_spared (writeCases_spares caseBytes (by decide)) last,graphAfter,historyAfter,
    Script.perform_spared (proposalEffect_spares request.binding (by decide)) first]
  exact ⟨rfl,rfl⟩

theorem apply_commits {contents ends : Contents}
    (performed : (LocalChangeSetExecutor.script env request effects).perform c contents = some ends) :
    Commits env request.changeset contents ends := by
  unfold LocalChangeSetExecutor.script at performed
  split at performed
  · cases performed
  · obtain ⟨bound,first,rest⟩ := Option.bind_eq_some_iff.mp performed
    have same := bound_performed first
    subst same
    simp only [Script.perform] at rest
    split at rest
    · obtain ⟨graph,next,parsed,applied,later⟩ := applyTo_performed rest
      unfold LocalChangeSetExecutor.applyEffects at later
      split at later
      · cases later
      · simp only [Script.perform] at later
        split at later
        · split at later
          · cases later
          · obtain ⟨graphAfter,historyAfter⟩ := writeEffects_performed later
            exact ⟨graph,next,parsed,applied,graphAfter,historyAfter⟩
        · cases later
    · cases rest

theorem graphApply_commits {contents ends : Contents} (performed : (GraphStore.applyScript env changeset).perform c contents = some ends) :
    Commits env changeset contents ends := by
  simp only [GraphStore.applyScript,Script.perform] at performed
  split at performed
  · obtain ⟨graph,next,parsed,applied,written⟩ := applyTo_performed performed
    obtain ⟨graphAfter,historyAfter⟩ := writeGraph_performed written
    exact ⟨graph,next,parsed,(Applier.applyChangeset_iff.mp applied).2,graphAfter,historyAfter⟩
  · cases performed

theorem write_performed {commit : LocalWriteCommitter.Commit} {contents ends : Contents}
    (performed : (LocalWriteCommitter.write env commit).perform c contents = some ends) :
    ends "graph" = some (GraphStore.serializeGraph env.lax env.yaml commit.graph) ∧
      ends "history" = some ((contents "history").getD [] ++ env.historyFrame commit.changeset) := by
  unfold LocalWriteCommitter.write at performed
  obtain ⟨written,first,rest⟩ := Option.bind_eq_some_iff.mp performed
  obtain ⟨appended,second,rest⟩ := Option.bind_eq_some_iff.mp rest
  have later (name : String) (apart : "evidence" ≠ name ∧ "cases" ≠ name ∧ "receipts" ≠ name) : ends name = appended name := by
    apply Script.perform_spared _ rest
    exact ⟨apart.1,apart.2.1,apart.2.2⟩
  have both : (LocalChangeSetExecutor.writeGraph env commit.changeset commit.graph).perform c contents = some appended :=
    Option.bind_eq_some_iff.mpr ⟨written,first,second⟩
  rw [later "graph" (by decide),later "history" (by decide)]
  exact writeGraph_performed both

-- What a scope that writes has found, and what it writes.
theorem scope_commit {request : LocalWriteCommitter.Request env} {commit : LocalWriteCommitter.Commit} {graphContent evidenceContent caseContent receiptContent : Option Utf8.Bytes}
    (decided : LocalWriteCommitter.scope env request evidence graphContent evidenceContent caseContent receiptContent = some (some commit)) :
    ∃ graph case, graphContent.bind (GraphStore.parseGraph env.lax env.yaml) = some graph ∧
      LocalWriteCommitter.latestCase env caseContent request.plan.1.caseId = some (some case) ∧
      LocalWriteCommitter.fitsCase env request case = true ∧
      LocalWriteCommitter.changeset env request graph case evidence = some commit.changeset ∧
      Applier.applyWithCaseEffects graph commit.changeset = .ok commit.graph ∧
      (ReceiptStore.validateReceiptCompletion env.lax env.sha256 receiptContent request.receipt).toOption = some commit.receiptAppend ∧
      commit.receiptAppend ≠ [] := by
  unfold LocalWriteCommitter.scope at decided
  obtain ⟨graph,parsed,decided⟩ := Option.bind_eq_some_iff.mp decided
  obtain ⟨index,_,decided⟩ := Option.bind_eq_some_iff.mp decided
  split at decided
  · cases decided
  obtain ⟨found,latest,decided⟩ := Option.bind_eq_some_iff.mp decided
  cases found with
  | none => cases decided
  | some case =>
    dsimp only at decided
    split at decided
    · cases decided
    rename_i fits
    obtain ⟨changeset,built,decided⟩ := Option.bind_eq_some_iff.mp decided
    obtain ⟨resolved,_,decided⟩ := Option.bind_eq_some_iff.mp decided
    obtain ⟨next,applied,decided⟩ := Option.bind_eq_some_iff.mp decided
    split at decided
    · cases decided
    obtain ⟨caseAppend,_,decided⟩ := Option.bind_eq_some_iff.mp decided
    obtain ⟨evidenceAppend,_,decided⟩ := Option.bind_eq_some_iff.mp decided
    obtain ⟨receiptAppend,completed,decided⟩ := Option.bind_eq_some_iff.mp decided
    split at decided
    · cases decided
    rename_i present
    cases decided
    have accepted : Applier.applyWithCaseEffects graph changeset = .ok next := by
      cases result : Applier.applyWithCaseEffects graph changeset with
      | error e => simp [result,Except.toOption] at applied
      | ok graph' => simpa [result,Except.toOption] using applied
    exact ⟨graph,case,parsed,latest,by simpa using fits,built,accepted,completed,present⟩

theorem script_performed {request : LocalWriteCommitter.Request env} {contents ends : Contents}
    (performed : (LocalWriteCommitter.script env request evidence).perform c contents = some ends) :
    (LocalWriteCommitter.decided env request evidence contents = false ∧ ends = contents) ∨
      ∃ commit, LocalWriteCommitter.decided env request evidence contents = true ∧
        LocalWriteCommitter.scope env request evidence (contents "graph") (contents "evidence") (contents "cases")
          (contents "receipts") = some (some commit) ∧ (LocalWriteCommitter.write env commit).perform c contents = some ends := by
  simp only [LocalWriteCommitter.script,Script.perform] at performed
  iterate 4
    split at performed
    case' isFalse => cases performed
  unfold LocalWriteCommitter.decided
  split at performed
  · cases performed
  · rename_i early
    cases performed
    exact .inl ⟨by rw [early],rfl⟩
  · rename_i commit found
    exact .inr ⟨commit,by rw [found],found,performed⟩

theorem latestCase_id (latest : LocalWriteCommitter.latestCase env content caseId = some (some case)) : case.id = caseId := by
  unfold LocalWriteCommitter.latestCase at latest
  split at latest
  · cases latest
  · have found := Option.some.inj latest
    simpa using List.find?_some found

theorem evidence_id {committer : LocalWriteCommitter} {request : LocalWriteCommitter.Request env}
    (built : committer.evidence env request = some evidence) : isWriteEvidenceId evidence.id = true := by
  unfold LocalWriteCommitter.evidence at built
  obtain ⟨evidenceRef,named,built⟩ := Option.bind_eq_some_iff.mp built
  split at built
  · cases built
  · cases built
    have valid := request.receipt.2
    simp only [ReceiptDraft.validateReceipt,Bool.and_eq_true,named,Option.all_some] at valid
    exact valid.1.1.1.2

-- The change set of a commit takes its strings from the receipt and the plan.
theorem changeset_plain {committer : LocalWriteCommitter} {request : LocalWriteCommitter.Request env}
    (plain : (GraphCall.commit committer request).Plain) (named : isWriteEvidenceId evidence.id = true)
    (identified : case.id = request.plan.1.caseId) (fits : LocalWriteCommitter.fitsCase env request case = true)
    (built : LocalWriteCommitter.changeset env request graph case evidence = some changeset) :
    Unbroken ((ChangeSet.codec env.lax true).dump changeset) := by
  have parts : UnbrokenText request.receipt.1.executedBy ∧ UnbrokenText request.plan.1.caseId ∧
      ∀ ref ∈ request.plan.1.evidenceRefs, UnbrokenText ref := plain
  obtain ⟨actor,caseId,refs⟩ := parts
  have shape : changeset.1 = LocalWriteCommitter.changesetDraft env request graph case evidence := by
    unfold LocalWriteCommitter.changeset at built
    dsimp only at built
    split at built
    · cases built
      rfl
    · cases built
  simp only [LocalWriteCommitter.fitsCase,Bool.and_eq_true,beq_iff_eq] at fits
  have evidenceId : UnbrokenText evidence.id := unbroken_ascii (prefixed_ascii (by decide) named)
  have changesetId (message : Utf8.Bytes) : UnbrokenText ("changeset:mcp-write:" ++ env.sha256 message) := by
    apply unbroken_ascii
    intro c member
    rw [String.toList_append] at member
    rcases List.mem_append.mp member with first | later
    · have ascii : ∀ c ∈ "changeset:mcp-write:".toList, c.toNat < 128 := by decide
      exact ascii c first
    · exact hex_ascii (env.hexadecimal message) c later
  have sources : ∀ ref ∈ case.allEvidenceRefs ++ [evidence.id], UnbrokenText ref := by
    intro ref member
    rcases List.mem_append.mp member with old | new
    · exact refs ref (fits.1.1.2 ▸ old)
    · rw [List.mem_singleton.mp new]
      exact evidenceId
  have written : (ChangeSetDraft.codec env.lax true).Writes UnbrokenText changeset.1 → Unbroken ((ChangeSet.codec env.lax true).dump changeset) :=
    id
  apply written
  rw [shape]
  simp only [ChangeSetDraft.codec,ChangeSetDraft.fields,writes_convert,writes_object,
    writes_required,writes_string,writes_list,Applier.natural_writes,time_unbroken,writes_nil,true_and,and_true]
  have nothing {α : Type} (P : α → Prop) : ∀ x ∈ ([] : List α), P x := fun _ member => absurd member List.not_mem_nil
  have approved : UnbrokenText "approved" := by decide
  have resolved : ∀ id ∈ [case.id], UnbrokenText id := by
    intro id member
    rw [List.mem_singleton.mp member,identified]
    exact caseId
  exact ⟨by decide,actor,by decide,by decide,nothing _,by decide,nothing _,by decide,nothing _,by decide,nothing _,by decide,
    sources,by decide,changesetId _,by decide,nothing _,by decide,nothing _,by decide,nothing _,by decide,nothing _,by decide,
    nothing _,by decide,resolved,by decide,by decide,approved⟩

-- A call changed nothing, or it committed one plain change set. A death may
-- leave either.
def Effect (env : WriteEnv) (c : Coordinator) (contents : Contents) (result : Except Halt Unit) (disk : Disk) : Prop :=
  (result ≠ .ok () ∧ effective c disk = some contents) ∨
    ((result = .ok () ∨ result = .error .died) ∧ ∃ changeset ends, Unbroken ((ChangeSet.codec env.lax true).dump changeset) ∧
      Commits env changeset contents ends ∧ effective c disk = some ends)

theorem transaction_commits {script : Script} (settled : effective c disk = some contents)
    (calm : LateRollbackUndisturbed c rollbackBaseExceptions transactionId script.body ⟨disk,schedule⟩ ∧
      CancelledEarly c rollbackBaseExceptions transactionId script.body ⟨disk,schedule⟩)
    (commits : ∀ ends, script.perform c contents = some ends → ∃ changeset, Unbroken ((ChangeSet.codec env.lax true).dump changeset) ∧
      Commits env changeset contents ends)
    (ran : transaction c rollbackBaseExceptions transactionId script.body ⟨disk,schedule⟩ = (result,after)) :
    Effect env c contents result after.state := by
  rcases transaction_effect settled calm.1 calm.2 ran with unchanged | ⟨ended,ends,performed,left⟩
  · exact .inl unchanged
  · obtain ⟨changeset,plain,committed⟩ := commits ends performed
    exact .inr ⟨ended,changeset,ends,plain,committed,left⟩

theorem guarded_effect {act : Act Disk Unit}
    (inner : ∀ result after, act start = (result,after) → Effect env c contents result after.state)
    (ran : LocalChangeSetExecutor.guardCancellation c rollbackBaseExceptions act start = (result,after)) :
    Effect env c contents result after.state := by
  unfold LocalChangeSetExecutor.guardCancellation at ran
  rw [run_catch] at ran
  cases first : act start with
  | mk outcome middle =>
    have effect := inner outcome middle first
    rw [first] at ran
    cases outcome with
    | ok value =>
      cases ran
      exact effect
    | error halt =>
      dsimp only at ran
      split at ran
      · rename_i cancelled
        rcases effect with ⟨_,still⟩ | ⟨impossible | impossible,_⟩
        · rw [run_bind] at ran
          cases recovered : recoverUnlocked c middle with
          | mk outcome last =>
            rw [recovered] at ran
            cases outcome with
            | ok done =>
              cases ran
              obtain ⟨same,closed⟩ := (recover_spec c contents).ok still recovered
              exact .inl ⟨by simp,by rw [effective_none closed,same]⟩
            | error halt =>
              cases ran
              exact .inl ⟨by simp,(recover_spec c contents).error still recovered⟩
        · cases impossible
        · cases impossible
          cases cancelled.1
      · cases ran
        exact effect

theorem run_transact {request : LocalWriteCommitter.Request env}
    (ran : LocalWriteCommitter.transact env request c transactionId evidence start = (result,after)) :
    (∃ halt, result = .error halt ∧
        transaction c false transactionId (LocalWriteCommitter.script env request evidence).body start = (.error halt,after)) ∨
      ∃ preimages inside, openTransaction c start = (.ok preimages,inside) ∧
        result = .ok (LocalWriteCommitter.decided env request evidence inside.state.targets) ∧
        transaction c false transactionId (LocalWriteCommitter.script env request evidence).body start = (.ok (),after) := by
  unfold LocalWriteCommitter.transact at ran
  unfold transaction
  rw [run_bind] at ran ⊢
  cases opening : openTransaction c start with
  | mk outcome inside =>
    rw [opening] at ran
    cases outcome with
    | error halt =>
      cases ran
      exact .inl ⟨halt,rfl,rfl⟩
    | ok preimages =>
      dsimp only at ran ⊢
      have looked : (current : Act Disk Disk) inside = (.ok inside.state,inside) := rfl
      rw [run_bind,looked] at ran
      dsimp only at ran
      rw [run_bind] at ran
      cases closing : closeTransaction c false transactionId (LocalWriteCommitter.script env request evidence).body preimages inside with
      | mk outcome last =>
        rw [closing] at ran
        cases outcome with
        | error halt =>
          cases ran
          exact .inl ⟨halt,rfl,rfl⟩
        | ok value =>
          cases ran
          exact .inr ⟨preimages,inside,rfl,rfl,rfl⟩

theorem commit_commits {committer : LocalWriteCommitter} {request : LocalWriteCommitter.Request env}
    {commit : LocalWriteCommitter.Commit} {contents ends : Contents}
    (plain : (GraphCall.commit committer request).Plain) (built : committer.evidence env request = some evidence)
    (decided : LocalWriteCommitter.scope env request evidence (contents "graph") (contents "evidence") (contents "cases")
      (contents "receipts") = some (some commit))
    (performed : (LocalWriteCommitter.write env commit).perform c contents = some ends) :
    ∃ changeset, Unbroken ((ChangeSet.codec env.lax true).dump changeset) ∧ Commits env changeset contents ends := by
  obtain ⟨graph,case,parsed,latest,fits,made,applied,_⟩ := scope_commit decided
  obtain ⟨graphAfter,historyAfter⟩ := write_performed performed
  exact ⟨commit.changeset,changeset_plain plain (evidence_id built) (latestCase_id latest) fits made,
    graph,commit.graph,parsed,applied,graphAfter,historyAfter⟩

theorem transact_effect {committer : LocalWriteCommitter} {request : LocalWriteCommitter.Request env}
    (settled : effective c disk = some contents) (plain : (GraphCall.commit committer request).Plain)
    (built : committer.evidence env request = some evidence)
    (calm : LateRollbackUndisturbed c false transactionId (LocalWriteCommitter.script env request evidence).body ⟨disk,schedule⟩ ∧
      CancelledEarly c false transactionId (LocalWriteCommitter.script env request evidence).body ⟨disk,schedule⟩)
    (ran : LocalWriteCommitter.transact env request c transactionId evidence ⟨disk,schedule⟩ = (result,after)) :
    (result ≠ .ok true ∧ effective c after.state = some contents) ∨
      ((result = .ok true ∨ result = .error .died) ∧ ∃ changeset ends, Unbroken ((ChangeSet.codec env.lax true).dump changeset) ∧
        Commits env changeset contents ends ∧ effective c after.state = some ends) := by
  obtain ⟨halt,rfl,ended⟩ | ⟨preimages,inside,opened,rfl,ended⟩ := run_transact ran
  · rcases transaction_effect settled calm.1 calm.2 ended with ⟨_,still⟩ | ⟨how,ends,performed,left⟩
    · exact .inl ⟨by simp,still⟩
    · rcases script_performed performed with ⟨_,rfl⟩ | ⟨commit,_,decided,written⟩
      · exact .inl ⟨by simp,left⟩
      · obtain ⟨changeset,clean,committed⟩ := commit_commits plain built decided written
        exact .inr ⟨.inr (by simpa using how),changeset,ends,clean,committed,left⟩
  · rcases transaction_effect settled calm.1 calm.2 ended with ⟨failed,_⟩ | ⟨_,ends,performed,left⟩
    · exact absurd rfl failed
    · rw [open_found settled opened]
      rcases script_performed performed with ⟨early,rfl⟩ | ⟨commit,done,decided,written⟩
      · exact .inl ⟨by simp [early],left⟩
      · obtain ⟨changeset,clean,committed⟩ := commit_commits plain built decided written
        exact .inr ⟨.inl (by rw [done]),changeset,ends,clean,committed,left⟩

theorem commit_effect {committer : LocalWriteCommitter} {request : LocalWriteCommitter.Request env}
    (settled : effective c disk = some contents) (plain : (GraphCall.commit committer request).Plain)
    (calm : ∀ rollbackBaseExceptions script, (GraphCall.commit committer request).opens c = some (rollbackBaseExceptions,script) →
      LateRollbackUndisturbed c rollbackBaseExceptions transactionId script.body ⟨disk,schedule⟩ ∧
        CancelledEarly c rollbackBaseExceptions transactionId script.body ⟨disk,schedule⟩)
    (ran : committer.commitSuccess env request c transactionId ⟨disk,schedule⟩ = (result,after)) :
    Effect env c contents result after.state := by
  unfold LocalWriteCommitter.commitSuccess at ran
  rw [run_bind] at ran
  have refused (same : ((.ok false,⟨disk,schedule⟩) : Except Halt Bool × World Disk) =
      committer.commit env request c transactionId ⟨disk,schedule⟩) : Effect env c contents result after.state := by
    rw [←same] at ran
    cases ran
    exact .inl ⟨by simp,settled⟩
  by_cases admitted : committer.admits env request = true
  · cases built : committer.evidence env request with
    | none =>
      apply refused
      unfold LocalWriteCommitter.commit
      simp only [admitted,built]
      rfl
    | some evidence =>
      have quiet := calm false (LocalWriteCommitter.script env request evidence) (by simp [GraphCall.opens,admitted,built])
      have shape : committer.commit env request c transactionId =
          handleException (LocalWriteCommitter.transact env request c transactionId evidence) (return false) := by
        unfold LocalWriteCommitter.commit
        simp only [admitted,built]
        rfl
      rw [shape,run_handleException] at ran
      cases first : LocalWriteCommitter.transact env request c transactionId evidence ⟨disk,schedule⟩ with
      | mk outcome last =>
        rw [first] at ran
        rcases transact_effect settled plain built quiet first with ⟨failed,still⟩ | ⟨how,done⟩
        · refine .inl ?_
          cases outcome with
          | ok value =>
            cases value with
            | true => exact absurd rfl failed
            | false =>
              cases ran
              exact ⟨by simp,still⟩
          | error halt =>
            cases halt <;> cases ran <;> exact ⟨by simp,still⟩
        · refine .inr ?_
          rcases how with rfl | rfl
          · cases ran
            exact ⟨.inl rfl,done⟩
          · cases ran
            exact ⟨.inr rfl,done⟩
  · apply refused
    unfold LocalWriteCommitter.commit
    simp only [Bool.not_eq_true] at admitted
    simp only [admitted]
    rfl

theorem turn_effect {turn : Turn env} (settled : effective c disk = some contents) (meets : turn.Meets c disk)
    (ran : turn.run c disk = (result,after)) : Effect env c contents result after.state := by
  obtain ⟨call,transactionId,schedule⟩ := turn
  obtain ⟨plain,calm⟩ := meets
  unfold Turn.run at ran
  cases call with
  | apply request =>
    have refused (shape : LocalChangeSetExecutor.apply env c transactionId request = throw .exception) :
        Effect env c contents result after.state := by
      rw [GraphCall.act,shape] at ran
      cases ran
      exact .inl ⟨by simp,settled⟩
    by_cases bound : LocalChangeSetExecutor.bindable c request.binding = true
    · cases ordered : LocalChangeSetExecutor.orderedEffects request.changeset request.createdCases request.resolvedCases with
      | none =>
        apply refused
        simp [LocalChangeSetExecutor.apply,bound,ordered]
      | some effects =>
        have quiet := calm request.binding.rollbackBaseExceptions (LocalChangeSetExecutor.script env request effects)
          (by simp [GraphCall.opens,bound,ordered])
        have shape : LocalChangeSetExecutor.apply env c transactionId request =
            LocalChangeSetExecutor.guardCancellation c request.binding.rollbackBaseExceptions
              (transaction c request.binding.rollbackBaseExceptions transactionId
                (LocalChangeSetExecutor.script env request effects).body) := by
          simp [LocalChangeSetExecutor.apply,bound,ordered]
        rw [GraphCall.act,shape] at ran
        exact guarded_effect (fun _ _ inner => transaction_commits settled quiet
          (fun ends performed => ⟨request.changeset,plain,apply_commits performed⟩) inner) ran
    · apply refused
      simp [LocalChangeSetExecutor.apply,bound]
  | graphApply changeset =>
    exact transaction_commits settled (calm false _ rfl) (fun ends performed => ⟨changeset,plain,graphApply_commits performed⟩) ran
  | commit committer request => exact commit_effect settled plain calm ran

theorem runs_settled (initialised : effective c start = some contents) (empty : Settled env initial contents)
    (reached : Runs env c start disk) : ∃ contents, effective c disk = some contents ∧ Settled env initial contents := by
  induction reached with
  | start => exact ⟨contents,initialised,empty⟩
  | @turn disk earlier turn meets ih =>
    obtain ⟨before,settled,kept⟩ := ih
    have effect := turn_effect settled meets (rfl : turn.run c disk = ((turn.run c disk).1,(turn.run c disk).2))
    rcases effect with ⟨_,same⟩ | ⟨_,changeset,ends,plain,commits,left⟩
    · exact ⟨before,same,kept⟩
    · exact ⟨ends,left,commits_settled kept plain commits⟩

end Steps

-- A graph as `initialize` leaves it, with no history yet.
structure Initialised (env : WriteEnv) (c : Coordinator) (initial : IntentGraph) (start : Disk) : Prop where
  closed : start.journal = none
  graph : start.targets "graph" = some (GraphStore.serializeGraph env.lax env.yaml initial)
  history : start.targets "history" = none
  version : initial.1.version = 0
  plain : Unbroken ((IntentGraph.codec env.lax).dump initial)

theorem initialised_settled (initialised : Initialised env c initial start) : Settled env initial start.targets := by
  obtain ⟨_,graph,history,version,plain⟩ := initialised
  refine ⟨initial,[],⟨?_,?_,rfl,version,rfl⟩,plain,by rw [history]; rfl⟩
  · rw [graph]
    exact GraphStore.parse_serialized env.lax env.yaml initial plain
  · rw [history]
    rfl

-- In every state the history replays to the stored graph, and a call that raises
-- has changed nothing.
theorem replay_agreement (initialised : Initialised env c initial start) (reached : Runs env c start disk) :
    ∃ contents graph changesets, effective c disk = some contents ∧ Replayed env initial contents graph changesets ∧
      ∀ turn : Turn env, turn.Meets c disk → ∀ halt after, turn.run c disk = (.error halt,after) → halt ≠ .died →
        effective c after.state = some contents := by
  obtain ⟨contents,settled,graph,changesets,replayed,_⟩ :=
    runs_settled (effective_none initialised.closed) (initialised_settled initialised) reached
  refine ⟨contents,graph,changesets,settled,replayed,?_⟩
  intro turn meets halt after ran alive
  rcases turn_effect settled meets ran with ⟨_,same⟩ | ⟨impossible | dead,_⟩
  · exact same
  · cases impossible
  · cases dead
    exact absurd rfl alive

def plainEnv : WriteEnv := ⟨canonicalOnly,Yaml.flow,Sha256.hexdigest,hexdigest_hex⟩

def freshGraph : IntentGraph := ⟨⟨"graph:fresh",0,"0.1.0",some "fresh",none,none,none,[],[],TypeRegistry.empty⟩,by decide⟩

def grownGraph : IntentGraph := ⟨⟨"graph:fresh",1,"0.1.0",some "fresh",none,none,none,[],[],TypeRegistry.empty⟩,by decide⟩

def freshDisk : Disk :=
  ⟨none,fun name => if name = "graph" then some (GraphStore.serializeGraph plainEnv.lax plainEnv.yaml freshGraph) else none,false⟩

-- A change set without a mutation; only the version grows.
def signedBy (actor : String) : ChangeSet :=
  ⟨⟨"changeset:signed",actor,⟨2026,1,6,9,30,0,0,some 0,by decide⟩,0,[],[],[],[],[],[],[],[],[],[],[],"approved"⟩,rfl⟩

def signedTurn (actor : String) : Turn plainEnv := ⟨.graphApply (signedBy actor),"",[]⟩

theorem fresh_graph : freshDisk.targets "graph" = some (GraphStore.serializeGraph plainEnv.lax plainEnv.yaml freshGraph) := by
  simp only [freshDisk,if_true]

theorem fresh_history : freshDisk.targets "history" = none := by simp [freshDisk]

theorem fresh_initialised : Initialised plainEnv runtimeCoordinator freshGraph freshDisk :=
  ⟨rfl,fresh_graph,fresh_history,rfl,by decide⟩

theorem signed_applied (actor : String) : Applier.applyChangeset freshGraph (signedBy actor) = .ok grownGraph :=
  Applier.applyChangeset_iff.mpr ⟨⟨rfl,rfl⟩,Applier.applied_iff.mpr ⟨[],[],⟨rfl,rfl,rfl,rfl,rfl,rfl⟩⟩⟩

def signedContents (actor : String) : Contents :=
  Script.put "history" (plainEnv.historyFrame (signedBy actor))
    (Script.put "graph" (GraphStore.serializeGraph plainEnv.lax plainEnv.yaml grownGraph) freshDisk.targets)

theorem signed_history (actor : String) :
    signedContents actor "history" = LedgerReader.append none ((ChangeSet.codec canonicalOnly true).dump (signedBy actor)) := by
  simp only [signedContents,Script.put,if_true,LedgerReader.append,Option.getD_none,List.nil_append,WriteEnv.historyFrame,plainEnv]

theorem signed_performed (actor : String) :
    (GraphStore.applyScript plainEnv (signedBy actor)).perform runtimeCoordinator freshDisk.targets = some (signedContents actor) := by
  have parsed : (freshDisk.targets "graph").bind (GraphStore.parseGraph plainEnv.lax plainEnv.yaml) = some freshGraph := by
    rw [fresh_graph,Option.bind_some]
    exact GraphStore.parse_serialized plainEnv.lax plainEnv.yaml freshGraph fresh_initialised.plain
  have graph : "graph" ∈ runtimeCoordinator.targets := by decide
  have history : "history" ∈ runtimeCoordinator.targets := by decide
  simp only [GraphStore.applyScript,Script.perform,if_pos graph,LocalChangeSetExecutor.applyTo,parsed,signed_applied,
    LocalChangeSetExecutor.writeGraph,if_pos history,Option.bind_some]
  have absent : Script.put "graph" (GraphStore.serializeGraph plainEnv.lax plainEnv.yaml grownGraph) freshDisk.targets "history" = none :=
    (if_neg (by decide)).trans fresh_history
  simp only [absent,Option.getD_none,List.nil_append,signedContents]

theorem signed_left (actor : String) : ∃ after, (signedTurn actor).run runtimeCoordinator freshDisk = (.ok (),⟨after,[]⟩) ∧
    after.targets = signedContents actor ∧ after.journal = none :=
  transaction_calm (effective_none rfl) (signed_performed actor)

theorem signed_meets (plain : Unbroken ((ChangeSet.codec canonicalOnly true).dump (signedBy actor))) :
    (signedTurn actor).Meets runtimeCoordinator freshDisk := by
  refine ⟨plain,?_⟩
  rintro _ _ ⟨rfl,rfl⟩
  exact calm_conditions (effective_none rfl) (signed_performed actor)

theorem signed_replay :
    ∃ contents graph changesets,
      effective runtimeCoordinator ((signedTurn "agent").run runtimeCoordinator freshDisk).2.state = some contents ∧
        Replayed plainEnv freshGraph contents graph changesets := by
  have reached : Runs plainEnv runtimeCoordinator freshDisk ((signedTurn "agent").run runtimeCoordinator freshDisk).2.state :=
    .turn .start (signedTurn "agent") (signed_meets (by decide))
  obtain ⟨contents,graph,changesets,settled,replayed,_⟩ := replay_agreement fresh_initialised reached
  exact ⟨contents,graph,changesets,settled,replayed⟩

def separated : String := String.ofList ['a',Char.ofNat 0x2028]

theorem separated_broken : ¬Unbroken ((ChangeSet.codec canonicalOnly true).dump (signedBy separated)) := by decide

-- One accepted apply whose actor holds a line separator, with no fault at all:
-- the history cannot be read any more.
theorem separator_unreplayable :
    ¬ ∀ (env : WriteEnv) (c : Coordinator) (initial : IntentGraph) (start : Disk), Initialised env c initial start →
      ∀ (turn : Turn env) (after : World Disk), turn.run c start = (.ok (),after) →
        ∃ contents graph changesets, effective c after.state = some contents ∧ Replayed env initial contents graph changesets := by
  intro claim
  obtain ⟨after,ran,left,closed⟩ := signed_left separated
  obtain ⟨contents,graph,changesets,settled,replayed⟩ := claim _ _ _ _ fresh_initialised _ _ ran
  rw [effective_none closed,left] at settled
  cases settled
  obtain ⟨n,refused⟩ := (HistoryStore.reader canonicalOnly).read_append_torn (HistoryStore.reader canonicalOnly).read_none
    (HistoryStore.dump_changeset canonicalOnly (signedBy separated)) ((ChangeSet.codec canonicalOnly true).formed (signedBy separated))
    (fun both => separated_broken both.2.1) []
  rw [List.append_nil] at refused
  have read : (HistoryStore.reader canonicalOnly).read (signedContents separated "history") = .ok changesets := replayed.history
  rw [signed_history,LedgerReader.append,refused] at read
  cases read
