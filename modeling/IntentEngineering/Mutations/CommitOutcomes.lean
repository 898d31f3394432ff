import IntentEngineering.Mutations.CommitEffects
import IntentEngineering.Mutations.ExecutionAccounts
import IntentEngineering.Storage.TransactionCuts
import IntentEngineering.Stores.CaseLifecycle
import IntentEngineering.Stores.ReceiptFrames

open Schema Json JsonLines LocalTransaction Interrupt WriteExecutor

namespace LocalWriteCommitter

-- What one commit has read and made.
structure Resolution where
  graph : IntentGraph
  next : IntentGraph
  changeset : ChangeSet
  index : EvidenceIndex
  ingestion : EvidenceIngestion
  case : ReconciliationCase
  resolved : ReconciliationCase

section
variable (env : WriteEnv) (committer : LocalWriteCommitter) (request : Request env) (contents left : Contents)

-- The workspace behind a commit: the graph one version on, the change set that
-- made it in the history, the read-back evidence next in its connector's
-- ledger, the case resolved by that change set, and the receipt.
structure Durable (r : Resolution) : Prop where
  graph : (contents "graph").bind (GraphStore.parseGraph env.lax env.yaml) = some r.graph
  applied : Applier.applyWithCaseEffects r.graph r.changeset = .ok r.next
  version : r.changeset.1.baselineGraphVersion = r.graph.1.version ∧ r.next.1.version = r.graph.1.version + 1
  graphLeft : left "graph" = some (GraphStore.serializeGraph env.lax env.yaml r.next)
  historyLeft : left "history" = some ((contents "history").getD [] ++ env.historyFrame r.changeset)
  built : committer.evidence env request = some r.ingestion.evidence
  index : EvidenceStore.parseEvidenceLines env.lax (contents "evidence") = .ok r.index
  ingestion : r.ingestion.connectorId = connectorId env request ∧
    r.ingestion.sequence = (r.index.ledger (connectorId env request)).length + 1 ∧
    r.ingestion.predecessorId = EvidenceIndex.predecessor (r.index.ledger (connectorId env request)) r.ingestion.evidence
  evidenceLeft : left "evidence" = some ((contents "evidence").getD [] ++
    Utf8.encode (JsonLines.frame ((EvidenceIngestion.codec env.lax).dump r.ingestion)))
  case : latestCase env (contents "cases") request.plan.1.caseId = some (some r.case) ∧ r.case.status = .needsHuman
  follows : ∃ s index, CaseStore.parseVersions env.lax (contents "cases") = .ok s ∧
    CaseStore.recordVersion env.lax true s.index r.resolved = .ok (index,true)
  resolved : r.resolved.id = request.plan.1.caseId ∧ r.resolved.status = .resolved ∧
    r.resolved.resolvedByChangeset = some r.changeset.1.id
  casesLeft : left "cases" = some ((contents "cases").getD [] ++
    Utf8.encode (JsonLines.frame ((ReconciliationCase.codec env.lax).dump r.resolved)))
  receiptLeft : left "receipts" = some ((contents "receipts").getD [] ++
    ByteFrames.serialize (receiptCodec env.lax env.sha256) (.inr request.receipt))
  others : ∀ name ∉ ["graph","history","evidence","cases","receipts"], left name = contents name

end

variable {env : WriteEnv} {committer : LocalWriteCommitter} {request : Request env} {contents left : Contents} {c : Coordinator}

theorem evidence_appended {evidence : EvidenceRecord} (appended : evidenceAppend env request content evidence = some bytes) :
    ∃ index ingestion, EvidenceStore.parseEvidenceLines env.lax content = .ok index ∧ ingestion.evidence = evidence ∧
      (ingestion.connectorId = connectorId env request ∧ ingestion.sequence = (index.ledger (connectorId env request)).length + 1 ∧
        ingestion.predecessorId = EvidenceIndex.predecessor (index.ledger (connectorId env request)) evidence) ∧
      bytes = Utf8.encode (JsonLines.frame ((EvidenceIngestion.codec env.lax).dump ingestion)) := by
  unfold evidenceAppend at appended
  split at appended
  · cases appended
  · rename_i index parsed
    split at appended
    · cases appended
    · dsimp only at appended
      split at appended
      · cases appended
        exact ⟨index,_,parsed,rfl,⟨rfl,rfl,rfl⟩,rfl⟩
      · cases appended

theorem case_appended (appended : CaseStore.validateCaseAppends lax content [resolved] = .ok bytes) :
    ∃ s index, CaseStore.parseVersions lax content = .ok s ∧ CaseStore.recordVersion lax true s.index resolved = .ok (index,true) ∧
      bytes = Utf8.encode (JsonLines.frame ((ReconciliationCase.codec lax).dump resolved)) := by
  unfold CaseStore.validateCaseAppends at appended
  split at appended
  · cases appended
  · rename_i s parsed
    split at appended
    · cases appended
    · rename_i index validated
      cases appended
      simp only [CaseStore.validateAll] at validated
      cases taken : CaseStore.recordVersion lax false s.index resolved with
      | error e => simp [taken] at validated
      | ok found =>
        obtain ⟨index,added⟩ := found
        cases CaseStore.recordVersion_added taken (.inl rfl)
        exact ⟨s,index,parsed,CaseStore.recordVersion_strict lax taken,by simp⟩

theorem transition_resolved {case next : ReconciliationCase} {action : Option ResolutionAction}
    (moved : case.transition .resolved actor at' action changesetId = some next) : next.resolvedByChangeset = changesetId := by
  unfold ReconciliationCase.transition at moved
  split at moved
  · cases moved
  · split at moved
    · cases moved
    · split at moved
      · obtain ⟨_,_,_,_,_,changeset⟩ := ReconciliationCase.withLifecycle_kept moved
        rw [changeset,if_pos rfl]
      · cases moved

theorem decides_durable {evidence : EvidenceRecord} {commit : Commit} (decides : Decides env committer request contents evidence commit) :
    ∃ r, Durable env committer request contents (written env contents commit) r := by
  have found := decides.scope
  unfold scope at found
  obtain ⟨graph,parsed,found⟩ := Option.bind_eq_some_iff.mp found
  obtain ⟨_,_,found⟩ := Option.bind_eq_some_iff.mp found
  split at found
  · cases found
  obtain ⟨case,latest,found⟩ := Option.bind_eq_some_iff.mp found
  cases case with
  | none => cases found
  | some case =>
    dsimp only at found
    split at found
    · cases found
    rename_i fits
    obtain ⟨changeset,_,found⟩ := Option.bind_eq_some_iff.mp found
    obtain ⟨resolved,moved,found⟩ := Option.bind_eq_some_iff.mp found
    obtain ⟨next,applied,found⟩ := Option.bind_eq_some_iff.mp found
    split at found
    · cases found
    obtain ⟨caseAppend,cases',found⟩ := Option.bind_eq_some_iff.mp found
    obtain ⟨evidenceAppend,evidenced,found⟩ := Option.bind_eq_some_iff.mp found
    obtain ⟨receiptAppend,completed,found⟩ := Option.bind_eq_some_iff.mp found
    split at found
    · cases found
    rename_i fresh
    cases found
    obtain ⟨index,ingestion,indexed,rfl,placed,evidenceFrame⟩ := evidence_appended evidenced
    obtain ⟨s,newest,versions,taken,caseFrame⟩ := case_appended (toOption_some cases')
    have receiptFrame : receiptAppend = ByteFrames.serialize (receiptCodec env.lax env.sha256) (.inr request.receipt) := by
      have valid := toOption_some completed
      cases read : ReceiptStore.decode env.lax env.sha256 (contents "receipts") with
      | none => simp [ReceiptStore.validateReceiptCompletion,read] at valid
      | some s => exact (ReceiptStore.completion_taken read valid fresh).2
    simp only [fitsCase,Bool.not_eq_true',Bool.not_eq_false,Bool.and_eq_true,decide_eq_true_eq] at fits
    obtain ⟨same,_,_,_,reached⟩ := ReconciliationCase.transition_kept moved
    refine ⟨⟨graph,next,changeset,index,ingestion,case,resolved⟩,?_⟩
    exact {
      graph := parsed
      applied := toOption_some applied
      version := Applier.applied_version (toOption_some applied)
      graphLeft := by simp [written,Script.put]
      historyLeft := by simp [written,Script.put]
      built := decides.built
      index := indexed
      ingestion := placed
      evidenceLeft := by simp [written,Script.put,evidenceFrame]
      case := ⟨latest,fits.1.1.1⟩
      follows := ⟨s,newest,versions,taken⟩
      resolved := ⟨same.trans (latestCase_id latest),reached,transition_resolved moved⟩
      casesLeft := by simp [written,Script.put,caseFrame]
      receiptLeft := by simp [written,Script.put,receiptFrame]
      others := by
        intro name other
        simp only [List.mem_cons,List.not_mem_nil,or_false,not_or] at other
        simp [written,Script.put,other]}

theorem commit_outcome (settled : effective c disk = some contents)
    (whole : RestoresWhole env c committer request transactionId ⟨disk,schedule⟩)
    (ran : committer.commitSuccess env request c transactionId ⟨disk,schedule⟩ = (result,after)) :
    ∃ left, effective c after.state = some left ∧
      ((result ≠ .ok () ∧ left = contents) ∨ ∃ r, Durable env committer request contents left r) := by
  obtain ⟨left,there,nothing | ⟨evidence,commit,decides,rfl⟩⟩ := commit_settles settled whole ran
  · exact ⟨left,there,.inl nothing⟩
  · exact ⟨_,there,.inr (decides_durable decides)⟩

-- Any order of commits, each with committer, request and faults of its own. A
-- step may be held to a condition; a case goes on record when its ledger moves.
inductive Commits (env : WriteEnv) (c : Coordinator)
    (meets : LocalWriteCommitter → Request env → String → World Disk → Prop) (start : Disk) : List String → Disk → Prop where
  | start : Commits env c meets start [] start
  | commit {committer : LocalWriteCommitter} {request : Request env} {transactionId : String} {schedule : List (Option Fault)}
      (earlier : Commits env c meets start resolved disk)
      (met : meets committer request transactionId ⟨disk,schedule⟩)
      (ran : committer.commitSuccess env request c transactionId ⟨disk,schedule⟩ = (result,after)) :
      Commits env c meets start
        (if (effective c after.state).map (fun contents => contents "cases") = (effective c disk).map (fun contents => contents "cases")
          then resolved else resolved ++ [request.plan.1.caseId]) after.state

-- The workspace after a run: one whole commit behind the other.
inductive Resolved (env : WriteEnv) (initial : Contents) : List String → Contents → Prop where
  | start : Resolved env initial [] initial
  | commit {committer : LocalWriteCommitter} {request : Request env} {contents left : Contents} {r : Resolution}
      (earlier : Resolved env initial resolved contents) (durable : Durable env committer request contents left r) :
      Resolved env initial (resolved ++ [request.plan.1.caseId]) left

theorem durable_moves {r : Resolution} (durable : Durable env committer request contents left r) : left "cases" ≠ contents "cases" := by
  intro same
  have length := congrArg (fun content : Option Utf8.Bytes => (content.getD []).length) (durable.casesLeft.symm.trans same)
  have filled : Utf8.encode (JsonLines.frame ((ReconciliationCase.codec env.lax).dump r.resolved)) ≠ [] := by
    intro none
    have read := Utf8.decode_encode (JsonLines.frame ((ReconciliationCase.codec env.lax).dump r.resolved))
    rw [none] at read
    have empty := (Option.some.inj read).symm
    simp [JsonLines.frame] at empty
  have positive := List.length_pos_iff.mpr filled
  simp only [Option.getD_some,List.length_append] at length
  omega

theorem commits_resolved {initial : Contents} (settled : effective c start = some initial)
    (ran : Commits env c (RestoresWhole env c) start resolved disk) :
    ∃ left, effective c disk = some left ∧ Resolved env initial resolved left := by
  induction ran with
  | start => exact ⟨initial,settled,.start⟩
  | commit earlier met ran ih =>
    obtain ⟨contents,before,held⟩ := ih
    obtain ⟨left,there,⟨_,rfl⟩ | ⟨r,durable⟩⟩ := commit_outcome before met ran
    · refine ⟨left,there,?_⟩
      rwa [if_pos (by rw [there,before])]
    · refine ⟨left,there,?_⟩
      rw [if_neg (by
        rw [there,before]
        exact fun same => durable_moves durable (Option.some.inj same))]
      exact .commit held durable

-- Wherever the case ledger still reads, the case is not open to a commit.
def Closed (env : WriteEnv) (c : Coordinator) (disk : Disk) (caseId : String) : Prop :=
  ∀ contents, effective c disk = some contents → ∀ s, CaseStore.parseVersions env.lax (contents "cases") = .ok s →
    ∃ case, s.versions.reverse.find? (fun case => case.id == caseId) = some case ∧ case.status ≠ .needsHuman

-- Behind any content that reads, a version that the check takes is read as the
-- last one, or nothing is read.
theorem appended_version (read : CaseStore.parseVersions lax content = .ok s)
    (taken : CaseStore.recordVersion lax true s.index case = .ok (index,added))
    (got : CaseStore.parseVersions lax (LedgerReader.append content ((ReconciliationCase.codec lax).dump case)) = .ok s') :
    s'.versions = s.versions ++ [case] := by
  have object := (CaseStore.dump_case lax case).imp fun _ found => found.1
  have formed := (ReconciliationCase.codec lax).formed case
  by_cases good : Blank (LedgerReader.pending content) ∧ (CaseStore.reader lax).Legible ((ReconciliationCase.codec lax).dump case)
  · obtain ⟨n,shown,grown⟩ := (CaseStore.reader lax).read_append read object formed good.1 good.2
    have same := grown.trans (CaseStore.record_case lax s taken n)
    rw [CaseStore.parseVersions,same] at got
    cases got
    rfl
  · obtain ⟨n,refused⟩ := (CaseStore.reader lax).read_append_torn read object formed good []
    rw [List.append_nil] at refused
    rw [CaseStore.parseVersions,LedgerReader.append,refused] at got
    cases got

-- What a commit that moves the case ledger has found and left there.
theorem durable_cases {ends : Contents} {r : Resolution} (durable : Durable env committer request contents ends r) :
    ∃ s, CaseStore.parseVersions env.lax (contents "cases") = .ok s ∧
      s.versions.reverse.find? (fun case => case.id == request.plan.1.caseId) = some r.case ∧ r.case.status = .needsHuman ∧
      ∀ s', CaseStore.parseVersions env.lax (ends "cases") = .ok s' → s'.versions = s.versions ++ [r.resolved] := by
  obtain ⟨s,index,read,taken⟩ := durable.follows
  refine ⟨s,read,?_,durable.case.2,?_⟩
  · have latest := durable.case.1
    simp only [latestCase,CaseStore.parseCaseVersions,read,Except.map,Option.some.injEq] at latest
    exact latest
  · intro s' got
    rw [durable.casesLeft] at got
    exact appended_version read taken got

theorem closed_step {schedule : List (Option Fault)} (closed : Closed env c disk caseId)
    (ran : committer.commitSuccess env request c transactionId ⟨disk,schedule⟩ = (result,after)) : Closed env c after.state caseId := by
  cases settled : effective c disk with
  | none =>
    intro left there
    rw [(commit_refused settled ran).2] at there
    cases there
  | some contents =>
    obtain ⟨left,there,outcome⟩ := commit_pointwise settled ran
    intro found there'
    rw [there] at there'
    cases there'
    rcases outcome with ⟨_,rfl⟩ | ⟨evidence,commit,decides,mixed,_⟩
    · exact closed _ settled
    · rcases mixed "cases" with same | moved
      · rw [same]
        exact closed _ settled
      · intro s' got
        obtain ⟨r,durable⟩ := decides_durable decides
        obtain ⟨s,read,_,_,grown⟩ := durable_cases durable
        rw [moved] at got
        rw [grown s' got,List.reverse_append,List.reverse_singleton,List.singleton_append,List.find?_cons]
        by_cases same : r.resolved.id = caseId
        · refine ⟨r.resolved,by simp [same],?_⟩
          rw [durable.resolved.2.1]
          decide
        · have other : (r.resolved.id == caseId) = false := by simp [same]
          rw [other]
          exact closed _ settled s read

-- A commit moves the case ledger only for a case that is open to it, and closes
-- the case.
theorem moved_step {schedule : List (Option Fault)}
    (moved : (effective c after.state).map (fun contents => contents "cases") ≠ (effective c disk).map (fun contents => contents "cases"))
    (ran : committer.commitSuccess env request c transactionId ⟨disk,schedule⟩ = (result,after)) :
    ¬Closed env c disk request.plan.1.caseId ∧ Closed env c after.state request.plan.1.caseId := by
  cases settled : effective c disk with
  | none =>
    rw [settled,(commit_refused settled ran).2] at moved
    exact absurd rfl moved
  | some contents =>
    obtain ⟨left,there,⟨_,rfl⟩ | ⟨evidence,commit,decides,mixed,_⟩⟩ := commit_pointwise settled ran
    · rw [settled,there] at moved
      exact absurd rfl moved
    obtain ⟨r,durable⟩ := decides_durable decides
    obtain ⟨s,read,latest,waiting,grown⟩ := durable_cases durable
    refine ⟨?_,?_⟩
    · intro closed
      obtain ⟨case,found,other⟩ := closed contents settled s read
      rw [latest] at found
      cases found
      exact other waiting
    · have written : left "cases" = written env contents commit "cases" := by
        rcases mixed "cases" with same | moved'
        · rw [settled,there] at moved
          exact absurd (congrArg some same) moved
        · exact moved'
      intro found there' s' got
      rw [there] at there'
      cases there'
      rw [written] at got
      refine ⟨r.resolved,?_,?_⟩
      · rw [grown s' got,List.reverse_append,List.reverse_singleton,List.singleton_append,List.find?_cons]
        simp [durable.resolved.1]
      · rw [durable.resolved.2.1]
        decide

theorem commits_once {meets : LocalWriteCommitter → Request env → String → World Disk → Prop}
    (ran : Commits env c meets start resolved disk) : resolved.Nodup ∧ ∀ caseId ∈ resolved, Closed env c disk caseId := by
  induction ran with
  | start => exact ⟨.nil,fun _ member => absurd member List.not_mem_nil⟩
  | commit earlier met ran ih =>
    obtain ⟨once,closed⟩ := ih
    have kept := fun caseId member => closed_step (closed caseId member) ran
    split
    · exact ⟨once,kept⟩
    · rename_i moved
      obtain ⟨waiting,shut⟩ := moved_step moved ran
      refine ⟨List.nodup_append.mpr ⟨once,List.nodup_singleton _,?_⟩,?_⟩
      · intro caseId member other new same
        rw [List.mem_singleton.mp new] at same
        rw [same] at member
        exact waiting (closed _ member)
      · intro caseId member
        rcases List.mem_append.mp member with old | new
        · exact kept caseId old
        · rw [List.mem_singleton.mp new]
          exact shut

section Issue
variable (env : WriteEnv)

-- The write of the issue, read back as the plan says.
def issueVerified : WriteResult := ⟨"4",⟨verified,by decide⟩,version_named⟩

theorem receipt_sealed (r : ReceiptDraft) (id : String) : ({ r with id := id } : ReceiptDraft).material env.lax = r.material env.lax := by
  change Json.obj (((ReceiptDraft.fields env.lax).dump _).filter fun m => m.1 != "id") =
    Json.obj (((ReceiptDraft.fields env.lax).dump _).filter fun m => m.1 != "id")
  simp (disch := decide) only [ReceiptDraft.fields,Fields.required,Fields.defaulted,kept_push,skipped_push]

def issueReceiptDraft : ReceiptDraft :=
  let draft := withEvidence env ((issueJob env false).unsigned .succeeded (some "4") none)
  { draft with id := receiptId env draft }

theorem issue_attempt (env : WriteEnv) :
    (withEvidence env ((issueJob env false).unsigned .succeeded (some "4") none)).planId = (issuePlan env false).1.id ∧
      (withEvidence env ((issueJob env false).unsigned .succeeded (some "4") none)).approvalId = (issueApproval env false false).1.id :=
  ⟨rfl,rfl⟩

theorem issue_receipt_valid : (issueReceiptDraft env).validateReceipt env.lax env.sha256 = true := by
  have texts : mutationText "3" = true ∧ mutationText "bob" = true ∧ mutationText "4" = true := by decide
  have shape (draft : ReceiptDraft) : receiptId env draft = "receipt:sha256:" ++ env.sha256 (Utf8.encode (Json.text (draft.material env.lax))) := by
    rw [receiptId,canonicalHash,←String.append_assoc]
    rfl
  have named (draft : ReceiptDraft) :
      isWriteEvidenceId ("evidence:mcp-write:" ++ String.ofList ((receiptId env draft).toList.drop "receipt:sha256:".length)) = true := by
    rw [shape,String.toList_append]
    rw [←String.length_toList,List.drop_left,String.ofList_toList]
    exact hashed env "evidence:mcp-write:" _
  have receipt (draft : ReceiptDraft) : isReceiptId (receiptId env draft) = true := by
    rw [shape]
    exact hashed env "receipt:sha256:" _
  have plan : isPlanId (issuePlan env false).1.id = true := hashed_plan env _
  have planHash : isHash (env.planHash (issuePlan env false)) = true := hashed env "sha256:" _
  have approval : isApprovalId (issueApproval env false false).1.id = true := hashed_approval env _
  have cited : (issueReceiptDraft env).evidenceRef.all isWriteEvidenceId = true := by
    have shape : (issueReceiptDraft env).evidenceRef = some ("evidence:mcp-write:" ++ String.ofList
        ((receiptId env ((issueJob env false).unsigned .succeeded (some "4") none)).toList.drop "receipt:sha256:".length)) := rfl
    rw [shape,Option.all_some]
    exact named _
  simp only [ReceiptDraft.validateReceipt,Bool.and_eq_true]
  refine ⟨⟨⟨⟨⟨⟨⟨⟨⟨⟨receipt _,plan⟩,planHash⟩,approval⟩,texts.1⟩,texts.2.1⟩,texts.2.2⟩,cited⟩,?_⟩,?_⟩,rfl⟩
  · rw [issueReceiptDraft,receipt_sealed]
    exact beq_self_eq_true _
  · exact decide_eq_true (le_refl _)

def issueReceipt : env.Receipt := ⟨issueReceiptDraft env,issue_receipt_valid env⟩

def issueCommit : Request env := ⟨issueReceipt env,issuePlan env false,issueApproval env false false,issueVerified⟩

theorem issue_commit_admitted : issueCommitter.admits env (issueCommit env) = true := by
  have redacted : Json.equal (.obj issueVerified.redactedResult.1) (.obj verified) = true := by decide
  have executors : ["bob"].contains "bob" = true := by decide
  have created : (morning 0).1.same (morning 0).1 = true ∧ (morning 15).1.same (morning 15).1 = true := by decide
  have window : (granted false).1.instant ≤ (morning 7).1.instant ∧ (morning 7).1.instant < (lapsing false).1.instant := by decide
  have authenticated := issue_authenticated env false ["alice"] ["bob"] issue_known (by decide) (by decide)
  have found : issueProfile.writes.get "update_issue" = some issueOperation := by simp [Named.get,issueProfile]
  have tool : issueBinding.tools.get "update_issue" = some "update" := by decide
  have contract := issue_contract env
  have bound : (issuePlan env false).1.bindingHash = providerBindingHash env.sha256 issueBinding := rfl
  simp only [admits,Bool.and_eq_true]
  refine ⟨⟨⟨⟨⟨⟨⟨⟨⟨⟨⟨⟨⟨⟨⟨⟨⟨⟨⟨⟨rfl,beq_self_eq_true _⟩,beq_self_eq_true _⟩,beq_self_eq_true _⟩,beq_self_eq_true _⟩,beq_self_eq_true _⟩,redacted⟩,
    beq_self_eq_true _⟩,beq_self_eq_true _⟩,beq_self_eq_true _⟩,beq_self_eq_true _⟩,created.1⟩,created.2⟩,executors⟩,?_⟩,
    decide_eq_true window.1⟩,decide_eq_true window.2⟩,beq_self_eq_true _⟩,beq_self_eq_true _⟩,beq_iff_eq.mpr bound.symm⟩,?_⟩
  · exact beq_iff_eq.mpr authenticated
  · have named : (issuePlan env false).1.operation = "update_issue" := rfl
    have spelled : ("tracker:ISSUE-7" == "tracker" ++ ":" ++ "ISSUE-7") = true := by decide
    simp only [issueCommit,issueCommitter,named,found,tool,contract,Bool.and_eq_true]
    exact ⟨⟨⟨beq_self_eq_true _,spelled⟩,beq_self_eq_true _⟩,beq_self_eq_true _⟩

theorem issue_evidence_built : ∃ evidence, issueCommitter.evidence env (issueCommit env) = some evidence := by
  obtain ⟨ref,cited⟩ : ∃ ref, (issueCommit env).receipt.1.evidenceRef = some ref := ⟨_,rfl⟩
  have versioned : (issueCommit env).receipt.1.resultingVersion = some "4" := rfl
  simp only [evidence,cited,versioned]
  exact ⟨_,rfl⟩

-- The node the case is about.
def issueNode : Node :=
  ⟨"tracker:ISSUE-7","REQUIREMENT","issue","active","alice",(morning 0).1,"alice",(morning 0).1,none,none,none,none,none,[]⟩

def issueGraph : IntentGraph := ⟨⟨"graph:1",0,"0.1.0",none,none,none,none,[issueNode],[],TypeRegistry.empty⟩,by decide +kernel⟩

-- What the case rests on.
def issueCited : EvidenceRecord :=
  ⟨"evidence:1","markdown","notes.md","1",some "carol",(morning 0).1,"notes.md","sha256:1",⟨[],empty_formed⟩,none,["bob"]⟩

def issueClaim : ExecutionClaim :=
  ⟨(issuePlan env false).1.id,(issueApproval env false false).1.id,"bob",morning 7,issue_identified env false⟩

def issueContents : Contents := fun name =>
  if name = "graph" then some (GraphStore.serializeGraph env.lax env.yaml issueGraph)
  else if name = "evidence" then LedgerReader.append none ((EvidenceEntry.legacy issueCited).dump env.lax)
  else if name = "cases" then LedgerReader.append none ((ReconciliationCase.codec env.lax).dump issueCase)
  else if name = "receipts" then some (ByteFrames.serialize (receiptCodec env.lax env.sha256) (.inl (issueClaim env)))
  else none

theorem issue_graph_unbroken : Unbroken ((IntentGraph.codec env.lax).dump issueGraph) := by
  have node : (Node.codec env.lax).dump issueNode = (Node.codec canonicalOnly).dump issueNode := rfl
  have shape : (IntentGraph.codec env.lax).dump issueGraph = .obj [
      ("created_at",.null),("edges",.arr []),("id",.str "graph:1"),("name",.null),("nodes",.arr [(Node.codec env.lax).dump issueNode]),
      ("purpose",.null),("schema_version",.str "0.1.0"),("source_spec",.null),("type_registry",.obj [("extensions",.arr [])]),
      ("version",.int 0)] := rfl
  rw [shape,node]
  decide

theorem issue_graph_read : (issueContents env "graph").bind (GraphStore.parseGraph env.lax env.yaml) = some issueGraph := by
  have shape : issueContents env "graph" = some (GraphStore.serializeGraph env.lax env.yaml issueGraph) := by
    simp [issueContents]
  rw [shape,Option.bind_some]
  exact GraphStore.parse_serialized env.lax env.yaml issueGraph (issue_graph_unbroken env)

theorem issue_evidence_read : EvidenceStore.parseEvidenceLines env.lax (issueContents env "evidence") = .ok ⟨[issueCited],[],["evidence:1"]⟩ := by
  have dumped : (EvidenceEntry.legacy issueCited).dump env.lax = (EvidenceEntry.legacy issueCited).dump canonicalOnly := rfl
  have plain : Unbroken ((EvidenceEntry.legacy issueCited).dump canonicalOnly) ∧
      allFinite ((EvidenceEntry.legacy issueCited).dump canonicalOnly) = true := by decide
  obtain ⟨n,shown,read⟩ := (EvidenceStore.reader env.lax).read_append (EvidenceStore.reader env.lax).read_none
    ((EvidenceStore.dump_entry env.lax (.legacy issueCited)).imp fun _ found => found.1) (EvidenceStore.formed_entry env.lax _)
    (by decide) (by
      rw [dumped]
      exact ⟨plain.1,.inr plain.2⟩)
  exact read.trans (EvidenceStore.record_entry env.lax .empty n (.legacy issueCited) rfl rfl)

theorem issue_cases_read : CaseStore.parseVersions env.lax (issueContents env "cases") =
    .ok ⟨[issueCase],CaseIndex.store ⟨[],[]⟩ issueCase⟩ := by
  have dumped : (ReconciliationCase.codec env.lax).dump issueCase = (ReconciliationCase.codec canonicalOnly).dump issueCase := rfl
  have plain : Unbroken ((ReconciliationCase.codec canonicalOnly).dump issueCase) ∧
      allFinite ((ReconciliationCase.codec canonicalOnly).dump issueCase) = true := by decide
  have taken : CaseStore.recordVersion env.lax true ⟨[],[]⟩ issueCase = .ok (CaseIndex.store ⟨[],[]⟩ issueCase,true) := rfl
  obtain ⟨n,shown,read⟩ := (CaseStore.reader env.lax).read_append (CaseStore.reader env.lax).read_none
    ((CaseStore.dump_case env.lax issueCase).imp fun _ found => found.1) ((ReconciliationCase.codec env.lax).formed issueCase)
    (by decide) (by
      rw [dumped]
      exact ⟨plain.1,.inr plain.2⟩)
  have recorded := CaseStore.record_case env.lax ⟨[],⟨[],[]⟩⟩ taken n
  exact read.trans recorded

theorem issue_receipts_read : ReceiptStore.decode env.lax env.sha256 (issueContents env "receipts") = some ⟨[issueClaim env],[]⟩ := by
  have shape : issueContents env "receipts" = some (ByteFrames.serialize (receiptCodec env.lax env.sha256) (.inl (issueClaim env))) := by
    simp [issueContents]
  let empty : ReceiptLedger env.lax env.sha256 := ⟨[],[]⟩
  have none : ReceiptStore.decode env.lax env.sha256 none = some empty := rfl
  have taken : ReceiptStore.record empty (.inl (issueClaim env)) = some ⟨[issueClaim env],[]⟩ :=
    (ReceiptStore.record_claim empty (issueClaim env)).mpr ⟨rfl,rfl,rfl⟩
  have grown := decode_grown none taken
  rw [shape]
  exact grown

def issueEvent : ClassificationEvent := ⟨"bob",(morning 7).1,.needsHuman,.resolved,by decide⟩

def issueResolved (changesetId : String) : ReconciliationCase :=
  {issueCase with
    status := .resolved
    resolution := some .updateImplementation
    resolvedByChangeset := some changesetId
    history := issueCase.history ++ [issueEvent]
    valid := ⟨by decide,by decide,by simp,by simp⟩}

theorem issue_resolves (changesetId : String) : issueCase.transition .resolved "bob" (morning 7).1 (some .updateImplementation)
    (some changesetId) = some (issueResolved changesetId) := by
  have allowed : ¬ ReconciliationStatus.resolved ∉ issueCase.status.allowedTransitions := by decide
  have complete : ¬ (ReconciliationStatus.resolved = .resolved ∧ (some ResolutionAction.updateImplementation = none ∨ some changesetId = none)) := by
    simp
  rw [ReconciliationCase.transition,if_neg allowed,if_neg complete,dif_pos (by decide)]
  exact dif_pos (issueResolved changesetId).valid

theorem issue_next_recorded (changesetId : String) : CaseStore.recordVersion env.lax false (CaseIndex.store ⟨[],[]⟩ issueCase)
    (issueResolved changesetId) = .ok ((CaseIndex.store ⟨[],[]⟩ issueCase).store (issueResolved changesetId),true) := by
  have identity : CaseStore.immutableIdentity env.lax (issueResolved changesetId) = CaseStore.immutableIdentity canonicalOnly issueCase := rfl
  have before : CaseStore.immutableIdentity env.lax issueCase = CaseStore.immutableIdentity canonicalOnly issueCase := rfl
  have same : Json.equal (CaseStore.immutableIdentity canonicalOnly issueCase) (CaseStore.immutableIdentity canonicalOnly issueCase) = true := by
    decide
  have owned : (CaseIndex.store ⟨[],[]⟩ issueCase).ownedElsewhere (issueResolved changesetId) = false := by rfl
  have latest : (CaseIndex.store ⟨[],[]⟩ issueCase).latestById.lookup (issueResolved changesetId).id = some issueCase := rfl
  have moved : issueCase.equal (issueResolved changesetId) = false := by
    have status : decide (issueCase.status = (issueResolved changesetId).status) = false := by rfl
    simp [ReconciliationCase.equal,status]
  have grown : CaseStore.extendsLifecycle issueCase (issueResolved changesetId) = true := by rfl
  have status : issueCase.status ≠ (issueResolved changesetId).status := nofun
  simp only [CaseStore.recordVersion,owned,latest,identity,before,same,moved,grown,Bool.false_eq_true,if_false,Bool.not_true,if_neg status]

theorem issue_mutations (evidence : EvidenceRecord) :
    (changesetDraft env (issueCommit env) issueGraph issueCase evidence).validateMutations = true := by rfl

def issueChangeset (evidence : EvidenceRecord) : ChangeSet :=
  ⟨changesetDraft env (issueCommit env) issueGraph issueCase evidence,issue_mutations env evidence⟩

theorem issue_changed (evidence : EvidenceRecord) :
    changeset env (issueCommit env) issueGraph issueCase evidence = some (issueChangeset env evidence) := by
  simp only [changeset,dif_pos (issue_mutations env evidence)]
  rfl

-- The graph one version on.
def issueNext : IntentGraph := ⟨⟨"graph:1",1,"0.1.0",none,none,none,none,[issueNode],[],TypeRegistry.empty⟩,by decide +kernel⟩

theorem issue_applied (evidence : EvidenceRecord) :
    Applier.applyWithCaseEffects issueGraph (issueChangeset env evidence) = .ok issueNext :=
  Applier.applied_iff.mpr ⟨[issueNode],[],⟨rfl,rfl,rfl,rfl,rfl,rfl⟩⟩

theorem issue_fits : fitsCase env (issueCommit env) issueCase = true := by rfl

theorem issue_latest : latestCase env (issueContents env "cases") "case:1" = some (some issueCase) := by
  have found : ([issueCase].reverse.find? fun case => case.id == "case:1") = some issueCase := rfl
  rw [latestCase,CaseStore.parseCaseVersions,issue_cases_read]
  exact congrArg some found

theorem issue_known_nodes (changesetId : String) : unknownToGraph issueNext (issueResolved changesetId) = false := by rfl

theorem issue_case_taken (changesetId : String) : CaseStore.validateCaseAppends env.lax (issueContents env "cases") [issueResolved changesetId] =
    .ok (Utf8.encode (frame ((ReconciliationCase.codec env.lax).dump (issueResolved changesetId)))) := by
  rw [CaseStore.validateCaseAppends,issue_cases_read]
  dsimp only
  rw [CaseStore.validateAll,issue_next_recorded]
  simp only [CaseStore.validateAll,List.map_cons,List.map_nil,List.flatMap_cons,List.flatMap_nil,List.append_nil]

theorem issue_evidence_taken (evidence : EvidenceRecord) (apart : evidence.id ≠ "evidence:1") : ∃ bytes,
    evidenceAppend env (issueCommit env) (issueContents env "evidence") evidence = some bytes := by
  have absent : EvidenceIndex.find ⟨[issueCited],[],["evidence:1"]⟩ evidence.id = none := by
    have other : (issueCited.id == evidence.id) = false := beq_eq_false_iff_ne.mpr apart.symm
    rw [EvidenceIndex.find,List.find?_cons,other]
    rfl
  have named : connectorText (connectorId env (issueCommit env)) = true := by
    have first : ("mcp-write:".toList.any fun c => !PyText.isPatternSpace c) = true := by decide
    rw [connectorText,connectorId,String.toList_append,List.any_append,first]
    rfl
  rw [evidenceAppend,issue_evidence_read]
  dsimp only
  rw [absent,Option.isSome_none,if_neg Bool.false_ne_true,dif_pos named]
  exact ⟨_,rfl⟩

theorem issue_receipt_taken : ReceiptStore.validateReceiptCompletion env.lax env.sha256 (issueContents env "receipts") (issueReceipt env) =
    .ok (ByteFrames.serialize (receiptCodec env.lax env.sha256) (.inr (issueReceipt env))) := by
  have key : (issueReceipt env).1.key = (issueClaim env).key := rfl
  have claimed : ReceiptLedger.claim (⟨[issueClaim env],[]⟩ : ReceiptLedger env.lax env.sha256) (issueReceipt env).1.key = some (issueClaim env) := by
    rw [ReceiptLedger.claim,key]
    exact List.find?_cons_of_pos (beq_self_eq_true _)
  have actor : (issueClaim env).actor = (issueReceipt env).1.executedBy := rfl
  have absent : ReceiptLedger.receipt (⟨[issueClaim env],[]⟩ : ReceiptLedger env.lax env.sha256) (issueReceipt env).1.key = none := rfl
  rw [ReceiptStore.validateReceiptCompletion,issue_receipts_read]
  dsimp only
  rw [claimed]
  dsimp only
  rw [if_neg (not_not_intro actor),absent]

theorem issue_decides : ∃ evidence commit, Decides env issueCommitter (issueCommit env) (issueContents env) evidence commit := by
  obtain ⟨evidence,built⟩ := issue_evidence_built env
  have apart : evidence.id ≠ "evidence:1" := by
    intro same
    have named := evidence_id built
    rw [same] at named
    revert named
    decide
  obtain ⟨evidenceFrame,evidenced⟩ := issue_evidence_taken env evidence apart
  have cited : (issueCommit env).plan.1.evidenceRefs.all (fun ref => (EvidenceIndex.find ⟨[issueCited],[],["evidence:1"]⟩ ref).isSome) = true := rfl
  have filled : ByteFrames.serialize (receiptCodec env.lax env.sha256) (.inr (issueReceipt env)) ≠ [] := by
    simp [ByteFrames.serialize,ByteFrames.frame_bytes]
  refine ⟨evidence,⟨issueChangeset env evidence,issueNext,
    Utf8.encode (frame ((ReconciliationCase.codec env.lax).dump (issueResolved (issueChangeset env evidence).1.id))),evidenceFrame,
    ByteFrames.serialize (receiptCodec env.lax env.sha256) (.inr (issueReceipt env))⟩,issue_commit_admitted env,built,?_⟩
  unfold scope
  refine Option.bind_eq_some_iff.mpr ⟨issueGraph,issue_graph_read env,?_⟩
  refine Option.bind_eq_some_iff.mpr ⟨_,congrArg Except.toOption (issue_evidence_read env),?_⟩
  rw [if_neg (by rw [cited]; decide)]
  refine Option.bind_eq_some_iff.mpr ⟨_,issue_latest env,?_⟩
  dsimp only
  rw [if_neg (by rw [issue_fits]; decide)]
  refine Option.bind_eq_some_iff.mpr ⟨_,issue_changed env evidence,?_⟩
  refine Option.bind_eq_some_iff.mpr ⟨_,issue_resolves _,?_⟩
  refine Option.bind_eq_some_iff.mpr ⟨_,congrArg Except.toOption (issue_applied env evidence),?_⟩
  rw [if_neg (by rw [issue_known_nodes]; decide)]
  refine Option.bind_eq_some_iff.mpr ⟨_,congrArg Except.toOption (issue_case_taken env _),?_⟩
  refine Option.bind_eq_some_iff.mpr ⟨_,evidenced,?_⟩
  refine Option.bind_eq_some_iff.mpr ⟨_,congrArg Except.toOption (issue_receipt_taken env),?_⟩
  rw [if_neg filled]
  rfl

def issueDisk : Disk := ⟨none,issueContents env,false⟩

theorem issue_settled : effective runtimeCoordinator (issueDisk env) = some (issueContents env) := effective_none rfl

theorem issue_performed {evidence : EvidenceRecord} {commit : Commit}
    (decides : Decides env issueCommitter (issueCommit env) (issueContents env) evidence commit) :
    (script env (issueCommit env) evidence).perform runtimeCoordinator (issueContents env) = some (written env (issueContents env) commit) := by
  have known : ∀ name ∈ ["graph","history","evidence","cases","receipts"], name ∈ runtimeCoordinator.targets := by decide
  obtain ⟨ends,performed⟩ : ∃ ends, (write env commit).perform runtimeCoordinator (issueContents env) = some ends := by
    simp only [write,Script.perform,if_pos (known "graph" (by decide)),if_pos (known "history" (by decide)),
      if_pos (known "evidence" (by decide)),if_pos (known "cases" (by decide)),if_pos (known "receipts" (by decide)),Option.bind_some]
    exact ⟨_,rfl⟩
  simp only [script,Script.perform,if_pos (known "graph" (by decide)),if_pos (known "evidence" (by decide)),
    if_pos (known "cases" (by decide)),if_pos (known "receipts" (by decide)),decides.scope]
  rw [performed,write_written performed]

-- Without faults the commit returns.
theorem issue_committed : ∃ after, issueCommitter.commitSuccess env (issueCommit env) runtimeCoordinator "" ⟨issueDisk env,[]⟩ = (.ok (),after) ∧
    RestoresWhole env runtimeCoordinator issueCommitter (issueCommit env) "" ⟨issueDisk env,[]⟩ := by
  obtain ⟨evidence,commit,decides⟩ := issue_decides env
  have performed := issue_performed env decides
  obtain ⟨calm,ran,_⟩ := transaction_calm (c := runtimeCoordinator) (issue_settled env) performed
  cases outcome : issueCommitter.commitSuccess env (issueCommit env) runtimeCoordinator "" ⟨issueDisk env,[]⟩ with
  | mk result after =>
    obtain ⟨ended,transacted,_,returned⟩ := commit_opened decides.admitted decides.built outcome
    have finished := transacted.symm.trans ran
    cases finished
    obtain ⟨preimages,inside,opened,rfl⟩ := returned rfl
    have decided : decided env (issueCommit env) evidence inside.state.targets = true := by
      rw [open_found (issue_settled env) opened]
      simp only [LocalWriteCommitter.decided,decides.scope]
    refine ⟨_,by rw [if_pos decided],?_⟩
    intro other built
    rw [decides.built] at built
    cases built
    exact (calm_conditions (issue_settled env) performed).1

end Issue

section Main
variable (env : WriteEnv) (c : Coordinator)

-- Where the rollbacks behind the commit marker run through, a commit makes all of
-- its effects durable or none, a run of commits is one whole commit behind the
-- other; and whatever the faults, no case is resolved twice.
theorem commit_all_or_none :
    (∀ (committer : LocalWriteCommitter) (request : Request env) transactionId disk schedule contents result after,
      effective c disk = some contents → RestoresWhole env c committer request transactionId ⟨disk,schedule⟩ →
      committer.commitSuccess env request c transactionId ⟨disk,schedule⟩ = (result,after) →
      ∃ left, effective c after.state = some left ∧
        ((result ≠ .ok () ∧ left = contents) ∨ ∃ r, Durable env committer request contents left r)) ∧
    (∀ start initial resolved disk, effective c start = some initial → Commits env c (RestoresWhole env c) start resolved disk →
      ∃ left, effective c disk = some left ∧ Resolved env initial resolved left) ∧
    ∀ start resolved disk, Commits env c (fun _ _ _ _ => True) start resolved disk → resolved.Nodup := by
  refine ⟨?_,?_,?_⟩
  · intro committer request transactionId disk schedule contents result after settled whole ran
    exact commit_outcome settled whole ran
  · intro start initial resolved disk settled ran
    exact commits_resolved settled ran
  · intro start resolved disk ran
    exact (commits_once ran).1

end Main

theorem issue_durable : ∃ after left r, issueCommitter.commitSuccess plainEnv (issueCommit plainEnv) runtimeCoordinator "" ⟨issueDisk plainEnv,[]⟩ =
      (.ok (),after) ∧ effective runtimeCoordinator after.state = some left ∧
    Durable plainEnv issueCommitter (issueCommit plainEnv) (issueContents plainEnv) left r := by
  obtain ⟨after,ran,whole⟩ := issue_committed plainEnv
  obtain ⟨left,there,⟨failed,_⟩ | ⟨r,durable⟩⟩ :=
    (commit_all_or_none plainEnv runtimeCoordinator).1 _ _ _ _ _ _ _ _ (issue_settled plainEnv) whole ran
  · exact absurd rfl failed
  · exact ⟨after,left,r,ran,there,durable⟩

-- A rollback that dies behind the commit marker: the case is open again, and the
-- graph has moved on.
theorem issue_half_committed :
    ¬ ∀ (env : WriteEnv) (c : Coordinator) (committer : LocalWriteCommitter) (request : Request env) (transactionId : String) (disk : Disk)
        (schedule : List (Option Fault)) (contents : Contents) (result : Except Halt Unit) (after : World Disk),
      effective c disk = some contents → committer.commitSuccess env request c transactionId ⟨disk,schedule⟩ = (result,after) →
      ∃ left, effective c after.state = some left ∧
        ((result ≠ .ok () ∧ left = contents) ∨ ∃ r, Durable env committer request contents left r) := by
  intro claim
  obtain ⟨evidence,commit,decides⟩ := issue_decides plainEnv
  have performed := issue_performed plainEnv decides
  have split : runtimeCoordinator.targets = ["approvals","cases"] ++ "evidence" :: runtimeCoordinator.targets.drop 3 := by decide
  obtain ⟨schedule,cut,ran,left⟩ := cut_rollback performed split false ""
  cases outcome : issueCommitter.commitSuccess plainEnv (issueCommit plainEnv) runtimeCoordinator "" ⟨issueDisk plainEnv,schedule⟩ with
  | mk result after =>
    obtain ⟨ended,transacted,_⟩ := commit_opened decides.admitted decides.built outcome
    have same := transacted.symm.trans ran
    cases same
    obtain ⟨found,there,whole⟩ := claim _ _ _ _ _ _ _ _ _ _ (issue_settled plainEnv) outcome
    rw [left] at there
    cases there
    rcases whole with ⟨_,untouched⟩ | ⟨r,durable⟩
    · have history := congrFun untouched "history"
      simp [written,Script.put,issueContents] at history
    · exact durable_moves durable (by simp)

end LocalWriteCommitter
