import IntentEngineering.Capture.CheckpointAgreement

namespace WorkspaceValidation

-- A checkpoint of what a connector has consumed, beside the ledger it was read from.
structure Stored (connectorId : String) (consumed : List EvidenceRecord) (cursor : Option (List Char)) (checkpoint : SyncCheckpoint)
    (s : EvidenceSnapshot) : Prop where
  own : checkpoint.connectorId = connectorId
  cursor : checkpoint.cursor = cursor
  ids : checkpoint.consumedEvidenceIds = consumed.map EvidenceRecord.id
  ledger : Matching connectorId consumed s

theorem checkpoints_accepted (host : Host) :
    (∀ (repository : {value : String // canonicalRepository value = true}) (c : GitHubConnector), GitHubConnector.Reached host repository c →
      ∀ supplied consumed cursor checkpoint s, (c.finalizeCheckpoint host supplied consumed).1 = .ok cursor →
        Stored c.connectorId consumed cursor checkpoint s →
        (checkpointDiagnostics host [checkpoint] s = .ok [] ↔
          (consumed = [] → ∀ state : GitHubCheckpoint, state.repository = repository → c.nextCursor = some state.encode →
            state.newestUpdatedAt = none ∧ state.newestCommitSha = none))) ∧
    (∀ (Selector : Type) (select : Selector → SourceValue → Option SourceValue) (m : McpConnector Selector) g discovered consumed cursor checkpoint s,
      (m.finalizeCheckpoint g discovered consumed).1 = .ok cursor → Stored m.connectorId consumed (some cursor) checkpoint s →
      (∀ r ∈ consumed, m.Captured host select r) → checkpointDiagnostics host [checkpoint] s = .ok []) ∧
    ∀ (c : GitHubConnector) (record : EvidenceRecord),
      c.scopedRecordKind host record = githubScopedRecordKind host record c.repository.1 ↔ Timely host record c.repository.1 := by
  refine ⟨?_,?_,kinds_agree host⟩
  · intro repository c reached supplied consumed cursor checkpoint s finalized stored
    rw [←stored.cursor] at finalized
    exact github_validated reached finalized stored.own stored.ids (stored.own ▸ stored.ledger)
  · intro Selector select m g discovered consumed cursor checkpoint s finalized stored captured
    exact mcp_validated finalized stored.cursor stored.own stored.ids (stored.own ▸ stored.ledger) captured

-- A machine that keeps UTC.
def utcHost : Host := ⟨extendedInterpreter,fun t => .ok (Moment.ofDateTime t).shown⟩

theorem notes_canonical : canonicalRepository "octocat/notes" = true := by decide
def notes : {value : String // canonicalRepository value = true} := ⟨"octocat/notes",notes_canonical⟩

theorem triage_time : DateTime.Valid 2026 1 2 12 0 0 0 (some 0) := by decide
def triaged : UtcTime := ⟨⟨2026,1,2,12,0,0,0,some 0,triage_time⟩,rfl⟩

def issuePayload (number : Int) : Json.Members :=
  [("kind",.str "issue"),("number",.int number),("repository",.str "octocat/notes"),("updated_at",.str "2026-01-02T12:00:00Z")]

theorem issue_formed : (Json.obj (issuePayload 7)).WellFormed := by decide

def issueRaw : RawSourceObject :=
  ⟨"github","github:octocat/notes:issue:7","2026-01-02T12:00:00Z",some "octocat",triaged.1,"https://github.com/octocat/notes/issues/7",
    "sha256:7",⟨issuePayload 7,issue_formed⟩,none,[]⟩

def issueRecord : EvidenceRecord := issueRaw.normalizeRawSource

def issueAnswers (endpoint : String) : EndpointResult := if endpoint = "issues" then .modified none [issueRaw] else .notModified

def issueCheckpoint : GitHubCheckpoint := ⟨notes,⟨⟨[],Named.unlisted⟩,GitHubCheckpoint.validateEtags_empty⟩,some triaged,none⟩

-- The connector once it has discovered one issue.
def issueConnector : GitHubConnector := ⟨notes,[issueRaw],[issueRaw.listed],some issueCheckpoint.encode,true,false⟩

theorem issue_discovered : (GitHubConnector.create notes).discover utcHost none issueAnswers = (.ok [issueRaw.listed],issueConnector) := by
  have cached : ((Generation.start (.initial notes)).run issueAnswers endpoints).discovered = [issueRaw.listed] := by
    have one : ((Generation.start (.initial notes)).run issueAnswers endpoints).cache = [issueRaw] := rfl
    rw [Generation.discovered,one]
    exact List.mergeSort_singleton _
  have built : GitHubCheckpoint.construct utcHost notes ((Generation.start (.initial notes)).run issueAnswers endpoints).named
      ((Generation.start (.initial notes)).run issueAnswers endpoints).newestUpdatedAt
      ((Generation.start (.initial notes)).run issueAnswers endpoints).newestCommitSha = .ok issueCheckpoint := rfl
  have idle : (GitHubConnector.create notes).checkpointPending = false := rfl
  have read : fixedFailure ((GitHubConnector.create notes).readCursor utcHost none) = .ok (.initial notes) := rfl
  have own : (GitHubConnector.create notes).repository = notes := rfl
  simp only [GitHubConnector.discover,idle,Bool.false_eq_true,if_false,read,own,cached,built,List.cons_ne_nil]
  rfl

theorem issue_reached : GitHubConnector.Reached utcHost notes issueConnector := by
  have step : GitHubConnector.Reached utcHost notes ((GitHubConnector.create notes).discover utcHost none issueAnswers).2 :=
    .discover .create none issueAnswers
  rwa [issue_discovered] at step

-- Nothing of the discovered generation was taken up.
def unconsumed : SyncCheckpoint := ⟨"github:octocat/notes",some issueCheckpoint.encode,[],List.nodup_nil⟩

theorem unconsumed_stored : Stored issueConnector.connectorId [] (some issueCheckpoint.encode) unconsumed ⟨[],[],[]⟩ :=
  ⟨rfl,rfl,rfl,⟨.nil,nofun,List.nil_prefix⟩⟩

theorem early_valid : DateTime.Valid 1 1 1 0 0 0 0 (some 60) := by decide

theorem other_formed : (Json.obj (issuePayload 8)).WellFormed := by decide

-- A record of another number, observed before the first moment of UTC.
def earlyRecord : EvidenceRecord :=
  {issueRecord with observedAt := ⟨1,1,1,0,0,0,0,some 60,early_valid⟩, payload := ⟨issuePayload 8,other_formed⟩}

theorem checkpoints_diverge :
    (GitHubConnector.Reached utcHost notes issueConnector ∧
      (issueConnector.finalizeCheckpoint utcHost [issueRaw.listed] []).1 = .ok (some issueCheckpoint.encode) ∧
      Stored issueConnector.connectorId [] (some issueCheckpoint.encode) unconsumed ⟨[],[],[]⟩ ∧
      checkpointDiagnostics utcHost [unconsumed] ⟨[],[],[]⟩ ≠ .ok []) ∧
    issueConnector.scopedRecordKind utcHost earlyRecord = .error .overflowError ∧
    githubScopedRecordKind utcHost earlyRecord "octocat/notes" = .ok none := by
  have finalized : (issueConnector.finalizeCheckpoint utcHost [issueRaw.listed] []).1 = .ok (some issueCheckpoint.encode) := rfl
  refine ⟨⟨issue_reached,finalized,unconsumed_stored,?_⟩,?_,?_⟩
  · intro clean
    have held := (github_validated issue_reached finalized unconsumed_stored.own unconsumed_stored.ids unconsumed_stored.ledger).mp clean
    have none := (held rfl issueCheckpoint rfl rfl).1
    cases none
  · rfl
  · rfl

theorem issue_linked : connectorText "github:octocat/notes" = true ∧ 1 ≤ 1 := by decide

-- The same issue, consumed.
def issueLedger : EvidenceSnapshot :=
  ⟨[issueRecord],[⟨"github:octocat/notes",1,none,issueRecord,issue_linked.1,issue_linked.2⟩],[]⟩

def consumedIssue : SyncCheckpoint := ⟨"github:octocat/notes",some issueCheckpoint.encode,[issueRecord.id],List.nodup_singleton _⟩

theorem issue_finalized : (issueConnector.finalizeCheckpoint utcHost [issueRaw.listed] [issueRecord]).1 = .ok (some issueCheckpoint.encode) := by
  have read : issueConnector.readCursor utcHost issueConnector.nextCursor = .ok issueCheckpoint := by
    have decoded := GitHubCheckpoint.decode_encode utcHost.interpreter issueCheckpoint
    have waiting : issueConnector.nextCursor = some issueCheckpoint.encode := rfl
    have own : issueConnector.repository.1 = issueCheckpoint.repository.1 := rfl
    rw [waiting,GitHubConnector.readCursor,own,decoded]
    rfl
  have separated : issueConnector.separate utcHost [issueRecord] = .ok ([issueRecord],[]) := rfl
  have cursor : issueConnector.finalizeCursor utcHost [issueRecord] = .ok issueCheckpoint.encode := by
    simp only [GitHubConnector.finalizeCursor,read,separated,Except.bind]
    rfl
  have ready : (!issueConnector.checkpointPending || decide ([issueRaw.listed] ≠ issueConnector.lastDiscovered) ||
      issueConnector.discoveryFailed) = false := by decide
  simp only [GitHubConnector.finalizeCheckpoint,ready,Bool.false_eq_true,if_false,List.cons_ne_nil,cursor,fixedFailure]

theorem checkpoints_accepted_issue : checkpointDiagnostics utcHost [consumedIssue] issueLedger = .ok [] := by
  have ledger : Matching issueConnector.connectorId [issueRecord] issueLedger := by
    refine ⟨List.nodup_singleton _,?_,?_⟩
    · intro item member
      rw [List.mem_singleton.mp member]
      exact List.mem_singleton_self _
    · exact List.prefix_refl _
  have stored : Stored issueConnector.connectorId [issueRecord] (some issueCheckpoint.encode) consumedIssue issueLedger := ⟨rfl,rfl,rfl,ledger⟩
  have accepted := (checkpoints_accepted utcHost).1 notes issueConnector issue_reached [issueRaw.listed] [issueRecord] _ _ _ issue_finalized stored
  exact accepted.mpr fun none => by cases none

end WorkspaceValidation
