import IntentEngineering.Storage.JournalInterop
import IntentEngineering.Stores.CaseStore
import IntentEngineering.Stores.EvidenceStore
import IntentEngineering.Stores.GraphStore
import IntentEngineering.Stores.HistoryStore

namespace LocalTransaction
open Interrupt Schema

-- One operation of a store on its file: what it makes of the content, none where
-- it raises, and the frame it then appends. A coordinated one recovers the
-- pending journal under the same locks; any other takes the file's lock only.
structure Operation (α : Type) where
  target : String
  coordinated : Bool
  turn : Option Bytes → Option (α × Option Bytes)

namespace Operation
variable {α : Type} (c : Coordinator) (op : Operation α)

def turnAct : Act Disk α := do
  match op.turn (← observe fun disk => disk.targets op.target) with
  | none => throw .exception
  | some (value,none) => return value
  | some (value,some frame) =>
    append op.target frame
    return value

def act : Act Disk α :=
  if op.coordinated then recoverUnlocked c >>= fun _ => op.turnAct else op.turnAct

-- The contents once the frame is in its file.
def extended (contents : Contents) (name : String) : Option Bytes → Contents
  | none => contents
  | some frame => fun other => if other = name then some ((contents name).getD [] ++ frame) else contents other

-- The result and the effect are those the operation has on the recovered
-- contents, and no recovery takes them back.
def AsRecovered (before : Disk) (schedule : List (Option Fault)) : Prop :=
  ∀ recovered, Recovers c before recovered →
    match op.act c ⟨before,schedule⟩ with
    | (.ok value,after) => ∃ frame, op.turn (recovered.targets op.target) = some (value,frame) ∧
        ∀ final, Recovers c after.state final → final.targets = extended recovered.targets op.target frame
    | (.error _,after) => schedule = [] → op.turn (recovered.targets op.target) = none ∧
        ∀ final, Recovers c after.state final → final.targets = recovered.targets

end Operation

-- A transaction was cut off and its journal still says `prepared`.
def Prepared (disk : Disk) : Prop :=
  ∃ preimages transactionId, disk.journal = some (.journal (journalFor preimages .prepared transactionId))

-- No recovery will change the targets.
def Settled (c : Coordinator) (contents : Contents) (disk : Disk) : Prop :=
  OwnJournal c disk ∧ ¬Prepared disk ∧ disk.targets = contents

section
variable {c : Coordinator} {α : Type} {op : Operation α}

theorem settled_effective (settled : Settled c contents disk) : effective c disk = some contents := by
  obtain ⟨missing | ⟨base,state,transactionId,present⟩,unprepared,same⟩ := settled
  · rw [effective_none missing,same]
  · rw [effective_journal present (preimagesOf_readable c base state transactionId)]
    cases state with
    | prepared => exact absurd ⟨_,_,present⟩ unprepared
    | committed => exact congrArg some same

theorem settled_append (settled : Settled c contents disk) (name : String) (frame : Bytes) :
    Settled c (Operation.extended contents name (some frame)) (appendTarget name frame disk) := by
  obtain ⟨own,unprepared,same⟩ := settled
  refine ⟨own,unprepared,?_⟩
  rw [←same]
  rfl

theorem own_settled (own : OwnJournal c disk) (unprepared : ¬Prepared disk) : Settled c disk.targets disk :=
  ⟨own,unprepared,rfl⟩

-- What an operation that returns leaves behind.
theorem turnAct_spec (before : Disk) :
    Ensures (· = before) op.turnAct
      (fun value after => ∃ frame, op.turn (before.targets op.target) = some (value,frame) ∧
        after = (match frame with
          | none => before
          | some frame => appendTarget op.target frame before))
      (fun _ _ => True) := by
  apply ensures_bind (fun content disk => content = before.targets op.target ∧ disk = before)
  · exact ensures_observe (fun disk same => by rw [same]; exact ⟨rfl,rfl⟩) (fun _ _ _ => trivial)
  · intro content
    apply ensures_each
    intro disk start
    obtain ⟨rfl,rfl⟩ := start
    cases turned : op.turn (disk.targets op.target) with
    | none => exact fun _ _ => trivial
    | some outcome =>
      obtain ⟨value,_ | frame⟩ := outcome
      · intro world same
        exact ⟨none,rfl,same⟩
      · apply ensures_bind (fun _ after => after = appendTarget op.target frame disk)
        · exact ensures_durable (fun _ same => by rw [same]) (fun _ _ _ _ => trivial)
        · intro _ world same
          exact ⟨some frame,rfl,same⟩

theorem turnAct_calm (ran : op.turnAct ⟨disk,[]⟩ = (.error halt,after)) :
    op.turn (disk.targets op.target) = none ∧ after.state = disk := by
  have read : (observe fun disk : Disk => disk.targets op.target) ⟨disk,[]⟩ = (.ok (disk.targets op.target),⟨disk,[]⟩) := rfl
  unfold Operation.turnAct at ran
  rw [run_bind,read] at ran
  dsimp only at ran
  cases turned : op.turn (disk.targets op.target) with
  | none =>
    rw [turned] at ran
    cases ran
    exact ⟨rfl,rfl⟩
  | some outcome =>
    obtain ⟨value,_ | frame⟩ := outcome <;> rw [turned] at ran <;> cases ran

theorem turn_recovered (settled : Settled c contents disk) (ran : op.turnAct ⟨disk,schedule⟩ = (result,after)) :
    match result with
    | .ok value => ∃ frame, op.turn (contents op.target) = some (value,frame) ∧
        ∀ final, Recovers c after.state final → final.targets = Operation.extended contents op.target frame
    | .error _ => schedule = [] → op.turn (contents op.target) = none ∧
        ∀ final, Recovers c after.state final → final.targets = contents := by
  have same := settled.2.2
  cases result with
  | ok value =>
    obtain ⟨frame,turned,left⟩ := (turnAct_spec disk).ok rfl ran
    rw [same] at turned
    refine ⟨frame,turned,?_⟩
    intro final path
    rw [left] at path
    cases frame with
    | none => exact recovers_effective path (settled_effective settled)
    | some frame => exact recovers_effective path (settled_effective (settled_append settled op.target frame))
  | error halt =>
    intro calm
    cases calm
    obtain ⟨refused,left⟩ := turnAct_calm ran
    rw [same] at refused
    refine ⟨refused,?_⟩
    intro final path
    rw [left] at path
    exact recovers_effective path (settled_effective settled)

theorem recovers_exists (settled : effective c disk = some contents) : ∃ final, Recovers c disk final := by
  obtain ⟨done,after,ran⟩ := recover_calm settled
  exact ⟨after,.completed ran⟩

-- Coordinated, an operation works on the recovered contents; without a prepared
-- journal the contents are the recovered ones.
theorem as_recovered (own : OwnJournal c disk) (safe : op.coordinated = true ∨ ¬Prepared disk) :
    op.AsRecovered c disk schedule := by
  intro recovered path
  obtain ⟨contents,settled⟩ := effective_own own
  rw [recovers_effective path settled]
  by_cases coordinated : op.coordinated = true
  · have shape : op.act c = recoverUnlocked c >>= fun _ => op.turnAct := if_pos coordinated
    rw [shape,run_bind]
    cases ran : recoverUnlocked c ⟨disk,schedule⟩ with
    | mk outcome middle =>
      cases outcome with
      | error halt =>
        intro calm
        obtain ⟨_,_,returns⟩ := recover_calm settled
        rw [calm,returns] at ran
        cases ran
      | ok done =>
        obtain ⟨same,closed⟩ := (recover_spec c contents).ok settled ran
        have stays : Settled c contents middle.state := by
          refine ⟨.inl closed,?_,same⟩
          intro prepared
          obtain ⟨preimages,transactionId,present⟩ := prepared
          rw [closed] at present
          cases present
        obtain ⟨state,remaining⟩ := middle
        have turned (result : Except Halt α) (after : World Disk) (there : op.turnAct ⟨state,remaining⟩ = (result,after)) :=
          turn_recovered stays there
        dsimp only
        cases there : op.turnAct ⟨state,remaining⟩ with
        | mk result after =>
          have found := turned result after there
          cases result with
          | ok value => exact found
          | error halt =>
            intro calm
            apply found
            obtain ⟨_,_,returns⟩ := recover_calm settled
            rw [calm,returns] at ran
            cases ran
            rfl
  · have shape : op.act c = op.turnAct := if_neg coordinated
    have unprepared : ¬Prepared disk := safe.resolve_left coordinated
    have stays : Settled c contents disk := by
      have here := settled_effective (own_settled own unprepared)
      rw [settled] at here
      exact ⟨own,unprepared,(Option.some.inj here).symm⟩
    rw [shape]
    cases ran : op.turnAct ⟨disk,schedule⟩ with
    | mk result after =>
      have found := turn_recovered stays ran
      cases result <;> exact found

theorem act_own (op : Operation α) : Ensures (OwnJournal c) (op.act c) (fun _ => OwnJournal c) (fun _ => OwnJournal c) := by
  have turned : Ensures (OwnJournal c) op.turnAct (fun _ => OwnJournal c) (fun _ => OwnJournal c) := by
    apply ensures_bind (fun _ => OwnJournal c)
    · exact ensures_observe (fun _ own => own) (fun _ _ own => own)
    · intro content
      split
      · exact ensures_throw (fun _ => OwnJournal c) .exception
      · exact ensures_pure (fun _ => OwnJournal c) _
      · apply ensures_bind (fun _ => OwnJournal c)
        · refine ensures_durable (fun disk own => own) (fun disk _ reached own => ?_)
          cases reached <;> exact own
        · intro _
          exact ensures_pure (fun _ => OwnJournal c) _
  unfold Operation.act
  split
  · exact ensures_bind (fun _ => OwnJournal c) (recover_own c c) (fun _ => turned)
  · exact turned

end

-- What the operations below return.
inductive Reply where
  | done
  | added (new : Bool)
  | case (found : Option ReconciliationCase)
  | cases (listed : List ReconciliationCase)
  | changesets (found : List ChangeSet)
  | graph (loaded : IntentGraph)
  | records (listed : List EvidenceRecord)
  | other (value : Json)

-- The stores that `load_runtime` and the write commands open on the
-- coordinator's targets. Those of the last five constructors are known here by
-- their locks only.
inductive StoreCall where
  | casePut (case : ReconciliationCase)
  | caseGet (id : String)
  | caseFindByFingerprint (fingerprint : String)
  | caseList (status : Option ReconciliationStatus)
  | historyAppend (changeset : ChangeSet)
  | history (subjectId : String)
  | graphLoad
  | evidencePut (record : EvidenceRecord)
  | evidenceAssociate (connectorId : String) (record : EvidenceRecord)
  | evidenceList
  | receipts (turn : Option Bytes → Option (Reply × Option Bytes))
  | approvals (turn : Option Bytes → Option (Reply × Option Bytes))
  | intentProposals (turn : Option Bytes → Option (Reply × Option Bytes))
  | webauthnCredentials (turn : Option Bytes → Option (Reply × Option Bytes))
  | webauthnChallenges (turn : Option Bytes → Option (Reply × Option Bytes))

namespace StoreCall
variable (lax : Coercions) (yaml : Yaml)

-- The newest version of each case, in the order of the identifiers.
def latestCases (ledger : CaseLedger) : List ReconciliationCase :=
  let ids := ((ledger.versions.map ReconciliationCase.id).dedup).insertionSort (· ≤ ·)
  ids.filterMap fun id => ledger.index.latestById.lookup id

def readCases (content : Option Bytes) (answer : CaseLedger → Option Reply) : Option (Reply × Option Bytes) :=
  match CaseStore.parseVersions lax content with
  | .error _ => none
  | .ok ledger => (answer ledger).map fun reply => (reply,none)

def evidenceOutcome : Except EvidenceStoreError EvidenceStore.Outcome → Option (Reply × Option Bytes)
  | .error _ => none
  | .ok outcome => some (.added outcome.returned,outcome.entry.map fun entry => Utf8.encode (JsonLines.frame (entry.dump lax)))

def operation : StoreCall → Operation Reply
  | .casePut case => ⟨"cases",false,fun content => match CaseStore.put lax content case with
    | .error _ => none
    | .ok (_,added) => some (.added added,if added then some (Utf8.encode (JsonLines.frame ((ReconciliationCase.codec lax).dump case))) else none)⟩
  | .caseGet id => ⟨"cases",false,fun content => readCases lax content fun ledger =>
      (ledger.index.latestById.lookup id).map fun case => .case (some case)⟩
  | .caseFindByFingerprint fingerprint => ⟨"cases",false,fun content => readCases lax content fun ledger =>
      some (.case (ledger.index.byFingerprint.lookup fingerprint))⟩
  | .caseList status => ⟨"cases",false,fun content => readCases lax content fun ledger =>
      some (.cases ((latestCases ledger).filter fun case => status.isNone || decide (status = some case.status)))⟩
  | .historyAppend changeset => ⟨"history",false,fun content => match HistoryStore.append lax content changeset with
    | .error _ => none
    | .ok _ => some (.done,some (Utf8.encode (JsonLines.frame ((ChangeSet.codec lax true).dump changeset))))⟩
  | .history subjectId => ⟨"history",false,fun content => match HistoryStore.history lax content subjectId with
    | .error _ => none
    | .ok found => some (.changesets found,none)⟩
  | .graphLoad => ⟨"graph",false,fun content => (content.bind (GraphStore.parseGraph lax yaml)).map fun loaded => (.graph loaded,none)⟩
  | .evidencePut record => ⟨"evidence",true,fun content => evidenceOutcome lax (EvidenceStore.put lax content record)⟩
  | .evidenceAssociate connectorId record =>
    ⟨"evidence",true,fun content => evidenceOutcome lax (EvidenceStore.associate lax content connectorId record)⟩
  | .evidenceList => ⟨"evidence",true,fun content => match EvidenceStore.parseEvidenceLines lax content with
    | .error _ => none
    | .ok index => some (.records index.records,none)⟩
  | .receipts turn => ⟨"receipts",true,turn⟩
  | .approvals turn => ⟨"approvals",false,turn⟩
  | .intentProposals turn => ⟨"intent_proposals",true,turn⟩
  | .webauthnCredentials turn => ⟨"webauthn_credentials",true,turn⟩
  | .webauthnChallenges turn => ⟨"webauthn_challenges",true,turn⟩

end StoreCall

-- Every interleaving of the processes: each step holds its locks to its end, and
-- any of them may be cut off by a fault of its own schedule.
inductive Reaches (lax : Coercions) (yaml : Yaml) (c : Coordinator) (start : Disk) : Disk → Prop where
  | start : Reaches lax yaml c start start
  | call (earlier : Reaches lax yaml c start disk) (call : Call) (schedule : List (Option Fault)) :
      Reaches lax yaml c start (call.run c ⟨disk,schedule⟩).state
  | operate (earlier : Reaches lax yaml c start disk) (call : StoreCall) (schedule : List (Option Fault)) :
      Reaches lax yaml c start ((call.operation lax yaml).act c ⟨disk,schedule⟩).2.state

theorem reaches_own {yaml : Yaml} (reached : Reaches lax yaml c start disk) (closed : start.journal = none) : OwnJournal c disk := by
  induction reached with
  | start => exact .inl closed
  | call _ call schedule ih => exact call_own ih call
  | operate _ call schedule ih => exact (act_own (call.operation lax yaml)).ends ih

-- A transaction, `YamlGraphStore.apply` among them, starts from the recovered
-- contents.
theorem opens_recovered {c : Coordinator} (own : OwnJournal c disk) (path : Recovers c disk recovered)
    (opened : openTransaction c ⟨disk,schedule⟩ = (.ok preimages,inside)) :
    inside.state.targets = recovered.targets ∧ inside.state.journal = none := by
  obtain ⟨contents,settled⟩ := effective_own own
  obtain ⟨closed,_⟩ := openTransaction_spec opened
  refine ⟨?_,closed⟩
  rw [recovers_effective path settled]
  unfold openTransaction at opened
  rw [run_bind] at opened
  cases ran : recoverUnlocked c ⟨disk,schedule⟩ with
  | mk outcome middle =>
    rw [ran] at opened
    cases outcome with
    | error halt => cases opened
    | ok done =>
      have taken := (snapshot_spec c middle.state).ok rfl opened
      rw [taken.1]
      exact ((recover_spec c contents).ok settled ran).1

theorem no_write_lost {yaml : Yaml} (closed : start.journal = none) (reached : Reaches lax yaml runtimeCoordinator start disk) :
    (∀ call : StoreCall, (call.operation lax yaml).coordinated = true ∨ ¬Prepared disk → ∀ schedule,
      (call.operation lax yaml).AsRecovered runtimeCoordinator disk schedule) ∧
    (∀ recovered schedule preimages inside, Recovers runtimeCoordinator disk recovered →
      openTransaction runtimeCoordinator ⟨disk,schedule⟩ = (.ok preimages,inside) →
        inside.state.targets = recovered.targets ∧ inside.state.journal = none) := by
  have own := reaches_own reached closed
  constructor
  · intro call safe schedule
    exact as_recovered own safe
  · intro recovered schedule preimages inside path opened
    exact opens_recovered own path opened

-- A transaction that appends to the history dies at its `journal_prepared`
-- stage; an append by the history store returns and is then undone.
def quiet : ChangeSet :=
  ⟨⟨"changeset:1","agent",⟨2026,1,3,10,0,0,0,some 0,by decide⟩,0,[],[],[],[],[],[],[],[],[],[],[],"valid"⟩,by decide⟩

def cutOff : Disk := (Call.run runtimeCoordinator (.transaction false "" (.append "history" [10]))
  ⟨⟨none,fun _ => none,false⟩,List.replicate 11 none ++ [some ⟨.died,0⟩]⟩).state

def quietFrame : Bytes := Utf8.encode (JsonLines.frame ((ChangeSet.codec canonicalOnly true).dump quiet))

theorem acknowledged_append_undone :
    Reaches canonicalOnly Yaml.flow runtimeCoordinator ⟨none,fun _ => none,false⟩ cutOff ∧
      ¬((StoreCall.historyAppend quiet).operation canonicalOnly Yaml.flow).AsRecovered runtimeCoordinator cutOff [] := by
  refine ⟨.call .start _ _,?_⟩
  intro undisturbed
  have absent (name : String) : cutOff.targets name = none := rfl
  have inside : Inside runtimeCoordinator (preimagesOf runtimeCoordinator fun _ => none) "" (fun _ => none) cutOff :=
    ⟨rfl,fun name _ => absent name⟩
  obtain ⟨recovered,path⟩ := recovers_exists (inside_effective inside)
  have before := recovers_effective path (inside_effective inside)
  have kept := undisturbed recovered path
  have acknowledged : ((StoreCall.historyAppend quiet).operation canonicalOnly Yaml.flow).act runtimeCoordinator ⟨cutOff,[]⟩ =
      (.ok .done,⟨appendTarget "history" quietFrame cutOff,[]⟩) := rfl
  rw [acknowledged,before] at kept
  obtain ⟨frame,turned,stays⟩ := kept
  cases turned
  have still : Inside runtimeCoordinator _ "" _ (setTarget "history" (some quietFrame) cutOff) :=
    inside_setTarget inside (by decide)
  obtain ⟨final,after⟩ := recovers_exists (inside_effective still)
  have undone := recovers_effective after (inside_effective still)
  have held := congrFun (stays final after) "history"
  rw [undone] at held
  cases held

-- With no journal pending the same append stays.
theorem settled_append_kept :
    ((StoreCall.historyAppend quiet).operation canonicalOnly Yaml.flow).AsRecovered runtimeCoordinator
      ⟨none,fun _ => none,false⟩ [] := by
  have unprepared : ¬Prepared ⟨none,fun _ => none,false⟩ := by
    intro prepared
    obtain ⟨_,_,present⟩ := prepared
    cases present
  exact (no_write_lost rfl .start).1 (.historyAppend quiet) (.inr unprepared) []

end LocalTransaction
