import IntentEngineering.Storage.TransactionAtomicity

namespace LocalTransaction
open Interrupt

-- `load_runtime`
def runtimeCoordinator : Coordinator where
  targets := ["approvals","cases","evidence","graph","history","intent_proposals","receipts","webauthn_challenges",
    "webauthn_credentials"]
  legacyTargetSets := [["cases","graph","history"],["cases","evidence","graph","history","receipts"],
    ["cases","evidence","graph","history","intent_proposals","receipts"],
    ["cases","evidence","graph","history","intent_proposals","receipts","webauthn_challenges","webauthn_credentials"]]
  nonempty := by simp
  valid := by decide
  sorted := by decide
  legacySorted := by decide
  legacyProper := by decide
  legacyDistinct := by decide

-- `WorkspaceValidationService._capture`
def validationCoordinator : Coordinator where
  targets := ["cases","evidence","graph","history","receipts"]
  legacyTargetSets := [["cases","graph","history"]]
  nonempty := by simp
  valid := by decide
  sorted := by decide
  legacySorted := by decide
  legacyProper := by decide
  legacyDistinct := by decide

-- The default of `LocalResolutionService`.
def resolutionCoordinator : Coordinator where
  targets := ["cases","graph","history"]
  legacyTargetSets := []
  nonempty := by simp
  valid := by decide
  sorted := by decide
  legacySorted := noLegacySets_sorted
  legacyProper := by simp
  legacyDistinct := noLegacySets_distinct

-- The journal is absent or one that this coordinator wrote.
def OwnJournal (c : Coordinator) (disk : Disk) : Prop :=
  disk.journal = none ∨ ∃ base state transactionId,
    disk.journal = some (.journal (journalFor (preimagesOf c base) state transactionId))

theorem inside_own (inside : Inside c (preimagesOf c base) transactionId base disk) : OwnJournal c disk :=
  .inr ⟨base,.prepared,transactionId,inside.1⟩

theorem restore_own (preimages : List Preimage) (c : Coordinator) :
    Ensures (OwnJournal c) (restore preimages) (fun _ => OwnJournal c) (fun _ => OwnJournal c) := by
  have each (preimage : Preimage) (_ : List Preimage) :
      Ensures (OwnJournal c) (restoreTarget preimage) (fun _ => OwnJournal c) (fun _ => OwnJournal c) := by
    rw [restoreTarget_exact]
    exact ensures_atomically (fun _ own => own) (fun _ _ own => own) (fun _ _ own => own)
  exact @ensures_forM _ _ _ _ (fun _ => OwnJournal c) each _

theorem unlinkJournal_own (missingOk : Bool) (c : Coordinator) :
    Ensures (OwnJournal c) (unlinkJournal missingOk) (fun _ => OwnJournal c) (fun _ => OwnJournal c) := by
  apply ensures_each
  intro before own
  apply ensures_weaken (unlinkJournal_spec missingOk before) (fun _ same => same)
  · intro _ disk done
    exact .inl (by rw [done]; rfl)
  · intro _ disk stop
    rcases stop with rfl | rfl
    · exact own
    · exact .inl rfl

theorem recover_own (c writer : Coordinator) :
    Ensures (OwnJournal writer) (recoverUnlocked c) (fun _ => OwnJournal writer) (fun _ => OwnJournal writer) := by
  unfold recoverUnlocked
  apply ensures_bind (fun _ => OwnJournal writer)
  · apply ensures_each
    intro before own
    apply ensures_weaken (readJournal_spec c before) (fun _ same => same)
    · intro _ disk done
      rwa [done.1]
    · intro _ disk same
      rwa [same]
  · intro loaded
    cases loaded with
    | none => exact ensures_pure (fun _ => OwnJournal writer) false
    | some journal =>
      apply ensures_bind (fun _ => OwnJournal writer)
      · unfold restorePrepared
        split
        · exact restore_own journal.preimages writer
        · exact ensures_pure (fun _ => OwnJournal writer) ()
      · intro _
        apply ensures_bind (fun _ => OwnJournal writer) (unlinkJournal_own false writer)
        intro _
        exact ensures_pure (fun _ => OwnJournal writer) true

theorem open_own (c : Coordinator) :
    Ensures (OwnJournal c) (openTransaction c)
      (fun preimages disk => disk.journal = none ∧ preimages = preimagesOf c disk.targets) (fun _ => OwnJournal c) := by
  intro start own
  have recovered := recover_own c c start own
  cases opened : openTransaction c start with
  | mk result after =>
    cases result with
    | ok preimages => exact openTransaction_spec opened
    | error halt =>
      unfold openTransaction at opened
      rw [run_bind] at opened
      cases ran : recoverUnlocked c start with
      | mk outcome middle =>
        rw [ran] at opened recovered
        cases outcome with
        | error _ =>
          cases opened
          exact recovered
        | ok done =>
          have kept := (snapshot_spec c middle.state).error rfl opened
          dsimp only at recovered ⊢
          rwa [kept]

theorem prepare_own (c : Coordinator) (transactionId : String) (base : Contents) :
    Ensures (fun disk => disk.journal = none ∧ disk.targets = base) (prepare (preimagesOf c base) transactionId)
      (fun _ => Inside c (preimagesOf c base) transactionId base) (fun _ => OwnJournal c) := by
  apply ensures_bind (fun _ => Inside c (preimagesOf c base) transactionId base)
  · apply ensures_atomically
    · intro disk closed
      exact ⟨rfl,fun name _ => congrFun closed.2 name⟩
    · intro disk _ closed
      exact .inl closed.1
    · intro disk _ _
      exact .inr ⟨base,.prepared,transactionId,rfl⟩
  · intro _
    exact ensures_update (fun _ inside => inside)

theorem commit_own (c : Coordinator) (transactionId : String) (base : Contents) :
    Ensures (Inside c (preimagesOf c base) transactionId base) (commit (preimagesOf c base) transactionId)
      (fun _ => OwnJournal c) (fun _ => OwnJournal c) := by
  apply ensures_each
  intro before inside
  have finished (disk : Disk) (done : Finished (preimagesOf c base) transactionId before.targets disk) : OwnJournal c disk := by
    rcases done.2 with committed | missing
    · exact .inr ⟨base,.committed,transactionId,committed⟩
    · exact .inl missing
  apply ensures_weaken (commit_spec c transactionId base before.targets)
  · intro disk same
    rw [same]
    exact ⟨rfl,inside⟩
  · intro _ disk done
    exact finished disk done
  · intro _ disk stop
    rcases stop with still | done
    · exact inside_own still
    · exact finished disk done

theorem rollback_own (c : Coordinator) (rollbackBaseExceptions : Bool) (preimages : List Preimage) (halt : Halt) :
    Ensures (OwnJournal c) (rollback rollbackBaseExceptions preimages halt) (fun _ => OwnJournal c) (fun _ => OwnJournal c) := by
  unfold rollback
  split
  · apply ensures_bind (fun _ => OwnJournal c)
    · exact ensures_bind (fun _ => OwnJournal c) (restore_own preimages c) (fun _ => unlinkJournal_own true c)
    · intro _
      exact ensures_throw (fun _ => OwnJournal c) halt
  · exact ensures_throw (fun _ => OwnJournal c) halt

-- A transaction leaves no journal but its own, however it ends.
theorem transaction_own (c : Coordinator) (rollbackBaseExceptions : Bool) (transactionId : String) (body : Body) :
    Ensures (OwnJournal c) (transaction c rollbackBaseExceptions transactionId body)
      (fun _ => OwnJournal c) (fun _ => OwnJournal c) := by
  apply ensures_bind _ (open_own c)
  intro preimages
  apply ensures_each
  intro before opened
  obtain ⟨closed,rfl⟩ := opened
  apply ensures_bind (fun _ => Inside c (preimagesOf c before.targets) transactionId before.targets)
  · apply ensures_weaken (prepare_own c transactionId before.targets) _ (fun _ _ done => done) (fun _ _ stop => stop)
    intro disk same
    rw [same]
    exact ⟨closed,rfl⟩
  · intro _
    apply ensures_catch
    · apply ensures_bind (fun _ => Inside c (preimagesOf c before.targets) transactionId before.targets)
      · apply ensures_weaken (enter_spec c _ transactionId before.targets body) (fun _ start => start) (fun _ _ done => done)
        intro _ disk inside
        exact inside_own inside
      · intro _
        exact commit_own c transactionId before.targets
    · intro halt
      exact rollback_own c rollbackBaseExceptions _ halt

-- The runs of one coordinator's processes: each call is made under a schedule
-- of its own, and any of them may be the last before a crash.
inductive Call where
  | transaction (rollbackBaseExceptions : Bool) (transactionId : String) (body : Body)
  | recover

def Call.run (c : Coordinator) : Call → World Disk → World Disk
  | .transaction rollbackBaseExceptions transactionId body, world =>
    (LocalTransaction.transaction c rollbackBaseExceptions transactionId body world).2
  | .recover, world => (recoverUnlocked c world).2

inductive Leaves (c : Coordinator) : Disk → Disk → Prop where
  | nothing : Leaves c disk disk
  | call (earlier : Leaves c start disk) (call : Call) (schedule : List (Option Fault)) :
      Leaves c start (call.run c ⟨disk,schedule⟩).state

theorem call_own (own : OwnJournal c world.state) (call : Call) : OwnJournal c (call.run c world).state := by
  cases call with
  | transaction rollbackBaseExceptions transactionId body =>
    exact (transaction_own c rollbackBaseExceptions transactionId body).ends own
  | recover => exact (recover_own c c).ends own

theorem leaves_own (left : Leaves c start disk) (closed : start.journal = none) : OwnJournal c disk := by
  induction left with
  | nothing => exact .inl closed
  | call _ call schedule ih => exact call_own ih call

-- An undisturbed recovery by `reader` returns, and whoever completes a recovery
-- ends with the contents that `writer` itself would restore.
def RecoversAlike (reader writer : Coordinator) (disk : Disk) : Prop :=
  (∃ done after, recoverUnlocked reader ⟨disk,[]⟩ = (.ok done,after)) ∧
    ∀ mine theirs, Recovers writer disk mine → Recovers reader disk theirs → theirs.targets = mine.targets

-- The names a reader has to know.
def Reads (reader writer : Coordinator) : Prop :=
  writer.targets = reader.targets ∨ writer.targets ∈ reader.legacyTargetSets

instance (reader writer : Coordinator) : Decidable (Reads reader writer) :=
  inferInstanceAs (Decidable (writer.targets = reader.targets ∨ writer.targets ∈ reader.legacyTargetSets))

theorem targetSet_own (c : Coordinator) (base : Contents) (state : JournalState) (transactionId : String) :
    targetSet (journalFor (preimagesOf c base) state transactionId) = c.targets := by
  have sorted : c.targets.Pairwise (· ≤ ·) := c.sorted.imp le_of_lt
  have listed : (journalFor (preimagesOf c base) state transactionId).preimages.map Preimage.target = c.targets :=
    names_preimagesOf c base
  unfold targetSet
  rw [listed]
  exact sorted.insertionSort_eq

theorem readable_own (reader writer : Coordinator) (base : Contents) (state : JournalState) (transactionId : String) :
    readableJournal reader (.journal (journalFor (preimagesOf writer base) state transactionId)) =
      if Reads reader writer then some (journalFor (preimagesOf writer base) state transactionId) else none := by
  by_cases reads : Reads reader writer
  · have known : writer.targets = reader.targets ∨ writer.targets ∈ reader.legacyTargetSets := reads
    simp only [readableJournal,targetSet_own,known,reads,if_true]
  · have unknown : ¬(writer.targets = reader.targets ∨ writer.targets ∈ reader.legacyTargetSets) := reads
    simp only [readableJournal,targetSet_own,unknown,reads,if_false]

theorem effective_reads (own : OwnJournal writer disk) (reads : Reads reader writer) :
    effective reader disk = effective writer disk := by
  rcases own with missing | ⟨base,state,transactionId,present⟩
  · rw [effective_none missing,effective_none missing]
  · have known : Reads writer writer := .inl rfl
    simp only [effective,present,readable_own,reads,known,if_true]

theorem effective_unread (present : disk.journal = some (.journal (journalFor (preimagesOf writer base) state transactionId)))
    (unread : ¬Reads reader writer) : effective reader disk = none := by
  simp only [effective,present,readable_own,unread,if_false]

theorem effective_own (own : OwnJournal c disk) : ∃ contents, effective c disk = some contents := by
  rcases own with missing | ⟨base,state,transactionId,present⟩
  · exact ⟨_,effective_none missing⟩
  · exact ⟨_,effective_journal present (preimagesOf_readable c base state transactionId)⟩

theorem restore_calm (preimages : List Preimage) (disk : Disk) :
    ∃ after, restore preimages ⟨disk,[]⟩ = (.ok (),after) ∧ after.schedule = [] ∧ after.state.journal = disk.journal := by
  unfold restore
  generalize preimages.insertionSort (fun left right => left.target ≤ right.target) = items
  induction items generalizing disk with
  | nil => exact ⟨⟨disk,[]⟩,rfl,rfl,rfl⟩
  | cons preimage rest ih =>
    obtain ⟨after,ran,calm,kept⟩ := ih (setTarget preimage.target preimage.content disk)
    refine ⟨after,?_,calm,kept⟩
    have first : restoreTarget preimage ⟨disk,[]⟩ = (.ok (),⟨setTarget preimage.target preimage.content disk,[]⟩) := by
      rw [restoreTarget_exact]
      rfl
    have unfolded : (preimage :: rest).forM restoreTarget = restoreTarget preimage >>= fun _ => rest.forM restoreTarget := rfl
    rw [unfolded,run_bind,first]
    exact ran

theorem recover_calm (settled : effective c disk = some contents) :
    ∃ done after, recoverUnlocked c ⟨disk,[]⟩ = (.ok done,⟨after,[]⟩) := by
  unfold effective at settled
  cases found : disk.journal with
  | none =>
    have loaded : readJournal c ⟨disk,[]⟩ = (.ok none,⟨disk,[]⟩) := by
      obtain ⟨_,targets,poisoned⟩ := disk
      cases found
      rfl
    exact ⟨false,disk,by rw [recoverUnlocked,run_bind,loaded]; rfl⟩
  | some file =>
    rw [found] at settled
    cases readable : readableJournal c file with
    | none => simp [readable] at settled
    | some journal =>
      have loaded : readJournal c ⟨disk,[]⟩ = (.ok (some journal),⟨disk,[]⟩) := by
        obtain ⟨_,targets,poisoned⟩ := disk
        cases found
        have observed : observe Disk.journal ⟨⟨some file,targets,poisoned⟩,[]⟩ =
            (.ok (some file),⟨⟨some file,targets,poisoned⟩,[]⟩) := rfl
        simp only [readJournal,run_bind,observed,readable]
        rfl
      have restored : ∃ after, restorePrepared journal ⟨disk,[]⟩ = (.ok (),after) ∧ after.schedule = [] ∧
          after.state.journal = disk.journal := by
        unfold restorePrepared
        split
        · exact restore_calm journal.preimages disk
        · exact ⟨⟨disk,[]⟩,rfl,rfl,rfl⟩
      obtain ⟨⟨middle,schedule⟩,ran,calm,kept⟩ := restored
      cases calm
      have gone : unlinkJournal false ⟨middle,[]⟩ = (.ok (),⟨setJournal none middle,[]⟩) := by
        obtain ⟨remaining,targets,poisoned⟩ := middle
        have present : remaining = some file := kept.trans found
        rw [present]
        rfl
      exact ⟨true,setJournal none middle,by
        rw [recoverUnlocked,run_bind,loaded]
        simp only [run_bind,ran,gone]
        rfl⟩

theorem recovers_alike (own : OwnJournal writer disk) :
    RecoversAlike reader writer disk ↔ Reads reader writer ∨ disk.journal = none := by
  obtain ⟨contents,settled⟩ := effective_own own
  constructor
  · intro alike
    by_cases reads : Reads reader writer
    · exact .inl reads
    · rcases own with missing | ⟨base,state,transactionId,present⟩
      · exact .inr missing
      · obtain ⟨done,after,ran⟩ := alike.1
        have begun : effective reader (⟨disk,[]⟩ : World Disk).state = none := effective_unread present reads
        exact ((recover_refused reader).ok begun ran).elim
  · intro known
    have same : effective reader disk = some contents := by
      rcases known with reads | missing
      · rw [effective_reads own reads,settled]
      · rw [effective_none missing]
        rwa [effective_none missing] at settled
    obtain ⟨done,after,ran⟩ := recover_calm same
    refine ⟨⟨done,⟨after,[]⟩,ran⟩,?_⟩
    intro mine theirs here there
    rw [recovers_effective here settled,recovers_effective there same]

-- A journal of the runtime's coordinator has nine targets and no other
-- coordinator knows that set; theirs are among the runtime's legacy sets.
theorem journal_interoperability (closed : start.journal = none) :
    (∀ disk, Leaves runtimeCoordinator start disk →
      ((RecoversAlike validationCoordinator runtimeCoordinator disk ∧
        RecoversAlike resolutionCoordinator runtimeCoordinator disk) ↔ disk.journal = none)) ∧
    (∀ disk, Leaves validationCoordinator start disk → RecoversAlike runtimeCoordinator validationCoordinator disk) ∧
    (∀ disk, Leaves resolutionCoordinator start disk → RecoversAlike runtimeCoordinator resolutionCoordinator disk) := by
  have unread : ¬Reads validationCoordinator runtimeCoordinator := by decide
  have unread' : ¬Reads resolutionCoordinator runtimeCoordinator := by decide
  refine ⟨?_,?_,?_⟩
  · intro disk left
    have own := leaves_own left closed
    simp only [recovers_alike own,unread,unread',false_or,and_self]
  · intro disk left
    exact (recovers_alike (leaves_own left closed)).mpr (.inl (by decide))
  · intro disk left
    exact (recovers_alike (leaves_own left closed)).mpr (.inl (by decide))

-- The process dies right after the prepared journal is written.
def diesPrepared : World Disk := ⟨⟨none,fun _ => some [0],false⟩,List.replicate 11 none ++ [some ⟨.died,0⟩]⟩

def interrupted : Call := .transaction false "" replaceBoth

theorem runtime_journal_rejected :
    Leaves runtimeCoordinator diesPrepared.state (interrupted.run runtimeCoordinator diesPrepared).state ∧
      ¬RecoversAlike validationCoordinator runtimeCoordinator (interrupted.run runtimeCoordinator diesPrepared).state ∧
      ¬RecoversAlike resolutionCoordinator runtimeCoordinator (interrupted.run runtimeCoordinator diesPrepared).state := by
  have left : Leaves runtimeCoordinator diesPrepared.state (interrupted.run runtimeCoordinator diesPrepared).state :=
    .call .nothing interrupted diesPrepared.schedule
  have own := leaves_own left rfl
  have prepared : (interrupted.run runtimeCoordinator diesPrepared).state.journal =
      some (.journal (journalFor (preimagesOf runtimeCoordinator fun _ => some [0]) .prepared "")) := rfl
  refine ⟨left,?_,?_⟩
  · rw [recovers_alike own,prepared]
    simp [show ¬Reads validationCoordinator runtimeCoordinator by decide]
  · rw [recovers_alike own,prepared]
    simp [show ¬Reads resolutionCoordinator runtimeCoordinator by decide]

theorem validation_journal_recovered :
    RecoversAlike runtimeCoordinator validationCoordinator (interrupted.run validationCoordinator diesPrepared).state :=
  (journal_interoperability rfl).2.1 _ (.call .nothing interrupted diesPrepared.schedule)

end LocalTransaction
