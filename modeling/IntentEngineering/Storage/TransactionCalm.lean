import IntentEngineering.Storage.TransactionEffects

-- What a transaction does when nothing interrupts it.
namespace LocalTransaction
open Interrupt

theorem target_calm (known : name ∈ c.targets) (world : World Disk) : target c name world = (.ok (),world) := by
  unfold target
  rw [if_pos known]
  rfl

theorem observe_calm (view : Disk → β) (disk : Disk) : observe view ⟨disk,[]⟩ = (.ok (view disk),⟨disk,[]⟩) := rfl

theorem runBody_calm (script : Script) (disk : Disk) (performed : script.perform c disk.targets = some ends) :
    runBody c script.body ⟨disk,[]⟩ = (.ok (),⟨{disk with targets := ends},[]⟩) := by
  induction script generalizing disk ends with
  | done =>
    cases performed
    rfl
  | leave => cases performed
  | read name next ih =>
    simp only [Script.perform] at performed
    split at performed
    · rename_i known
      simp only [Script.body,runBody,run_bind,target_calm known,observe_calm]
      exact ih (disk.targets name) disk performed
    · cases performed
  | write name content =>
    simp only [Script.perform] at performed
    split at performed
    · rename_i known
      cases performed
      simp only [Script.body,runBody,run_bind,target_calm known]
      rfl
    · cases performed
  | append name content =>
    simp only [Script.perform] at performed
    split at performed
    · rename_i known
      cases performed
      simp only [Script.body,runBody,run_bind,target_calm known]
      rfl
    · cases performed
  | both first second ihFirst ihSecond =>
    obtain ⟨middle,began,ended⟩ := Option.bind_eq_some_iff.mp performed
    simp only [Script.body,runBody,run_bind,ihFirst disk began]
    exact ihSecond {disk with targets := middle} ended
  | nested script ih =>
    simp only [Script.body,runBody,run_catch,ih disk performed]

theorem snapshot_calm (c : Coordinator) (disk : Disk) : snapshot c ⟨disk,[]⟩ = (.ok (preimagesOf c disk.targets),⟨disk,[]⟩) := by
  unfold snapshot preimagesOf
  induction c.targets with
  | nil => rfl
  | cons name rest ih =>
    simp only [List.mapM_cons,List.map_cons,run_bind,observe_calm]
    have first (content : Option Bytes) : (pure ⟨name,content⟩ : Act Disk Preimage) ⟨disk,[]⟩ = (.ok ⟨name,content⟩,⟨disk,[]⟩) := rfl
    simp only [first,ih]
    rfl

theorem open_calm (settled : effective c disk = some base) :
    ∃ inside, openTransaction c ⟨disk,[]⟩ = (.ok (preimagesOf c base),⟨inside,[]⟩) ∧ inside.targets = base ∧ inside.journal = none := by
  obtain ⟨done,inside,ran⟩ := recover_calm settled
  obtain ⟨same,closed⟩ := (recover_spec c base).ok settled ran
  refine ⟨inside,?_,same,closed⟩
  rw [openTransaction,run_bind,ran]
  dsimp only
  rw [snapshot_calm,same]

theorem guarded_calm (performed : script.perform c found = some ends) :
    guarded c transactionId (Script.body script) (preimagesOf c found)
      ⟨⟨some (.journal (journalFor (preimagesOf c found) .prepared transactionId)),found,false⟩,[]⟩ =
      (.ok (),⟨⟨none,ends,false⟩,[]⟩) := by
  have entered := runBody_calm script ⟨some (.journal (journalFor (preimagesOf c found) .prepared transactionId)),found,false⟩ performed
  have passed : (interruptible : Act Disk Unit) ⟨⟨some (.journal (journalFor (preimagesOf c found) .prepared transactionId)),found,false⟩,[]⟩ =
      (.ok (),⟨⟨some (.journal (journalFor (preimagesOf c found) .prepared transactionId)),found,false⟩,[]⟩) := rfl
  have committed : commit (preimagesOf c found) transactionId
      ⟨⟨some (.journal (journalFor (preimagesOf c found) .prepared transactionId)),ends,false⟩,[]⟩ =
      (.ok (),⟨⟨none,ends,false⟩,[]⟩) := rfl
  simp only [guarded,enter,run_bind,passed,entered,committed]

theorem prepare_calm (preimages : List Preimage) (transactionId : String) (found : Contents) (poisoned : Bool) :
    prepare preimages transactionId ⟨⟨none,found,poisoned⟩,[]⟩ =
      (.ok (),⟨⟨some (.journal (journalFor preimages .prepared transactionId)),found,false⟩,[]⟩) := rfl

-- An undisturbed transaction does what its script says.
theorem transaction_calm (settled : effective c disk = some base) (performed : script.perform c base = some ends) :
    ∃ after, transaction c rollbackBaseExceptions transactionId (Script.body script) ⟨disk,[]⟩ = (.ok (),⟨after,[]⟩) ∧
      after.targets = ends ∧ after.journal = none := by
  obtain ⟨⟨journal,found,poisoned⟩,opened,same,closed⟩ := open_calm settled
  cases same
  cases closed
  refine ⟨⟨none,ends,false⟩,?_,rfl,rfl⟩
  rw [transaction,run_bind,opened]
  simp only [closeTransaction,run_bind,prepare_calm,run_catch,guarded_calm performed]

-- Nothing halts it, so nothing halts it late.
theorem calm_conditions (settled : effective c disk = some base) (performed : script.perform c base = some ends) :
    LateRollbackUndisturbed c rollbackBaseExceptions transactionId (Script.body script) ⟨disk,[]⟩ ∧
      CancelledEarly c rollbackBaseExceptions transactionId script.body ⟨disk,[]⟩ := by
  have returns (preimages : List Preimage) (inside opened stopped : World Disk) (halt : Halt)
      (opening : openTransaction c ⟨disk,[]⟩ = (.ok preimages,inside))
      (began : prepare preimages transactionId inside = (.ok (),opened)) :
      guarded c transactionId script.body preimages opened ≠ (.error halt,stopped) := by
    obtain ⟨⟨journal,found,poisoned⟩,there,same,closed⟩ := open_calm settled
    cases same
    cases closed
    rw [there] at opening
    cases opening
    rw [prepare_calm] at began
    cases began
    rw [guarded_calm performed]
    exact nofun
  constructor
  · intro preimages inside opened halt stopped opening began ran
    exact absurd ran (returns preimages inside opened stopped halt opening began)
  · intro preimages inside opened stopped opening began ran
    exact absurd ran (returns preimages inside opened stopped .baseException opening began)

-- Nothing but the script itself halts it, and the journal stays.
theorem runBody_silent (c : Coordinator) (script : Script) (disk : Disk) : ∃ result after,
    runBody c script.body ⟨disk,[]⟩ = (result,⟨after,[]⟩) ∧ (result = .ok () ∨ result = .error .exception) := by
  have unknown (name : String) (other : name ∉ c.targets) (disk : Disk) :
      target c name ⟨disk,[]⟩ = (.error .exception,⟨disk,[]⟩) := by
    unfold target
    rw [if_neg other]
    rfl
  induction script generalizing disk with
  | done => exact ⟨_,_,rfl,.inl rfl⟩
  | leave => exact ⟨_,_,rfl,.inr rfl⟩
  | read name next ih =>
    by_cases known : name ∈ c.targets
    · obtain ⟨result,after,ran,ended⟩ := ih (disk.targets name) disk
      refine ⟨result,after,?_,ended⟩
      simp only [Script.body,runBody,run_bind,target_calm known,observe_calm]
      exact ran
    · refine ⟨_,disk,?_,.inr rfl⟩
      simp only [Script.body,runBody,run_bind,unknown name known]
  | write name content =>
    by_cases known : name ∈ c.targets
    · refine ⟨.ok (),setTarget name (some content) disk,?_,.inl rfl⟩
      simp only [Script.body,runBody,run_bind,target_calm known]
      rfl
    · refine ⟨_,disk,?_,.inr rfl⟩
      simp only [Script.body,runBody,run_bind,unknown name known]
  | append name content =>
    by_cases known : name ∈ c.targets
    · refine ⟨.ok (),appendTarget name content disk,?_,.inl rfl⟩
      simp only [Script.body,runBody,run_bind,target_calm known]
      rfl
    · refine ⟨_,disk,?_,.inr rfl⟩
      simp only [Script.body,runBody,run_bind,unknown name known]
  | both first second ihFirst ihSecond =>
    obtain ⟨result,middle,began,ended⟩ := ihFirst disk
    rcases ended with rfl | rfl
    · obtain ⟨result,after,ran,ended⟩ := ihSecond middle
      refine ⟨result,after,?_,ended⟩
      simp only [Script.body,runBody,run_bind,began]
      exact ran
    · refine ⟨_,middle,?_,.inr rfl⟩
      simp only [Script.body,runBody,run_bind,began]
  | nested script ih =>
    obtain ⟨result,after,ran,ended⟩ := ih disk
    rcases ended with rfl | rfl
    · refine ⟨.ok (),after,?_,.inl rfl⟩
      simp only [Script.body,runBody,run_catch,ran]
    · refine ⟨.error .exception,setPoisoned true after,?_,.inr rfl⟩
      simp only [Script.body,runBody,run_catch,ran]
      rfl

theorem undo_silent (preimages : List Preimage) (disk : Disk) : ∃ after,
    undo preimages ⟨disk,[]⟩ = (.ok (),⟨after,[]⟩) ∧ after.journal = none := by
  have restored (items : List Preimage) (disk : Disk) : ∃ after, items.forM restoreTarget ⟨disk,[]⟩ = (.ok (),⟨after,[]⟩) := by
    induction items generalizing disk with
    | nil => exact ⟨disk,rfl⟩
    | cons item rest ih =>
      obtain ⟨after,ran⟩ := ih (setTarget item.target item.content disk)
      refine ⟨after,?_⟩
      have first : restoreTarget item ⟨disk,[]⟩ = (.ok (),⟨setTarget item.target item.content disk,[]⟩) := by
        rw [restoreTarget_exact]
        rfl
      have unfolded : (item :: rest).forM restoreTarget = restoreTarget item >>= fun _ => rest.forM restoreTarget := rfl
      rw [unfolded,run_bind,first]
      exact ran
  obtain ⟨after,ran⟩ := restored (preimages.insertionSort fun left right => left.target ≤ right.target) disk
  have unlinked : unlinkJournal true ⟨after,[]⟩ = (.ok (),⟨setJournal none after,[]⟩) := by
    have found : (current : Act Disk Disk) ⟨after,[]⟩ = (.ok after,⟨after,[]⟩) := rfl
    have kept : ¬(after.journal = none ∧ true = false) := by simp
    rw [unlinkJournal,run_bind,found]
    dsimp only
    rw [if_neg kept]
    rfl
  refine ⟨setJournal none after,?_,rfl⟩
  rw [undo,run_bind,restore,ran]
  exact unlinked

-- With nothing pending and nothing to interrupt it, a transaction does all of its
-- script or raises and leaves the targets as they were.
theorem transaction_silent (closed : disk.journal = none) (script : Script) (transactionId : String) :
    ∃ result after, transaction c false transactionId script.body ⟨disk,[]⟩ = (result,⟨after,[]⟩) ∧ after.journal = none ∧
      match script.perform c disk.targets with
      | some ends => result = .ok () ∧ after.targets = ends
      | none => result = .error .exception ∧ after.targets = disk.targets := by
  have settled : effective c disk = some disk.targets := effective_none closed
  cases performed : script.perform c disk.targets with
  | some ends =>
    obtain ⟨after,ran,same,left⟩ := transaction_calm settled performed
    exact ⟨_,after,ran,left,rfl,same⟩
  | none =>
    obtain ⟨⟨journal,found,poisoned⟩,opened,same,unpending⟩ := open_calm settled
    cases same
    cases unpending
    obtain ⟨result,stopped,body,ended⟩ := runBody_silent c script
      ⟨some (.journal (journalFor (preimagesOf c disk.targets) .prepared transactionId)),disk.targets,false⟩
    have raised : result = .error .exception := by
      rcases ended with rfl | raised
      · have done := (Script.run_performs c script _).ok rfl body
        rw [performed] at done
        cases done
      · exact raised
    subst raised
    obtain ⟨after,undone,left⟩ := undo_silent (preimagesOf c disk.targets) stopped
    have passed : (interruptible : Act Disk Unit) ⟨⟨some (.journal (journalFor (preimagesOf c disk.targets) .prepared transactionId)),
        disk.targets,false⟩,[]⟩ = (.ok (),⟨⟨some (.journal (journalFor (preimagesOf c disk.targets) .prepared transactionId)),
        disk.targets,false⟩,[]⟩) := rfl
    have rolled : rollback false (preimagesOf c disk.targets) .exception ⟨stopped,[]⟩ = (.error .exception,⟨after,[]⟩) := by
      rw [rollback,if_pos (show rollsBack false .exception = true from rfl),run_bind,undone]
      rfl
    have ran : transaction c false transactionId script.body ⟨disk,[]⟩ = (.error .exception,⟨after,[]⟩) := by
      rw [transaction,run_bind,opened]
      simp only [closeTransaction,run_bind,prepare_calm,run_catch,guarded,enter,passed,body]
      exact rolled
    refine ⟨_,after,ran,left,rfl,?_⟩
    rcases transaction_pointwise settled ran with ⟨_,still⟩ | ⟨ends,_,impossible,_⟩
    · rw [effective_none left] at still
      exact Option.some.inj still
    · rw [performed] at impossible
      cases impossible

end LocalTransaction
