import IntentEngineering.Storage.TransactionRecovery

namespace LocalTransaction
open Interrupt

-- The scope is open: its journal still says `prepared` and only targets differ
-- from the contents the scope started with.
def Inside (c : Coordinator) (preimages : List Preimage) (transactionId : String) (base : Contents)
    (disk : Disk) : Prop :=
  disk.journal = some (.journal (journalFor preimages .prepared transactionId)) ∧
    ∀ name, name ∉ c.targets → disk.targets name = base name

-- What `snapshot` returns for these contents.
def preimagesOf (c : Coordinator) (base : Contents) : List Preimage := c.targets.map fun name => ⟨name,base name⟩

theorem names_preimagesOf (c : Coordinator) (base : Contents) : names (preimagesOf c base) = c.targets := by
  simp [names,preimagesOf,Function.comp_def]

theorem targets_nodup (c : Coordinator) : c.targets.Nodup :=
  c.sorted.imp fun less same => absurd (same ▸ less) (String.lt_irrefl _)

theorem preimagesOf_readable (c : Coordinator) (base : Contents) (state : JournalState) (transactionId : String) :
    readableJournal c (.journal (journalFor (preimagesOf c base) state transactionId)) =
      some (journalFor (preimagesOf c base) state transactionId) := by
  have sorted : c.targets.Pairwise (· ≤ ·) := c.sorted.imp le_of_lt
  have same : targetSet (journalFor (preimagesOf c base) state transactionId) = c.targets := by
    unfold targetSet
    rw [show (journalFor (preimagesOf c base) state transactionId).preimages.map Preimage.target = c.targets from
      names_preimagesOf c base]
    exact sorted.insertionSort_eq
  simp only [readableJournal,same,true_or,if_true]

theorem overlay_preimagesOf {disk : Disk} (frame : ∀ name, name ∉ c.targets → disk.targets name = base name) :
    overlay (preimagesOf c base) disk.targets = base := by
  have distinct : (names (preimagesOf c base)).Nodup := by rw [names_preimagesOf]; exact targets_nodup c
  funext name
  by_cases inside : name ∈ c.targets
  · exact @overlay_present _ ⟨name,base name⟩ _ distinct (List.mem_map_of_mem inside)
  · rw [overlay_absent (by rwa [names_preimagesOf])]
    exact frame name inside

theorem inside_effective (inside : Inside c (preimagesOf c base) transactionId base disk) :
    effective c disk = some base := by
  rw [effective_journal inside.1 (preimagesOf_readable c base .prepared transactionId)]
  simp only [journalFor,if_true]
  rw [overlay_preimagesOf inside.2]

theorem inside_setTarget (inside : Inside c preimages transactionId base disk) (known : name ∈ c.targets) :
    Inside c preimages transactionId base (setTarget name content disk) := by
  refine ⟨inside.1,fun other outside => ?_⟩
  have different : other ≠ name := fun same => outside (same ▸ known)
  simpa [setTarget,different] using inside.2 other outside

theorem target_spec (c : Coordinator) (name : String) (kept : Disk → Prop) :
    Ensures kept (target c name) (fun _ disk => kept disk ∧ name ∈ c.targets) (fun _ => kept) := by
  unfold target
  split
  · rename_i known
    exact fun world start => ⟨start,known⟩
  · exact fun world start => start

-- Whatever the body does, and wherever it stops, the scope stays open on disk.
theorem runBody_spec (c : Coordinator) (preimages : List Preimage) (transactionId : String) (base : Contents)
    (body : Body) : Ensures (Inside c preimages transactionId base) (runBody c body)
      (fun _ => Inside c preimages transactionId base) (fun _ => Inside c preimages transactionId base) := by
  induction body with
  | done => exact ensures_pure (fun _ => Inside c preimages transactionId base) ()
  | leave halt => exact ensures_throw (fun _ => Inside c preimages transactionId base) halt
  | read name next ih =>
    refine ensures_bind _ (target_spec c name _) (fun _ => ?_)
    refine ensures_bind (fun _ => Inside c preimages transactionId base)
      (ensures_observe (fun _ start => start.1) (fun _ _ start => start.1)) (fun content => ih content)
  | write name content =>
    refine ensures_bind _ (target_spec c name _) (fun _ => ?_)
    refine ensures_bind (fun _ => Inside c preimages transactionId base) ?_
      (fun _ => ensures_interruptible (fun _ start => start) (fun _ _ start => start))
    exact ensures_atomically (fun _ start => inside_setTarget start.1 start.2) (fun _ _ start => start.1)
      (fun _ _ start => inside_setTarget start.1 start.2)
  | append name content =>
    refine ensures_bind _ (target_spec c name _) (fun _ => ?_)
    refine ensures_bind (fun _ => Inside c preimages transactionId base) ?_
      (fun _ => ensures_interruptible (fun _ start => start) (fun _ _ start => start))
    refine ensures_durable (fun _ start => inside_setTarget start.1 start.2) (fun disk _ reached start => ?_)
    cases reached with
    | zero => exact start.1
    | succ written => exact inside_setTarget start.1 start.2
  | both first second ihFirst ihSecond => exact ensures_bind _ ihFirst (fun _ => ihSecond)
  | attempt body handler ihBody ihHandler => exact ensures_handleException ihBody ihHandler
  | nested body ih =>
    refine ensures_catch ih (fun halt => ?_)
    exact ensures_bind _ (ensures_update (fun _ start => start))
      (fun _ => ensures_throw (fun _ => Inside c preimages transactionId base) halt)

theorem snapshot_spec (c : Coordinator) (before : Disk) :
    Ensures (· = before) (snapshot c)
      (fun preimages disk => disk = before ∧ preimages = preimagesOf c before.targets) (fun _ disk => disk = before) := by
  unfold snapshot preimagesOf
  induction c.targets with
  | nil => exact fun _ start => ⟨start,rfl⟩
  | cons name rest ih =>
    simp only [List.mapM_cons,List.map_cons]
    refine ensures_bind (fun preimage disk => disk = before ∧ preimage = ⟨name,before.targets name⟩) ?_
      (fun preimage => ?_)
    · refine ensures_bind (fun content disk => disk = before ∧ content = before.targets name)
        (ensures_observe (fun _ start => ⟨start,by rw [start]⟩) (fun _ _ start => start)) (fun content => ?_)
      exact fun _ start => ⟨start.1,by rw [start.2]⟩
    · refine ensures_bind (fun later disk => preimage = ⟨name,before.targets name⟩ ∧ disk = before ∧
        later = rest.map fun name => ⟨name,before.targets name⟩) ?_ (fun later => ?_)
      · refine ensures_each fun disk start => ?_
        obtain ⟨rfl,shape⟩ := start
        exact ensures_weaken ih (fun _ same => same) (fun _ _ done => ⟨shape,done⟩) (fun _ _ stop => stop)
      · exact fun _ start => ⟨start.2.1,by rw [start.1,start.2.2]⟩

theorem openTransaction_spec (opened : openTransaction c start = (.ok preimages,inside)) :
    inside.state.journal = none ∧ preimages = preimagesOf c inside.state.targets := by
  unfold openTransaction at opened
  rw [run_bind] at opened
  cases recovered : recoverUnlocked c start with
  | mk outcome middle =>
    rw [recovered] at opened
    cases outcome with
    | error halt => cases opened
    | ok done =>
      have taken := (snapshot_spec c middle.state).ok rfl opened
      rw [taken.1]
      exact ⟨(recover_returned recovered).2,taken.2⟩

theorem prepare_spec (c : Coordinator) (transactionId : String) (before : Disk) (closed : before.journal = none) :
    Ensures (· = before) (prepare (preimagesOf c before.targets) transactionId)
      (fun _ => Inside c (preimagesOf c before.targets) transactionId before.targets)
      (fun _ disk => effective c disk = some before.targets) := by
  have inside : Inside c (preimagesOf c before.targets) transactionId before.targets
      (setJournal (some (.journal (journalFor (preimagesOf c before.targets) .prepared transactionId))) before) :=
    ⟨rfl,fun _ _ => rfl⟩
  refine ensures_bind (fun _ => Inside c (preimagesOf c before.targets) transactionId before.targets) ?_
    (fun _ => ensures_update (fun _ start => start))
  refine ensures_atomically (fun _ start => by rw [start]; exact inside)
    (fun _ _ start => by rw [start]; exact effective_none closed)
    (fun _ _ start => by rw [start]; exact inside_effective inside)

-- The journal no longer says `prepared`: a recovery keeps the targets.
def Finished (preimages : List Preimage) (transactionId : String) (contents : Contents) (disk : Disk) : Prop :=
  disk.targets = contents ∧
    (disk.journal = some (.journal (journalFor preimages .committed transactionId)) ∨ disk.journal = none)

theorem finished_effective (finished : Finished (preimagesOf c base) transactionId contents disk) :
    effective c disk = some contents := by
  obtain ⟨same,present | missing⟩ := finished
  · rw [effective_journal present (preimagesOf_readable c base .committed transactionId)]
    exact congrArg some same
  · rw [effective_none missing,same]

theorem commit_spec (c : Coordinator) (transactionId : String) (base contents : Contents) :
    Ensures (fun disk => disk.targets = contents ∧ Inside c (preimagesOf c base) transactionId base disk)
      (commit (preimagesOf c base) transactionId)
      (fun _ => Finished (preimagesOf c base) transactionId contents)
      (fun _ disk => Inside c (preimagesOf c base) transactionId base disk ∨
        Finished (preimagesOf c base) transactionId contents disk) := by
  let finished := Finished (preimagesOf c base) transactionId contents
  unfold commit
  refine ensures_bind _ ensures_current (fun disk => ?_)
  split
  · refine ensures_bind (fun _ _ => False) ?_ (fun _ _ impossible => impossible.elim)
    exact fun world start => .inl start.2.2
  · refine ensures_bind (fun _ => finished) ?_ (fun _ => ensures_bind (fun _ => finished) ?_ (fun _ => ?_))
    · exact ensures_atomically (fun s start => ⟨start.2.1,.inl rfl⟩) (fun s _ start => .inl start.2.2)
        (fun s _ start => .inr ⟨start.2.1,.inl rfl⟩)
    · exact ensures_interruptible (fun _ start => start) (fun _ _ start => .inr start)
    · refine ensures_each fun before start => ?_
      refine ensures_weaken (unlinkJournal_spec false before) (fun _ same => same)
        (fun _ s done => by rw [done]; exact ⟨start.1,.inr rfl⟩) (fun _ s stop => ?_)
      rcases stop with rfl | rfl
      · exact .inr start
      · exact .inr ⟨start.1,.inr rfl⟩

theorem undo_prepared (c : Coordinator) (transactionId : String) (base : Contents) :
    Ensures (Inside c (preimagesOf c base) transactionId base) (undo (preimagesOf c base))
      (fun _ disk => effective c disk = some base) (fun _ disk => effective c disk = some base) := by
  have distinct : (names (preimagesOf c base)).Nodup := by rw [names_preimagesOf]; exact targets_nodup c
  have readable := preimagesOf_readable c base .prepared transactionId
  unfold undo
  refine ensures_bind (fun _ disk => disk.targets = base ∧ effective c disk = some base) ?_ (fun _ => ?_)
  · refine ensures_weaken (restore_spec distinct base
      (some (.journal (journalFor (preimagesOf c base) .prepared transactionId))))
      (fun disk inside => ⟨overlay_preimagesOf inside.2,inside.1⟩) (fun _ disk done => ⟨done.1,?_⟩) (fun _ disk stop => ?_)
    · rw [effective_journal done.2.2 readable]; exact congrArg some done.2.1
    · rw [effective_journal stop.2 readable]; exact congrArg some stop.1
  · exact ensures_weaken (unlinkJournal_settles c true base) (fun _ start => start)
      (fun _ disk done => by rw [effective_none done.2,done.1]) (fun _ _ stop => stop)

theorem restore_undisturbed (calm : Undisturbed preimages.length world) :
    ∃ after, restore preimages world = (.ok (),after) := by
  refine forM_undisturbed ?_ (fun preimage => ?_)
  · rwa [List.length_insertionSort]
  · exact ⟨_,_,restoreTarget_exact preimage⟩

-- With the journal past `prepared` only the restore loop itself protects the
-- preimages, so here it has to run through.
theorem undo_finished (finished : Finished (preimagesOf c base) transactionId contents world.state)
    (frame : ∀ name, name ∉ c.targets → contents name = base name)
    (calm : Undisturbed (preimagesOf c base).length world)
    (ran : undo (preimagesOf c base) world = (result,after)) : effective c after.state = some base := by
  have distinct : (names (preimagesOf c base)).Nodup := by rw [names_preimagesOf]; exact targets_nodup c
  have covered : overlay (preimagesOf c base) world.state.targets = base :=
    overlay_preimagesOf fun name outside => by rw [finished.1]; exact frame name outside
  obtain ⟨middle,restored⟩ := restore_undisturbed calm
  have done := (restore_spec distinct base world.state.journal).ok ⟨covered,rfl⟩ restored
  have settled : middle.state.targets = base ∧ effective c middle.state = some base :=
    ⟨done.1,@finished_effective c base transactionId _ _ ⟨done.1,by rw [done.2.2]; exact finished.2⟩⟩
  unfold undo at ran
  rw [run_bind,restored] at ran
  cases result with
  | ok value =>
    have left := (unlinkJournal_settles c true base).ok settled ran
    rw [effective_none left.2,left.1]
  | error halt => exact (unlinkJournal_settles c true base).error settled ran

theorem run_rollback (ran : rollback rollbackBaseExceptions preimages halt before = (result,after)) :
    (∃ stopped, result = .error stopped) ∧
      ((rollsBack rollbackBaseExceptions halt = false ∧ result = .error halt ∧ after = before) ∨
        (rollsBack rollbackBaseExceptions halt = true ∧ ∃ outcome, undo preimages before = (outcome,after))) := by
  unfold rollback at ran
  split at ran
  · rename_i back
    rw [run_bind] at ran
    cases undone : undo preimages before with
    | mk outcome middle =>
      rw [undone] at ran
      cases outcome <;> cases ran <;> exact ⟨⟨_,rfl⟩,.inr ⟨back,_,rfl⟩⟩
  · rename_i back
    cases ran
    exact ⟨⟨_,rfl⟩,.inl ⟨by simpa using back,rfl,rfl⟩⟩

-- The contents when the caller's scope returns, if it does.
def enterEnd (c : Coordinator) (body : Body) (opened : World Disk) : Option Contents :=
  match enter c body opened with
  | (.ok _,after) => some after.state.targets
  | (.error _,_) => none

def bodyEnd (c : Coordinator) (transactionId : String) (body : Body) (preimages : List Preimage)
    (inside : World Disk) : Option Contents :=
  match prepare preimages transactionId inside with
  | (.ok _,opened) => enterEnd c body opened
  | (.error _,_) => none

def CrashAtomic (c : Coordinator) (rollbackBaseExceptions : Bool) (transactionId : String) (body : Body)
    (start : World Disk) : Prop :=
  ∀ preimages inside result after final, openTransaction c start = (.ok preimages,inside) →
    transaction c rollbackBaseExceptions transactionId body start = (result,after) →
    Recovers c after.state final →
      (final.targets = inside.state.targets ∨ bodyEnd c transactionId body preimages inside = some final.targets) ∧
      (result = .ok () → bodyEnd c transactionId body preimages inside = some final.targets) ∧
      (result = .error .exception → final.targets = inside.state.targets)

-- The condition is about the state a rollback starts in: once the journal no
-- longer says `prepared`, nothing interrupts the restore loop.
def LateRollbackUndisturbed (c : Coordinator) (rollbackBaseExceptions : Bool) (transactionId : String) (body : Body)
    (start : World Disk) : Prop :=
  ∀ preimages inside opened halt stopped, openTransaction c start = (.ok preimages,inside) →
    prepare preimages transactionId inside = (.ok (),opened) →
    guarded c transactionId body preimages opened = (.error halt,stopped) →
    rollsBack rollbackBaseExceptions halt = true →
    stopped.state.journal ≠ some (.journal (journalFor preimages .prepared transactionId)) →
    Undisturbed preimages.length stopped

theorem enter_spec (c : Coordinator) (preimages : List Preimage) (transactionId : String) (base : Contents)
    (body : Body) : Ensures (Inside c preimages transactionId base) (enter c body)
      (fun _ => Inside c preimages transactionId base) (fun _ => Inside c preimages transactionId base) :=
  ensures_bind (fun _ => Inside c preimages transactionId base)
    (ensures_interruptible (fun _ start => start) (fun _ _ start => start))
    (fun _ => runBody_spec c preimages transactionId base body)

theorem guarded_parts (inside : Inside c (preimagesOf c base) transactionId base opened.state)
    (ran : guarded c transactionId body (preimagesOf c base) opened = (result,after)) :
    (result ≠ .ok () ∧ Inside c (preimagesOf c base) transactionId base after.state) ∨
      ∃ contents, enterEnd c body opened = some contents ∧ (∀ name, name ∉ c.targets → contents name = base name) ∧
        Finished (preimagesOf c base) transactionId contents after.state := by
  have entered := enter_spec c (preimagesOf c base) transactionId base body opened inside
  unfold guarded at ran
  rw [run_bind] at ran
  unfold enterEnd
  cases scope : enter c body opened with
  | mk outcome ended =>
    rw [scope] at entered ran
    cases outcome with
    | error halt =>
      cases ran
      exact .inl ⟨by simp,entered⟩
    | ok value =>
      have committed := commit_spec c transactionId base ended.state.targets ended ⟨rfl,entered⟩
      dsimp only at ran
      rw [ran] at committed
      cases result with
      | ok value => exact .inr ⟨_,rfl,entered.2,committed⟩
      | error halt =>
        rcases committed with still | finished
        · exact .inl ⟨by simp,still⟩
        · exact .inr ⟨_,rfl,entered.2,finished⟩

-- A rollback ends with the preimages in effect unless it is not made at all,
-- and then the scope had already finished.
theorem rollback_settles {before : World Disk}
    (stopped : Inside c (preimagesOf c base) transactionId base before.state ∨
      Finished (preimagesOf c base) transactionId contents before.state)
    (frame : ∀ name, name ∉ c.targets → contents name = base name)
    (calm : rollsBack rollbackBaseExceptions halt = true →
      before.state.journal ≠ some (.journal (journalFor (preimagesOf c base) .prepared transactionId)) →
      Undisturbed (preimagesOf c base).length before)
    (ran : rollback rollbackBaseExceptions (preimagesOf c base) halt before = (result,after)) :
    result ≠ .ok () ∧ (effective c after.state = some base ∨
      (result ≠ .error .exception ∧ Finished (preimagesOf c base) transactionId contents after.state)) := by
  obtain ⟨⟨left,failed⟩,⟨kept,same,rfl⟩ | ⟨back,outcome,undone⟩⟩ := run_rollback ran
  · refine ⟨by simp [failed],?_⟩
    rcases stopped with inside | finished
    · exact .inl (inside_effective inside)
    · refine .inr ⟨?_,finished⟩
      rw [same]
      cases halt <;> simp [rollsBack] at kept ⊢
  · refine ⟨by simp [failed],.inl ?_⟩
    rcases stopped with inside | finished
    · have settled := undo_prepared c transactionId base before inside
      rw [undone] at settled
      cases outcome <;> exact settled
    · refine undo_finished finished frame (calm back fun prepared => ?_) undone
      rcases finished.2 with committed | missing
      · rw [committed] at prepared; cases prepared
      · rw [missing] at prepared; cases prepared

theorem closed_parts {opened : World Disk} (inside : Inside c (preimagesOf c base) transactionId base opened.state)
    (calm : ∀ halt stopped, guarded c transactionId body (preimagesOf c base) opened = (.error halt,stopped) →
      rollsBack rollbackBaseExceptions halt = true →
      stopped.state.journal ≠ some (.journal (journalFor (preimagesOf c base) .prepared transactionId)) →
      Undisturbed (preimagesOf c base).length stopped)
    (ran : tryCatch (guarded c transactionId body (preimagesOf c base))
      (rollback rollbackBaseExceptions (preimagesOf c base)) opened = (result,after)) :
    (result ≠ .ok () ∧ effective c after.state = some base) ∨
      (result ≠ .error .exception ∧ ∃ contents, enterEnd c body opened = some contents ∧
        effective c after.state = some contents) := by
  rw [run_catch] at ran
  cases tried : guarded c transactionId body (preimagesOf c base) opened with
  | mk outcome middle =>
    have parts := guarded_parts inside tried
    rw [tried] at ran
    cases outcome with
    | ok value =>
      cases ran
      rcases parts with ⟨failed,_⟩ | ⟨contents,reached,_,finished⟩
      · exact (failed rfl).elim
      · exact .inr ⟨by simp,contents,reached,finished_effective finished⟩
    | error halt =>
      rcases parts with ⟨_,still⟩ | ⟨contents,reached,frame,finished⟩
      · obtain ⟨failed,settled | ⟨_,impossible⟩⟩ :=
          @rollback_settles c base transactionId base _ _ _ _ _ (.inl still) (fun _ _ => rfl) (calm halt middle tried) ran
        · exact .inl ⟨failed,settled⟩
        · exact .inl ⟨failed,finished_effective impossible⟩
      · obtain ⟨failed,settled | ⟨kept,done⟩⟩ :=
          rollback_settles (.inr finished) frame (calm halt middle tried) ran
        · exact .inl ⟨failed,settled⟩
        · exact .inr ⟨kept,contents,reached,finished_effective done⟩

theorem transaction_crash_atomic
    (calm : LateRollbackUndisturbed c rollbackBaseExceptions transactionId body start) :
    CrashAtomic c rollbackBaseExceptions transactionId body start := by
  intro preimages inside result after final opened ran path
  obtain ⟨closed,rfl⟩ := openTransaction_spec opened
  have ran : closeTransaction c rollbackBaseExceptions transactionId body (preimagesOf c inside.state.targets) inside =
      (result,after) := by
    simpa only [transaction,run_bind,opened] using ran
  have prepared := prepare_spec c transactionId inside.state closed inside rfl
  unfold closeTransaction at ran
  rw [run_bind] at ran
  unfold bodyEnd
  cases began : prepare (preimagesOf c inside.state.targets) transactionId inside with
  | mk outcome first =>
    rw [began] at ran prepared
    cases outcome with
    | error halt =>
      cases ran
      have same := recovers_effective path prepared
      exact ⟨.inl same,by simp,fun _ => same⟩
    | ok value =>
      rcases closed_parts prepared (fun halt stopped => calm _ _ _ _ _ opened began) ran with
        ⟨failed,settled⟩ | ⟨kept,contents,reached,settled⟩
      · have same := recovers_effective path settled
        exact ⟨.inl same,fun succeeded => (failed succeeded).elim,fun _ => same⟩
      · have same := recovers_effective path settled
        dsimp only
        rw [reached,same]
        exact ⟨.inr rfl,fun _ => rfl,fun raised => (kept raised).elim⟩

-- Two targets, both replaced by the body. The `journal_committed` stage raises,
-- the rollback puts the first target back and the process dies at the second.
def graphAndHistory : Coordinator where
  targets := ["graph","history"]
  legacyTargetSets := []
  nonempty := by decide
  valid := by decide
  sorted := by decide
  legacySorted := noLegacySets_sorted
  legacyProper := by simp
  legacyDistinct := noLegacySets_distinct

def replaceBoth : Body := .both (.write "graph" [1]) (.write "history" [1])

def committedStageRaises (later : List (Option Fault)) : World Disk :=
  ⟨⟨none,fun _ => some [0],false⟩,List.replicate 10 none ++ some ⟨.exception,0⟩ :: later⟩

theorem transaction_mixture :
    ¬CrashAtomic graphAndHistory false "" replaceBoth (committedStageRaises [none,some ⟨.died,0⟩]) := by
  intro atomic
  obtain ⟨unmixed,_⟩ := atomic _ _ _ _ _ rfl rfl (.completed (show recoverUnlocked graphAndHistory ⟨_,[]⟩ = (.ok true,_) from rfl))
  rcases unmixed with before | ended
  · have history := congrFun before "history"
    revert history
    decide
  · have graph := congrArg (fun contents => contents.map fun targets => targets "graph") ended
    revert graph
    decide

theorem transaction_raised_atomic :
    CrashAtomic graphAndHistory false "" replaceBoth (committedStageRaises []) := by
  refine transaction_crash_atomic ?_
  intro preimages inside opened halt stopped began prepared tried _ _
  cases began
  cases prepared
  cases tried
  exact fun entry member => by cases member

end LocalTransaction
