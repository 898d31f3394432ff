import IntentEngineering.Storage.JournalInterop

namespace LocalTransaction
open Interrupt

-- A body that catches nothing of its own.
inductive Script where
  | done
  | leave
  | read (name : String) (next : Option Bytes → Script)
  | write (name : String) (content : Bytes)
  | append (name : String) (content : Bytes)
  | both (first second : Script)
  | nested (script : Script)

namespace Script

def body : Script → Body
  | .done => .done
  | .leave => .leave .exception
  | .read name next => .read name fun content => (next content).body
  | .write name content => .write name content
  | .append name content => .append name content
  | .both first second => .both first.body second.body
  | .nested script => .nested script.body

def put (name : String) (content : Bytes) (contents : Contents) : Contents := fun other =>
  if other = name then some content else contents other

-- What the script makes of the contents, if nothing of it raises.
def perform (c : Coordinator) : Script → Contents → Option Contents
  | .done, contents => some contents
  | .leave, _ => none
  | .read name next, contents => if name ∈ c.targets then (next (contents name)).perform c contents else none
  | .write name content, contents => if name ∈ c.targets then some (put name content contents) else none
  | .append name content, contents =>
    if name ∈ c.targets then some (put name ((contents name).getD [] ++ content) contents) else none
  | .both first second, contents => (first.perform c contents).bind (second.perform c)
  | .nested script, contents => script.perform c contents

theorem put_targets (name : String) (content : Bytes) (disk : Disk) :
    (setTarget name (some content) disk).targets = put name content disk.targets := rfl

theorem target_known (c : Coordinator) (name : String) (disk : Disk) :
    Ensures (· = disk) (target c name) (fun _ after => after = disk ∧ name ∈ c.targets) (fun _ _ => True) :=
  ensures_weaken (target_spec c name (· = disk)) (fun _ same => same) (fun _ _ done => done) (fun _ _ _ => trivial)

-- A body that returns has done what its script says, whatever the schedule.
theorem run_performs (c : Coordinator) (script : Script) (disk : Disk) :
    Ensures (· = disk) (runBody c script.body) (fun _ after => script.perform c disk.targets = some after.targets)
      (fun _ _ => True) := by
  induction script generalizing disk with
  | done => exact fun world same => by rw [←same]; rfl
  | leave => exact fun _ _ => trivial
  | read name next ih =>
    apply ensures_bind _ (target_known c name disk)
    intro _
    apply ensures_bind (fun content after => content = disk.targets name ∧ after = disk ∧ name ∈ c.targets)
    · exact ensures_observe (fun _ start => ⟨by rw [start.1],start⟩) (fun _ _ _ => trivial)
    · intro content world start
      obtain ⟨rfl,same,known⟩ := start
      have result := ih (disk.targets name) disk world same
      simpa only [perform,if_pos known] using result
  | write name content =>
    apply ensures_bind _ (target_known c name disk)
    intro _
    apply ensures_bind (fun _ after => after = setTarget name (some content) disk ∧ name ∈ c.targets)
    · apply ensures_atomically
      · intro s start
        exact ⟨by rw [start.1],start.2⟩
      · exact fun _ _ _ => trivial
      · exact fun _ _ _ => trivial
    · intro _
      apply ensures_interruptible
      · intro s start
        rw [perform,if_pos start.2,start.1,put_targets]
      · exact fun _ _ _ => trivial
  | append name content =>
    apply ensures_bind _ (target_known c name disk)
    intro _
    apply ensures_bind (fun _ after => after = appendTarget name content disk ∧ name ∈ c.targets)
    · apply ensures_durable
      · intro s start
        exact ⟨by rw [start.1],start.2⟩
      · exact fun _ _ _ _ => trivial
    · intro _
      apply ensures_interruptible
      · intro s start
        rw [perform,if_pos start.2,start.1,appendTarget,put_targets]
      · exact fun _ _ _ => trivial
  | both first second ihFirst ihSecond =>
    apply ensures_bind _ (ihFirst disk)
    intro _
    apply ensures_each
    intro middle reached
    apply ensures_weaken (ihSecond middle) (fun _ same => same) _ (fun _ _ stop => stop)
    intro _ after done
    rw [perform,reached]
    exact done
  | nested script ih =>
    apply ensures_catch (ih disk)
    intro halt
    exact ensures_bind (fun _ _ => True) (ensures_update (fun _ _ => trivial)) (fun _ => ensures_throw (fun _ _ => True) halt)

theorem enter_performs (c : Coordinator) (script : Script) (opened : World Disk)
    (ended : enterEnd c script.body opened = some contents) : script.perform c opened.state.targets = some contents := by
  have entered : Ensures (· = opened.state) (enter c script.body)
      (fun _ after => script.perform c opened.state.targets = some after.targets) (fun _ _ => True) := by
    apply ensures_bind (fun _ after => after = opened.state)
    · exact ensures_interruptible (fun _ same => same) (fun _ _ _ => trivial)
    · intro _
      exact run_performs c script opened.state
  unfold enterEnd at ended
  split at ended
  · rename_i value after ran
    cases ended
    exact entered.ok rfl ran
  · cases ended

-- The script has no write to the target.
def Spares (name : String) : Script → Prop
  | .done => True
  | .leave => True
  | .read _ next => ∀ content, (next content).Spares name
  | .write other _ => other ≠ name
  | .append other _ => other ≠ name
  | .both first second => first.Spares name ∧ second.Spares name
  | .nested script => script.Spares name

theorem perform_spared {script : Script} {contents ends : Contents} (spares : script.Spares name)
    (performed : script.perform c contents = some ends) : ends name = contents name := by
  induction script generalizing contents ends with
  | done =>
    cases performed
    rfl
  | leave => cases performed
  | read other next ih =>
    simp only [perform] at performed
    split at performed
    · exact ih (contents other) (spares (contents other)) performed
    · cases performed
  | write other content =>
    simp only [perform] at performed
    split at performed
    · cases performed
      exact if_neg (Ne.symm spares)
    · cases performed
  | append other content =>
    simp only [perform] at performed
    split at performed
    · cases performed
      exact if_neg (Ne.symm spares)
    · cases performed
  | both first second ihFirst ihSecond =>
    obtain ⟨middle,began,ended⟩ := Option.bind_eq_some_iff.mp performed
    rw [ihSecond spares.2 ended,ihFirst spares.1 began]
  | nested script ih => exact ih spares performed

end Script

-- The journal no longer protects anything, and every target has one of two contents.
def Between (preimages : List Preimage) (transactionId : String) (base ends : Contents) (disk : Disk) : Prop :=
  (∀ name, disk.targets name = base name ∨ disk.targets name = ends name) ∧
    (disk.journal = some (.journal (journalFor preimages .committed transactionId)) ∨ disk.journal = none)

theorem between_effective (between : Between (preimagesOf c base') transactionId base ends disk) :
    effective c disk = some disk.targets := by
  rcases between.2 with committed | missing
  · rw [effective_journal committed (preimagesOf_readable c base' .committed transactionId)]
    rfl
  · exact effective_none missing

-- A rollback behind the commit puts back some of the preimages.
theorem undo_between (c : Coordinator) (transactionId : String) (base ends : Contents) :
    Ensures (Between (preimagesOf c base) transactionId base ends) (undo (preimagesOf c base))
      (fun _ => Between (preimagesOf c base) transactionId base ends)
      (fun _ => Between (preimagesOf c base) transactionId base ends) := by
  let between := Between (preimagesOf c base) transactionId base ends
  have unlinked (disk : Disk) (start : between disk) : between (setJournal none disk) := ⟨start.1,.inr rfl⟩
  apply ensures_bind (fun _ => between)
  · let kept (rest : List Preimage) (disk : Disk) : Prop := (∀ preimage ∈ rest, preimage.content = base preimage.target) ∧ between disk
    have each (item : Preimage) (rest : List Preimage) :
        Ensures (kept (item :: rest)) (restoreTarget item) (fun _ => kept rest) (fun _ => between) := by
      have restored (disk : Disk) (start : kept (item :: rest) disk) : between (setTarget item.target item.content disk) := by
        refine ⟨fun name => ?_,start.2.2⟩
        by_cases here : name = item.target
        · subst here
          exact .inl (by simpa [setTarget] using start.1 item (by simp))
        · simpa [setTarget,here] using start.2.1 name
      rw [restoreTarget_exact]
      apply ensures_atomically
      · exact fun disk start => ⟨fun other member => start.1 other (by simp [member]),restored disk start⟩
      · exact fun disk _ start => start.2
      · exact fun disk _ start => restored disk start
    apply ensures_weaken (ensures_forM each _)
    · intro disk start
      refine ⟨fun preimage member => ?_,start⟩
      have inside := (List.perm_insertionSort _ _).mem_iff.mp member
      obtain ⟨name,_,rfl⟩ := List.mem_map.mp inside
      rfl
    · exact fun _ disk done => done.2
    · exact fun _ _ stop => stop
  · intro _
    apply ensures_each
    intro disk start
    apply ensures_weaken (unlinkJournal_spec true disk) (fun _ same => same)
    · intro _ after done
      rw [done]
      exact unlinked disk start
    · intro _ after stop
      rcases stop with rfl | rfl
      · exact start
      · exact unlinked disk start

theorem prepare_targets (c : Coordinator) (transactionId : String) (before : Disk) :
    Ensures (· = before) (prepare (preimagesOf c before.targets) transactionId) (fun _ disk => disk.targets = before.targets)
      (fun _ _ => True) := by
  apply ensures_bind (fun _ disk => disk.targets = before.targets)
  · apply ensures_atomically
    · intro disk same
      rw [same]
      rfl
    · exact fun _ _ _ => trivial
    · exact fun _ _ _ => trivial
  · intro _
    exact ensures_update (fun _ same => same)

-- What one transaction leaves, under any schedule: every target as it was before
-- or as the body left it.
def Mixed (base ends contents : Contents) : Prop := ∀ name, contents name = base name ∨ contents name = ends name

theorem Mixed.base (base ends : Contents) : Mixed base ends base := fun _ => .inl rfl
theorem Mixed.ends (base ends : Contents) : Mixed base ends ends := fun _ => .inr rfl

theorem closed_pointwise {opened : World Disk} (inside : Inside c (preimagesOf c base) transactionId base opened.state)
    (ran : tryCatch (guarded c transactionId body (preimagesOf c base))
      (rollback rollbackBaseExceptions (preimagesOf c base)) opened = (result,after)) :
    (result ≠ .ok () ∧ effective c after.state = some base) ∨
      ∃ ends contents, enterEnd c body opened = some ends ∧ effective c after.state = some contents ∧ Mixed base ends contents ∧
        (result = .ok () → contents = ends) := by
  rw [run_catch] at ran
  cases tried : guarded c transactionId body (preimagesOf c base) opened with
  | mk outcome middle =>
    have parts := guarded_parts inside tried
    rw [tried] at ran
    cases outcome with
    | ok value =>
      cases ran
      rcases parts with ⟨failed,_⟩ | ⟨ends,reached,_,finished⟩
      · exact (failed rfl).elim
      · exact .inr ⟨ends,ends,reached,finished_effective finished,Mixed.ends base ends,fun _ => rfl⟩
    | error halt =>
      obtain ⟨⟨stopped,failed⟩,undone⟩ := run_rollback ran
      rcases parts with ⟨_,still⟩ | ⟨ends,reached,_,finished⟩
      · refine .inl ⟨by simp [failed],?_⟩
        rcases undone with ⟨_,_,rfl⟩ | ⟨_,done,undone⟩
        · exact inside_effective still
        · have settled := undo_prepared c transactionId base middle still
          rw [undone] at settled
          cases done <;> exact settled
      · right
        have start : Between (preimagesOf c base) transactionId base ends middle.state :=
          ⟨fun name => .inr (by rw [finished.1]),finished.2⟩
        have kept : Between (preimagesOf c base) transactionId base ends after.state := by
          rcases undone with ⟨_,_,rfl⟩ | ⟨_,done,undone⟩
          · exact start
          · have result := undo_between c transactionId base ends middle start
            rw [undone] at result
            cases done <;> exact result
        refine ⟨ends,after.state.targets,reached,between_effective kept,kept.1,?_⟩
        rw [failed]
        simp

-- A transaction that gets past its preparation starts its body on the contents in
-- effect; one that does not changes nothing.
theorem transaction_opened {start : World Disk} (settled : effective c start.state = some base)
    (ran : transaction c rollbackBaseExceptions transactionId body start = (result,after)) :
    (result ≠ .ok () ∧ effective c after.state = some base) ∨
      ∃ inside opened, openTransaction c start = (.ok (preimagesOf c base),inside) ∧
        prepare (preimagesOf c base) transactionId inside = (.ok (),opened) ∧
        Inside c (preimagesOf c base) transactionId base opened.state ∧ opened.state.targets = base ∧
        tryCatch (guarded c transactionId body (preimagesOf c base))
          (rollback rollbackBaseExceptions (preimagesOf c base)) opened = (result,after) := by
  unfold transaction at ran
  rw [run_bind] at ran
  cases opening : openTransaction c start with
  | mk outcome inside =>
    rw [opening] at ran
    cases outcome with
    | error halt =>
      cases ran
      refine .inl ⟨by simp,?_⟩
      unfold openTransaction at opening
      rw [run_bind] at opening
      cases recovered : recoverUnlocked c start with
      | mk outcome middle =>
        rw [recovered] at opening
        cases outcome with
        | error _ =>
          cases opening
          exact (recover_spec c base).error settled recovered
        | ok done =>
          have same := (snapshot_spec c middle.state).error rfl opening
          have found := (recover_spec c base).ok settled recovered
          rw [same,effective_none found.2,found.1]
    | ok preimages =>
      obtain ⟨closed,rfl⟩ := openTransaction_spec opening
      have same : inside.state.targets = base := by
        unfold openTransaction at opening
        rw [run_bind] at opening
        cases recovered : recoverUnlocked c start with
        | mk outcome middle =>
          rw [recovered] at opening
          cases outcome with
          | error _ => cases opening
          | ok done =>
            have taken := (snapshot_spec c middle.state).ok rfl opening
            rw [taken.1]
            exact ((recover_spec c base).ok settled recovered).1
      subst same
      dsimp only at ran
      unfold closeTransaction at ran
      rw [run_bind] at ran
      cases began : prepare (preimagesOf c inside.state.targets) transactionId inside with
      | mk outcome opened =>
        have prepared := prepare_spec c transactionId inside.state closed inside rfl
        rw [began] at ran prepared
        cases outcome with
        | error halt =>
          cases ran
          exact .inl ⟨by simp,prepared⟩
        | ok value =>
          have kept := (prepare_targets c transactionId inside.state).ok rfl began
          exact .inr ⟨inside,opened,rfl,began,prepared,kept,ran⟩

theorem transaction_pointwise (settled : effective c disk = some base)
    (ran : transaction c rollbackBaseExceptions transactionId (Script.body script) ⟨disk,schedule⟩ = (result,after)) :
    (result ≠ .ok () ∧ effective c after.state = some base) ∨
      ∃ ends contents, script.perform c base = some ends ∧ effective c after.state = some contents ∧ Mixed base ends contents ∧
        (result = .ok () → contents = ends) := by
  rcases transaction_opened settled ran with unchanged | ⟨inside,opened,_,_,scope,same,tried⟩
  · exact .inl unchanged
  · rcases closed_pointwise scope tried with unchanged | ⟨ends,contents,reached,left⟩
    · exact .inl unchanged
    · have performed := Script.enter_performs c script opened reached
      rw [same] at performed
      exact .inr ⟨ends,contents,performed,left⟩

-- With an undisturbed late rollback it is all of them or none.
theorem transaction_settles (settled : effective c disk = some base)
    (calm : LateRollbackUndisturbed c rollbackBaseExceptions transactionId (Script.body script) ⟨disk,schedule⟩)
    (ran : transaction c rollbackBaseExceptions transactionId script.body ⟨disk,schedule⟩ = (result,after)) :
    (result ≠ .ok () ∧ effective c after.state = some base) ∨
      (result ≠ .error .exception ∧ ∃ ends, script.perform c base = some ends ∧ effective c after.state = some ends) := by
  rcases transaction_opened settled ran with unchanged | ⟨inside,opened,opening,began,scope,same,tried⟩
  · exact .inl unchanged
  · rcases closed_parts scope (fun halt stopped => calm _ _ _ _ _ opening began) tried with
      unchanged | ⟨kept,ends,reached,left⟩
    · exact .inl unchanged
    · have performed := Script.enter_performs c script opened reached
      rw [same] at performed
      exact .inr ⟨kept,ends,performed,left⟩

-- No cancellation that the rollback passes over arrives behind the commit.
def CancelledEarly (c : Coordinator) (rollbackBaseExceptions : Bool) (transactionId : String) (body : Body)
    (start : World Disk) : Prop :=
  ∀ preimages inside opened stopped, openTransaction c start = (.ok preimages,inside) →
    prepare preimages transactionId inside = (.ok (),opened) →
    guarded c transactionId body preimages opened = (.error .baseException,stopped) →
    rollsBack rollbackBaseExceptions .baseException = false →
    stopped.state.journal = some (.journal (journalFor preimages .prepared transactionId))

theorem finished_unprepared (finished : Finished preimages transactionId contents disk) :
    disk.journal ≠ some (.journal (journalFor preimages .prepared transactionId)) := by
  intro prepared
  rcases finished.2 with committed | missing
  · rw [committed] at prepared
    cases prepared
  · rw [missing] at prepared
    cases prepared

-- A transaction that raises has changed nothing.
theorem transaction_unwinds (settled : effective c disk = some base)
    (calm : LateRollbackUndisturbed c rollbackBaseExceptions transactionId (Script.body script) ⟨disk,schedule⟩)
    (early : CancelledEarly c rollbackBaseExceptions transactionId script.body ⟨disk,schedule⟩)
    (ran : transaction c rollbackBaseExceptions transactionId script.body ⟨disk,schedule⟩ = (.error halt,after))
    (alive : halt ≠ .died) : effective c after.state = some base := by
  rcases transaction_opened settled ran with unchanged | ⟨inside,opened,opening,began,scope,_,tried⟩
  · exact unchanged.2
  · rw [run_catch] at tried
    cases guardedly : guarded c transactionId script.body (preimagesOf c base) opened with
    | mk outcome middle =>
      have parts := guarded_parts scope guardedly
      rw [guardedly] at tried
      cases outcome with
      | ok value => cases tried
      | error first =>
        rcases parts with ⟨_,still⟩ | ⟨ends,_,frame,finished⟩
        · obtain ⟨_,done | ⟨_,impossible⟩⟩ :=
            @rollback_settles c base transactionId base _ _ _ _ _ (.inl still) (fun _ _ => rfl)
              (calm _ _ _ _ _ opening began guardedly) tried
          · exact done
          · exact finished_effective impossible
        · obtain ⟨_,⟨kept,same,_⟩ | ⟨back,outcome,undone⟩⟩ := run_rollback tried
          · cases same
            exfalso
            cases halt with
            | exception => cases kept
            | baseException => exact finished_unprepared finished (early _ _ _ _ opening began guardedly kept)
            | died => exact alive rfl
          · exact undo_finished finished frame (calm _ _ _ _ _ opening began guardedly back (finished_unprepared finished)) undone

-- Raised and unchanged, or done; a death may leave either.
theorem transaction_effect (settled : effective c disk = some base)
    (calm : LateRollbackUndisturbed c rollbackBaseExceptions transactionId (Script.body script) ⟨disk,schedule⟩)
    (early : CancelledEarly c rollbackBaseExceptions transactionId script.body ⟨disk,schedule⟩)
    (ran : transaction c rollbackBaseExceptions transactionId script.body ⟨disk,schedule⟩ = (result,after)) :
    (result ≠ .ok () ∧ effective c after.state = some base) ∨
      ((result = .ok () ∨ result = .error .died) ∧ ∃ ends, script.perform c base = some ends ∧ effective c after.state = some ends) := by
  rcases transaction_settles settled calm ran with unchanged | ⟨_,done⟩
  · exact .inl unchanged
  · cases result with
    | ok value => exact .inr ⟨.inl rfl,done⟩
    | error halt =>
      by_cases dead : halt = .died
      · exact .inr ⟨.inr (by rw [dead]),done⟩
      · exact .inl ⟨by simp,transaction_unwinds settled calm early ran dead⟩

-- A transaction opens on the contents in effect.
theorem open_found (settled : effective c disk = some base) (opened : openTransaction c ⟨disk,schedule⟩ = (.ok preimages,inside)) :
    inside.state.targets = base := by
  unfold openTransaction at opened
  rw [run_bind] at opened
  cases recovered : recoverUnlocked c ⟨disk,schedule⟩ with
  | mk outcome middle =>
    rw [recovered] at opened
    cases outcome with
    | error _ => cases opened
    | ok done =>
      have taken := (snapshot_spec c middle.state).ok rfl opened
      rw [taken.1]
      exact ((recover_spec c base).ok settled recovered).1

-- Over an unreadable journal no scope is entered.
theorem transaction_refused (shut : effective c disk = none)
    (ran : transaction c rollbackBaseExceptions transactionId body ⟨disk,schedule⟩ = (result,after)) :
    result ≠ .ok () ∧ effective c after.state = none := by
  have triple : Ensures (fun disk => effective c disk = none) (transaction c rollbackBaseExceptions transactionId body) (fun _ _ => False)
      (fun _ disk => effective c disk = none) := by
    refine ensures_bind (fun _ _ => False) ?_ (fun _ _ impossible => impossible.elim)
    exact ensures_bind (fun _ _ => False) (recover_refused c) (fun _ _ impossible => impossible.elim)
  cases result with
  | ok value => exact (triple.ok shut ran).elim
  | error halt => exact ⟨by simp,triple.error shut ran⟩

end LocalTransaction
