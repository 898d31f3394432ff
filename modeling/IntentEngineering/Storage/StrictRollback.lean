import IntentEngineering.Storage.StrictCalls

open Choices

-- What the rollback of a strict write keeps, whatever fails in it.
namespace StrictWrite

variable {raised : Raised → Session → Prop}

-- What a caller knows that renaming entries of `allowed` names leaves so, and
-- that changing the staged file does not change either.
structure Movable (host : Host) (allowed : String → Prop) (kept : Session → Prop) : Prop where
  moved : host.renames = true → ∀ s source dest, allowed source → allowed dest → kept s → kept (s.turned (·.move source dest))
  exchanged : host.renames = true → ∀ s left right, allowed left → allowed right → kept s → kept (s.turned (·.exchange left right))

structure Stable (host : Host) (staged : Nat) (allowed : String → Prop) (kept : Session → Prop) : Prop extends Movable host allowed kept where
  edited : ∀ s change, kept s → kept (s.turned (·.edit staged change))

section Calls
variable {host : Host} {staged : Nat} {allowed : String → Prop} {kept : Session → Prop}

theorem truncate_keeps (descriptor : Descriptor)
    (edited : ∀ ino s, descriptor = some ino → kept s → kept (s.turned (·.edit ino fun _ => []))) :
    Ensures kept (ftruncate descriptor) (fun _ => kept) (fun _ => kept) := by
  refine ensures_leave (system_keeps (fun _ _ => True) ?_) (fun _ _ done => done.1) (fun _ _ done => done.1)
  intro s amount value files start done
  cases descriptor with
  | none => cases done
  | some ino =>
    cases done
    exact ⟨edited ino s rfl start,trivial⟩

theorem scrub_keeps (descriptor : Descriptor) (expected : Metadata) (singleLink : Bool)
    (edited : ∀ ino s, descriptor = some ino → kept s → kept (s.turned (·.edit ino fun _ => []))) :
    Ensures kept (scrubDescriptor descriptor expected singleLink) (fun _ => kept) raised := by
  refine ensures_bind (fun _ => kept) (ensures_outcome (fun _ => kept) ?_) (fun result => ?_)
  · refine ensures_bind (fun _ => kept)
      (ensures_leave (fstat_keeps descriptor) (fun _ _ done => done.1) (fun _ _ done => done.1)) (fun observed => ?_)
    refine ensures_ite (fun _ => ensures_pure fun _ start => start) (fun _ => ?_)
    refine ensures_bind _ (truncate_keeps descriptor edited) (fun _ => ?_)
    refine ensures_bind (fun _ => kept)
      (ensures_leave fsync_keeps (fun _ _ done => done) (fun _ _ done => done.1)) (fun _ => ?_)
    refine ensures_bind (fun _ => kept)
      (ensures_leave (fstat_keeps descriptor) (fun _ _ done => done.1) (fun _ _ done => done.1)) (fun _ => ?_)
    exact ensures_pure fun _ start => start
  · cases result with
    | error e => exact ensures_pure fun _ start => start
    | ok scrubbed =>
      cases scrubbed with
      | none => exact ensures_pure fun _ start => start
      | some scrubbed => exact ensures_pure fun _ start => start

-- A rename that cannot be made raises no OSError, and only where the platform has none.
theorem rename_keeps {change : Directory → Except Raised Directory}
    (native : ∀ d e, change d = .error e → e.isOSError = true)
    (turns : host.renames = true → ∀ s d, kept s → change s.directory = .ok d → kept (s.turned fun _ => d)) :
    Ensures kept (renameWithFlags host change) (fun _ s => kept s ∧ host.renames = true)
      (fun e s => kept s ∧ (e.isOSError = false → host.renames = false)) := by
  unfold renameWithFlags
  refine ensures_ite (fun able => ?_) (fun unable => ensures_throw fun _ start => ⟨start,fun _ => by simpa using unable⟩)
  refine ensures_leave (system_keeps (fun _ _ => True) ?_) (fun _ _ done => ⟨done.1,able⟩) ?_
  · intro s amount value files start done
    cases turned : change s.files.directory with
    | error e => simp [turned,Except.map] at done
    | ok directory =>
      simp only [turned,Except.map,Except.ok.injEq,Prod.mk.injEq] at done
      obtain ⟨-,rfl⟩ := done
      exact ⟨turns able s directory start turned,trivial⟩
  · rintro e s ⟨start,rfl | ⟨_,failed⟩⟩
    · exact ⟨start,fun foreign => by cases foreign⟩
    · refine ⟨start,fun foreign => ?_⟩
      cases turned : change s.files.directory with
      | ok directory => simp [turned,Except.map] at failed
      | error other =>
        simp only [turned,Except.map,Except.error.injEq] at failed
        subst failed
        rw [native _ _ turned] at foreign
        cases foreign

theorem rename_exclusive (movable : Movable host allowed kept) {source dest : String} (here : allowed source) (there : allowed dest) :
    Ensures kept (renameExclusive host source dest) (fun _ s => kept s ∧ host.renames = true)
      (fun e s => kept s ∧ (e.isOSError = false → host.renames = false)) := by
  refine rename_keeps ?_ ?_
  · intro d e failed
    split at failed
    · cases failed
      rfl
    · split at failed
      · cases failed
        rfl
      · cases failed
  · intro able s d start done
    split at done
    · cases done
    · split at done
      · cases done
      · cases done
        exact movable.moved able s source dest here there start

theorem exchange_names (movable : Movable host allowed kept) {left right : String} (here : allowed left) (there : allowed right) :
    Ensures kept (exchangeNames host left right) (fun _ s => kept s ∧ host.renames = true)
      (fun e s => kept s ∧ (e.isOSError = false → host.renames = false)) := by
  refine rename_keeps ?_ ?_
  · intro d e failed
    split at failed
    · cases failed
    · cases failed
      rfl
  · intro able s d start done
    split at done
    · cases done
      exact movable.exchanged able s left right here there start
    · cases done

theorem rename_caught (movable : Movable host allowed kept) {source dest : String} (here : allowed source) (there : allowed dest) :
    Ensures kept (caught (renameExclusive host source dest)) (fun _ => kept) (fun _ s => kept s ∧ host.renames = false) :=
  caught_keeps (ensures_leave (rename_exclusive movable here there) (fun _ _ done => done.1) (fun _ _ done => ⟨fun _ => done.1,fun foreign => ⟨done.1,done.2 foreign⟩⟩))

theorem look_caught (name : String) : Ensures kept (caught (stat name)) (fun _ => kept) raised :=
  ensures_leave (stat_caught name) (fun _ _ done => done.1) (fun _ _ done => done)

theorem look_matching (name : String) (expected : Metadata) : Ensures kept (matchingEntry name expected) (fun _ => kept) raised :=
  ensures_leave (matching_entry name expected) (fun _ _ done => done.1) (fun _ _ done => done)

theorem look_matches (name : String) (expected : Metadata) : Ensures kept (entryMatches name expected) (fun _ => kept) raised :=
  ensures_leave (entry_matches name expected) (fun _ _ done => done.1) (fun _ _ done => done)

theorem look_safe (name : String) (expected : Metadata) : Ensures kept (entryIsSafe name expected) (fun _ => kept) raised :=
  ensures_leave (entry_is_safe name expected) (fun _ _ done => done.1) (fun _ _ done => done)

theorem retained_keeps (movable : Movable host allowed kept) {name quarantine : String} (here : allowed name)
    (there : allowed quarantine) (expected : Metadata) :
    Ensures kept (retained host name quarantine expected) (fun _ => kept) (fun _ s => kept s ∧ host.renames = false) := by
  refine ensures_bind _ (look_matching quarantine expected) (fun found => ?_)
  cases found with
  | none =>
    refine ensures_bind (fun _ => kept) ?_ (fun result => ?_)
    · refine caught_keeps ?_
      have seen : ∀ entry, Ensures kept (stat entry) (fun _ => kept)
          (fun e s => (e.isOSError = true → kept s) ∧ (e.isOSError = false → kept s ∧ host.renames = false)) := by
        intro entry
        refine ensures_leave (look_keeps (statName entry)) (fun _ _ done => done.1) ?_
        rintro e s ⟨start,rfl | failed⟩
        · exact ⟨fun _ => start,fun foreign => by cases foreign⟩
        · unfold statName at failed
          split at failed
          · cases failed
            exact ⟨fun _ => start,fun foreign => by cases foreign⟩
          · cases failed
      exact ensures_bind _ (seen quarantine) (fun _ => seen name)
    · split
      · refine ensures_bind _ (rename_caught movable there here) (fun _ => ensures_pure fun _ start => start)
      · exact ensures_pure fun _ start => start
  | some _ =>
    refine ensures_bind _ (look_caught name) (fun result => ?_)
    split
    · exact ensures_bind _ (look_matching quarantine expected) (fun _ => ensures_pure fun _ start => start)
    · exact ensures_pure fun _ start => start

theorem token_keeps : Ensures kept tokenHex (fun _ => kept) raised :=
  ensures_bind (fun _ => kept) (ensures_choose fun _ _ start => start) (fun _ => ensures_pure fun _ start => start)

-- Quarantining keeps what the caller knows; by induction on the names tried.
theorem quarantine_keeps (stable : Stable host staged allowed kept) (target : String) {name : String} (here : allowed name)
    (there : ∀ token, allowed (quarantinePath target token)) (expected : Metadata) (attempts : Nat) :
    Ensures kept (quarantineEntry host target name expected attempts) (fun _ => kept) (fun _ s => kept s ∧ host.renames = false) := by
  induction attempts with
  | zero => exact ensures_pure fun _ start => start
  | succ attempts ih =>
    refine ensures_bind _ (look_caught name) (fun result => ?_)
    cases result with
    | error e =>
      cases e with
      | fileNotFound => exact ensures_pure fun _ start => start
      | osError | fileExists | badDescriptor | unsafePath | rollback | cancelled => exact ensures_pure fun _ start => start
    | ok live =>
      refine ensures_ite (fun _ => ensures_pure fun _ start => start) (fun _ => ?_)
      refine ensures_bind _ token_keeps (fun token => ?_)
      refine ensures_bind _ (rename_caught stable.toMovable here (there token)) (fun renamed => ?_)
      cases renamed with
      | ok _ => exact retained_keeps stable.toMovable here (there token) expected
      | error e =>
        cases e with
        | fileExists => exact ih
        | osError | fileNotFound | badDescriptor | unsafePath | rollback | cancelled => exact ensures_pure fun _ start => start

theorem quarantine_owned (stable : Stable host staged allowed kept) (target : String) {name : String} (here : allowed name)
    (there : ∀ token, allowed (quarantinePath target token)) (expected : Metadata) {descriptor : Descriptor}
    (owned : ∀ ino, descriptor = some ino → ino = staged) :
    Ensures kept (quarantineOwnedEntry host target name expected descriptor) (fun _ => kept)
      (fun _ s => kept s ∧ host.renames = false) := by
  refine ensures_bind (fun _ => kept) (scrub_keeps descriptor expected false ?_) (fun scrubbed => ?_)
  · intro ino s same start
    rw [owned ino same]
    exact stable.edited s _ start
  · exact ensures_ite (fun _ => quarantine_keeps stable target here there expected _) (fun _ => ensures_pure fun _ start => start)

theorem restored_keeps (target temporaryName : String) (report original : Metadata) :
    Ensures kept (restoreExistingTarget.restored target temporaryName report original) (fun _ => kept) raised :=
  ensures_bind _ (look_matches temporaryName report)
    (fun _ => ensures_ite (fun _ => look_safe target original) (fun _ => ensures_pure fun _ start => start))

theorem restore_keeps (movable : Movable host (fun _ => True) kept) (target temporaryName : String) (report original : Metadata)
    (quarantine : Option String) :
    Ensures kept (restoreExistingTarget host target temporaryName report original quarantine) (fun _ => kept)
      (fun _ s => kept s ∧ host.renames = false) := by
  have back : Ensures kept (restoreExistingTarget.exchangeBack host target temporaryName report original) (fun _ => kept)
      (fun _ s => kept s ∧ host.renames = false) := by
    refine ensures_bind _ (restored_keeps target temporaryName report original) (fun _ => ?_)
    refine ensures_ite (fun _ => ensures_pure fun _ start => start) (fun _ => ?_)
    refine ensures_bind _ (look_matches target report) (fun _ => ?_)
    refine ensures_ite (fun _ => ensures_pure fun _ start => start) (fun _ => ?_)
    refine ensures_bind _ (look_matches temporaryName original) (fun _ => ?_)
    refine ensures_ite (fun _ => ensures_pure fun _ start => start) (fun _ => ?_)
    refine ensures_bind (fun _ => kept) (caught_keeps ?_) (fun result => ?_)
    · refine ensures_bind (fun _ => kept) (ensures_leave (exchange_names movable trivial trivial) (fun _ _ done => done.1) (fun _ _ done => ⟨fun _ => done.1,fun foreign => ⟨done.1,done.2 foreign⟩⟩)) (fun _ => ?_)
      refine ensures_leave fsync_keeps (fun _ _ done => done) ?_
      exact fun _ _ done => ⟨fun _ => done.1,fun foreign => by rw [done.2] at foreign; cases foreign⟩
    · cases result with
      | error e => exact ensures_pure fun _ start => start
      | ok _ => exact restored_keeps target temporaryName report original
  cases quarantine with
  | none => exact back
  | some quarantine =>
    refine ensures_bind _ (look_matches quarantine original) (fun _ => ?_)
    refine ensures_ite (fun _ => ?_) (fun _ => back)
    refine ensures_bind _ (rename_caught movable trivial trivial) (fun result => ?_)
    cases result with
    | error e => exact ensures_pure fun _ start => start
    | ok _ => exact back

end Calls

end StrictWrite
