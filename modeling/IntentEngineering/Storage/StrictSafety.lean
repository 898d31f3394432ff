import IntentEngineering.Storage.StrictRollback

open Choices

-- A strict write returns with the new content in place, and raises anything but
-- its rollback error only with the old entry in place.
namespace StrictWrite

variable {raised : Raised → Session → Prop}

-- Staging names are longer than the name they are made for.
theorem temporary_apart (name token : String) : temporaryPath name token ≠ name := by
  intro same
  have lengths := congrArg String.length same
  simp only [temporaryPath,String.length_append] at lengths
  have dot : ".".length = 1 := rfl
  omega

theorem quarantine_apart (name token : String) : quarantinePath name token ≠ name := by
  intro same
  have lengths := congrArg String.length same
  simp only [quarantinePath,String.length_append] at lengths
  have dot : ".".length = 1 := rfl
  omega

section Safety
variable (host : Host) (start : Directory) (target : String)

-- Only the staged file has been written, and without renames no entry moved.
structure Contained (s : Session) : Prop where
  owned : ∀ ino, s.reportDescriptor = some ino → ino = start.next
  named : ∀ name, s.temporaryName = some name → name ≠ target
  others : ∀ ino, ino ≠ start.next → s.directory.inodes ino = start.inodes ino
  steady : host.renames = false → s.directory.entries target = start.entries target
  uncommitted : s.state.committed = false

structure Untouched (s : Session) : Prop extends Contained host start target s where
  same : s.directory.entries target = start.entries target

-- How a write that raises leaves the session: the old entry is in place, or the
-- write has said that it does not know.
def Settled (s : Session) : Prop :=
  (s.state.committed = false ∧ s.state.indeterminate = true ∧ host.renames = true) ∨ Untouched host start target s

structure Published (content : List UInt8) (s : Session) : Prop where
  committed : s.state.committed = true
  placed : s.directory.lookup target = some (start.next,⟨content,true,1⟩)

def Filled (content : List UInt8) (s : Session) : Prop := (s.directory.inodes start.next).content = content

-- While the staged file is being put in place.
structure Installing (content : List UInt8) (s : Session) : Prop where
  contained : Contained host start target s
  filled : Filled start content s
  state : s.state = ⟨false,false,false,false,false⟩

-- Once the original may have been scrubbed.
structure Touched (content : List UInt8) (scrubbed : Bool) (s : Session) : Prop where
  filled : Filled start content s
  state : s.state = ⟨false,false,false,true,scrubbed⟩
  able : host.renames = true

-- How an installation over an existing entry fails.
structure Failed (content : List UInt8) (s : Session) : Prop where
  uncommitted : s.state.committed = false
  uncleaned : s.state.cleaned = false
  filled : Filled start content s
  untouched : s.state.displacedTouched = false → Contained host start target s
  able : s.state.displacedTouched = true → host.renames = true

variable {host start target} {content : List UInt8}

theorem Untouched.lookup (untouched : Untouched host start target s) : s.directory.lookup target = start.lookup target := by
  unfold Directory.lookup
  rw [untouched.same]
  cases named : start.entries target with
  | none => rfl
  | some ino =>
    have older := start.fresh target ino named
    simp only [Option.map_some,untouched.others ino (Nat.ne_of_lt older)]

theorem contained_untouched (contained : Contained host start target s) (unable : host.renames = false) :
    Untouched host start target s :=
  ⟨contained,contained.steady unable⟩

-- What the checks of the published entry amount to.
theorem filled_published {report : Metadata} (filled : Filled start content s) (committed : s.state.committed = true)
    (numbered : report.ino = start.next) (holds : HoldsSafely s target report) : Published start target content s := by
  refine ⟨committed,?_⟩
  obtain ⟨placed,regular⟩ := holds
  rw [Holds,numbered] at placed
  rw [numbered] at regular
  simp only [safe,Directory.metadata,Bool.and_eq_true,beq_iff_eq] at regular
  simp only [Directory.lookup,placed,Option.map_some]
  cases found : s.directory.inodes start.next with
  | mk bytes kind links =>
    simp only [found] at regular
    simp only [Filled,found] at filled
    rw [filled,regular.1,regular.2]

theorem contained_stable : Stable host start.next (fun _ => True) (Contained host start target) where
  moved able s source dest _ _ contained := ⟨contained.owned,contained.named,contained.others,
    (fun unable => by rw [able] at unable; cases unable),contained.uncommitted⟩
  exchanged able s left right _ _ contained := ⟨contained.owned,contained.named,contained.others,
    (fun unable => by rw [able] at unable; cases unable),contained.uncommitted⟩
  edited s change contained := {
    owned := contained.owned
    named := contained.named
    others := fun ino other => (if_neg other).trans (contained.others ino other)
    steady := contained.steady
    uncommitted := contained.uncommitted }

theorem untouched_stable : Stable host start.next (· ≠ target) (Untouched host start target) where
  moved able s source dest here there untouched := by
    refine ⟨contained_stable.moved able s source dest trivial trivial untouched.toContained,?_⟩
    exact (if_neg there.symm).trans ((if_neg here.symm).trans untouched.same)
  exchanged able s left right here there untouched := by
    refine ⟨contained_stable.exchanged able s left right trivial trivial untouched.toContained,?_⟩
    exact (if_neg there.symm).trans ((if_neg here.symm).trans untouched.same)
  edited s change untouched := ⟨contained_stable.edited s change untouched.toContained,untouched.same⟩

-- A write that gave up has nothing left to say but that.
theorem lost_stable (staged : Nat) : Stable host staged (fun _ => True)
    (fun s => s.state.committed = false ∧ s.state.indeterminate = true) where
  moved _ _ _ _ _ _ lost := lost
  exchanged _ _ _ _ _ _ lost := lost
  edited _ _ lost := lost

section Rollback
variable {temporaryName : String} {report : Metadata} {reportDescriptor displacedDescriptor : Descriptor}
  (numbered : report.ino = start.next) (owned : ∀ ino, reportDescriptor = some ino → ino = start.next)
include owned

theorem scrub_contained : Ensures (Contained host start target) (scrubDescriptor reportDescriptor report false)
    (fun _ => Contained host start target) raised := by
  refine scrub_keeps reportDescriptor report false ?_
  intro ino s same contained
  rw [owned ino same]
  exact contained_stable.edited s _ contained

theorem given_up (failure : Raised) :
    Ensures (fun s => Contained host start target s ∧ (s.state.cleaned = true → s.directory.entries target = start.entries target))
      (givenUp report reportDescriptor failure) (fun _ _ => False) (fun _ => Settled host start target) := by
  refine ensures_bind (fun seen s => (Contained host start target s ∧
    (s.state.cleaned = true → s.directory.entries target = start.entries target)) ∧ seen = s)
    (ensures_current fun s known => ⟨known,rfl⟩) (fun seen => ?_)
  refine ensures_ite (fun _ => ?_) (fun cleaned => ensures_throw ?_)
  · refine ensures_bind (fun _ => Contained host start target)
      (ensures_enter _ (fun _ known => known.1.1) (scrub_contained owned)) (fun _ => ?_)
    refine ensures_bind (fun _ => Settled host start target) (ensures_update ?_) (fun _ => ensures_throw fun _ done => done)
    intro s contained
    cases able : host.renames with
    | true => exact .inl ⟨contained.uncommitted,rfl,able⟩
    | false =>
      exact .inr (contained_untouched ⟨contained.owned,contained.named,contained.others,contained.steady,contained.uncommitted⟩ able)
  · rintro s ⟨⟨contained,same⟩,rfl⟩
    exact .inr ⟨contained,same (by simpa using cleaned)⟩

-- Cleaned is what the last snapshot of the rollback says.
theorem proved_rollback (cleaned : Bool) (expectedTarget : Option Metadata) (failure : Raised)
    (before : start.entries target = expectedTarget.map Metadata.ino) :
    Ensures (Contained host start target)
      (proveRollback target report reportDescriptor displacedDescriptor cleaned expectedTarget failure)
      (fun _ _ => False) (fun _ => Settled host start target) := by
  refine ensures_bind (fun _ s => Contained host start target s ∧ s.state.cleaned = cleaned) (ensures_update ?_) (fun _ => ?_)
  · exact fun s contained => ⟨⟨contained.owned,contained.named,contained.others,contained.steady,contained.uncommitted⟩,rfl⟩
  · refine ensures_ite (fun tried => ?_) (fun untried => ?_)
    · refine ensures_bind _ (rollback_snapshot target report reportDescriptor displacedDescriptor expectedTarget) (fun proved => ?_)
      refine ensures_bind (fun _ s => Contained host start target s ∧ (s.state.cleaned = true → s.directory.entries target = start.entries target))
        (ensures_update ?_) (fun _ => given_up owned failure)
      rintro s ⟨⟨contained,_⟩,shown⟩
      refine ⟨⟨contained.owned,contained.named,contained.others,contained.steady,contained.uncommitted⟩,?_⟩
      intro yes
      exact (shown yes).trans before.symm
    · refine ensures_enter _ ?_ (given_up owned failure)
      rintro s ⟨contained,same⟩
      exact ⟨contained,fun yes => absurd (same.symm.trans yes) untried⟩

omit owned in
theorem settled_unable (contained : Contained host start target s ∧ host.renames = false) : Settled host start target s :=
  .inr (contained_untouched contained.1 contained.2)

theorem roll_back_new (failure : Raised) (before : start.entries target = none) :
    Ensures (Contained host start target) (rollBackNew host target temporaryName report reportDescriptor displacedDescriptor failure)
      (fun _ _ => False) (fun _ => Settled host start target) := by
  have quarantined : ∀ name, Ensures (Contained host start target) (quarantineOwnedEntry host target name report reportDescriptor)
      (fun _ => Contained host start target) (fun _ => Settled host start target) := by
    intro name
    exact ensures_leave (quarantine_owned contained_stable target trivial (fun _ => trivial) report owned) (fun _ _ done => done) (fun _ s done => settled_unable done)
  refine ensures_bind _ (quarantined target) (fun targetCleaned => ?_)
  refine ensures_bind _ (quarantined temporaryName) (fun temporaryCleaned => ?_)
  exact proved_rollback owned (targetCleaned && temporaryCleaned) none failure before

omit owned in
theorem given_up_touched (failure : Raised) :
    Ensures (fun s => Failed host start target content s ∧ s.state.displacedTouched = true)
      (givenUp report reportDescriptor failure) (fun _ _ => False) (fun _ => Settled host start target) := by
  refine ensures_bind (fun seen s => (Failed host start target content s ∧ s.state.displacedTouched = true) ∧ seen = s)
    (ensures_current fun s known => ⟨known,rfl⟩) (fun seen => ?_)
  refine ensures_ite (fun _ => ?_) (fun cleaned => ?_)
  · refine ensures_bind (fun _ s => s.state.committed = false ∧ host.renames = true) ?_ (fun _ => ?_)
    · refine ensures_enter _ (fun s known => ⟨known.1.1.uncommitted,known.1.1.able known.1.2⟩) (scrub_keeps reportDescriptor report false fun _ _ _ known => known)
    · refine ensures_bind (fun _ => Settled host start target) (ensures_update ?_) (fun _ => ensures_throw fun _ done => done)
      exact fun s known => .inl ⟨known.1,rfl,known.2⟩
  · refine ensures_throw ?_
    rintro s ⟨⟨failed,_⟩,rfl⟩
    rw [failed.uncleaned] at cleaned
    exact absurd rfl cleaned

include numbered

theorem roll_back_existing (expectedTarget : Metadata) (failure : Raised) (before : start.entries target = some expectedTarget.ino) :
    Ensures (Failed host start target content)
      (rollBackExisting host target temporaryName report reportDescriptor displacedDescriptor expectedTarget failure)
      (fun _ => Published start target content) (fun _ => Settled host start target) := by
  refine ensures_bind (fun seen s => Failed host start target content s ∧ seen = s)
    (ensures_current fun s failed => ⟨failed,rfl⟩) (fun seen => ?_)
  refine ensures_ite (fun touched => ?_) (fun untouched => ?_)
  · have giving : Ensures (fun s => Failed host start target content s ∧ s.state.displacedTouched = true)
        (givenUp report reportDescriptor failure) (fun _ => Published start target content) (fun _ => Settled host start target) :=
      ensures_leave (given_up_touched failure) (fun _ _ done => done.elim) (fun _ _ done => done)
    refine ensures_enter (fun s => Failed host start target content s ∧ s.state.displacedTouched = true) (fun s known => ⟨known.1,by rw [← known.2]; exact touched⟩) ?_
    cases seen.quarantine with
    | none => exact giving
    | some quarantine =>
      refine ensures_ite (fun _ => giving) (fun _ => ?_)
      refine ensures_bind _ (existing_snapshot target report reportDescriptor displacedDescriptor quarantine expectedTarget) (fun shown => ?_)
      refine ensures_ite (fun shown => ensures_update ?_) (fun _ => ?_)
      · rintro s ⟨⟨failed,_⟩,holds⟩
        exact filled_published failed.filled rfl numbered (holds shown)
      · exact ensures_enter _ (fun _ known => known.1) giving
  · refine ensures_enter (Contained host start target) (fun s known => known.1.untouched (by rw [← known.2]; simpa using untouched)) ?_
    refine ensures_bind (fun _ => Contained host start target)
      (ensures_leave (restore_keeps contained_stable.toMovable target temporaryName report expectedTarget seen.quarantine) (fun _ _ done => done) (fun _ _ done => settled_unable done)) (fun restored => ?_)
    have proving : ∀ cleaned, Ensures (Contained host start target)
        (proveRollback target report reportDescriptor displacedDescriptor cleaned (some expectedTarget) failure)
        (fun _ => Published start target content) (fun _ => Settled host start target) := by
      intro cleaned
      exact ensures_leave (proved_rollback owned cleaned (some expectedTarget) failure before) (fun _ _ done => done.elim) (fun _ _ done => done)
    refine ensures_ite (fun _ => ?_) (fun _ => ?_)
    · refine ensures_bind (fun _ => Contained host start target) ?_ proving
      exact ensures_leave (quarantine_owned contained_stable target trivial (fun _ => trivial) report owned) (fun _ _ done => done) (fun _ s done => settled_unable done)
    · exact ensures_bind (fun _ => Contained host start target) (ensures_pure fun _ known => known) proving

end Rollback

section Install
variable {temporaryName : String} {report : Metadata} {reportDescriptor displacedDescriptor : Descriptor}
  (numbered : report.ino = start.next) (owned : ∀ ino, reportDescriptor = some ino → ino = start.next)

theorem installing_movable : Movable host (fun _ => True) (Installing host start target content) where
  moved able s source dest _ _ known :=
    ⟨contained_stable.moved able s source dest trivial trivial known.contained,known.filled,known.state⟩
  exchanged able s left right _ _ known :=
    ⟨contained_stable.exchanged able s left right trivial trivial known.contained,known.filled,known.state⟩

theorem fault_keeps {kept : Session → Prop} (stage : Stage) : Ensures kept (strictFault host stage) (fun _ => kept) (fun _ => kept) := by
  unfold strictFault
  cases host.fault stage with
  | none => exact ensures_pure fun _ known => known
  | some error => exact ensures_throw fun _ known => known

theorem flush_keeps {kept : Session → Prop} : Ensures kept fsync (fun _ => kept) (fun _ => kept) :=
  ensures_leave fsync_keeps (fun _ _ done => done) (fun _ _ done => done.1)

-- A check that must hold to go on.
theorem demand_keeps {kept : Session → Prop} {held : Prop} [Decidable held] (error : Raised) :
    Ensures kept (if held then throw error else pure PUnit.unit : Act PUnit) (fun _ => kept) (fun _ => kept) :=
  ensures_ite (fun _ => ensures_throw fun _ known => known) (fun _ => ensures_pure fun _ known => known)

include numbered in
theorem install_new :
    Ensures (Installing host start target content) (installNew host target temporaryName report reportDescriptor)
      (fun _ => Published start target content) (fun _ => Contained host start target) := by
  have failing : ∀ {act : Act Unit}, Ensures (Installing host start target content) act (fun _ => Published start target content)
      (fun _ => Installing host start target content) → Ensures (Installing host start target content) act
      (fun _ => Published start target content) (fun _ => Contained host start target) :=
    fun triple => ensures_leave triple (fun _ _ done => done) (fun _ _ done => done.contained)
  apply failing
  refine ensures_bind (fun _ => Installing host start target content)
    (ensures_leave (rename_exclusive installing_movable trivial trivial) (fun _ _ done => done.1) (fun _ _ done => done.1)) (fun _ => ?_)
  refine ensures_bind _ (fault_keeps .newInstalled) (fun _ => ?_)
  refine ensures_bind _ (look_safe target report) (fun placed => ?_)
  refine ensures_ite (fun _ => ensures_throw fun _ known => known) (fun _ => ?_)
  refine ensures_bind _ flush_keeps (fun _ => ?_)
  refine ensures_bind _ (fault_keeps .newDurable) (fun _ => ?_)
  refine ensures_bind _ (report_snapshot target report reportDescriptor) (fun shown => ?_)
  refine ensures_ite (fun _ => ensures_throw fun _ known => known.1) (fun shown => ensures_update ?_)
  rintro s ⟨installing,holds⟩
  exact filled_published installing.filled rfl numbered (holds (by simpa using shown))

theorem Installing.failed (known : Installing host start target content s) : Failed host start target content s where
  uncommitted := known.contained.uncommitted
  uncleaned := by rw [known.state]
  filled := known.filled
  untouched _ := known.contained
  able touched := by rw [known.state] at touched; cases touched

theorem Touched.failed (known : Touched host start content scrubbed s) : Failed host start target content s where
  uncommitted := by rw [known.state]
  uncleaned := by rw [known.state]
  filled := known.filled
  untouched clear := by rw [known.state] at clear; cases clear
  able _ := known.able

theorem exchanged_safely {kept : Session → Prop} (expectedTarget : Metadata) :
    Ensures kept (exchangedSafely target temporaryName report expectedTarget) (fun _ => kept) (fun _ => kept) := by
  refine ensures_bind _ (look_safe target report) (fun _ => ?_)
  refine ensures_ite (fun _ => ensures_throw fun _ known => known) (fun _ => ?_)
  refine ensures_bind _ (look_safe temporaryName expectedTarget) (fun _ => ?_)
  exact ensures_ite (fun _ => ensures_throw fun _ known => known) (fun _ => ensures_pure fun _ known => known)

-- Up to the scrub every failure finds the original as it was; after it none is
-- told apart from giving up.
theorem displace_original (expectedTarget : Metadata) (numbered : report.ino = start.next)
    (apart : ∀ ino, displacedDescriptor = some ino → ino ≠ start.next) :
    Ensures (fun s => Installing host start target content s ∧ host.renames = true)
      (displaceOriginal host target temporaryName report reportDescriptor displacedDescriptor expectedTarget)
      (fun _ => Published start target content) (fun _ => Failed host start target content) := by
  have early : ∀ {α : Type} {act : Act α}, Ensures (Installing host start target content) act
      (fun _ => Installing host start target content) (fun _ => Installing host start target content) →
      Ensures (fun s => Installing host start target content s ∧ host.renames = true) act
        (fun _ s => Installing host start target content s ∧ host.renames = true) (fun _ => Failed host start target content) := by
    intro α act triple world known
    have result := triple world known.1
    cases ran : act world with
    | mk ended after =>
      rw [ran] at result
      cases ended with
      | ok value => exact ⟨result,known.2⟩
      | error e => exact Installing.failed result
  have late : ∀ {α : Type} {act : Act α} {scrubbed : Bool}, Ensures (Touched host start content scrubbed) act
      (fun _ => Touched host start content scrubbed) (fun _ => Touched host start content scrubbed) →
      Ensures (Touched host start content scrubbed) act (fun _ => Touched host start content scrubbed)
        (fun _ => Failed host start target content) :=
    fun triple => ensures_leave triple (fun _ _ done => done) (fun _ _ done => done.failed)
  refine ensures_bind _ token_keeps (fun token => ?_)
  refine ensures_bind (fun _ s => Installing host start target content s ∧ host.renames = true) (ensures_update ?_) (fun _ => ?_)
  · rintro s ⟨known,able⟩
    refine ⟨⟨?_,known.filled,known.state⟩,able⟩
    exact ⟨known.contained.owned,known.contained.named,known.contained.others,known.contained.steady,known.contained.uncommitted⟩
  refine ensures_bind _ (early (ensures_leave (rename_exclusive installing_movable trivial trivial) (fun _ _ done => done.1) (fun _ _ done => done.1))) (fun _ => ?_)
  refine ensures_bind _ (early (fault_keeps .originalQuarantined)) (fun _ => ?_)
  refine ensures_bind _ (early (look_safe _ expectedTarget)) (fun _ => ?_)
  refine ensures_ite (fun _ => ensures_throw fun _ known => known.1.failed) (fun _ => ?_)
  refine ensures_bind _ (early (fault_keeps .originalPreScrub)) (fun _ => ?_)
  refine ensures_bind (fun _ => Touched host start content false) (ensures_update ?_) (fun _ => ?_)
  · rintro s ⟨known,able⟩
    exact ⟨known.filled,by rw [known.state],able⟩
  refine ensures_bind _ (late (scrub_keeps displacedDescriptor expectedTarget true ?_)) (fun _ => ?_)
  · intro ino s same known
    exact ⟨(congrArg Inode.content (if_neg (apart ino same).symm)).trans known.filled,known.state,known.able⟩
  refine ensures_ite (fun _ => ensures_throw fun _ known => known.failed) (fun _ => ?_)
  refine ensures_bind (fun _ => Touched host start content true) (ensures_update ?_) (fun _ => ?_)
  · exact fun s known => ⟨known.filled,by rw [known.state],known.able⟩
  refine ensures_bind _ (late flush_keeps) (fun _ => ?_)
  refine ensures_bind _ (late (fault_keeps .originalScrubbed)) (fun _ => ?_)
  refine ensures_bind _ (existing_snapshot target report reportDescriptor displacedDescriptor _ expectedTarget) (fun shown => ?_)
  refine ensures_ite (fun _ => ensures_throw fun _ known => known.1.failed) (fun shown => ensures_update ?_)
  rintro s ⟨known,holds⟩
  exact filled_published known.filled rfl numbered (holds (by simpa using shown))

theorem install_existing (expectedTarget : Metadata) (numbered : report.ino = start.next)
    (apart : ∀ ino, displacedDescriptor = some ino → ino ≠ start.next) :
    Ensures (Installing host start target content)
      (installExisting host target temporaryName report reportDescriptor displacedDescriptor expectedTarget)
      (fun _ => Published start target content) (fun _ => Failed host start target content) := by
  have early : ∀ {act : Act Unit}, Ensures (fun s => Installing host start target content s ∧ host.renames = true) act
      (fun _ s => Installing host start target content s ∧ host.renames = true)
      (fun _ s => Installing host start target content s ∧ host.renames = true) →
      Ensures (fun s => Installing host start target content s ∧ host.renames = true) act
      (fun _ s => Installing host start target content s ∧ host.renames = true) (fun _ => Failed host start target content) :=
    fun triple => ensures_leave triple (fun _ _ done => done) (fun _ _ done => done.1.failed)
  refine ensures_bind _ (ensures_leave (exchange_names installing_movable trivial trivial) (fun _ _ done => done) (fun _ _ done => done.1.failed)) (fun _ => ?_)
  refine ensures_bind _ (early (fault_keeps .existingExchanged)) (fun _ => ?_)
  refine ensures_bind _ (early (exchanged_safely expectedTarget)) (fun _ => ?_)
  refine ensures_bind _ (early flush_keeps) (fun _ => ?_)
  refine ensures_bind _ (early (fault_keeps .existingDurable)) (fun _ => ?_)
  refine ensures_bind _ (early (exchanged_safely expectedTarget)) (fun _ => ?_)
  exact displace_original expectedTarget numbered apart

theorem install_verified (expectedTarget : Option Metadata) (numbered : report.ino = start.next)
    (owned : ∀ ino, reportDescriptor = some ino → ino = start.next)
    (apart : ∀ ino, displacedDescriptor = some ino → ino ≠ start.next)
    (before : start.entries target = expectedTarget.map Metadata.ino) :
    Ensures (Installing host start target content)
      (installVerifiedTemporary host target temporaryName report reportDescriptor displacedDescriptor expectedTarget)
      (fun _ => Published start target content) (fun _ => Settled host start target) := by
  cases expectedTarget with
  | none =>
    refine ensures_bind _ (ensures_outcome (Ended (fun _ => Published start target content)
      (fun _ => Contained host start target)) (install_new numbered)) (fun result => ?_)
    cases result with
    | ok _ => exact ensures_pure fun _ done => done
    | error failure =>
      refine ensures_bind (fun seen s => Contained host start target s ∧ seen = s) (ensures_current fun s known => ⟨known,rfl⟩) (fun seen => ?_)
      refine ensures_ite (fun done => ensures_pure ?_) (fun _ => ?_)
      · rintro s ⟨contained,rfl⟩
        rw [contained.uncommitted] at done
        cases done
      · exact ensures_weaken (roll_back_new owned failure before) (fun _ known => known.1) (fun _ _ done => done.elim) (fun _ _ done => done)
  | some expected =>
    refine ensures_bind _ (ensures_outcome (Ended (fun _ => Published start target content)
      (fun _ => Failed host start target content)) (install_existing expected numbered apart)) (fun result => ?_)
    cases result with
    | ok _ => exact ensures_pure fun _ done => done
    | error failure =>
      refine ensures_bind (fun seen s => Failed host start target content s ∧ seen = s) (ensures_current fun s known => ⟨known,rfl⟩) (fun seen => ?_)
      refine ensures_ite (fun done => ensures_pure ?_) (fun _ => ?_)
      · rintro s ⟨failed,rfl⟩
        rw [failed.uncommitted] at done
        cases done
      · exact ensures_enter _ (fun _ known => known.1) (roll_back_existing numbered owned expected failure before)

end Install

section Prepare

-- The staged file holds `written`, and nothing else has happened.
structure Prepared (host : Host) (start : Directory) (target : String) (written : List UInt8) (s : Session) : Prop where
  untouched : Untouched host start target s
  filled : Filled start written s
  state : s.state = ⟨false,false,false,false,false⟩

-- Before a staging file is there.
structure Idle (start : Directory) (target : String) (s : Session) : Prop where
  directory : s.directory = start
  undescribed : s.reportDescriptor = none
  named : ∀ name, s.temporaryName = some name → name ≠ target
  state : s.state = ⟨false,false,false,false,false⟩

theorem Idle.untouched (idle : Idle start target s) : Untouched host start target s where
  owned ino described := by rw [idle.undescribed] at described; cases described
  named := idle.named
  others _ _ := by rw [idle.directory]
  steady _ := by rw [idle.directory]
  uncommitted := by rw [idle.state]
  same := by rw [idle.directory]

-- A file created under another name.
theorem Idle.created (idle : Idle start target s) {name : String} (apart : name ≠ target) (held : Nat → Bool) :
    Untouched host start target (s.with ⟨start.create name,held⟩) where
  owned ino described := (idle.untouched : Untouched host start target s).owned ino described
  named := idle.named
  others _ other := if_neg other
  steady _ := if_neg apart.symm
  uncommitted := by show s.state.committed = false; rw [idle.state]
  same := if_neg apart.symm

-- What changes beside the directory, the state and the names of what is staged
-- does not matter.
theorem Untouched.alike (untouched : Untouched host start target s) (directory : t.directory = s.directory) (state : t.state = s.state)
    (described : t.reportDescriptor = s.reportDescriptor) (named : t.temporaryName = s.temporaryName) : Untouched host start target t where
  owned := by rw [described]; exact untouched.owned
  named := by rw [named]; exact untouched.named
  others := by rw [directory]; exact untouched.others
  steady := by rw [directory]; exact untouched.steady
  uncommitted := by rw [state]; exact untouched.uncommitted
  same := by rw [directory]; exact untouched.same

theorem Prepared.alike (prepared : Prepared host start target written s) (directory : t.directory = s.directory) (state : t.state = s.state)
    (described : t.reportDescriptor = s.reportDescriptor) (named : t.temporaryName = s.temporaryName) :
    Prepared host start target written t where
  untouched := prepared.untouched.alike directory state described named
  filled := by rw [Filled,directory]; exact prepared.filled
  state := state.trans prepared.state

-- What one attempt to make the temporary file shows.
def Opened (host : Host) (start : Directory) (target : String) : Except Raised Nat → Session → Prop
  | .ok ino, s => Untouched host start target s ∧ s.state = ⟨false,false,false,false,false⟩ ∧ Filled start [] s ∧ ino = start.next
  | .error .fileExists, s => Idle start target s
  | .error _, s => Untouched host start target s

theorem open_temporary (attempts : Nat) :
    Ensures (Idle start target) (openTemporary target attempts)
      (fun _ s => Untouched host start target s ∧ s.state = ⟨false,false,false,false,false⟩ ∧
        (s.reportDescriptor.isSome = true → Filled start [] s))
      (fun _ => Untouched host start target) := by
  induction attempts with
  | zero =>
    refine ensures_pure fun s idle => ⟨idle.untouched,idle.state,fun described => ?_⟩
    rw [idle.undescribed] at described
    cases described
  | succ attempts ih =>
    refine ensures_bind _ token_keeps (fun token => ?_)
    refine ensures_bind (fun _ => Idle start target) (ensures_update ?_) (fun _ => ?_)
    · exact fun s idle => ⟨idle.directory,idle.undescribed,(fun name same => by cases same; exact temporary_apart target token),idle.state⟩
    refine ensures_bind (Opened host start target) (ensures_outcome _ (system_ensures ?_ ?_ ?_)) (fun result => ?_)
    · intro s amount ino files idle done
      split at done
      · cases done
      · cases done
        have created := idle.directory
        simp only [Session.directory] at created
        rw [created]
        have made : Untouched host start target (s.with ⟨start.create (temporaryPath target token),_⟩) :=
          idle.created (temporary_apart target token) (fun ino => decide (ino = start.next) || s.files.held ino)
        exact ⟨⟨made,idle.state,congrArg Inode.content (if_pos rfl),rfl⟩,made⟩
    · intro s amount e idle failed
      split at failed
      · cases failed
        exact idle
      · cases failed
    · exact fun s idle => idle.untouched
    · cases result with
      | ok ino =>
        refine ensures_update ?_
        rintro s ⟨untouched,state,filled,rfl⟩
        refine ⟨⟨⟨?_,untouched.named,untouched.others,untouched.steady,untouched.uncommitted⟩,untouched.same⟩,state,fun _ => filled⟩
        exact fun other described => (Option.some.inj described).symm
      | error e =>
        cases e with
        | fileExists =>
          refine ensures_bind (fun _ => Idle start target) (ensures_update ?_) (fun _ => ih)
          exact fun s idle => ⟨idle.directory,idle.undescribed,(fun name gone => by cases gone),idle.state⟩
        | osError | fileNotFound | badDescriptor | unsafePath | rollback | cancelled => exact ensures_throw fun _ untouched => untouched

-- Writing, by induction on the turns left; every turn takes what it wrote off the view.
theorem write_view (turns : Nat) {view : List UInt8} (enough : view.length ≤ turns) :
    Ensures (Prepared host start target written) (writeView start.next turns view)
      (fun _ => Prepared host start target (written ++ view)) (fun _ => Untouched host start target) := by
  induction turns generalizing view written with
  | zero =>
    have empty : view = [] := List.eq_nil_of_length_eq_zero (Nat.le_zero.mp enough)
    subst empty
    exact ensures_pure fun s prepared => by rw [List.append_nil]; exact prepared
  | succ turns ih =>
    cases view with
    | nil => exact ensures_pure fun s prepared => by rw [List.append_nil]; exact prepared
    | cons byte rest =>
      refine ensures_bind (fun taken s => ∃ amount, taken = ((byte :: rest).take (amount + 1)).length ∧
        Prepared host start target (written ++ (byte :: rest).take (amount + 1)) s) (system_ensures ?_ ?_ ?_) (fun taken => ?_)
      · intro s amount value files prepared done
        cases done
        have edited : Untouched host start target (s.turned (·.edit start.next (· ++ (byte :: rest).take (amount + 1)))) :=
          untouched_stable.edited s _ prepared.untouched
        refine ⟨⟨amount,rfl,⟨edited,?_,prepared.state⟩⟩,edited⟩
        exact (congrArg Inode.content (if_pos rfl)).trans (congrArg (· ++ (byte :: rest).take (amount + 1)) prepared.filled)
      · exact fun s amount e prepared failed => by cases failed
      · exact fun s prepared => prepared.untouched
      · intro world ⟨amount,same,prepared⟩
        have whole : (byte :: rest).take (amount + 1) ++ (byte :: rest).drop taken = byte :: rest := by
          rw [same]
          exact List.prefix_iff_eq_append.mp (List.take_prefix (amount + 1) (byte :: rest))
        have shorter : ((byte :: rest).drop taken).length ≤ turns := by
          rw [List.length_drop,same,List.length_take]
          simp only [List.length_cons] at enough ⊢
          omega
        have result := ih shorter world prepared
        rw [List.append_assoc,whole] at result
        exact result

theorem require_regular {kept : Session → Prop} (metadata : Metadata) :
    Ensures kept (requireRegular metadata) (fun _ => kept) (fun _ => kept) :=
  ensures_ite (fun _ => ensures_throw fun _ known => known) (fun _ => ensures_pure fun _ known => known)

theorem observe_report (ino : Nat) :
    Ensures (Prepared host start target content) (observeReport (some ino))
      (fun report s => Prepared host start target content s ∧ report.ino = ino) (fun _ => Untouched host start target) := by
  refine ensures_bind (fun observed s => Prepared host start target content s ∧ observed.ino = ino)
    (ensures_leave (fstat_keeps (some ino)) ?_ (fun _ _ done => done.1.untouched)) (fun observed => ?_)
  · rintro observed s ⟨prepared,other,same,rfl⟩
    exact ⟨prepared,(Option.some.inj same).symm⟩
  refine ensures_bind (fun _ s => Prepared host start target content s ∧ observed.ino = ino) (ensures_update ?_) (fun _ => ?_)
  · exact fun s known => ⟨known.1.alike rfl rfl rfl rfl,known.2⟩
  refine ensures_bind (fun _ s => Prepared host start target content s ∧ observed.ino = ino)
    (ensures_leave (require_regular observed) (fun _ _ done => done) (fun _ _ done => done.1.untouched)) (fun _ => ?_)
  exact ensures_pure fun _ known => known

theorem safe_existing {kept : Session → Prop} :
    Ensures kept (assertSafeExistingTarget target)
      (fun expected s => kept s ∧ s.directory.entries target = expected.map Metadata.ino) (fun _ => kept) := by
  refine ensures_bind _ (stat_caught target) (fun result => ?_)
  cases result with
  | error e =>
    cases e with
    | fileNotFound => exact ensures_pure fun s done => ⟨done.1,done.2 rfl⟩
    | osError | fileExists | badDescriptor | unsafePath | rollback | cancelled => exact ensures_throw fun _ done => done.1
  | ok metadata =>
    refine ensures_bind (fun _ s => kept s ∧ s.directory.entries target = some metadata.ino)
      (ensures_enter _ ?_ (ensures_leave (require_regular metadata) (fun _ _ done => done) (fun _ _ done => done.1))) (fun _ => ?_)
    · rintro s ⟨known,ino,named,rfl⟩
      exact ⟨known,named⟩
    · exact ensures_pure fun _ done => done

theorem hold_existing (expectedTarget : Option Metadata) :
    Ensures (Prepared host start target content) (holdExisting target expectedTarget)
      (fun descriptor s => Prepared host start target content s ∧ descriptor = expectedTarget.map Metadata.ino)
      (fun _ => Untouched host start target) := by
  cases expectedTarget with
  | none => exact ensures_pure fun s prepared => ⟨prepared,rfl⟩
  | some expected =>
    refine ensures_bind (fun _ => Prepared host start target content)
      (ensures_leave (system_keeps (fun _ _ => True) ?_) (fun _ _ done => done.1) (fun _ _ done => done.1.untouched)) (fun ino => ?_)
    · intro s amount ino files prepared done
      split at done
      · cases done
      · split at done
        · cases done
          exact ⟨prepared.alike rfl rfl rfl rfl,trivial⟩
        · cases done
    refine ensures_bind (fun _ => Prepared host start target content) (ensures_update ?_) (fun _ => ?_)
    · exact fun s prepared => prepared.alike rfl rfl rfl rfl
    refine ensures_bind (fun displaced s => Prepared host start target content s ∧ displaced.ino = ino)
      (ensures_leave (fstat_keeps (some ino)) ?_ (fun _ _ done => done.1.untouched)) (fun displaced => ?_)
    · rintro displaced s ⟨prepared,other,same,rfl⟩
      exact ⟨prepared,(Option.some.inj same).symm⟩
    refine ensures_bind (fun _ s => Prepared host start target content s ∧ displaced.ino = ino)
      (ensures_leave (require_regular displaced) (fun _ _ done => done) (fun _ _ done => done.1.untouched)) (fun _ => ?_)
    refine ensures_ite (fun _ => ensures_throw fun _ known => known.1.untouched) (fun same => ensures_pure ?_)
    rintro s ⟨prepared,rfl⟩
    have same : displaced.ino = expected.ino := by simpa using same
    exact ⟨prepared,congrArg some same⟩

-- The staged file is written, observed and installed.
theorem install_prepared (temporaryName : String) :
    Ensures (Prepared host start target []) (stageAndInstall host target content temporaryName start.next)
      (fun _ => Published start target content) (fun _ => Settled host start target) := by
  refine ensures_bind _ (ensures_leave (observe_report start.next) (fun _ _ done => done.1) (fun _ _ done => .inr done)) (fun _ => ?_)
  refine ensures_bind _ (ensures_leave (write_view content.length (Nat.le_refl _)) (fun _ _ done => done) (fun _ _ done => .inr done)) (fun _ => ?_)
  rw [List.nil_append]
  refine ensures_bind _ (ensures_leave flush_keeps (fun _ _ done => done) (fun _ _ done => .inr done.untouched)) (fun _ => ?_)
  refine ensures_bind _ (ensures_leave (observe_report start.next) (fun _ _ done => done) (fun _ _ done => .inr done)) (fun report => ?_)
  refine ensures_bind _ (ensures_leave (fault_keeps .prepared) (fun _ _ done => done) (fun _ _ done => .inr done.1.untouched)) (fun _ => ?_)
  refine ensures_bind _ (ensures_leave safe_existing (fun _ _ done => done) (fun _ _ done => .inr done.1.untouched)) (fun expectedTarget => ?_)
  refine ensures_given (report.ino = start.next ∧ start.entries target = expectedTarget.map Metadata.ino) ?_ ?_
  · exact fun s known => ⟨known.1.2,known.1.1.untouched.same.symm.trans known.2⟩
  rintro ⟨numbered,before⟩
  refine ensures_enter (Prepared host start target content) (fun s known => known.1.1) ?_
  refine ensures_bind _ (ensures_leave (hold_existing expectedTarget) (fun _ _ done => done) (fun _ _ done => .inr done))
    (fun displacedDescriptor => ?_)
  refine ensures_given (displacedDescriptor = expectedTarget.map Metadata.ino) (fun s known => known.2) ?_
  rintro rfl
  refine ensures_bind (fun _ => Published start target content) ?_ (fun _ => ?_)
  · refine ensures_enter (Installing host start target content) ?_ (install_verified expectedTarget numbered ?_ ?_ before)
    · exact fun s known => ⟨known.1.untouched.toContained,known.1.filled,known.1.state⟩
    · exact fun other same => (Option.some.inj same).symm
    · intro ino displaced
      exact Nat.ne_of_lt (start.fresh target ino (before.trans displaced))
  · refine ensures_bind (fun _ => Published start target content) (ensures_current fun s done => done) (fun seen => ?_)
    refine ensures_ite (fun _ => ensures_update ?_) (fun _ => ensures_pure fun _ done => done)
    exact fun s published => ⟨published.committed,published.placed⟩

theorem prepare_and_install :
    Ensures (Idle start target) (prepareAndInstall host target content)
      (fun _ => Published start target content) (fun _ => Settled host start target) := by
  refine ensures_bind _ (ensures_leave (open_temporary rollbackAttempts) (fun _ _ done => done) (fun _ _ done => .inr done)) (fun _ => ?_)
  refine ensures_bind (fun seen s => (Untouched host start target s ∧ s.state = ⟨false,false,false,false,false⟩ ∧
    (s.reportDescriptor.isSome = true → Filled start [] s)) ∧ seen = s) (ensures_current fun s known => ⟨known,rfl⟩) (fun seen => ?_)
  split
  · rename_i temporaryName ino named described
    refine ensures_given (ino = start.next) ?_ ?_
    · rintro s ⟨⟨untouched,_,_⟩,rfl⟩
      exact untouched.owned ino described
    rintro rfl
    refine ensures_enter (Prepared host start target []) ?_ (install_prepared temporaryName)
    rintro s ⟨⟨untouched,state,filled⟩,rfl⟩
    exact ⟨untouched,filled (by rw [described]; rfl),state⟩
  · exact ensures_throw fun s known => .inr known.1.1

end Prepare

section Finish

theorem clean_up_published :
    Ensures (Published start target content) (cleanUp host target none)
      (fun r s => Published start target content s ∧ r = none) (fun _ _ => False) := by
  refine ensures_bind (fun seen s => Published start target content s ∧ seen = s) (ensures_current fun s known => ⟨known,rfl⟩) (fun seen => ?_)
  split
  · exact ensures_pure fun s known => ⟨known.1,rfl⟩
  · refine ensures_ite (fun _ => ensures_pure fun s known => ⟨known.1,rfl⟩) (fun uncommitted => ?_)
    intro world known
    obtain ⟨published,rfl⟩ := known
    simp [published.committed] at uncommitted

variable (target) in
-- Cleaning up, for anything its steps keep.
theorem clean_up_keeps {allowed : String → Prop} {kept : Session → Prop} {staged : Nat} (stable : Stable host staged allowed kept)
    (marked : ∀ s cleaned, kept s → kept {s with state := {s.state with cleaned := cleaned}}) (seen : Session)
    (named : ∀ name, seen.temporaryName = some name → allowed name) (there : ∀ token, allowed (quarantinePath target token))
    (owned : ∀ ino, seen.reportDescriptor = some ino → ino = staged) (report : Metadata) (failure : Option Raised) :
    Ensures kept
      (do
        let cleaned ← quarantineTemporary host target seen.temporaryName report seen.reportDescriptor
        mark fun state => {state with cleaned := cleaned}
        if cleaned then return failure
        let _ ← scrubDescriptor seen.reportDescriptor report false
        return none)
      (fun _ => kept) (fun _ s => kept s ∧ host.renames = false) := by
  refine ensures_bind (fun _ => kept) ?_ (fun cleaned => ?_)
  · unfold quarantineTemporary
    cases temporary : seen.temporaryName with
    | none => exact ensures_pure fun _ known => known
    | some name => exact quarantine_owned stable target (named name temporary) there report owned
  refine ensures_bind (fun _ => kept) (ensures_update fun s known => marked s cleaned known) (fun _ => ?_)
  refine ensures_ite (fun _ => ensures_pure fun _ known => known) (fun _ => ?_)
  refine ensures_bind _ (scrub_keeps seen.reportDescriptor report false ?_) (fun _ => ensures_pure fun _ known => known)
  intro ino s same known
  rw [owned ino same]
  exact stable.edited s _ known

theorem clean_up_settled (failure : Option Raised) :
    Ensures (Settled host start target) (cleanUp host target failure) (fun _ => Settled host start target)
      (fun _ => Untouched host start target) := by
  refine ensures_bind (fun seen s => Settled host start target s ∧ seen = s) (ensures_current fun s known => ⟨known,rfl⟩) (fun seen => ?_)
  split
  · exact ensures_pure fun s known => known.1
  · rename_i report _
    refine ensures_ite (fun _ => ensures_pure fun s known => known.1) (fun _ => ?_)
    refine ensures_enter (fun s => ((s.state.committed = false ∧ s.state.indeterminate = true) ∧ host.renames = true) ∨
      (Untouched host start target s ∧ seen = s)) ?_ (ensures_either ?_ ?_)
    · rintro s ⟨⟨uncommitted,lost,able⟩ | untouched,same⟩
      · exact .inl ⟨⟨uncommitted,lost⟩,able⟩
      · exact .inr ⟨untouched,same⟩
    · refine ensures_given (host.renames = true) (fun _ known => known.2) (fun able => ensures_enter _ (fun _ known => known.1) ?_)
      refine ensures_leave (clean_up_keeps target (lost_stable (seen.reportDescriptor.getD 0)) (fun _ _ known => known) seen (fun _ _ => trivial)
        (fun _ => trivial) ?_ report failure) ?_ ?_
      · intro ino same
        rw [same]
        rfl
      · exact fun _ s lost => .inl ⟨lost.1,lost.2,able⟩
      · rintro _ s ⟨_,unable⟩
        rw [able] at unable
        cases unable
    · refine ensures_given ((∀ ino, seen.reportDescriptor = some ino → ino = start.next) ∧ ∀ name, seen.temporaryName = some name → name ≠ target)
        ?_ (fun known => ensures_enter _ (fun _ known => known.1) ?_)
      · rintro s ⟨untouched,rfl⟩
        exact ⟨untouched.owned,untouched.named⟩
      refine ensures_leave (clean_up_keeps target untouched_stable ?_ seen known.2 (quarantine_apart target) known.1 report failure)
        (fun _ _ done => .inr done) (fun _ _ done => done.1)
      intro s cleaned untouched
      exact ⟨⟨untouched.owned,untouched.named,untouched.others,untouched.steady,untouched.uncommitted⟩,untouched.same⟩

-- Closing changes nothing a reader of the directory could see.
theorem close_keeps {kept : Session → Prop} (closed : ∀ s held, kept s → kept (s.with ⟨s.files.directory,held⟩)) (ino attempts : Nat) :
    Ensures kept (closeDescriptor ino attempts) (fun _ => kept) raised := by
  induction attempts with
  | zero => exact ensures_pure fun _ known => known
  | succ attempts ih =>
    refine ensures_bind (fun _ => kept) (caught_keeps (ensures_leave (system_keeps (fun _ _ => True) ?_) (fun _ _ done => done.1) ?_)) (fun result => ?_)
    · intro s amount value files known done
      split at done
      · cases done
        exact ⟨closed s _ known,trivial⟩
      · cases done
    · rintro e s ⟨known,rfl | ⟨amount,failed⟩⟩
      · exact ⟨fun _ => known,fun foreign => by cases foreign⟩
      · split at failed
        · cases failed
        · cases failed
          exact ⟨fun _ => known,fun foreign => by cases foreign⟩
    · cases result with
      | ok _ => exact ensures_pure fun _ known => known
      | error error =>
        refine ensures_bind _ (fstat_caught (some ino)) (fun found => ?_)
        split
        · exact ensures_pure fun _ known => known
        · exact ensures_ite (fun _ => ensures_pure fun _ known => known) (fun _ => ih)

theorem close_owned {kept : Session → Prop} (closed : ∀ s held, kept s → kept (s.with ⟨s.files.directory,held⟩)) (descriptor : Descriptor) :
    Ensures kept (closeOwned descriptor) (fun _ => kept) raised := by
  cases descriptor with
  | none => exact ensures_pure fun _ known => known
  | some ino => exact close_keeps closed ino rollbackAttempts

theorem finish_published :
    Ensures (Published start target content) (finish none) (fun _ => Published start target content) (fun e _ => e = .rollback) := by
  have closed : ∀ (s : Session) held, Published start target content s → Published start target content (s.with ⟨s.files.directory,held⟩) :=
    fun s held published => ⟨published.committed,published.placed⟩
  refine ensures_bind (fun _ => Published start target content) (ensures_current fun s known => known) (fun seen => ?_)
  refine ensures_bind _ (close_owned closed seen.reportDescriptor) (fun reportClosed => ?_)
  refine ensures_bind _ (close_owned closed seen.displacedDescriptor) (fun displacedClosed => ?_)
  refine ensures_ite (fun _ => ensures_pure fun _ known => known) (fun _ => ?_)
  exact ensures_ite (fun _ => ensures_throw fun _ _ => rfl) (fun _ => ensures_throw fun _ _ => rfl)

-- After a failure the write never returns; unless it says that it does not
-- know, the old entry is in place.
theorem finish_settled (failure : Option Raised) :
    Ensures (Settled host start target) (finish failure) (fun _ _ => False) (fun e s => e = .rollback ∨ Untouched host start target s) := by
  have closed : ∀ (state : StrictWriteState) (s : Session) held, Settled host start target s ∧ state = s.state →
      Settled host start target (s.with ⟨s.files.directory,held⟩) ∧ state = (s.with ⟨s.files.directory,held⟩).state := by
    rintro state s held ⟨lost | untouched,same⟩
    · exact ⟨.inl lost,same⟩
    · exact ⟨.inr (untouched.alike rfl rfl rfl rfl),same⟩
  refine ensures_bind (fun seen s => Settled host start target s ∧ seen.state = s.state) (ensures_current fun s known => ⟨known,rfl⟩) (fun seen => ?_)
  refine ensures_bind _ (close_owned (closed seen.state) seen.reportDescriptor) (fun reportClosed => ?_)
  refine ensures_bind _ (close_owned (closed seen.state) seen.displacedDescriptor) (fun displacedClosed => ?_)
  refine ensures_ite (fun done => ensures_pure ?_) (fun _ => ?_)
  · rintro s ⟨settled,same⟩
    have uncommitted : s.state.committed = false := settled.elim (fun lost => lost.1) (fun untouched => untouched.uncommitted)
    rw [same,uncommitted] at done
    cases done
  refine ensures_ite (fun _ => ensures_throw fun _ _ => .inl rfl) (fun decided => ?_)
  refine ensures_enter (Untouched host start target) ?_ ?_
  · rintro s ⟨⟨_,lost,_⟩ | untouched,same⟩
    · rw [same,lost] at decided
      simp at decided
    · exact untouched
  · cases failure with
    | none => exact ensures_throw fun _ _ => .inl rfl
    | some failure => exact ensures_ite (fun _ => ensures_throw fun _ known => .inr known) (fun _ => ensures_throw fun _ known => .inr known)

theorem atomic_write_strict :
    Ensures (Idle start target) (atomicWriteStrict host target content) (fun _ => Published start target content)
      (fun e s => e = .rollback ∨ Untouched host start target s) := by
  refine ensures_bind (fun ended s => match ended with
    | .ok _ => Published start target content s
    | .error _ => Settled host start target s) (ensures_outcome _ prepare_and_install) (fun ended => ?_)
  cases ended with
  | ok _ =>
    refine ensures_bind _ (ensures_leave clean_up_published (fun _ _ done => done) (fun _ _ gone => gone.elim)) (fun cleaned => ?_)
    refine ensures_given (cleaned = none) (fun _ known => known.2) ?_
    rintro rfl
    exact ensures_enter _ (fun _ known => known.1) (ensures_leave finish_published (fun _ _ done => done) (fun _ _ fixed => .inl fixed))
  | error failure =>
    refine ensures_bind _ (ensures_leave (clean_up_settled (some failure)) (fun _ _ done => done) (fun _ _ done => .inr done)) (fun cleaned => ?_)
    exact ensures_leave (finish_settled cleaned) (fun _ _ gone => gone.elim) (fun _ _ done => done)

end Finish

end Safety

-- A strict write, for every schedule of failing system calls, every exception at
-- the named boundaries and every directory it starts in.
theorem atomic_write_exact (host : Host) (target : String) (content : List UInt8) (start : Directory) (choices : Nat → Choice) :
    match atomicWriteStrict host target content ⟨starting start,choices⟩ with
    | (.ok (),after) => after.state.directory.lookup target = some (start.next,⟨content,true,1⟩)
    | (.error e,after) => e ≠ .rollback →
        after.state.directory.lookup target = start.lookup target ∧ after.state.directory.entries target ≠ some start.next := by
  have idle : Idle start target (starting start) := ⟨rfl,rfl,(fun name gone => by cases gone),rfl⟩
  have strict : Ensures (Idle start target) (atomicWriteStrict host target content) (fun _ => Published start target content)
      (fun e s => e = .rollback ∨ Untouched host start target s) := atomic_write_strict
  have ended := strict ⟨starting start,choices⟩ idle
  cases ran : atomicWriteStrict host target content ⟨starting start,choices⟩ with
  | mk result after =>
    rw [ran] at ended
    cases result with
    | ok _ => exact ended.placed
    | error e =>
      intro other
      have untouched := ended.resolve_left other
      refine ⟨untouched.lookup,fun staged => ?_⟩
      exact Nat.lt_irrefl _ (start.fresh target _ (untouched.same.symm.trans staged))

theorem vacant_fresh : ∀ name ino, (fun _ : String => (none : Option Nat)) name = some ino → ino < 0 := by
  intro name ino named
  cases named

def vacant : Directory := ⟨fun _ => none,fun _ => ⟨[],false,0⟩,0,vacant_fresh⟩

-- Undisturbed it replaces a file; a boundary that raises takes it back.
example : (atomicWriteStrict ⟨true,fun _ => none⟩ "report" [1,2] ⟨starting (vacant.create "report"),fun _ => ⟨.completes,0,"a"⟩⟩).1.toOption =
    some () := by decide +kernel

example : (atomicWriteStrict ⟨true,fun stage => if stage = .originalPreScrub then some .cancelled else none⟩ "report" [1,2]
    ⟨starting (vacant.create "report"),fun _ => ⟨.completes,0,"a"⟩⟩).2.state.state.cleaned = true := by decide +kernel

end StrictWrite
