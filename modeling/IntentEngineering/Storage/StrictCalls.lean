import IntentEngineering.Storage.StrictWrite

open Choices

-- What the system calls of a strict write, and the checks made of them, tell
-- and keep. `kept` is whatever the caller knows of the session.
namespace StrictWrite

def Session.with (s : Session) (files : Files) : Session := {s with files := files}

def Session.directory (s : Session) : Directory := s.files.directory

-- The session after a change of the directory alone.
def Session.turned (s : Session) (change : Directory → Directory) : Session :=
  {s with files := {s.files with directory := change s.files.directory}}

variable {α : Type} {kept : Session → Prop} {raised : Raised → Session → Prop}

theorem system_ensures {attempt : Nat → Files → Except Raised (α × Files)} {pre : Session → Prop} {post : α → Session → Prop}
    (does : ∀ s amount value files, pre s → attempt amount s.files = .ok (value,files) →
      post value (s.with files) ∧ raised .osError (s.with files))
    (fails : ∀ s amount e, pre s → attempt amount s.files = .error e → raised e s) (refused : ∀ s, pre s → raised .osError s) :
    Ensures pre (system attempt) post raised := by
  refine ensures_bind (fun _ => pre) (ensures_choose fun _ _ start => start) (fun choice => ?_)
  refine ensures_bind (fun seen s => pre s ∧ seen = s) (ensures_current fun s start => ⟨start,rfl⟩) (fun seen => ?_)
  rcases choice with ⟨fate,amount,token⟩
  intro world start
  obtain ⟨start,rfl⟩ := start
  cases tried : attempt amount world.state.files with
  | error error =>
    cases fate with
    | completes => exact fails _ _ _ start tried
    | refused => exact refused _ start
    | torn => exact fails _ _ _ start tried
  | ok done =>
    rcases done with ⟨value,files⟩
    cases fate with
    | completes => exact (does _ _ _ _ start tried).1
    | refused => exact refused _ start
    | torn => exact (does _ _ _ _ start tried).2

theorem system_keeps {attempt : Nat → Files → Except Raised (α × Files)} (told : α → Session → Prop)
    (keeps : ∀ s amount value files, kept s → attempt amount s.files = .ok (value,files) →
      kept (s.with files) ∧ told value (s.with files)) :
    Ensures kept (system attempt) (fun value s => kept s ∧ told value s)
      (fun e s => kept s ∧ (e = .osError ∨ ∃ amount, attempt amount s.files = .error e)) := by
  refine system_ensures ?_ ?_ ?_
  · intro s amount value files start done
    have ends := keeps s amount value files start done
    exact ⟨ends,ends.1,.inl rfl⟩
  · exact fun s amount e start failed => ⟨start,.inr ⟨amount,failed⟩⟩
  · exact fun s start => ⟨start,.inl rfl⟩

theorem caught_keeps {act : Act α} {post : Except Raised α → Session → Prop}
    (body : Ensures kept act (fun value => post (.ok value))
      (fun e s => (e.isOSError = true → post (.error e) s) ∧ (e.isOSError = false → raised e s))) :
    Ensures kept (caught act) post raised := by
  refine ensures_bind _ (ensures_outcome (Ended (fun value => post (.ok value))
    (fun (e : Raised) s => (e.isOSError = true → post (.error e) s) ∧ (e.isOSError = false → raised e s))) body) (fun result => ?_)
  cases result with
  | ok value => exact ensures_pure fun _ done => done
  | error e =>
    cases native : e.isOSError with
    | true => simp only [native,if_true]; exact ensures_pure fun _ done => done.1 native
    | false => simp only [native]; exact ensures_throw fun _ done => done.2 native

-- A call that only looks.
theorem look_keeps (view : Files → Except Raised α) :
    Ensures kept (system fun _ files => (view files).map (·,files)) (fun value s => kept s ∧ view s.files = .ok value)
      (fun e s => kept s ∧ (e = .osError ∨ view s.files = .error e)) := by
  refine ensures_leave (system_keeps (fun value s => view s.files = .ok value) ?_) (fun _ _ done => done) ?_
  · intro s amount value files start looked
    cases seen : view s.files with
    | error e => simp [seen,Except.map] at looked
    | ok found =>
      simp only [seen,Except.map,Except.ok.injEq,Prod.mk.injEq] at looked
      obtain ⟨rfl,rfl⟩ := looked
      exact ⟨start,seen⟩
  · rintro e s ⟨start,rfl | ⟨amount,looked⟩⟩
    · exact ⟨start,.inl rfl⟩
    · cases seen : view s.files with
      | error other =>
        simp only [seen,Except.map,Except.error.injEq] at looked
        exact ⟨start,.inr (by rw [looked])⟩
      | ok found => simp [seen,Except.map] at looked

-- What an answer to `os.stat` or `os.fstat` means.
def Stated (name : String) (s : Session) : Except Raised Metadata → Prop
  | .error e => e = .fileNotFound → s.directory.entries name = none
  | .ok observed => ∃ ino, s.directory.entries name = some ino ∧ observed = s.directory.metadata ino

theorem stat_caught (name : String) : Ensures kept (caught (stat name)) (fun r s => kept s ∧ Stated name s r) raised := by
  refine caught_keeps (ensures_leave (look_keeps (statName name)) ?_ ?_)
  · rintro observed s ⟨start,seen⟩
    unfold statName at seen
    cases named : s.files.directory.entries name with
    | none => simp [named] at seen
    | some ino =>
      simp only [named,Except.ok.injEq] at seen
      exact ⟨start,ino,named,seen.symm⟩
  · rintro e s ⟨start,rfl | seen⟩
    · exact ⟨fun _ => ⟨start,fun wrong => by cases wrong⟩,fun foreign => by cases foreign⟩
    · unfold statName at seen
      cases named : s.files.directory.entries name with
      | some ino => simp [named] at seen
      | none =>
        simp only [named,Except.error.injEq] at seen
        cases seen
        exact ⟨fun _ => ⟨start,fun _ => named⟩,fun foreign => by cases foreign⟩

theorem stat_descriptor_error {descriptor : Descriptor} {files : Files} (seen : statDescriptor descriptor files = .error e) :
    e = .badDescriptor := by
  unfold statDescriptor at seen
  cases descriptor with
  | none => simpa using seen.symm
  | some ino =>
    simp only at seen
    split at seen
    · cases seen
    · simpa using seen.symm

theorem stat_descriptor_ok {descriptor : Descriptor} {files : Files} (seen : statDescriptor descriptor files = .ok observed) :
    ∃ ino, descriptor = some ino ∧ observed = files.directory.metadata ino := by
  unfold statDescriptor at seen
  cases descriptor with
  | none => cases seen
  | some ino =>
    simp only at seen
    split at seen
    · exact ⟨ino,rfl,by simpa using seen.symm⟩
    · cases seen

theorem fstat_keeps (descriptor : Descriptor) :
    Ensures kept (fstat descriptor)
      (fun observed s => kept s ∧ ∃ ino, descriptor = some ino ∧ observed = s.directory.metadata ino)
      (fun e s => kept s ∧ e.isOSError = true) := by
  refine ensures_leave (look_keeps (statDescriptor descriptor)) ?_ ?_
  · rintro observed s ⟨start,seen⟩
    exact ⟨start,stat_descriptor_ok seen⟩
  · rintro e s ⟨start,rfl | seen⟩
    · exact ⟨start,rfl⟩
    · exact ⟨start,by rw [stat_descriptor_error seen]; rfl⟩

theorem fstat_caught (descriptor : Descriptor) : Ensures kept (caught (fstat descriptor)) (fun _ => kept) raised := by
  refine caught_keeps (ensures_leave (fstat_keeps descriptor) (fun _ _ done => done.1) ?_)
  rintro e s ⟨start,native⟩
  exact ⟨fun _ => start,fun foreign => by rw [native] at foreign; cases foreign⟩

theorem fsync_keeps : Ensures kept fsync (fun _ => kept) (fun e s => kept s ∧ e.isOSError = true) := by
  refine ensures_leave (system_keeps (fun _ _ => True) ?_) (fun _ _ done => done.1) ?_
  · intro s amount value files start done
    cases done
    exact ⟨start,trivial⟩
  · rintro e s ⟨start,rfl | ⟨_,wrong⟩⟩
    · exact ⟨start,rfl⟩
    · cases wrong

-- Entries and their files.
def Holds (s : Session) (name : String) (expected : Metadata) : Prop := s.directory.entries name = some expected.ino

theorem matching_entry (name : String) (expected : Metadata) :
    Ensures kept (matchingEntry name expected)
      (fun r s => kept s ∧ ∀ observed ∈ r, Holds s name expected ∧ observed = s.directory.metadata expected.ino) raised := by
  refine ensures_bind _ (stat_caught name) (fun result => ?_)
  cases result with
  | error e => exact ensures_pure fun s done => ⟨done.1,fun _ none => by cases none⟩
  | ok observed =>
    refine ensures_pure fun s done => ⟨done.1,fun found member => ?_⟩
    obtain ⟨_,ino,named,rfl⟩ := done
    split at member
    · rename_i same
      cases member
      have same : ino = expected.ino := same
      exact ⟨by rw [Holds,named,same],by rw [same]⟩
    · cases member

theorem entry_matches (name : String) (expected : Metadata) :
    Ensures kept (entryMatches name expected) (fun ok s => kept s ∧ (ok = true → Holds s name expected)) raised := by
  refine ensures_bind _ (matching_entry name expected) (fun result => ensures_pure fun s done => ⟨done.1,fun yes => ?_⟩)
  cases result with
  | none => cases yes
  | some observed => exact (done.2 observed rfl).1

-- The entry is there, regular and with one link.
def HoldsSafely (s : Session) (name : String) (expected : Metadata) : Prop :=
  Holds s name expected ∧ safe (s.directory.metadata expected.ino) = true

theorem entry_is_safe (name : String) (expected : Metadata) :
    Ensures kept (entryIsSafe name expected) (fun ok s => kept s ∧ (ok = true → HoldsSafely s name expected)) raised := by
  refine ensures_bind _ (matching_entry name expected) (fun result => ensures_pure fun s done => ⟨done.1,fun yes => ?_⟩)
  cases result with
  | none => cases yes
  | some observed =>
    obtain ⟨holds,rfl⟩ := done.2 observed rfl
    exact ⟨holds,yes⟩

theorem twice_keeps {check : Act Bool} {told : Session → Prop}
    (once : Ensures kept check (fun ok s => kept s ∧ (ok = true → told s)) raised) :
    Ensures kept (twice check) (fun ok s => kept s ∧ (ok = true → told s)) raised := by
  refine ensures_bind _ once (fun first => ?_)
  cases first with
  | true => exact ensures_enter _ (fun _ done => done.1) once
  | false => exact ensures_pure fun _ done => ⟨done.1,fun wrong => by cases wrong⟩

section Snapshots
variable (target : String) (report : Metadata) (reportDescriptor displacedDescriptor : Descriptor)

theorem report_snapshot : Ensures kept (terminalReportSnapshot target report reportDescriptor)
    (fun ok s => kept s ∧ (ok = true → HoldsSafely s target report)) raised := by
  refine twice_keeps (ensures_bind _ (fstat_caught reportDescriptor) (fun result => ?_))
  cases result with
  | error e => exact ensures_pure fun _ done => ⟨done,fun wrong => by cases wrong⟩
  | ok held =>
    refine ensures_bind _ (entry_is_safe target report) (fun entry => ensures_pure fun s done => ⟨done.1,fun yes => ?_⟩)
    simp only [Bool.and_eq_true] at yes
    exact done.2 yes.1.1.1

theorem existing_snapshot (quarantine : String) (original : Metadata) :
    Ensures kept (terminalExistingSnapshot target quarantine original displacedDescriptor report reportDescriptor)
      (fun ok s => kept s ∧ (ok = true → HoldsSafely s target report)) raised := by
  refine twice_keeps (ensures_bind (fun _ => kept)
    (ensures_leave (matching_entry quarantine original) (fun _ _ done => done.1) (fun _ _ done => done))
    (fun tombstone => ensures_bind _ (fstat_caught displacedDescriptor) (fun result => ?_)))
  cases result with
  | error e => exact ensures_pure fun _ done => ⟨done,fun wrong => by cases wrong⟩
  | ok displaced =>
    refine ensures_ite (fun _ => ensures_pure fun _ done => ⟨done,fun wrong => by cases wrong⟩) (fun _ => ?_)
    exact report_snapshot target report reportDescriptor

theorem rollback_snapshot (original : Option Metadata) :
    Ensures kept (terminalRollbackSnapshot target original displacedDescriptor report reportDescriptor)
      (fun ok s => kept s ∧ (ok = true → s.directory.entries target = original.map Metadata.ino)) raised := by
  have looked : ∀ absent : Bool,
      Ensures (fun s => kept s ∧ (absent = true → s.directory.entries target = none))
        (terminalRollbackSnapshot.remaining target original displacedDescriptor report reportDescriptor absent)
        (fun ok s => kept s ∧ (ok = true → s.directory.entries target = original.map Metadata.ino)) raised := by
    intro absent
    refine ensures_bind _ (fstat_caught reportDescriptor) (fun result => ?_)
    cases result with
    | error e => exact ensures_pure fun _ done => ⟨done.1,fun wrong => by cases wrong⟩
    | ok heldReport =>
      cases original with
      | none =>
        refine ensures_pure fun s done => ⟨done.1,fun yes => ?_⟩
        simp only [Bool.and_eq_true] at yes
        exact done.2 yes.1
      | some original =>
        refine ensures_bind _ (fstat_caught displacedDescriptor) (fun found => ?_)
        cases found with
        | error e => exact ensures_pure fun _ done => ⟨done.1,fun wrong => by cases wrong⟩
        | ok heldOriginal =>
          refine ensures_ite (fun _ => ensures_pure fun _ done => ⟨done.1,fun wrong => by cases wrong⟩) (fun _ => ?_)
          refine ensures_bind _ (entry_is_safe target original) (fun entry => ensures_pure fun s done => ⟨done.1.1,fun yes => ?_⟩)
          simp only [Bool.and_eq_true] at yes
          exact (done.2 yes.1.1.1.1).1
  refine twice_keeps (ensures_bind _ (stat_caught target) (fun result => ?_))
  cases result with
  | ok observed =>
    exact ensures_enter _ (fun _ done => ⟨done.1,fun wrong => by cases wrong⟩) (looked false)
  | error e =>
    cases e with
    | fileNotFound =>
      exact ensures_enter _ (fun _ done => ⟨done.1,fun _ => done.2 rfl⟩) (looked true)
    | osError | fileExists | badDescriptor | unsafePath | rollback | cancelled =>
      exact ensures_pure fun _ done => ⟨done.1,fun wrong => by cases wrong⟩

end Snapshots

end StrictWrite
