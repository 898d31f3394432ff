import IntentEngineering.Library.PyEqual
import IntentEngineering.Stores.CaseStore
import Mathlib.Data.List.Chain

open Schema Json JsonLines

namespace CaseStore

-- The two ways a version gets into the ledger: `put`, and an append of what
-- `validate_case_appends` returns.
inductive Call where
  | put (case : ReconciliationCase)
  | append (cases : List ReconciliationCase)

section
variable (lax : Coercions)

-- What an accepted call leaves and the versions it added.
def turn (content : Option Utf8.Bytes) : Call → Except CaseStoreError (Option Utf8.Bytes × List ReconciliationCase)
  | .put case => (put lax content case).map fun out => (out.1,if out.2 then [case] else [])
  | .append cases => (validateCaseAppends lax content cases).map fun bytes => (some (content.getD [] ++ bytes),cases)

-- A refused call raises before it writes.
def leaves (content : Option Utf8.Bytes) (call : Call) : Option Utf8.Bytes × List ReconciliationCase :=
  match turn lax content call with
  | .ok out => out
  | .error _ => (content,[])

inductive Reached : Option Utf8.Bytes → List ReconciliationCase → Prop
  | start (empty : content.getD [] = []) : Reached content []
  | call (earlier : Reached content versions) (call : Call) :
      Reached (leaves lax content call).1 (versions ++ (leaves lax content call).2)

-- One transition of the lifecycle table, and nothing else changed.
structure Extends (earlier later : ReconciliationCase) : Prop where
  identity : Json.equal (immutableIdentity lax earlier) (immutableIdentity lax later) = true
  allowed : later.status ∈ earlier.status.allowedTransitions
  history : ∃ past event, later.history = past ++ [event] ∧ equalLists ClassificationEvent.equal past earlier.history = true ∧
    event.prior = earlier.status ∧ event.new = later.status

structure Follows (earlier later : ReconciliationCase) : Prop where
  identity : Json.equal (immutableIdentity lax earlier) (immutableIdentity lax later) = true
  live : earlier.status.allowedTransitions ≠ []

instance : Trans (Follows lax) (Follows lax) (Follows lax) where
  trans first second := ⟨Json.equal_trans _ first.identity second.identity,first.live⟩

end

def versionsOf (id : String) (versions : List ReconciliationCase) : List ReconciliationCase := versions.filter fun case => case.id == id

-- What holds of every ledger the calls can write.
structure Lifecycle (lax : Coercions) (versions : List ReconciliationCase) : Prop where
  chained : ∀ id, (versionsOf id versions).IsChain (Extends lax)
  printed : ∀ a ∈ versions, ∀ b ∈ versions, a.id = b.id ↔ a.fingerprint = b.fingerprint

-- The two indexes after these versions.
def indexed (versions : List ReconciliationCase) : CaseIndex := versions.foldl CaseIndex.store ⟨[],[]⟩

theorem indexed_snoc (versions : List ReconciliationCase) (case : ReconciliationCase) :
    indexed (versions ++ [case]) = (indexed versions).store case := by
  simp [indexed]

theorem lookup_latest (versions : List ReconciliationCase) (id : String) :
    (indexed versions).latestById.lookup id = (versionsOf id versions).getLast? := by
  induction versions using List.reverseRecOn with
  | nil => rfl
  | append_singleton versions case ih =>
    rw [indexed_snoc]
    simp only [CaseIndex.store,assign,List.lookup_cons]
    by_cases same : id = case.id
    · simp [versionsOf,same]
    · have other : (id == case.id) = false := by simp [same]
      simp [versionsOf,Ne.symm same,other,ih]

theorem lookup_owner (versions : List ReconciliationCase) (fingerprint : String) :
    (indexed versions).byFingerprint.lookup fingerprint = (versions.filter fun case => case.fingerprint == fingerprint).getLast? := by
  induction versions using List.reverseRecOn with
  | nil => rfl
  | append_singleton versions case ih =>
    rw [indexed_snoc]
    simp only [CaseIndex.store,assign,List.lookup_cons]
    by_cases same : fingerprint = case.fingerprint
    · simp [same]
    · have other : (fingerprint == case.fingerprint) = false := by simp [same]
      simp [Ne.symm same,other,ih]

section Steps
variable {lax : Coercions}

-- The members of the identity are those of the written case, so each of them
-- stands there once.
theorem identity_fingerprint {a b : ReconciliationCase}
    (same : Json.equal (immutableIdentity lax a) (immutableIdentity lax b) = true) : a.fingerprint = b.fingerprint := by
  have dumped (c : ReconciliationCase) : ∃ ms, (ReconciliationCase.codec lax).dump c = .obj ms ∧
      ("fingerprint",.str c.fingerprint) ∈ ms ∧ (ms.map Prod.fst).Pairwise (· < ·) := by
    refine ⟨_,rfl,?_,?_⟩
    · simp only [ReconciliationCase.fields,Fields.required,Fields.defaulted,Fields.push]
      iterate 7 apply List.mem_cons_of_mem
      exact List.mem_cons_self
    · rw [(ReconciliationCase.fields lax).named]
      exact (ReconciliationCase.fields lax).ascending
  obtain ⟨xs,shape,mine,_⟩ := dumped a
  obtain ⟨ys,shape',yours,ascending⟩ := dumped b
  simp only [immutableIdentity,shape,shape',equal] at same
  obtain ⟨v,member,equals⟩ := equalMembers_member same (List.mem_filter.mpr ⟨mine,by simp [lifecycleFields]⟩)
  rw [equal_str.mp equals] at member
  have found := lookup_member ascending yours
  rw [lookup_member ascending (List.mem_filter.mp member).1] at found
  exact Json.str.inj (Option.some.inj found)

-- What the history of a version is, when the validator of the model passed it.
theorem lifecycle_snoc (past : List ClassificationEvent) (event : ClassificationEvent) :
    ClassificationEvent.lifecycle status (past ++ [event]) = some reached →
      event.new ∈ event.prior.allowedTransitions := by
  induction past generalizing status with
  | nil =>
    intro walked
    simp only [List.nil_append,ClassificationEvent.lifecycle] at walked
    split at walked
    · rename_i fits
      exact fits.2
    · cases walked
  | cons first rest ih =>
    intro walked
    simp only [List.cons_append,ClassificationEvent.lifecycle] at walked
    split at walked
    · exact ih walked
    · cases walked

-- Everything the check of one version establishes.
theorem recordVersion_spec {s : CaseIndex} (taken : recordVersion lax exactIsNoop s case = .ok (s',true)) :
    s' = s.store case ∧ (∀ owner, s.byFingerprint.lookup case.fingerprint = some owner → owner.id = case.id) ∧
      ∀ previous, s.latestById.lookup case.id = some previous → Extends lax previous case := by
  unfold recordVersion at taken
  split at taken
  · cases taken
  · rename_i owned
    have mine : ∀ owner, s.byFingerprint.lookup case.fingerprint = some owner → owner.id = case.id := by
      intro owner found
      simpa [CaseIndex.ownedElsewhere,found] using owned
    split at taken
    · rename_i absent
      cases taken
      exact ⟨rfl,mine,fun previous found => by simp [absent] at found⟩
    · rename_i latest present
      split at taken
      · cases taken
      · rename_i identity
        split at taken
        · split at taken <;> cases taken
        · split at taken
          · cases taken
          · split at taken
            · cases taken
            · rename_i moved
              cases taken
              refine ⟨rfl,mine,?_⟩
              intro previous found
              rw [present] at found
              cases found
              simp only [extendsLifecycle,Bool.not_eq_true,Bool.not_eq_false'] at moved
              split at moved
              · cases moved
              · rename_i event last
                simp only [Bool.and_eq_true,decide_eq_true_eq] at moved
                obtain ⟨⟨⟨_,same⟩,prior⟩,new⟩ := moved
                have split : case.history = case.history.dropLast ++ [event] :=
                  (List.dropLast_append_getLast? event last).symm
                have allowed := lifecycle_snoc case.history.dropLast event (split ▸ case.valid.lifecycle)
                rw [prior,new] at allowed
                exact ⟨by simpa using identity,allowed,_,event,split,same,prior,new⟩

theorem last_of_member {l : List α} (member : a ∈ l) : ∃ last, l.getLast? = some last :=
  ⟨_,List.getLast?_eq_some_getLast (List.ne_nil_of_mem member)⟩

-- One step: a version the check takes keeps the ledger in its lifecycle.
theorem lifecycle_step (held : Lifecycle lax versions) (taken : recordVersion lax exactIsNoop (indexed versions) case = .ok (s',true)) :
    Lifecycle lax (versions ++ [case]) ∧ s' = indexed (versions ++ [case]) := by
  obtain ⟨stored,owner,grows⟩ := recordVersion_spec taken
  refine ⟨⟨?_,?_⟩,by rw [stored,indexed_snoc]⟩
  · intro id
    by_cases same : case.id = id
    · have shape : versionsOf id (versions ++ [case]) = versionsOf id versions ++ [case] := by simp [versionsOf,same]
      rw [shape,List.isChain_append]
      refine ⟨held.chained id,.singleton _,?_⟩
      intro previous latest next first
      cases first
      apply grows
      rw [lookup_latest,same]
      exact latest
    · have shape : versionsOf id (versions ++ [case]) = versionsOf id versions := by simp [versionsOf,same]
      rw [shape]
      exact held.chained id
  · have old : ∀ a ∈ versions, a.id = case.id ↔ a.fingerprint = case.fingerprint := by
      intro a member
      constructor
      · intro same
        have mine : a ∈ versionsOf case.id versions := List.mem_filter.mpr ⟨member,by simp [same]⟩
        obtain ⟨previous,latest⟩ := last_of_member mine
        have found := List.mem_filter.mp (List.mem_of_getLast? latest)
        have step := grows previous (by rw [lookup_latest,latest])
        rw [←identity_fingerprint step.identity]
        exact (held.printed a member previous found.1).mp (same.trans (beq_iff_eq.mp found.2).symm)
      · intro same
        have mine : a ∈ versions.filter fun c => c.fingerprint == case.fingerprint := List.mem_filter.mpr ⟨member,by simp [same]⟩
        obtain ⟨previous,latest⟩ := last_of_member mine
        have found := List.mem_filter.mp (List.mem_of_getLast? latest)
        rw [←owner previous (by rw [lookup_owner,latest])]
        exact (held.printed a member previous found.1).mpr (same.trans (beq_iff_eq.mp found.2).symm)
    intro a first b second
    rcases List.mem_append.mp first with before | new
    · rcases List.mem_append.mp second with before' | new
      · exact held.printed a before b before'
      · rw [List.mem_singleton.mp new]
        exact old a before
    · rw [List.mem_singleton.mp new]
      rcases List.mem_append.mp second with before | new
      · have same := old b before
        exact ⟨fun eq => (same.mp eq.symm).symm,fun eq => (same.mpr eq.symm).symm⟩
      · rw [List.mem_singleton.mp new]
        simp

-- A check that takes a version which is not the latest one adds it.
theorem recordVersion_added (taken : recordVersion lax exactIsNoop s case = .ok (s',added))
    (fresh : exactIsNoop = false ∨ s.isLatest case = false) : added = true := by
  unfold recordVersion at taken
  split at taken
  · cases taken
  · split at taken
    · cases taken
      rfl
    · rename_i previous present
      split at taken
      · cases taken
      · split at taken
        · rename_i same
          rcases fresh with strict | changed
          · rw [strict] at taken
            cases taken
          · simp [CaseIndex.isLatest,present,same] at changed
        · split at taken
          · cases taken
          · split at taken <;> cases taken
            rfl

theorem put_taken (got : put lax content case = .ok (content',true)) :
    ∃ s s', parseVersions lax content = .ok s ∧ recordVersion lax true s.index case = .ok (s',true) ∧
      content' = LedgerReader.append content ((ReconciliationCase.codec lax).dump case) := by
  unfold put at got
  split at got
  · cases got
  · rename_i s read
    split at got
    · cases got
    · rename_i fresh
      split at got
      · cases got
      · rename_i found taken
        obtain ⟨index,added⟩ := found
        cases got
        cases recordVersion_added taken (.inr (by simpa using fresh))
        exact ⟨s,index,read,taken,rfl⟩

end Steps

-- What a reached content is: the frames of its versions, and nothing else.
structure Written (lax : Coercions) (content : Option Utf8.Bytes) (versions : List ReconciliationCase) : Prop where
  frames : content.getD [] = Utf8.encode ((versions.map (ReconciliationCase.codec lax).dump).flatMap frame)
  reads : ∀ s, parseVersions lax content = .ok s → s = ⟨versions,indexed versions⟩

section Runs
variable {lax : Coercions}

theorem pending_frames {vs : List Json} (frames : content.getD [] = Utf8.encode (vs.flatMap frame)) :
    LedgerReader.pending content = [] := by
  rw [LedgerReader.pending,frames,Utf8.decode_encode,Option.getD_some]
  induction vs using List.reverseRecOn with
  | nil => rfl
  | append_singleton vs v _ =>
    rw [List.flatMap_append,List.flatMap_singleton]
    exact scan_frame _ v

-- The cases of one append, each checked against the ones before it.
theorem validated_lifecycle (cases : List ReconciliationCase) : ∀ {versions}, Lifecycle lax versions →
    validateAll lax (indexed versions) cases = .ok last → Lifecycle lax (versions ++ cases) := by
  induction cases with
  | nil =>
    intro versions held _
    simpa using held
  | cons case rest ih =>
    intro versions held valid
    simp only [validateAll] at valid
    cases taken : recordVersion lax false (indexed versions) case with
    | error e => simp [taken] at valid
    | ok found =>
      obtain ⟨index,added⟩ := found
      simp only [taken] at valid
      cases recordVersion_added taken (.inl rfl)
      obtain ⟨kept,same⟩ := lifecycle_step held taken
      subst same
      have later := ih kept valid
      rwa [List.append_assoc,List.singleton_append] at later

-- Behind a settled content a version that the check takes is read, or the
-- content is refused whatever comes later.
theorem append_reads (read : parseVersions lax content = .ok s) (clear : LedgerReader.pending content = [])
    (taken : recordVersion lax true s.index case = .ok (index,added)) :
    parseVersions lax (LedgerReader.append content ((ReconciliationCase.codec lax).dump case)) = .ok ⟨s.versions ++ [case],index⟩ ∨
      ∀ later, ∃ e, parseVersions lax
        (some (content.getD [] ++ Utf8.encode (frame ((ReconciliationCase.codec lax).dump case) ++ later))) = .error e := by
  have object := (dump_case lax case).imp fun _ found => found.1
  have formed := (ReconciliationCase.codec lax).formed case
  by_cases good : Unbroken ((ReconciliationCase.codec lax).dump case)
  · obtain ⟨n,shown,grown⟩ := (reader lax).read_append read object formed (by simp [clear,Blank]) ⟨good,.inl rfl⟩
    exact .inl (grown.trans (record_case lax s taken n))
  · refine .inr fun later => ?_
    obtain ⟨n,refused⟩ := (reader lax).read_append_torn read object formed (fun both => good both.2.1) later
    exact ⟨_,refused⟩

-- A content that reads back after an append of several cases reads as the old
-- versions and these.
theorem appended_reads (cases : List ReconciliationCase) : ∀ {content versions}, Lifecycle lax versions →
    parseVersions lax content = .ok ⟨versions,indexed versions⟩ → LedgerReader.pending content = [] →
    validateAll lax (indexed versions) cases = .ok last →
      ∀ s, parseVersions lax (LedgerReader.appendAll content (cases.map (ReconciliationCase.codec lax).dump)) = .ok s →
        s = ⟨versions ++ cases,indexed (versions ++ cases)⟩ := by
  induction cases with
  | nil =>
    intro content versions held read _ _ s got
    simp only [parseVersions,List.map_nil,LedgerReader.read_appendAll_nil] at got
    rw [parseVersions,got] at read
    rw [List.append_nil]
    exact Except.ok.inj read
  | cons case rest ih =>
    intro content versions held read clear valid s got
    simp only [validateAll] at valid
    cases taken : recordVersion lax false (indexed versions) case with
    | error e => simp [taken] at valid
    | ok found =>
      obtain ⟨index,added⟩ := found
      simp only [taken] at valid
      cases recordVersion_added taken (.inl rfl)
      obtain ⟨kept,same⟩ := lifecycle_step held taken
      subst same
      rcases append_reads read clear (recordVersion_strict lax taken) with next | refused
      · rw [List.map_cons,LedgerReader.appendAll_cons] at got
        have later := ih kept next ((reader lax).pending_append read _) valid s got
        rwa [List.append_assoc,List.singleton_append] at later
      · obtain ⟨e,failed⟩ := refused ((rest.map (ReconciliationCase.codec lax).dump).flatMap frame)
        simp only [LedgerReader.appendAll,List.map_cons,List.flatMap_cons] at got
        rw [failed] at got
        cases got

-- One accepted call.
theorem turn_step (held : Lifecycle lax versions) (written : Written lax content versions)
    (ran : turn lax content call = .ok (content',added)) :
    Lifecycle lax (versions ++ added) ∧ Written lax content' (versions ++ added) := by
  have clear := pending_frames written.frames
  cases call with
  | put case =>
    simp only [turn] at ran
    cases called : put lax content case with
    | error e => simp [called,Except.map] at ran
    | ok out =>
      obtain ⟨after,new⟩ := out
      simp only [called,Except.map,Except.ok.injEq,Prod.mk.injEq] at ran
      obtain ⟨rfl,rfl⟩ := ran
      cases new with
      | false =>
        obtain ⟨s,_,⟨_,rfl⟩ | ⟨impossible,_⟩⟩ := put_spec lax called
        · simpa using ⟨held,written⟩
        · cases impossible
      | true =>
        obtain ⟨s,s',read,taken,rfl⟩ := put_taken called
        cases written.reads s read
        obtain ⟨kept,rfl⟩ := lifecycle_step held taken
        refine ⟨kept,?_,?_⟩
        · simp [LedgerReader.append,written.frames,Utf8.encode_append]
        · intro s got
          rcases append_reads read clear taken with next | refused
          · rw [next] at got
            exact (Except.ok.inj got).symm
          · obtain ⟨e,failed⟩ := refused []
            rw [List.append_nil] at failed
            rw [LedgerReader.append,failed] at got
            cases got
  | append cases =>
    simp only [turn,validateCaseAppends] at ran
    cases read : parseVersions lax content with
    | error e => simp [read,Except.map] at ran
    | ok s =>
      cases written.reads s read
      simp only [read] at ran
      cases valid : validateAll lax (indexed versions) cases with
      | error e => simp [valid,Except.map] at ran
      | ok last =>
        simp only [valid,Except.map,Except.ok.injEq,Prod.mk.injEq] at ran
        obtain ⟨rfl,rfl⟩ := ran
        refine ⟨validated_lifecycle cases held valid,?_,?_⟩
        · simp [written.frames,Utf8.encode_append]
        · exact appended_reads cases held read clear valid

theorem reached_lifecycle (reached : Reached lax content versions) : Lifecycle lax versions ∧ Written lax content versions := by
  induction reached with
  | @start content empty =>
    refine ⟨⟨fun _ => .nil,fun _ member => absurd member List.not_mem_nil⟩,by simp [empty,Utf8.encode],?_⟩
    intro s got
    rw [parseVersions,←LedgerReader.read_getD,empty] at got
    cases got
    rfl
  | @call content versions earlier call ih =>
    obtain ⟨held,written⟩ := ih
    unfold leaves
    cases ran : turn lax content call with
    | error e => simpa using ⟨held,written⟩
    | ok out => exact turn_step held written ran

end Runs

end CaseStore

section Main
variable (lax : Coercions)

-- Every ledger the calls can write holds the versions one behind the other; for
-- each case they walk the lifecycle table, one transition at a time.
theorem case_lifecycle (reached : CaseStore.Reached lax content versions) :
    (content.getD [] = Utf8.encode ((versions.map (ReconciliationCase.codec lax).dump).flatMap frame) ∧
      ∀ s, CaseStore.parseVersions lax content = .ok s → s.versions = versions) ∧
    (∀ id, (CaseStore.versionsOf id versions).IsChain (CaseStore.Extends lax)) ∧
    (∀ id, (CaseStore.versionsOf id versions).Pairwise (CaseStore.Follows lax)) ∧
    (∀ case ∈ versions, (case.status = .resolved ↔ case.resolution.isSome) ∧
      (case.status = .resolved ↔ case.resolvedByChangeset.isSome)) ∧
    (∀ a ∈ versions, ∀ b ∈ versions, a.id = b.id ↔ a.fingerprint = b.fingerprint) ∧
    ∀ call e, CaseStore.turn lax content call = .error e → CaseStore.leaves lax content call = (content,[]) := by
  obtain ⟨held,written⟩ := CaseStore.reached_lifecycle reached
  refine ⟨⟨written.frames,fun s read => by rw [written.reads s read]⟩,held.chained,?_,?_,held.printed,?_⟩
  · intro id
    have follows : (CaseStore.versionsOf id versions).IsChain (CaseStore.Follows lax) :=
      (held.chained id).imp fun _ _ step => ⟨step.identity,List.ne_nil_of_mem step.allowed⟩
    exact List.isChain_iff_pairwise.mp follows
  · intro case _
    by_cases resolved : case.status = .resolved
    · obtain ⟨action,changeset⟩ := case.valid.resolved resolved
      simp [resolved,action,changeset]
    · obtain ⟨action,changeset⟩ := case.valid.unresolved resolved
      simp [resolved,action,changeset]
  · intro call e refused
    rw [CaseStore.leaves,refused]

end Main

def certain : Confidence := ⟨.finite ⟨false,0,0,0,by norm_num,by norm_num,by norm_num,by norm_num⟩,by simp [isConfidence]⟩

theorem review_day_valid : DateTime.Valid 2026 1 2 12 0 0 0 (some 0) := by decide

def reviewDay : DateTime := ⟨2026,1,2,12,0,0,0,some 0,review_day_valid⟩

theorem cited_once : namedAll ["evidence:1"] = true := by decide

theorem alice_named : "alice" ≠ "" := by decide

theorem fingerprint_printed : isFingerprint (String.ofList (List.replicate 64 'a')) = true := by decide

-- A case as a detector opens it, and its next version.
def openedCase : ReconciliationCase where
  id := "case:1"
  subjectRef := "node:1"
  caseType := .conflictingSources
  affectedRefs := []
  evidenceSides := [⟨"code","claim",["evidence:1"],reviewDay,["alice"],certain,.explicit,true,cited_once,by decide⟩]
  detectorId := "detector"
  fingerprint := String.ofList (List.replicate 64 'a')
  createdAt := reviewDay
  createdBy := "alice"
  status := .opened
  requiresHuman := true
  alternatives := []
  impact := ""
  resolution := none
  resolvedByChangeset := none
  history := []
  printed := fingerprint_printed
  attributed := alice_named
  valid := by decide

def proposedCase : ReconciliationCase :=
  {openedCase with
    status := .proposed
    history := [⟨"alice",reviewDay,.opened,.proposed,alice_named⟩]
    valid := by decide}

theorem proposed_case_lifecycle :
    (CaseStore.versionsOf "case:1" [openedCase,proposedCase]).IsChain (CaseStore.Extends canonicalOnly) :=
  (case_lifecycle canonicalOnly (.call (.start (show (none : Option Utf8.Bytes).getD [] = [] from rfl))
    (.append [openedCase,proposedCase]))).2.1 "case:1"
