import IntentEngineering.Capture.CheckpointValidation

namespace WorkspaceValidation
open Checkpoints

theorem except_mapM_ok {f : α → Except ε β} {g : α → β} {xs : List α} (each : ∀ x ∈ xs, f x = .ok (g x)) :
    xs.mapM f = .ok (xs.map g) := by
  induction xs with
  | nil => rfl
  | cons x xs ih =>
    rw [List.mapM_cons,each x (by simp),ih fun y member => each y (by simp [member])]
    rfl

-- No time of the record stands in the way of its kind before its number does.
def Timely (host : Host) (record : EvidenceRecord) (repository : String) : Prop :=
  ∀ kind identity, ScopedIdentity.of record repository = .numbered kind identity → ∀ e, record.observedAt.format host = .error e →
    ScopedIdentity.numberMatches record kind identity = .ok true ∨ ScopedIdentity.numberMatches record kind identity = .error e

theorem kinds_agree (host : Host) (c : GitHubConnector) (record : EvidenceRecord) :
    c.scopedRecordKind host record = githubScopedRecordKind host record c.repository.1 ↔ Timely host record c.repository.1 := by
  unfold GitHubConnector.scopedRecordKind githubScopedRecordKind Timely
  cases ScopedIdentity.of record c.repository.1 with
  | foreign => simp
  | commit => simp
  | numbered kind identity =>
    have only : (∀ k i, ScopedIdentity.numbered kind identity = .numbered k i → ∀ e, record.observedAt.format host = .error e →
        ScopedIdentity.numberMatches record k i = .ok true ∨ ScopedIdentity.numberMatches record k i = .error e) ↔
        ∀ e, record.observedAt.format host = .error e →
          ScopedIdentity.numberMatches record kind identity = .ok true ∨ ScopedIdentity.numberMatches record kind identity = .error e :=
      ⟨fun all => all kind identity rfl,fun one k i same => by cases same; exact one⟩
    rw [only]
    dsimp only
    cases record.observedAt.format host with
    | ok canonicalObservedAt =>
      cases ScopedIdentity.numberMatches record kind identity with
      | error e => simp [Except.bind,Except.map]
      | ok same => cases same <;> simp [Except.bind,Except.map]
    | error raised =>
      cases ScopedIdentity.numberMatches record kind identity with
      | error e => simp [Except.bind,eq_comm]
      | ok same => cases same <;> simp [Except.bind,Except.map]

theorem kind_read {host : Host} {c : GitHubConnector} {record : EvidenceRecord} (read : c.scopedRecordKind host record = .ok (some kind)) :
    githubScopedRecordKind host record c.repository.1 = .ok (some kind) := by
  rw [←read]
  symm
  rw [kinds_agree]
  intro kind' identity named e raised
  simp only [GitHubConnector.scopedRecordKind,named,raised,Except.bind] at read
  cases read

-- A commit is named by its version.
theorem commit_identity {record : EvidenceRecord} (read : ScopedIdentity.of record repository = .commit) :
    record.externalObjectId = "github:" ++ repository ++ ":commit:" ++ record.externalVersion := by
  simp only [ScopedIdentity.of] at read
  split at read
  · cases read
  · rename_i inside
    split at read
    · cases read
    · split at read
      · rename_i commit
        split at read
        · rename_i same
          simp only [not_or,Decidable.not_not] at inside
          obtain ⟨_,begun,marked⟩ := inside
          obtain ⟨suffix,whole⟩ := List.isPrefixOf_iff_prefix.mp begun
          rw [←whole,List.drop_left] at commit marked same
          have mark : (suffix.dropWhile (· != ':')) = ':' :: (suffix.dropWhile (· != ':')).drop 1 := by
            cases rest : suffix.dropWhile (· != ':') with
            | nil => exact absurd rest marked
            | cons c cs =>
              have stop := List.head_dropWhile_not (· != ':') (w := by rw [rest]; exact List.cons_ne_nil _ _)
              simp only [rest,List.head_cons] at stop
              have colon : c = ':' := by simpa using stop
              rw [colon]
              rfl
          have kind : suffix.takeWhile (· != ':') = "commit".toList := by
            rw [←commit,String.toList_ofList]
          have split : suffix = "commit".toList ++ ':' :: (suffix.dropWhile (· != ':')).drop 1 := by
            rw [←mark,←kind,List.takeWhile_append_dropWhile]
          apply String.toList_inj.mp
          rw [←whole,same.2.1]
          conv_lhs => rw [split]
          simp [String.toList_append]
        · cases read
      · split at read
        · cases read
        · split at read <;> cases read

theorem numbered_kind {record : EvidenceRecord} (read : ScopedIdentity.of record repository = .numbered kind identity) : kind ≠ "commit" := by
  simp only [ScopedIdentity.of] at read
  split at read
  · cases read
  · split at read
    · cases read
    · split at read
      · split at read <;> cases read
      · rename_i other
        split at read
        · cases read
        · split at read
          · cases read
          · simp only [ScopedIdentity.numbered.injEq] at read
            exact read.1 ▸ other

theorem kind_cases {host : Host} {c : GitHubConnector} {record : EvidenceRecord} (read : c.scopedRecordKind host record = .ok (some kind)) :
    (ScopedIdentity.of record c.repository.1 = .commit ∧ kind = "commit") ∨
      ∃ identity, ScopedIdentity.of record c.repository.1 = .numbered kind identity := by
  unfold GitHubConnector.scopedRecordKind at read
  cases named : ScopedIdentity.of record c.repository.1 with
  | foreign =>
    rw [named] at read
    cases read
  | commit =>
    rw [named] at read
    cases read
    exact .inl ⟨rfl,rfl⟩
  | numbered kind' identity =>
    rw [named] at read
    dsimp only at read
    cases shown : record.observedAt.format host with
    | error e =>
      rw [shown] at read
      cases read
    | ok canonicalObservedAt =>
      cases counted : ScopedIdentity.numberMatches record kind' identity with
      | error e =>
        rw [shown,counted] at read
        cases read
      | ok same =>
        rw [shown,counted] at read
        simp only [Except.bind,Except.map,Except.ok.injEq] at read
        split at read
        · cases read
          exact .inr ⟨identity,rfl⟩
        · cases read

theorem separate_spec {host : Host} {c : GitHubConnector} {records : List EvidenceRecord} (separated : c.separate host records = .ok parts) :
    (∀ r ∈ records, ∃ kind, c.scopedRecordKind host r = .ok (some kind)) ∧
    (∀ r, r ∈ parts.1 ↔ r ∈ records ∧ ∃ kind, c.scopedRecordKind host r = .ok (some kind) ∧ kind ≠ "commit") ∧
      ∀ r, r ∈ parts.2 ↔ r ∈ records ∧ c.scopedRecordKind host r = .ok (some "commit") := by
  induction records generalizing parts with
  | nil =>
    cases separated
    simp
  | cons record rest ih =>
    simp only [GitHubConnector.separate] at separated
    cases kinds : c.scopedRecordKind host record with
    | error e =>
      rw [kinds] at separated
      cases separated
    | ok found =>
      rw [kinds] at separated
      cases found with
      | none => cases separated
      | some kind =>
        simp only [Except.bind] at separated
        cases later : c.separate host rest with
        | error e =>
          rw [later] at separated
          cases separated
        | ok others =>
          rw [later] at separated
          simp only [Except.map,Except.ok.injEq] at separated
          obtain ⟨known,updated,commits⟩ := ih later
          refine ⟨?_,?_,?_⟩
          · intro r member
            rcases List.mem_cons.mp member with rfl | member
            · exact ⟨kind,kinds⟩
            · exact known r member
          · intro r
            split at separated
            · rename_i commit
              subst separated commit
              dsimp only
              rw [updated,List.mem_cons]
              constructor
              · rintro ⟨member,other⟩
                exact ⟨.inr member,other⟩
              · rintro ⟨rfl | member,k,read,other⟩
                · rw [kinds] at read
                  cases read
                  exact absurd rfl other
                · exact ⟨member,k,read,other⟩
            · rename_i other
              subst separated
              dsimp only
              rw [List.mem_cons,updated,List.mem_cons]
              constructor
              · rintro (rfl | ⟨member,found⟩)
                · exact ⟨.inl rfl,kind,kinds,other⟩
                · exact ⟨.inr member,found⟩
              · rintro ⟨rfl | member,found⟩
                · exact .inl rfl
                · exact .inr ⟨member,found⟩
          · intro r
            split at separated
            · rename_i commit
              subst separated commit
              dsimp only
              rw [List.mem_cons,commits,List.mem_cons]
              constructor
              · rintro (rfl | ⟨member,found⟩)
                · exact ⟨.inl rfl,kinds⟩
                · exact ⟨.inr member,found⟩
              · rintro ⟨rfl | member,found⟩
                · exact .inl rfl
                · exact .inr ⟨member,found⟩
            · rename_i other
              subst separated
              dsimp only
              rw [commits,List.mem_cons]
              constructor
              · rintro ⟨member,found⟩
                exact ⟨.inr member,found⟩
              · rintro ⟨rfl | member,found⟩
                · rw [kinds] at found
                  cases found
                  exact absurd rfl other
                · exact ⟨member,found⟩

-- The ledger of a connector, of which it has consumed these records so far.
structure Matching (connectorId : String) (consumed : List EvidenceRecord) (s : EvidenceSnapshot) : Prop where
  distinct : (s.evidence.map EvidenceRecord.id).Nodup
  stored : ∀ item ∈ s.ingestions, item.evidence ∈ s.evidence
  begun : consumed <+: (s.ingestions.filter fun item => item.connectorId == connectorId).map EvidenceIngestion.evidence

section Matched
variable {connectorId : String} {consumed : List EvidenceRecord} {s : EvidenceSnapshot} (ledger : Matching connectorId consumed s)
include ledger

theorem Matching.held {r : EvidenceRecord} (member : r ∈ consumed) : r ∈ s.evidence ∧ associated s connectorId r.id = true := by
  obtain ⟨item,found,rfl⟩ := List.mem_map.mp (ledger.begun.subset member)
  obtain ⟨present,own⟩ := List.mem_filter.mp found
  refine ⟨ledger.stored item present,?_⟩
  rw [associated,Bool.or_eq_true]
  left
  exact List.any_eq_true.mpr ⟨item,present,by simpa using own⟩

-- An identifier that was consumed names one record.
theorem Matching.named {r : EvidenceRecord} (present : r ∈ s.evidence) : r.id ∈ consumed.map EvidenceRecord.id ↔ r ∈ consumed := by
  constructor
  · intro named
    obtain ⟨other,member,same⟩ := List.mem_map.mp named
    have one : other = r := List.inj_on_of_nodup_map ledger.distinct (ledger.held member).1 present same
    exact one ▸ member
  · exact List.mem_map_of_mem

theorem Matching.clean (checkpoint : SyncCheckpoint) (modern : legacyConnectors.contains connectorId = false)
    (owned : checkpoint.connectorId = connectorId) (ids : checkpoint.consumedEvidenceIds = consumed.map EvidenceRecord.id) :
    consumption s checkpoint = [] := by
  have legacy (r : EvidenceRecord) : isLegacy s connectorId r = false := by
    rw [Bool.eq_false_iff]
    intro held
    simp only [isLegacy,Bool.and_eq_true,beq_iff_eq] at held
    rw [held.1.1,modern] at held
    exact absurd held.2 (by decide)
  have ids' : ledgerIds s connectorId = (s.ingestions.filter fun item => item.connectorId == connectorId).map fun item => item.evidence.id := by
    rw [ledgerIds]
    induction s.evidence with
    | nil => rfl
    | cons r rest ih => simpa only [List.foldl_cons,legacy,Bool.false_and,Bool.false_eq_true,if_false] using ih
  have start : checkpoint.consumedEvidenceIds.isPrefixOf (ledgerIds s connectorId) = true := by
    rw [ids,ids',List.isPrefixOf_iff_prefix]
    have mapped := ledger.begun.map EvidenceRecord.id
    rwa [List.map_map] at mapped
  rw [consumption,owned,start,if_pos rfl,List.append_nil,List.flatMap_eq_nil_iff]
  intro evidenceId member
  rw [ids] at member
  obtain ⟨r,inside,rfl⟩ := List.mem_map.mp member
  obtain ⟨present,linked⟩ := ledger.held inside
  have known : (s.evidence.map EvidenceRecord.id).contains r.id = true := by
    rw [List.contains_iff_mem]
    exact List.mem_map_of_mem present
  simp only [known,linked,not_true_eq_false,if_false,if_true]

end Matched

theorem github_family (c : GitHubConnector) :
    family c.connectorId = some (.github c.repository.1) ∧ legacyConnectors.contains c.connectorId = false := by
  have start : c.connectorId.toList = "github:".toList ++ c.repository.1.toList := by
    rw [GitHubConnector.connectorId,String.toList_append]
  have begun : startsWith "github:" c.connectorId = true := by
    rw [startsWith,start,List.isPrefixOf_iff_prefix]
    exact List.prefix_append _ _
  have rest : String.ofList (c.connectorId.toList.drop 7) = c.repository.1 := by
    have size : "github:".toList.length = 7 := by decide
    rw [start,←size,List.drop_left,String.ofList_toList]
  constructor
  · simp only [family,begun,if_true,rest,c.repository.2]
  · rw [Bool.eq_false_iff,ne_eq,List.contains_iff_mem]
    intro legacy
    have none : ∀ name ∈ legacyConnectors, startsWith "github:" name = false := by decide
    rw [none _ legacy] at begun
    cases begun

-- The records of the snapshot that a checkpoint has consumed are the consumed ones.
theorem consumed_records {checkpoint : SyncCheckpoint} (ledger : Matching checkpoint.connectorId consumed s)
    (ids : checkpoint.consumedEvidenceIds = consumed.map EvidenceRecord.id) (r : EvidenceRecord) :
    r ∈ s.evidence.filter (fun record => checkpoint.consumedEvidenceIds.contains record.id && associated s checkpoint.connectorId record.id) ↔
      r ∈ consumed := by
  rw [List.mem_filter,ids,Bool.and_eq_true,List.contains_iff_mem]
  constructor
  · rintro ⟨present,named,_⟩
    exact (ledger.named present).mp named
  · intro member
    obtain ⟨present,linked⟩ := ledger.held member
    exact ⟨present,List.mem_map_of_mem member,linked⟩

-- What the validator finds about records whose kinds it knows.
theorem github_found {host : Host} {checkpoint : SyncCheckpoint} {state : GitHubCheckpoint} (kindOf : EvidenceRecord → String)
    (ledger : Matching checkpoint.connectorId consumed s) (ids : checkpoint.consumedEvidenceIds = consumed.map EvidenceRecord.id)
    (kinds : ∀ r ∈ consumed, githubScopedRecordKind host r state.repository.1 = .ok (some (kindOf r))) :
    ∃ records : List EvidenceRecord, (∀ r, r ∈ records ↔ r ∈ consumed) ∧
      github host s checkpoint state.repository.1 state.encode =
        (DateTime.newest ((records.filter fun r => kindOf r != "commit").map EvidenceRecord.observedAt)).map fun newest =>
          updatedFindings state newest ++ commitFindings state.repository.1 state (records.filter fun r => kindOf r == "commit") ++
          if records.isEmpty && (state.newestUpdatedAt.isSome || state.newestCommitSha.isSome) then
            [checkpointError "checkpoint.cursor_invalid"]
          else [] := by
  refine ⟨_,consumed_records ledger ids,?_⟩
  have each : ∀ r ∈ s.evidence.filter (fun record =>
        checkpoint.consumedEvidenceIds.contains record.id && associated s checkpoint.connectorId record.id),
      (githubScopedRecordKind host r state.repository.1).map (fun kind => (r,kind)) = .ok (r,some (kindOf r)) := by
    intro r member
    rw [kinds r ((consumed_records ledger ids r).mp member)]
    rfl
  simp only [github,GitHubCheckpoint.decode_encode,except_mapM_ok each,Except.bind]
  generalize s.evidence.filter (fun record =>
    checkpoint.consumedEvidenceIds.contains record.id && associated s checkpoint.connectorId record.id) = records
  have known : (records.map fun r => (r,some (kindOf r))).filterMap (fun entry => entry.2.map fun kind => (entry.1,kind)) =
      records.map fun r => (r,kindOf r) := by
    rw [List.filterMap_map,←List.filterMap_eq_map]
    rfl
  have all : (records.map fun r => (r,some (kindOf r))).any (fun entry => entry.2.isNone) = false := by
    simp [List.any_map]
  rw [known,all]
  simp only [List.filter_map,List.map_map,Function.comp_def,List.map_id',List.isEmpty_map,Bool.false_eq_true,if_false,List.nil_append]

theorem newestCommit_spec (found : GitHubConnector.newestCommit known consumed = .ok sha) :
    (sha = none ↔ consumed = []) ∧ ∀ value, sha = some value → value ∈ consumed := by
  unfold GitHubConnector.newestCommit at found
  split at found
  · cases found
    have kept := List.perm_insertionSort (· ≤ ·) consumed
    constructor
    · rw [List.head?_eq_none_iff]
      exact ⟨fun empty => List.perm_nil.mp (empty ▸ kept).symm,fun empty => by rw [empty]; rfl⟩
    · intro value head
      exact kept.subset (List.mem_of_head? head)
  · split at found
    · rename_i member
      cases found
      refine ⟨⟨nofun,fun empty => ?_⟩,fun value same => ?_⟩
      · rw [empty] at member
        cases member
      · cases same
        exact member
    · cases found

-- What a checkpoint that is written says about the records it was written for.
structure Written (host : Host) (c : GitHubConnector) (consumed : List EvidenceRecord) (state : GitHubCheckpoint) : Prop where
  owned : state.repository.1 = c.repository.1
  reached : ∃ parts newest sha, c.separate host consumed = .ok parts ∧
    DateTime.newest (parts.1.map EvidenceRecord.observedAt) = .ok newest ∧
    GitHubCheckpoint.updatedField host newest = .ok state.newestUpdatedAt ∧
    (sha = none ↔ parts.2.map EvidenceRecord.externalVersion = []) ∧
    (∀ value, sha = some value → value ∈ parts.2.map EvidenceRecord.externalVersion) ∧
    sha = state.newestCommitSha.map Subtype.val

theorem shaField_value (checked : GitHubCheckpoint.shaField sha = .ok commit) : sha = commit.map Subtype.val := by
  unfold GitHubCheckpoint.shaField at checked
  split at checked
  · cases checked
    rfl
  · split at checked
    · cases checked
      rfl
    · cases checked

theorem finalizeCursor_written {host : Host} {c : GitHubConnector} (finalized : c.finalizeCursor host consumed = .ok cursor) :
    ∃ state : GitHubCheckpoint, cursor = state.encode ∧ Written host c consumed state := by
  unfold GitHubConnector.finalizeCursor at finalized
  cases read : c.readCursor host c.nextCursor with
  | error e => rw [read] at finalized; cases finalized
  | ok prior =>
    cases separated : c.separate host consumed with
    | error e => rw [read,separated] at finalized; cases finalized
    | ok parts =>
      cases updated : DateTime.newest (parts.1.map EvidenceRecord.observedAt) with
      | error e => simp only [read,separated,updated,Except.bind] at finalized; cases finalized
      | ok newest =>
        cases headed : GitHubConnector.newestCommit (prior.newestCommitSha.map Subtype.val) (parts.2.map EvidenceRecord.externalVersion) with
        | error e => simp only [read,separated,updated,headed,Except.bind] at finalized; cases finalized
        | ok sha =>
          cases built : GitHubCheckpoint.construct host c.repository prior.etags.1 newest sha with
          | error e => simp only [read,separated,updated,headed,built,Except.bind,Except.map] at finalized; cases finalized
          | ok state =>
            simp only [read,separated,updated,headed,built,Except.bind,Except.map,Except.ok.injEq] at finalized
            obtain ⟨owned,time,commit⟩ := GitHubConnector.construct_repository host built
            obtain ⟨empty,member⟩ := newestCommit_spec headed
            exact ⟨state,finalized.symm,congrArg Subtype.val owned,parts,newest,sha,separated,updated,time,empty,member,shaField_value commit⟩

theorem updatedField_some {host : Host} {t : DateTime} (field : GitHubCheckpoint.updatedField host (some t) = .ok updated) :
    t.offset.isSome = true ∧ ∃ u, updated = some u ∧ u.1.same t = true := by
  simp only [GitHubCheckpoint.updatedField] at field
  split at field
  · cases field
  · rename_i aware
    have aware' : t.offset.isSome = true := by simpa [Option.isSome_iff_ne_none] using aware
    cases shifted : t.astimezone host with
    | error e =>
      rw [shifted] at field
      cases field
    | ok u =>
      rw [shifted] at field
      cases field
      exact ⟨aware',u,rfl,DateTime.astimezone_same aware' shifted⟩

-- Two lists of the same times have the same newest one.
theorem newest_agrees {times times' : List DateTime} (same : ∀ t, t ∈ times' ↔ t ∈ times) (found : DateTime.newest times = .ok (some top)) :
    ∃ top', DateTime.newest times' = .ok (some top') ∧ top.same top' = true := by
  obtain ⟨member,above,kinds⟩ := DateTime.newest_spec found
  have solid : times' ≠ [] := List.ne_nil_of_mem ((same top).mpr member)
  obtain ⟨top',found'⟩ := DateTime.newest_some (fun t inside => kinds t ((same t).mp inside)) solid
  obtain ⟨member',above',kinds'⟩ := DateTime.newest_spec found'
  refine ⟨top',found',?_⟩
  have first := above top' ((same top').mp member')
  have second := above' top ((same top).mpr member)
  have instant : top.instant = top'.instant := by omega
  simp [DateTime.same,instant,kinds' top ((same top).mpr member)]

theorem github_clean {host : Host} {c : GitHubConnector} {checkpoint : SyncCheckpoint} {state : GitHubCheckpoint}
    (written : Written host c consumed state) (ledger : Matching checkpoint.connectorId consumed s) (consumedAny : consumed ≠ [])
    (ids : checkpoint.consumedEvidenceIds = consumed.map EvidenceRecord.id) :
    github host s checkpoint c.repository.1 state.encode = .ok [] := by
  obtain ⟨parts,newest,sha,separated,updated,time,empty,member,commit⟩ := written.reached
  obtain ⟨known,mutable,commits⟩ := separate_spec separated
  -- the validator's kind of a record that the connector has one for
  let kindOf (r : EvidenceRecord) : String := ((c.scopedRecordKind host r).toOption.bind id).getD ""
  have kinds : ∀ r ∈ consumed, githubScopedRecordKind host r state.repository.1 = .ok (some (kindOf r)) := by
    intro r inside
    obtain ⟨kind,read⟩ := known r inside
    rw [written.owned,kind_read read]
    simp only [kindOf,read,Except.toOption,Option.bind_some,id,Option.getD_some]
  obtain ⟨records,same,found⟩ := github_found kindOf ledger ids kinds
  rw [written.owned] at found
  rw [found]
  have kindOf_read {r : EvidenceRecord} (inside : r ∈ consumed) (kind : String) :
      kindOf r = kind ↔ c.scopedRecordKind host r = .ok (some kind) := by
    obtain ⟨kind',read⟩ := known r inside
    simp only [kindOf,read,Except.toOption,Option.bind_some,id,Option.getD_some,Except.ok.injEq,Option.some.injEq]
  have first (r : EvidenceRecord) : r ∈ records.filter (fun r => kindOf r != "commit") ↔ r ∈ parts.1 := by
    rw [List.mem_filter,same,mutable]
    constructor
    · rintro ⟨inside,other⟩
      obtain ⟨kind,read⟩ := known r inside
      refine ⟨inside,kind,read,?_⟩
      rw [←(kindOf_read inside kind).mpr read]
      simpa using other
    · rintro ⟨inside,kind,read,other⟩
      refine ⟨inside,?_⟩
      rw [(kindOf_read inside kind).mpr read]
      simpa using other
  have second (r : EvidenceRecord) : r ∈ records.filter (fun r => kindOf r == "commit") ↔ r ∈ parts.2 := by
    rw [List.mem_filter,same,commits,beq_iff_eq]
    constructor
    · rintro ⟨inside,commit⟩
      exact ⟨inside,(kindOf_read inside _).mp commit⟩
    · rintro ⟨inside,read⟩
      exact ⟨inside,(kindOf_read inside _).mpr read⟩
  have solid : records.isEmpty = false := by
    obtain ⟨r,inside⟩ := List.exists_mem_of_ne_nil _ consumedAny
    rw [List.isEmpty_eq_false_iff]
    exact List.ne_nil_of_mem ((same r).mpr inside)
  have commitsClean : commitFindings c.repository.1 state (records.filter fun r => kindOf r == "commit") = [] := by
    cases headed : state.newestCommitSha with
    | none =>
      rw [headed] at commit
      have none := List.map_eq_nil_iff.mp (empty.mp commit)
      have gone : (records.filter fun r => kindOf r == "commit") = [] := by
        rw [List.eq_nil_iff_forall_not_mem]
        intro r inside
        rw [second,none] at inside
        cases inside
      simp only [commitFindings,gone,headed]
    | some value =>
      rw [headed] at commit
      obtain ⟨r,inside,version⟩ := List.mem_map.mp (member value.1 commit)
      obtain ⟨_,read⟩ := (commits r).mp inside
      have named : ScopedIdentity.of r c.repository.1 = .commit := by
        rcases kind_cases read with ⟨named,_⟩ | ⟨identity,named⟩
        · exact named
        · exact absurd rfl (numbered_kind named)
      have shown := commit_identity named
      have inside' := (second r).mpr inside
      have there : (records.filter fun r => kindOf r == "commit").any (fun record =>
          record.externalObjectId == "github:" ++ c.repository.1 ++ ":commit:" ++ value.1 && record.externalVersion == value.1) = true := by
        refine List.any_eq_true.mpr ⟨r,inside',?_⟩
        simp [shown,version]
      cases listed : records.filter fun r => kindOf r == "commit" with
      | nil =>
        rw [listed] at inside'
        cases inside'
      | cons head rest =>
        rw [listed] at there
        simp only [commitFindings,headed,there,if_true]
  cases top : newest with
  | none =>
    subst top
    have none := List.map_eq_nil_iff.mp (DateTime.newest_none updated)
    have gone : (records.filter fun r => kindOf r != "commit") = [] := by
      rw [List.eq_nil_iff_forall_not_mem]
      intro r inside
      rw [first,none] at inside
      cases inside
    simp only [GitHubCheckpoint.updatedField,Except.ok.injEq] at time
    simp only [gone,List.map_nil,DateTime.newest,Except.map,updatedFindings,←time,Option.isSome_none,commitsClean,solid,Bool.false_and,
      Bool.false_eq_true,if_false,List.append_nil]
  | some t =>
    subst top
    obtain ⟨_,u,kept,near⟩ := updatedField_some time
    have times (x : DateTime) : x ∈ (records.filter fun r => kindOf r != "commit").map EvidenceRecord.observedAt ↔
        x ∈ parts.1.map EvidenceRecord.observedAt := by
      simp only [List.mem_map,first]
    obtain ⟨t',found',alike⟩ := newest_agrees times updated
    have shown := DateTime.same_trans near alike
    simp only [found',Except.map,updatedFindings,kept,Option.any_some,shown,if_true,commitsClean,solid,Bool.false_and,
      Bool.false_eq_true,if_false,List.append_nil]

theorem diagnostics_one (host : Host) (checkpoint : SyncCheckpoint) (s : EvidenceSnapshot) :
    checkpointDiagnostics host [checkpoint] s = diagnose host s checkpoint := by
  rw [checkpointDiagnostics,List.mapM_cons,List.mapM_nil]
  cases diagnose host s checkpoint with
  | error e => rfl
  | ok found => exact congrArg Except.ok (List.append_nil found)

-- A generation that was finalized for nothing gives its cursor as it is.
theorem github_empty {host : Host} {c : GitHubConnector} {checkpoint : SyncCheckpoint} {state : GitHubCheckpoint}
    (owned : state.repository.1 = c.repository.1) (ledger : Matching checkpoint.connectorId [] s) (ids : checkpoint.consumedEvidenceIds = []) :
    github host s checkpoint c.repository.1 state.encode = .ok [] ↔ state.newestUpdatedAt = none ∧ state.newestCommitSha = none := by
  have kinds : ∀ r ∈ ([] : List EvidenceRecord), githubScopedRecordKind host r state.repository.1 = .ok (some "") := nofun
  obtain ⟨records,same,found⟩ := github_found (fun _ => "") ledger ids kinds
  have gone : records = [] := by
    rw [List.eq_nil_iff_forall_not_mem]
    intro r inside
    exact nomatch (same r).mp inside
  rw [←owned,found,gone]
  cases updated : state.newestUpdatedAt <;> cases headed : state.newestCommitSha <;>
    simp [DateTime.newest,Except.map,updatedFindings,commitFindings,updated,headed]

theorem encode_injective (host : Host) {a b : GitHubCheckpoint} (owned : a.repository.1 = b.repository.1) (same : a.encode = b.encode) : a = b := by
  have first := GitHubCheckpoint.decode_encode host.interpreter a
  have second := GitHubCheckpoint.decode_encode host.interpreter b
  rw [same,owned,second] at first
  exact (Except.ok.inj first).symm

theorem finalized_cases {host : Host} {c : GitHubConnector} (finalized : (c.finalizeCheckpoint host supplied consumed).1 = .ok cursor) :
    (consumed = [] ∧ cursor = c.nextCursor) ∨ (consumed ≠ [] ∧ ∃ text, cursor = some text ∧ c.finalizeCursor host consumed = .ok text) := by
  unfold GitHubConnector.finalizeCheckpoint at finalized
  split at finalized
  · cases finalized
  · split at finalized
    · rename_i none
      cases finalized
      exact .inl ⟨none,rfl⟩
    · rename_i consumedAny
      right
      cases written : c.finalizeCursor host consumed with
      | error e =>
        rw [written] at finalized
        simp only [fixedFailure] at finalized
        split at finalized
        · cases finalized
        · cases finalized
        · rename_i impossible
          cases impossible
      | ok text =>
        rw [written] at finalized
        cases finalized
        exact ⟨consumedAny,text,rfl,rfl⟩

-- What the connector writes for what it consumed is what the validator expects;
-- what it writes for nothing is not, where a record was discovered.
theorem github_validated {host : Host} {repository : {value : String // canonicalRepository value = true}} {c : GitHubConnector}
    (reached : GitHubConnector.Reached host repository c) {checkpoint : SyncCheckpoint}
    (finalized : (c.finalizeCheckpoint host supplied consumed).1 = .ok checkpoint.cursor) (own : checkpoint.connectorId = c.connectorId)
    (ids : checkpoint.consumedEvidenceIds = consumed.map EvidenceRecord.id) (ledger : Matching checkpoint.connectorId consumed s) :
    checkpointDiagnostics host [checkpoint] s = .ok [] ↔
      (consumed = [] → ∀ state : GitHubCheckpoint, state.repository = repository → c.nextCursor = some state.encode →
        state.newestUpdatedAt = none ∧ state.newestCommitSha = none) := by
  obtain ⟨canonical,same⟩ := GitHubConnector.reached_canonical reached
  obtain ⟨known,modern⟩ := github_family c
  have clean := ledger.clean checkpoint (own ▸ modern) rfl ids
  have whole : checkpointDiagnostics host [checkpoint] s = cursorFindings host s checkpoint (.github c.repository.1) := by
    rw [diagnostics_one,diagnose,own,known]
    dsimp only
    rw [clean]
    cases cursorFindings host s checkpoint (.github c.repository.1) <;> rfl
  rw [whole]
  rcases finalized_cases finalized with ⟨rfl,cursor⟩ | ⟨consumedAny,text,cursor,written⟩
  · have ids' : checkpoint.consumedEvidenceIds = [] := ids
    simp only [forall_const,cursorFindings,cursor,ids']
    cases waiting : c.nextCursor with
    | none => simp
    | some text =>
      obtain ⟨state,owned,rfl⟩ := canonical text waiting
      dsimp only
      rw [github_empty owned ledger ids']
      constructor
      · intro none other sameRepository again
        have one : state = other := by
          apply encode_injective host
          · rw [owned,sameRepository,same]
          · exact Option.some.inj again
        exact one ▸ none
      · intro all
        apply all state _ rfl
        rw [←same]
        exact Subtype.ext owned
  · obtain ⟨state,rfl,done⟩ := finalizeCursor_written written
    simp only [consumedAny,false_implies,iff_true,cursorFindings,cursor]
    exact github_clean done ledger consumedAny ids

theorem splitLast_append {before after : List Char} (free : mark ∉ after) : splitLast mark (before ++ mark :: after) = some (before,after) := by
  have tail : ((before ++ mark :: after).reverse.takeWhile (· != mark)).reverse = after := by
    have apart : ∀ c ∈ after.reverse, (c != mark) = true := by
      intro c member
      have other : c ≠ mark := fun same => free (same ▸ List.mem_reverse.mp member)
      simpa using other
    rw [List.reverse_append,List.reverse_cons,List.append_assoc,List.takeWhile_append_of_pos apart]
    simp
  simp only [splitLast,tail,List.length_append,List.length_cons]
  rw [if_neg (by omega)]
  have size : before.length + (after.length + 1) - after.length - 1 = before.length := by omega
  rw [size,List.take_left]

theorem hexdigest_plain (message : Utf8.Bytes) : ':' ∉ (Sha256.hexdigest message).toList := by
  have hex := hexdigest_hex message
  simp only [PyText.isHexDigest,Bool.and_eq_true,List.all_eq_true] at hex
  intro member
  exact absurd (hex.2 _ member) (by decide)

section Mcp
variable {Selector : Type} (m : McpConnector Selector)

def connectorIdentity : McpIdentity where
  connector := ("mcp:" ++ m.configId.1).toList
  profile := m.profileIdentity.toList
  source := (identityOf m.source).toList
  scope := (identityOf m.scope).toList
  actor := (identityOf m.actor).toList

theorem connectorId_parts : mcpIdentity m.connectorId = some (connectorIdentity m) := by
  have whole : m.connectorId.toList = ((((("mcp:" ++ m.configId.1).toList ++ ':' :: m.profileIdentity.toList) ++
      ':' :: (identityOf m.source).toList) ++ ':' :: (identityOf m.scope).toList) ++ ':' :: (identityOf m.actor).toList) := by
    simp [McpConnector.connectorId,String.toList_append]
  simp only [mcpIdentity,whole,splitLast_append (hexdigest_plain _),identityOf,McpConnector.profileIdentity,mcpProfileIdentity,
    Option.bind_some,Option.map_some]
  rfl

theorem mcp_family : family m.connectorId = some .mcp ∧ legacyConnectors.contains m.connectorId = false ∧ startsWith "mcp:" m.connectorId = true := by
  have start : ∃ rest, m.connectorId.toList = "mcp:".toList ++ rest := by
    simp only [McpConnector.connectorId,String.append_assoc,String.toList_append]
    exact ⟨_,rfl⟩
  obtain ⟨rest,shape⟩ := start
  have begun : startsWith "mcp:" m.connectorId = true := by
    rw [startsWith,shape,List.isPrefixOf_iff_prefix]
    exact List.prefix_append _ _
  have other : startsWith "github:" m.connectorId = false := by
    rw [startsWith,shape]
    rfl
  refine ⟨?_,?_,begun⟩
  · simp only [family,other,begun,Bool.false_eq_true,if_false,if_true]
  · rw [Bool.eq_false_iff,ne_eq,List.contains_iff_mem]
    intro legacy
    have none : ∀ name ∈ legacyConnectors, startsWith "mcp:" name = false := by decide
    rw [none _ legacy] at begun
    cases begun

theorem requiredText_some (read : McpConnector.requiredText v = some text) : PyText.hasText text = true := by
  unfold McpConnector.requiredText at read
  split at read
  · split at read
    · rename_i solid
      cases read
      exact solid
    · cases read
  · cases read

theorem hasText_solid (solid : PyText.hasText text = true) : text ≠ "" := by
  rintro rfl
  cases solid

theorem str_equal (text : String) : (Json.str text).equal (.str text) = true := by simp [Json.equal]

-- What there is to know of captured evidence.
structure Shaped (r : EvidenceRecord) : Prop where
  connector : r.connectorType = "mcp"
  named : ∃ providerObjectId, r.externalObjectId = m.externalObjectId providerObjectId ∧ providerObjectId ≠ ""
  authored : r.author.any PyText.hasText = true
  payload : ∃ parent content, r.payload.1 = m.evidencePayload parent content ∧ content ≠ []

theorem captured_shaped {m : McpConnector Selector} {host : Host} {select : Selector → SourceValue → Option SourceValue} {r : EvidenceRecord}
    (captured : m.Captured host select r) : Shaped m r := by
  obtain ⟨payload,raw,read,rfl⟩ := captured
  simp only [McpConnector.rawFromPayload,Option.bind_eq_some_iff,Option.map_eq_some_iff] at read
  obtain ⟨providerObjectId,⟨_,_,identified⟩,version,_,author,⟨_,_,authored⟩,observedAt,_,locator,_,parent,_,acl,_,content,_,rfl⟩ := read
  refine ⟨rfl,⟨providerObjectId,rfl,hasText_solid (requiredText_some identified)⟩,requiredText_some authored,parent,content.1,rfl,?_⟩
  intro empty
  have names := content.2.1
  rw [empty,List.map_nil] at names
  exact m.objectProfile.contentful (List.map_eq_nil_iff.mp names.symm)

theorem payload_lookups (parent : Option String) (content : Json.Members) :
    let ms := m.evidencePayload parent content
    ms.lookup "content" = some (.obj content) ∧ ms.lookup "kind" = some (.str "mcp_object") ∧
      ms.lookup "object_type" = some (.str m.objectName.1) ∧
      ms.lookup "parent_context" = some (parent.elim .null fun ref => .str (m.externalObjectId ref)) ∧
      ms.lookup "profile_id" = some (.str m.profileId.1) ∧ ms.lookup "profile_version" = some (.str m.profileVersion.1) ∧
      ms.lookup "scope_hash" = some (.str m.scopeHash) ∧ ms.lookup "source_hash" = some (.str m.sourceHash) := by
  cases parent <;> exact ⟨rfl,rfl,rfl,rfl,rfl,rfl,rfl,rfl⟩

theorem begun (start rest : String) : startsWith start (start ++ rest) = true := by
  rw [startsWith,String.toList_append,List.isPrefixOf_iff_prefix]
  exact List.prefix_append _ _

theorem shaped_valid {m : McpConnector Selector} {r : EvidenceRecord} (shaped : Shaped m r) : mcpScopedRecord r m.connectorId = true := by
  obtain ⟨providerObjectId,named,solid⟩ := shaped.named
  obtain ⟨parent,content,members,contentful⟩ := shaped.payload
  have keys : r.payload.1.map Prod.fst =
      ["content","kind","object_type","parent_context","profile_id","profile_version","scope_hash","source_hash"] := by
    rw [members]
    rfl
  have lookups := payload_lookups m parent content
  rw [←members] at lookups
  obtain ⟨content',kind,object,context,profile,version,scope,source⟩ := lookups
  have scopeHash : "sha256:" ++ identityOf m.scope = m.scopeHash := rfl
  have sourceHash : "sha256:" ++ identityOf m.source = m.sourceHash := rfl
  have start : startsWith (m.profileId.1 ++ ":") r.externalObjectId = true := by
    rw [named]
    exact begun _ _
  have rest : r.externalObjectId.toList.drop (m.profileId.1 ++ ":").toList.length ≠ [] := by
    rw [named,McpConnector.externalObjectId,String.toList_append (s := m.profileId.1 ++ ":"),List.drop_left]
    simpa using solid
  have scopedPayload : payloadScoped r (connectorIdentity m) = true := by
    simp only [payloadScoped,textMember,object,profile,version,hasText_solid m.objectName.2,hasText_solid m.profileId.2,
      hasText_solid m.profileVersion.2,if_false]
    simp only [Bool.and_eq_true]
    refine ⟨⟨⟨⟨⟨⟨⟨⟨?_,?_⟩,?_⟩,?_⟩,start⟩,?_⟩,shaped.authored⟩,?_⟩,?_⟩
    · simp [EvidenceRecord.payloadIs,kind,str_equal]
    · simp [connectorIdentity,McpConnector.profileIdentity]
    · simp [EvidenceRecord.payloadIs,scope,connectorIdentity,scopeHash,str_equal]
    · simp [EvidenceRecord.payloadIs,source,connectorIdentity,sourceHash,str_equal]
    · simpa using rest
    · rw [content']
      cases content with
      | nil => exact absurd rfl contentful
      | cons first others => rfl
    · rw [context]
      cases parent with
      | none => rfl
      | some ref => exact begun _ _
  have hex (message : Utf8.Bytes) : hexIdentity (Sha256.hexdigest message).toList = true := hexdigest_hex message
  have prefixed : "mcp:".toList.isPrefixOf (connectorIdentity m).connector = true := begun "mcp:" _
  have longer : (connectorIdentity m).connector.drop 4 ≠ [] := by
    have size : "mcp:".toList.length = 4 := by decide
    rw [connectorIdentity,String.toList_append,←size,List.drop_left]
    simpa using hasText_solid m.configId.2
  have sameKeys : (r.payload.1.map Prod.fst).all (fun key => decide (key ∈ payloadKeys)) = true ∧
      payloadKeys.all (fun key => decide (key ∈ r.payload.1.map Prod.fst)) = true := by
    rw [keys]
    decide
  simp only [mcpScopedRecord,shaped.connector,(mcp_family m).2.2,connectorId_parts,Bool.and_eq_true]
  refine ⟨⟨rfl,trivial⟩,⟨⟨⟨⟨⟨⟨⟨prefixed,?_⟩,hex _⟩,hex _⟩,hex _⟩,hex _⟩,sameKeys.1⟩,sameKeys.2⟩,scopedPayload⟩
  simpa using longer

theorem checkpoint_fields {m : McpConnector Selector} (built : m.checkpoint providerCursor observed = .ok state) :
    state.connectorId.1 = m.connectorId ∧ state.profileId = m.profileId ∧ state.profileVersion = m.profileVersion ∧
      state.objectType = m.objectName ∧ state.scopeHash.1 = m.scopeHash ∧ state.sourceHash.1 = m.sourceHash ∧
      state.observedVersions.1 = observed := by
  unfold McpConnector.checkpoint at built
  split at built
  · cases built
    exact ⟨rfl,rfl,rfl,rfl,rfl,rfl,rfl⟩
  · cases built

theorem mcp_written {m : McpConnector Selector} (finalized : (m.finalizeCheckpoint g discovered consumed).1 = .ok cursor) :
    ∃ state, m.checkpoint g.providerCursor (lastVersions consumed) = .ok state ∧ state.encode = some cursor := by
  have done : m.finalizeCursor g discovered consumed = .ok cursor := by
    simp only [McpConnector.finalizeCheckpoint,fixedFailure] at finalized
    split at finalized
    · rename_i value got
      cases finalized
      exact got
    · cases finalized
  unfold McpConnector.finalizeCursor at done
  split at done
  · cases done
  · split at done
    · cases done
    · split at done
      · cases done
      · cases built : m.checkpoint g.providerCursor (lastVersions consumed) with
        | error e =>
          rw [built] at done
          cases done
        | ok state =>
          rw [built] at done
          simp only [Except.bind] at done
          split at done
          · rename_i text encoded
            cases done
            exact ⟨state,rfl,encoded⟩
          · cases done

-- The identifiers that were consumed name the consumed records, in their order.
theorem consumed_found {connectorId : String} (ledger : Matching connectorId consumed s) :
    (consumed.map EvidenceRecord.id).filterMap (fun evidenceId =>
      (s.evidence.reverse.find? fun record => record.id == evidenceId).filter fun _ => associated s connectorId evidenceId) = consumed := by
  have each : ∀ r ∈ consumed, ((s.evidence.reverse.find? fun record => record.id == r.id).filter fun _ => associated s connectorId r.id) = some r := by
    intro r member
    obtain ⟨present,linked⟩ := ledger.held member
    cases found : s.evidence.reverse.find? fun record => record.id == r.id with
    | none =>
      rw [List.find?_eq_none] at found
      exact absurd (beq_self_eq_true r.id) (found r (List.mem_reverse.mpr present))
    | some other =>
      have inside := List.mem_reverse.mp (List.mem_of_find?_eq_some found)
      have same : other.id = r.id := by simpa using List.find?_some found
      have one : other = r := List.inj_on_of_nodup_map ledger.distinct inside present same
      simp [one,linked]
  rw [List.filterMap_map]
  have kept : consumed.filterMap some = consumed := List.filterMap_some
  conv_rhs => rw [←kept]
  exact List.filterMap_congr each

theorem mcp_validated {host : Host} {select : Selector → SourceValue → Option SourceValue} {m : McpConnector Selector} {g : McpGeneration}
    {checkpoint : SyncCheckpoint} (finalized : (m.finalizeCheckpoint g discovered consumed).1 = .ok cursor)
    (stored : checkpoint.cursor = some cursor) (own : checkpoint.connectorId = m.connectorId)
    (ids : checkpoint.consumedEvidenceIds = consumed.map EvidenceRecord.id) (ledger : Matching checkpoint.connectorId consumed s)
    (captured : ∀ r ∈ consumed, m.Captured host select r) : checkpointDiagnostics host [checkpoint] s = .ok [] := by
  obtain ⟨state,built,encoded⟩ := mcp_written finalized
  obtain ⟨connector,profile,version,object,scope,source,observed⟩ := checkpoint_fields built
  obtain ⟨known,modern,_⟩ := mcp_family m
  have clean := ledger.clean checkpoint (own ▸ modern) rfl ids
  have decoded := McpCheckpoint.decodeUnscoped_ok.mpr (McpCheckpoint.decodeCheckpointResult_encode host.interpreter state encoded)
  have valid : ∀ r ∈ consumed, (mcpScopedRecord r checkpoint.connectorId && ofCursor state r) = true := by
    intro r member
    have shaped := captured_shaped (captured r member)
    obtain ⟨parent,content,members,_⟩ := shaped.payload
    obtain ⟨_,_,object',_,profile',version',_,_⟩ := payload_lookups m parent content
    rw [←members] at object' profile' version'
    rw [own,shaped_valid shaped,Bool.true_and]
    simp [ofCursor,EvidenceRecord.payloadIs,object',profile',version',profile,version,object,str_equal]
  have hash (material : Json) : (canonicalDigest material).toList.drop 7 = (identityOf material).toList := by
    have size : "sha256:".toList.length = 7 := by decide
    rw [canonicalDigest,String.toList_append,←size,List.drop_left]
    rfl
  have found : mcp host s checkpoint cursor = .ok [] := by
    have kept := List.filter_eq_self.mpr valid
    have records := consumed_found ledger
    simp only [mcp,decoded,connector,own,ne_eq,not_true_eq_false,if_false,connectorId_parts,connectorIdentity,McpConnector.profileIdentity,
      profile,version,object,scope,source,McpConnector.scopeHash,McpConnector.sourceHash,hash,or_self,ids]
    rw [own] at records kept
    simp only [records,kept,not_true_eq_false,if_false,observed,List.append_nil]
  rw [diagnostics_one,diagnose,own,known]
  simp only [cursorFindings,stored,found,Except.map,clean,List.append_nil]

end Mcp

end WorkspaceValidation
