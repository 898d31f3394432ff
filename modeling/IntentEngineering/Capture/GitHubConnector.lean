import IntentEngineering.Capture.Base

namespace GitHubCheckpoint

def updatedField (host : Host) : Option DateTime → Except Raised (Option UtcTime)
  | none => .ok none
  | some t => if t.offset.isNone then .error .valueError else (t.astimezone host).map some

def shaField : Option String → Except Raised (Option {value : String // isSha value = true})
  | none => .ok none
  | some value => if valid : isSha value = true then .ok (some ⟨value,valid⟩) else .error .valueError

-- The constructor, for a repository that is canonical.
def construct (host : Host) (repository : {value : String // canonicalRepository value = true}) (etags : Named String)
    (newestUpdatedAt : Option DateTime) (newestCommitSha : Option String) : Except Raised GitHubCheckpoint :=
  (updatedField host newestUpdatedAt).bind fun updated =>
    if valid : validateEtags etags = true then (shaField newestCommitSha).map fun sha => ⟨repository,⟨etags,valid⟩,updated,sha⟩
    else .error .valueError

def initial (repository : {value : String // canonicalRepository value = true}) : GitHubCheckpoint := ⟨repository,⟨⟨[],Named.unlisted⟩,validateEtags_empty⟩,none,none⟩

end GitHubCheckpoint

-- What an external identifier says before times and numbers are looked at.
inductive ScopedIdentity where
  | foreign
  | commit
  | numbered (kind : String) (identity : List Char)
deriving DecidableEq

namespace ScopedIdentity

def mutableKinds : List String := ["issue","pull_request","issue_comment","review_comment"]

def identityField (kind : String) : String := if kind ∈ ["issue","pull_request"] then "number" else "provider_id"

-- The checks that come first in both readings of a record.
def of (record : EvidenceRecord) (repository : String) : ScopedIdentity :=
  let start := ("github:" ++ repository ++ ":").toList
  let suffix := record.externalObjectId.toList.drop start.length
  let kind := String.ofList (suffix.takeWhile (· != ':'))
  let after := suffix.dropWhile (· != ':')
  let identity := after.drop 1
  if record.connectorType ≠ "github" ∨ ¬start.isPrefixOf record.externalObjectId.toList ∨ after = [] then .foreign
  else if ¬record.payloadIs "repository" (.str repository) ∨ ¬record.payloadIs "kind" (.str kind) then .foreign
  else if kind = "commit" then
    if isSha (String.ofList identity) ∧ record.externalVersion = String.ofList identity ∧ record.payloadIs "sha" (.str (String.ofList identity)) then .commit
    else .foreign
  else if kind ∉ mutableKinds then .foreign
  else if identity = [] ∨ ¬identity.all Decimal.isDigit ∨ identity.head? = some '0' then .foreign
  else .numbered kind identity

-- `payload.get(identity_field) == int(identity)`; `int` takes no text over the limit.
def numberMatches (record : EvidenceRecord) (kind : String) (identity : List Char) : Except Raised Bool :=
  if maxStrDigits < identity.length then .error .valueError
  else .ok (record.payloadIs (identityField kind) (.int (Decimal.natValue identity)))

def timeMatches (record : EvidenceRecord) (canonicalObservedAt : String) : Bool :=
  record.externalVersion == canonicalObservedAt && record.payloadIs "updated_at" (.str canonicalObservedAt)

end ScopedIdentity

-- What one endpoint of a discovery gives.
inductive EndpointResult where
  | raised
  | notModified
  | modified (etag : Option String) (records : List RawSourceObject)

structure Generation where
  etags : String → Option String
  newestUpdatedAt : Option DateTime
  newestCommitSha : Option String
  cache : List RawSourceObject
  failed : Bool

namespace Generation

def start (prior : GitHubCheckpoint) : Generation where
  etags endpoint := prior.etags.1.1.lookup endpoint
  newestUpdatedAt := prior.newestUpdatedAt.map Subtype.val
  newestCommitSha := prior.newestCommitSha.map Subtype.val
  cache := []
  failed := false

def key (raw : RawSourceObject) : String × String := (raw.externalObjectId,raw.externalVersion)

-- The loop over one endpoint's records; what was taken before a failure stays.
def keep (updating : Bool) (g : Generation) : List RawSourceObject → Generation
  | [] => g
  | raw :: rest =>
    if key raw ∈ g.cache.map key then {g with failed := true}
    else
      let cached := {g with cache := g.cache ++ [raw]}
      if !updating then keep updating cached rest
      else match DateTime.newest [g.newestUpdatedAt.getD raw.observedAt,raw.observedAt] with
        | .ok newest => keep updating {cached with newestUpdatedAt := newest} rest
        | .error _ => {cached with failed := true}

def take (endpoint : String) (g : Generation) : EndpointResult → Generation
  | .raised => {g with failed := true}
  | .notModified => g
  | .modified etag records =>
    if ¬(records.map key).Nodup ∨ ¬etag.all validEtag then {g with failed := true}
    else
      let tagged := {g with etags := fun other => if other = endpoint then etag else g.etags other}
      let headed := if endpoint = "commits" then
          {tagged with newestCommitSha := (records.head?.map RawSourceObject.externalVersion).or tagged.newestCommitSha}
        else tagged
      keep (endpoint != "commits") headed records

-- The loop over the endpoints, which ends with the first failure.
def run (results : String → EndpointResult) (g : Generation) : List String → Generation
  | [] => g
  | endpoint :: rest =>
    let next := take endpoint g (results endpoint)
    if next.failed then next else run results next rest

def sortedEndpoints : List String := ["commits","issue_comments","issues","pull_requests","review_comments"]

theorem endpoints_ascend : sortedEndpoints.Pairwise (· < ·) := by decide

def named (g : Generation) : Named String :=
  ⟨sortedEndpoints.filterMap fun endpoint => (g.etags endpoint).map fun etag => (endpoint,etag),by
    rw [List.map_filterMap]
    have kept : sortedEndpoints.filterMap (fun endpoint => ((g.etags endpoint).map fun etag => (endpoint,etag)).map Prod.fst) =
        sortedEndpoints.filter fun endpoint => (g.etags endpoint).isSome := by
      rw [←List.filterMap_eq_filter]
      congr 1
      funext endpoint
      cases tag : g.etags endpoint <;> simp [Option.guard,tag]
    rw [kept]
    exact endpoints_ascend.filter _⟩

-- Sorted by identifier and version.
def discovered (g : Generation) : List SourceObject :=
  (g.cache.map RawSourceObject.listed).mergeSort fun a b =>
    decide (a.externalObjectId < b.externalObjectId) ||
      (a.externalObjectId == b.externalObjectId && decide (a.externalVersion ≤ b.externalVersion))

end Generation

structure GitHubConnector where
  repository : {value : String // canonicalRepository value = true}
  cache : List RawSourceObject
  lastDiscovered : List SourceObject
  nextCursor : Option (List Char)
  checkpointPending : Bool
  discoveryFailed : Bool

namespace GitHubConnector

def create (repository : {value : String // canonicalRepository value = true}) : GitHubConnector := ⟨repository,[],[],none,false,false⟩

variable (host : Host) (c : GitHubConnector)

def connectorId : String := "github:" ++ c.repository.1

def abortSync : GitHubConnector := create c.repository

def readCursor : Option (List Char) → Except Raised GitHubCheckpoint
  | none => .ok (.initial c.repository)
  | some text => (GitHubCheckpoint.decode host.interpreter (.ofChars text) c.repository.1).mapError DecodeFailure.raised

-- `discover`, given what the endpoints answer.
def discover (cursor : Option (List Char)) (results : String → EndpointResult) : Except SyncFailure (List SourceObject) × GitHubConnector :=
  if c.checkpointPending then (.error .connectorError,c)
  else match fixedFailure (c.readCursor host cursor) with
    | .error e => (.error e,c.abortSync)
    | .ok prior =>
      let generation := (Generation.start prior).run results endpoints
      match GitHubCheckpoint.construct host c.repository generation.named generation.newestUpdatedAt generation.newestCommitSha with
      | .error _ => (.error .connectorError,c.abortSync)
      | .ok nextState => (.ok generation.discovered,{
          repository := c.repository
          cache := generation.cache
          lastDiscovered := generation.discovered
          nextCursor := if generation.discovered = [] then cursor else some nextState.encode
          checkpointPending := true
          discoveryFailed := generation.failed })

-- `_scoped_record_kind`
def scopedRecordKind (record : EvidenceRecord) : Except Raised (Option String) :=
  match ScopedIdentity.of record c.repository.1 with
  | .foreign => .ok none
  | .commit => .ok (some "commit")
  | .numbered kind identity =>
    (record.observedAt.format host).bind fun canonicalObservedAt =>
      (ScopedIdentity.numberMatches record kind identity).map fun same =>
        if same && ScopedIdentity.timeMatches record canonicalObservedAt then some kind else none

-- The records other than commits, and the commits.
def separate : List EvidenceRecord → Except Raised (List EvidenceRecord × List EvidenceRecord)
  | [] => .ok ([],[])
  | record :: rest => (c.scopedRecordKind host record).bind fun kind =>
      match kind with
      | none => .error .valueError
      | some kind => (separate rest).map fun later =>
          if kind = "commit" then (later.1,record :: later.2) else (record :: later.1,later.2)

def newestCommit (known : Option String) (consumed : List String) : Except Raised (Option String) :=
  match known with
  | none => .ok (consumed.insertionSort (· ≤ ·)).head?
  | some sha => if sha ∈ consumed then .ok (some sha) else .error .valueError

def finalizeCursor (consumedEvidence : List EvidenceRecord) : Except Raised (List Char) :=
  (c.readCursor host c.nextCursor).bind fun state =>
  (c.separate host consumedEvidence).bind fun records =>
  (DateTime.newest (records.1.map EvidenceRecord.observedAt)).bind fun newestUpdatedAt =>
  (newestCommit (state.newestCommitSha.map Subtype.val) (records.2.map EvidenceRecord.externalVersion)).bind fun newestCommitSha =>
  (GitHubCheckpoint.construct host c.repository state.etags.1 newestUpdatedAt newestCommitSha).map GitHubCheckpoint.encode

-- `finalize_checkpoint`; an exception that is not caught leaves the generation.
def finalizeCheckpoint (supplied : List SourceObject) (consumedEvidence : List EvidenceRecord) :
    Except SyncFailure (Option (List Char)) × GitHubConnector :=
  if !c.checkpointPending || decide (supplied ≠ c.lastDiscovered) || c.discoveryFailed then (.error .connectorError,c.abortSync)
  else if consumedEvidence = [] then (.ok c.nextCursor,c.abortSync)
  else match fixedFailure (c.finalizeCursor host consumedEvidence) with
    | .error (.raised e) => (.error (.raised e),c)
    | .error .connectorError => (.error .connectorError,c.abortSync)
    | .ok cursor => (.ok (some cursor),c.abortSync)

-- Every order of calls on one connector.
inductive Reached (host : Host) (repository : {value : String // canonicalRepository value = true}) : GitHubConnector → Prop where
  | create : Reached host repository (create repository)
  | discover {c : GitHubConnector} (before : Reached host repository c) (cursor : Option (List Char)) (results : String → EndpointResult) :
      Reached host repository (c.discover host cursor results).2
  | finalize {c : GitHubConnector} (before : Reached host repository c) (supplied : List SourceObject) (consumed : List EvidenceRecord) :
      Reached host repository (c.finalizeCheckpoint host supplied consumed).2
  | abort {c : GitHubConnector} (before : Reached host repository c) : Reached host repository c.abortSync

-- The cursor that waits is one the connector can read.
def Canonical : Prop := ∀ text, c.nextCursor = some text → ∃ state : GitHubCheckpoint, state.repository.1 = c.repository.1 ∧ state.encode = text

theorem create_canonical (repository : {value : String // canonicalRepository value = true}) : (create repository).Canonical := nofun

theorem readCursor_canonical (read : c.readCursor host (some text) = .ok prior) : prior.repository.1 = c.repository.1 ∧ prior.encode = text := by
  simp only [readCursor] at read
  cases decoded : GitHubCheckpoint.decode host.interpreter (.ofChars text) c.repository.1 with
  | error e =>
    rw [decoded] at read
    cases read
  | ok state =>
    rw [decoded] at read
    cases read
    obtain ⟨same,owned⟩ := GitHubCheckpoint.decode_sound decoded
    refine ⟨owned,?_⟩
    have back := congrArg CodePoints.chars same
    simpa using back

theorem construct_repository {repository : {value : String // canonicalRepository value = true}} {etags : Named String}
    (built : GitHubCheckpoint.construct host repository etags updated sha = .ok state) :
    state.repository = repository ∧ GitHubCheckpoint.updatedField host updated = .ok state.newestUpdatedAt ∧
      GitHubCheckpoint.shaField sha = .ok state.newestCommitSha := by
  unfold GitHubCheckpoint.construct at built
  cases shifted : GitHubCheckpoint.updatedField host updated with
  | error e =>
    rw [shifted] at built
    cases built
  | ok time =>
    rw [shifted] at built
    simp only [Except.bind] at built
    split at built
    · cases checked : GitHubCheckpoint.shaField sha with
      | error e =>
        rw [checked] at built
        cases built
      | ok commit =>
        rw [checked] at built
        cases built
        exact ⟨rfl,rfl,rfl⟩
    · cases built

theorem discover_canonical (canonical : c.Canonical) (cursor : Option (List Char)) (results : String → EndpointResult) :
    (c.discover host cursor results).2.Canonical := by
  unfold discover
  split
  · exact canonical
  · split
    · exact create_canonical _
    · rename_i prior read
      dsimp only
      split
      · exact create_canonical _
      · rename_i state built
        intro text waiting
        dsimp only at waiting
        split at waiting
        · subst waiting
          refine ⟨prior,c.readCursor_canonical host ?_⟩
          unfold fixedFailure at read
          split at read
          · rename_i value got
            cases read
            exact got
          · cases read
        · cases waiting
          exact ⟨state,congrArg Subtype.val (construct_repository host built).1,rfl⟩

theorem finalize_canonical (canonical : c.Canonical) (supplied : List SourceObject) (consumed : List EvidenceRecord) :
    (c.finalizeCheckpoint host supplied consumed).2.Canonical := by
  unfold finalizeCheckpoint
  repeat' split
  all_goals first | exact canonical | exact create_canonical _

theorem reached_canonical {host : Host} {repository : {value : String // canonicalRepository value = true}} {c : GitHubConnector}
    (reached : Reached host repository c) : c.Canonical ∧ c.repository = repository := by
  have kept (d : GitHubConnector) (cursor : Option (List Char)) (results : String → EndpointResult) :
      (d.discover host cursor results).2.repository = d.repository := by
    unfold discover
    split
    · rfl
    · split
      · rfl
      · dsimp only
        split <;> rfl
  have held (d : GitHubConnector) (supplied : List SourceObject) (consumed : List EvidenceRecord) :
      (d.finalizeCheckpoint host supplied consumed).2.repository = d.repository := by
    unfold finalizeCheckpoint
    repeat' split
    all_goals rfl
  induction reached with
  | create => exact ⟨create_canonical _,rfl⟩
  | discover before cursor results ih => exact ⟨discover_canonical host _ ih.1 cursor results,(kept ..).trans ih.2⟩
  | finalize before supplied consumed ih => exact ⟨finalize_canonical host _ ih.1 supplied consumed,(held ..).trans ih.2⟩
  | abort before ih => exact ⟨create_canonical _,ih.2⟩

end GitHubConnector
