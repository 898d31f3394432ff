import IntentEngineering.Capture.GitHubItems
import IntentEngineering.Capture.Markdown
import IntentEngineering.Capture.McpConnector
import IntentEngineering.Library.ByteFrames
import IntentEngineering.Stores.EvidenceStore
import Mathlib

namespace Json

-- A value without `nan` equals itself.
mutual
theorem equal_self : (v : Json) → allFinite v = true → equal v v = true
  | .null, _ => rfl
  | .bool _, _ => by simp [equal,scalarEqual,amount,Amount.equal]
  | .int _, _ => by simp [equal,scalarEqual,amount,Amount.equal]
  | .float x, finite => by
    cases x with
    | finite x => simp [equal,scalarEqual,amount,floatAmount,Amount.equal]
    | infinite negative => cases finite
    | nan => cases finite
  | .str _, _ => by simp [equal]
  | .arr xs, finite => equalItems_self xs finite
  | .obj ms, finite => equalMembers_self ms finite

theorem equalItems_self : (xs : List Json) → allFiniteItems xs = true → equalItems xs xs = true
  | [], _ => rfl
  | x :: xs, finite => by
    obtain ⟨first,rest⟩ := Bool.and_eq_true_iff.mp finite
    simp [equalItems,equal_self x first,equalItems_self xs rest]

theorem equalMembers_self : (ms : Members) → allFiniteMembers ms = true → equalMembers ms ms = true
  | [], _ => rfl
  | (_,v) :: ms, finite => by
    obtain ⟨first,rest⟩ := Bool.and_eq_true_iff.mp finite
    simp [equalMembers,equal_self v first,equalMembers_self ms rest]
end

end Json

namespace Markdown

-- What reading a file gives.
structure SecureRead where
  content : Utf8.Bytes
  modifiedNs : Int

def rawFile (localActor objectId : String) (snapshot : SecureRead) (observedAt : UtcTime) (text : List Char) : RawSourceObject :=
  let relativePath := String.ofList (objectId.toList.drop 5)
  { connectorType := "markdown"
    externalObjectId := objectId
    externalVersion := contentHash snapshot.content
    author := some localActor
    observedAt := observedAt.1
    sourceLocator := relativePath
    contentHash := contentHash snapshot.content
    payload := ⟨[("content",.str (String.ofList text)),("path",.str relativePath)],
      GitHub.formed_of (by
        change ["content","path"].Pairwise (· < ·)
        decide) (by simp [Json.WellFormed])⟩
    parentRef := none
    acl := [] }

local instance parts_lawful : LawfulBEq (List Char) := inferInstance

-- `_fetch_sync`, of what is read under the identifier's path. `fromTimestamp` takes
-- nanoseconds and gives no time where that is out of range.
def fetchSync (fromTimestamp : Int → Option UtcTime) (localActor objectId version : String) (snapshot : SecureRead) : Option RawSourceObject :=
  let relativePath := objectId.toList.drop 5
  let relative := PurePosixPath.parse relativePath
  if !"path:".toList.isPrefixOf objectId.toList || relative.isAbsolute || decide (['.','.'] ∈ relative.parts) ||
      relative.asPosix != relativePath || relativePath == ['.'] then none
  else if version ≠ contentHash snapshot.content then none
  else (fromTimestamp snapshot.modifiedNs).bind fun observedAt =>
    (Utf8.decode snapshot.content).map fun text => rawFile localActor objectId snapshot observedAt text

end Markdown

namespace RawSourceObject
variable (raw : RawSourceObject)

-- The text that the identifier is a digest of.
def material : Utf8.Bytes :=
  let nul := String.ofList [Char.ofNat 0]
  Utf8.encode (raw.connectorType ++ nul ++ raw.externalObjectId ++ nul ++ raw.externalVersion ++ nul ++ raw.contentHash).toList

-- What the content hash is a digest of: a file's bytes, an object's content, or a whole payload.
def hashedContent : Utf8.Bytes :=
  match raw.payload.1.lookup "content" with
  | some (.str text) => Utf8.encode text.toList
  | some v => Utf8.encode v.text
  | none => Utf8.encode (Json.obj raw.payload.1).text

-- The content hash is the digest of that.
def Hashed : Prop := raw.contentHash = "sha256:" ++ Sha256.hexdigest raw.hashedContent

end RawSourceObject

def CollisionFree (x y : Utf8.Bytes) : Prop := Sha256.hexdigest x = Sha256.hexdigest y → x = y

inductive CaptureConnector (Selector : Type) where
  | markdown
  | github (repository : String)
  | mcp (m : McpConnector Selector)

-- What a capture of one object meets: a file and the actor that the project names, an item, or a provider's answer.
inductive Upstream where
  | file (localActor objectId version : String) (snapshot : Markdown.SecureRead)
  | item (item : GitHub.Item)
  | object (payload : SourceValue)

structure CaptureWorld (Selector : Type) where
  fromTimestamp : Int → Option UtcTime
  urls : GitHub.UrlText
  host : Host
  select : Selector → SourceValue → Option SourceValue
  finite : ∀ selector payload value, select selector payload = some value → Json.allFinite value.1 = true

namespace GitHub.Item

-- Whom an item is by.
def author : Item → Option String
  | .issue item => item.user.map User.login
  | .pullRequest item => item.user.map User.login
  | .commit item => (item.author.map User.login).or (item.commit.author.map CommitAuthor.name)
  | .issueComment item => item.user.map User.login
  | .reviewComment item => item.user.map User.login

-- Whether the address of a comment on an issue is one among issues, and not among pull requests.
def amongIssues (urls : UrlText) (repository : String) : Item → Bool
  | .issueComment item =>
    match linkedNumber urls item.issueUrl ("/repos/" ++ repository ++ "/issues/"), urls.urlsplit item.htmlUrl with
    | some number, some parsed => urls.casefold parsed.path == urls.casefold ("/" ++ repository ++ "/issues/" ++ intText number)
    | _, _ => false
  | _ => false

end GitHub.Item

namespace CaptureConnector
variable {Selector : Type} (world : CaptureWorld Selector)

-- `_fetch_sync`, `_raw_from_provider` and `_raw_from_payload`
def capture : CaptureConnector Selector → Upstream → Option RawSourceObject
  | .markdown, .file localActor objectId version snapshot => Markdown.fetchSync world.fromTimestamp localActor objectId version snapshot
  | .github repository, .item item => GitHub.rawFromProvider world.urls repository item
  | .mcp m, .object payload => m.rawFromPayload world.host world.select payload
  | _, _ => none

def SameText (selector : Selector) (p q : SourceValue) : Prop :=
  (world.select selector p).map Subtype.val = (world.select selector q).map Subtype.val

def selectedTime (m : McpConnector Selector) (p : SourceValue) : Option Int :=
  ((world.select m.objectProfile.observedAt p).bind fun value => McpConnector.parseUtc world.host value.1).map fun t => t.1.instant

-- Agreement in what an identifier leaves out.
def SameBeside : CaptureConnector Selector → Upstream → Upstream → Prop
  | .markdown, .file actor _ _ snapshot, .file actor' _ _ snapshot' =>
    actor = actor' ∧ (world.fromTimestamp snapshot.modifiedNs).map (fun t => t.1.instant) =
      (world.fromTimestamp snapshot'.modifiedNs).map fun t => t.1.instant
  | .github repository, .item a, .item b => a.author = b.author ∧ a.amongIssues world.urls repository = b.amongIssues world.urls repository
  | .mcp m, .object p, .object q =>
    SameText world m.objectProfile.externalId p q ∧ SameText world m.objectProfile.author p q ∧ SameText world m.objectProfile.locator p q ∧
      selectedTime world m p = selectedTime world m q ∧ m.parent world.select p = m.parent world.select q ∧
      m.acl world.select p = m.acl world.select q
  | _, _, _ => False

end CaptureConnector

namespace RawSourceObject

theorem evidenceId_material (raw : RawSourceObject) : raw.evidenceId = "evidence:sha256:" ++ Sha256.hexdigest raw.material := rfl

theorem hashed_length {raw : RawSourceObject} (hashed : raw.Hashed) : raw.contentHash.toList.length = 71 := by
  rw [hashed]
  simp [Sha256.hexdigest_length]

-- What two captures under one identifier share. The last part of the text has a fixed length.
theorem same_hashed {a b : RawSourceObject} (hashed : a.Hashed) (hashed' : b.Hashed) (contents : CollisionFree a.hashedContent b.hashedContent)
    (texts : CollisionFree a.material b.material) (same : a.evidenceId = b.evidenceId) :
    a.hashedContent = b.hashedContent ∧ a.contentHash = b.contentHash ∧
      a.connectorType.toList ++ Char.ofNat 0 :: (a.externalObjectId.toList ++ Char.ofNat 0 :: a.externalVersion.toList) =
        b.connectorType.toList ++ Char.ofNat 0 :: (b.externalObjectId.toList ++ Char.ofNat 0 :: b.externalVersion.toList) := by
  have digests : Sha256.hexdigest a.material = Sha256.hexdigest b.material := by
    have joined := congrArg String.toList same
    simp only [evidenceId_material,String.toList_append,List.append_cancel_left_eq] at joined
    exact String.toList_inj.mp joined
  have whole := ByteFrames.encode_injective (texts digests)
  simp only [String.toList_append] at whole
  obtain ⟨front,hash⟩ := List.append_inj' whole (by rw [hashed_length hashed,hashed_length hashed'])
  have equal := String.toList_inj.mp hash
  have content : Sha256.hexdigest a.hashedContent = Sha256.hexdigest b.hashedContent := by
    have joined := congrArg String.toList equal
    rw [hashed,hashed'] at joined
    simp only [String.toList_append,List.append_cancel_left_eq] at joined
    exact String.toList_inj.mp joined
  refine ⟨contents content,equal,?_⟩
  exact (List.append_left_inj [Char.ofNat 0]).mp (by simpa using front)

end RawSourceObject

namespace DateTime

theorem same_utc (t u : UtcTime) : t.1.same u.1 = true ↔ t.1.instant = u.1.instant := by
  simp [same,t.2,u.2]

end DateTime

namespace CaptureConnector
variable {Selector : Type} {world : CaptureWorld Selector}

theorem file_captured (captured : Markdown.fetchSync clock actor objectId version snapshot = some raw) :
    ∃ observedAt text, clock snapshot.modifiedNs = some observedAt ∧ snapshot.content = Utf8.encode text ∧
      raw = Markdown.rawFile actor objectId snapshot observedAt text := by
  unfold Markdown.fetchSync at captured
  simp only at captured
  split at captured
  · cases captured
  · split at captured
    · cases captured
    · obtain ⟨observedAt,time,read⟩ := Option.bind_eq_some_iff.mp captured
      obtain ⟨text,decoded,rfl⟩ := Option.map_eq_some_iff.mp read
      exact ⟨observedAt,text,time,Utf8.decode_sound decoded,rfl⟩

theorem file_hashed (known : snapshot.content = Utf8.encode text) : (Markdown.rawFile actor objectId snapshot observedAt text).Hashed := by
  have content : (Markdown.rawFile actor objectId snapshot observedAt text).hashedContent = Utf8.encode text := by
    simp [RawSourceObject.hashedContent,Markdown.rawFile]
  rw [RawSourceObject.Hashed,content,←known]
  rfl

theorem files_same (first : snapshot.content = Utf8.encode text) (second : snapshot'.content = Utf8.encode text')
    (contents : CollisionFree (Markdown.rawFile actor objectId snapshot t text).hashedContent
      (Markdown.rawFile actor' objectId' snapshot' t' text').hashedContent)
    (texts : CollisionFree (Markdown.rawFile actor objectId snapshot t text).material
      (Markdown.rawFile actor' objectId' snapshot' t' text').material)
    (same : (Markdown.rawFile actor objectId snapshot t text).evidenceId = (Markdown.rawFile actor' objectId' snapshot' t' text').evidenceId) :
    (Markdown.rawFile actor objectId snapshot t text).normalizeRawSource.equal
        (Markdown.rawFile actor' objectId' snapshot' t' text').normalizeRawSource = true ↔
      actor = actor' ∧ t.1.instant = t'.1.instant := by
  obtain ⟨content,hash,front⟩ := RawSourceObject.same_hashed (file_hashed first) (file_hashed second) contents texts same
  have objects : objectId = objectId' := by
    simp only [Markdown.rawFile] at hash front
    rw [hash,List.append_cancel_left_eq,List.cons_inj_right,List.append_cancel_right_eq] at front
    exact String.toList_inj.mp front
  have written : text = text' := by
    simp only [RawSourceObject.hashedContent,Markdown.rawFile,List.lookup_cons_self,String.toList_ofList] at content
    exact ByteFrames.encode_injective content
  subst objects written
  simp only [EvidenceRecord.equal,RawSourceObject.normalizeRawSource,same,hash,beq_self_eq_true,Bool.true_and]
  simp only [Markdown.rawFile] at hash ⊢
  simp [hash,DateTime.same_utc,Json.equal,Json.equalMembers]

end CaptureConnector

namespace GitHub

def saidText (ms : Json.Members) (name : String) : String :=
  match ms.lookup name with
  | some (.str s) => s
  | _ => ""

def saidInt (ms : Json.Members) (name : String) : String :=
  match ms.lookup name with
  | some (.int n) => intText n
  | _ => ""

def saidKind (ms : Json.Members) : String := saidText ms "kind"

def saidIdentity (ms : Json.Members) : String :=
  if saidKind ms = "commit" then saidText ms "sha" else saidInt ms (ScopedIdentity.identityField (saidKind ms))

def saidTime (ms : Json.Members) : String := saidText ms (if saidKind ms = "commit" then "committed_at" else "updated_at")

def saidVersion (ms : Json.Members) : String := saidText ms (if saidKind ms = "commit" then "sha" else "updated_at")

def saidPath (ms : Json.Members) (amongIssues : Bool) : String :=
  if saidKind ms = "issue" then "/issues/" ++ saidIdentity ms
  else if saidKind ms = "pull_request" then "/pull/" ++ saidIdentity ms
  else if saidKind ms = "commit" then "/commit/" ++ saidIdentity ms
  else if saidKind ms = "issue_comment" then
    (if amongIssues then "/issues/" else "/pull/") ++ (saidInt ms "issue_number" ++ ("#" ++ ("issuecomment-" ++ saidIdentity ms)))
  else "/pull/" ++ (saidInt ms "pull_request_number" ++ ("#" ++ ("discussion_r" ++ saidIdentity ms)))

-- What is made of an item follows from the payload, apart from its author and,
-- for a comment on an issue, the kind of address it has.
structure Said (urls : UrlText) (repository : String) (item : Item) (r : RawSourceObject) : Prop where
  connector : r.connectorType = "github"
  object : r.externalObjectId = objectId repository (saidKind r.payload.1) (saidIdentity r.payload.1)
  version : r.externalVersion = saidVersion r.payload.1
  author : r.author = item.author
  time : ∃ t : UtcTime, r.observedAt = t.1 ∧ timeText t = saidTime r.payload.1
  locator : r.sourceLocator = "https://github.com" ++ ("/" ++ repository ++ saidPath r.payload.1 (item.amongIssues urls repository))
  hash : r.contentHash = canonicalDigest (.obj r.payload.1)
  parent : r.parentRef = none
  acl : r.acl = []
  plain : r.payload.1.lookup "content" = none
  finite : Json.allFinite (.obj r.payload.1) = true
  among : item.amongIssues urls repository = true → saidKind r.payload.1 = "issue_comment"

theorem locator_path {urls : UrlText} (validated : validatedHtmlLocator urls value [path] fragment = some locator) :
    locator = "https://github.com" ++ path ++ (if fragment = "" then "" else "#" ++ fragment) := by
  unfold validatedHtmlLocator at validated
  obtain ⟨parsed,_,found⟩ := Option.bind_eq_some_iff.mp validated
  obtain ⟨canonical,there,written⟩ := Option.bind_eq_some_iff.mp found
  have only : canonical = path := List.mem_singleton.mp (List.mem_of_find?_eq_some there)
  split at written
  · cases written
    rw [only]
  · cases written

theorem locator_paths {urls : UrlText} (validated : validatedHtmlLocator urls value [first,second] fragment = some locator) :
    ∃ parsed, urls.urlsplit value = some parsed ∧
      locator = "https://github.com" ++ (if urls.casefold parsed.path == urls.casefold first then first else second) ++
        (if fragment = "" then "" else "#" ++ fragment) := by
  unfold validatedHtmlLocator at validated
  obtain ⟨parsed,split,found⟩ := Option.bind_eq_some_iff.mp validated
  obtain ⟨canonical,there,written⟩ := Option.bind_eq_some_iff.mp found
  refine ⟨parsed,split,?_⟩
  have chosen : canonical = if urls.casefold parsed.path == urls.casefold first then first else second := by
    rw [List.find?_cons] at there
    split at there
    · rename_i here
      rw [if_pos here]
      exact (Option.some.inj there).symm
    · rename_i other
      rw [if_neg (by simp [other])]
      exact List.mem_singleton.mp (List.mem_of_find?_eq_some there)
  split at written
  · cases written
    rw [chosen]
  · cases written

theorem labels_finite (labels : List String) : Json.allFinite (labelNames labels) = true := by
  have each (texts : List String) : Json.allFiniteItems (texts.map Json.str) = true := by
    induction texts with
    | nil => rfl
    | cons text texts ih => simp [Json.allFiniteItems,Json.allFinite,ih]
  exact each _

theorem optionalText_finite (s : Option String) : Json.allFinite (optionalText s) = true := by cases s <;> rfl

theorem optionalInt_finite (n : Option Int) : Json.allFinite (optionalInt n) = true := by cases n <;> rfl

theorem issue_said {urls : UrlText} (made : rawIssue urls repository item = some r) : Said urls repository (.issue item) r := by
  obtain ⟨locator,validated,rfl⟩ := Option.map_eq_some_iff.mp made
  refine ⟨rfl,rfl,rfl,rfl,⟨_,rfl,rfl⟩,?_,rfl,rfl,rfl,rfl,?_,fun among => by cases among⟩
  · have path := locator_path validated
    simp only [if_true,String.append_empty,String.append_assoc] at path
    exact path
  · simp [raw,issuePayload,Json.allFinite,Json.allFiniteMembers,labels_finite,optionalText_finite]

theorem pullRequest_said {urls : UrlText} (made : rawPullRequest urls repository item = some r) :
    Said urls repository (.pullRequest item) r := by
  unfold rawPullRequest at made
  split at made
  · obtain ⟨locator,validated,rfl⟩ := Option.map_eq_some_iff.mp made
    refine ⟨rfl,rfl,rfl,rfl,⟨_,rfl,rfl⟩,?_,rfl,rfl,rfl,rfl,?_,fun among => by cases among⟩
    · have path := locator_path validated
      simp only [if_true,String.append_empty,String.append_assoc] at path
      exact path
    · simp [raw,pullRequestPayload,Json.allFinite,Json.allFiniteMembers,labels_finite,optionalText_finite]
  · cases made

theorem commit_said {urls : UrlText} (made : rawCommit urls repository item = some r) : Said urls repository (.commit item) r := by
  unfold rawCommit at made
  dsimp only at made
  split at made
  · obtain ⟨locator,validated,rfl⟩ := Option.map_eq_some_iff.mp made
    refine ⟨rfl,rfl,rfl,rfl,⟨_,rfl,rfl⟩,?_,rfl,rfl,rfl,rfl,?_,fun among => by cases among⟩
    · have path := locator_path validated
      simp only [if_true,String.append_empty,String.append_assoc] at path
      exact path
    · simp [raw,commitPayload,Json.allFinite,Json.allFiniteMembers]
  · cases made

theorem solid_fragment (mark : String) (solid : mark ≠ "") (n : Int) : mark ++ intText n ≠ "" := by
  intro empty
  have parts := congrArg String.toList empty
  rw [String.toList_append] at parts
  exact solid (String.toList_inj.mp (List.append_eq_nil_iff.mp parts).1)

theorem issueComment_said {urls : UrlText} (made : rawIssueComment urls repository item = some r) :
    Said urls repository (.issueComment item) r := by
  obtain ⟨number,linked,found⟩ := Option.bind_eq_some_iff.mp made
  obtain ⟨locator,validated,rfl⟩ := Option.map_eq_some_iff.mp found
  refine ⟨rfl,rfl,rfl,rfl,⟨_,rfl,rfl⟩,?_,rfl,rfl,rfl,rfl,?_,fun _ => rfl⟩
  · obtain ⟨parsed,split,path⟩ := locator_paths validated
    rw [if_neg (solid_fragment _ (by decide) _)] at path
    have among : Item.amongIssues urls repository (.issueComment item) =
        (urls.casefold parsed.path == urls.casefold ("/" ++ repository ++ "/issues/" ++ intText number)) := by
      simp only [Item.amongIssues,linked,split]
    rw [among]
    refine path.trans ?_
    cases urls.casefold parsed.path == urls.casefold ("/" ++ repository ++ "/issues/" ++ intText number) <;>
      simp only [if_true,Bool.false_eq_true,if_false,String.append_assoc] <;> rfl
  · simp [raw,issueCommentPayload,Json.allFinite,Json.allFiniteMembers]

theorem reviewComment_said {urls : UrlText} (made : rawReviewComment urls repository item = some r) :
    Said urls repository (.reviewComment item) r := by
  obtain ⟨number,linked,found⟩ := Option.bind_eq_some_iff.mp made
  obtain ⟨locator,validated,rfl⟩ := Option.map_eq_some_iff.mp found
  refine ⟨rfl,rfl,rfl,rfl,⟨_,rfl,rfl⟩,?_,rfl,rfl,rfl,rfl,?_,fun among => by cases among⟩
  · have path := locator_path validated
    rw [if_neg (solid_fragment _ (by decide) _)] at path
    simp only [String.append_assoc] at path
    exact path
  · simp [raw,reviewCommentPayload,Json.allFinite,Json.allFiniteMembers,optionalInt_finite]

theorem provider_said {urls : UrlText} (made : rawFromProvider urls repository item = some r) : Said urls repository item r := by
  cases item with
  | issue item => exact issue_said made
  | pullRequest item => exact pullRequest_said made
  | commit item => exact commit_said made
  | issueComment item => exact issueComment_said made
  | reviewComment item => exact reviewComment_said made

theorem said_hashed {urls : UrlText} (said : Said urls repository item r) : r.Hashed := by
  rw [RawSourceObject.Hashed,said.hash,RawSourceObject.hashedContent,said.plain]
  rfl

theorem timeText_injective {t u : UtcTime} (same : timeText t = timeText u) : t = u := by
  have texts := String.ofList_injective same
  have read := DateTime.read_text t.1
  rw [texts,DateTime.read_text] at read
  exact Subtype.ext (Option.some.inj read).symm

-- The address of a comment tells which of the two kinds it is.
theorem saidPath_apart {ms : Json.Members} (kind : saidKind ms = "issue_comment") : saidPath ms true ≠ saidPath ms false := by
  intro same
  have texts := congrArg String.toList same
  simp only [saidPath,kind] at texts
  simp at texts

theorem items_same {urls : UrlText} (first : Said urls repository item a) (second : Said urls repository item' b)
    (contents : CollisionFree a.hashedContent b.hashedContent) (texts : CollisionFree a.material b.material)
    (same : a.evidenceId = b.evidenceId) :
    a.normalizeRawSource.equal b.normalizeRawSource = true ↔
      item.author = item'.author ∧ item.amongIssues urls repository = item'.amongIssues urls repository := by
  obtain ⟨content,hash,_⟩ := RawSourceObject.same_hashed (said_hashed first) (said_hashed second) contents texts same
  have payload : a.payload.1 = b.payload.1 := by
    simp only [RawSourceObject.hashedContent,first.plain,second.plain] at content
    exact Json.obj.inj (ByteFrames.text_injective a.payload.2 b.payload.2 (ByteFrames.encode_injective content))
  obtain ⟨t,time,said⟩ := first.time
  obtain ⟨u,time',said'⟩ := second.time
  have alike : t = u := timeText_injective (by rw [said,said',payload])
  have locators : a.sourceLocator = b.sourceLocator ↔ item.amongIssues urls repository = item'.amongIssues urls repository := by
    rw [first.locator,second.locator,payload]
    constructor
    · intro same
      have paths := congrArg String.toList same
      simp only [String.toList_append,List.append_cancel_left_eq] at paths
      have path := String.toList_inj.mp paths
      cases among : item.amongIssues urls repository <;> cases among' : item'.amongIssues urls repository
      · rfl
      · rw [among,among'] at path
        exact absurd path.symm (saidPath_apart (second.among among'))
      · rw [among,among'] at path
        exact absurd path (saidPath_apart (payload ▸ first.among among))
      · rfl
    · intro same
      rw [same]
  simp only [EvidenceRecord.equal,RawSourceObject.normalizeRawSource,same,hash,first.connector,second.connector,first.object,second.object,
    first.version,second.version,first.author,second.author,time,time',first.parent,second.parent,first.acl,second.acl,payload,alike,
    DateTime.same_self,Json.equal_self _ second.finite,beq_self_eq_true,Bool.true_and,Bool.and_true,Bool.and_eq_true,beq_iff_eq,locators]

end GitHub

namespace McpConnector
variable {Selector : Type} {world : CaptureWorld Selector} {m : McpConnector Selector}

theorem requiredText_read {v : Json} (read : requiredText v = some text) : v = .str text := by
  unfold requiredText at read
  split at read
  · split at read
    · cases read
      rfl
    · cases read
  · cases read

theorem text_selected {p : SourceValue} (read : ((world.select selector p).bind fun value => requiredText value.1) = some text) :
    (world.select selector p).map Subtype.val = some (.str text) := by
  obtain ⟨value,selected,shape⟩ := Option.bind_eq_some_iff.mp read
  rw [selected,Option.map_some,requiredText_read shape]

theorem sameText_iff {p q : SourceValue} (first : ((world.select selector p).bind fun value => requiredText value.1) = some a)
    (second : ((world.select selector q).bind fun value => requiredText value.1) = some b) :
    CaptureConnector.SameText world selector p q ↔ a = b := by
  rw [CaptureConnector.SameText,text_selected first,text_selected second]
  simp

theorem content_finite {p : SourceValue} {entries : List (String × Selector)} {content : _}
    (selected : selectContent world.select p entries = some content) : Json.allFiniteMembers content.1 = true := by
  induction entries with
  | nil =>
    cases selected
    rfl
  | cons entry entries ih =>
    obtain ⟨value,read,later⟩ := Option.bind_eq_some_iff.mp selected
    obtain ⟨ms,rest,rfl⟩ := Option.map_eq_some_iff.mp later
    simp [Json.allFiniteMembers,world.finite _ _ _ read,ih rest]

-- What is selected of one object.
structure Selected where
  providerObjectId : String
  version : String
  author : String
  locator : String
  observedAt : UtcTime
  parent : Option String
  acl : List String
  content : Json.Members

structure Read (world : CaptureWorld Selector) (m : McpConnector Selector) (p : SourceValue) (r : RawSourceObject) (s : Selected) : Prop where
  object : ((world.select m.objectProfile.externalId p).bind fun value => requiredText value.1) = some s.providerObjectId
  author : ((world.select m.objectProfile.author p).bind fun value => requiredText value.1) = some s.author
  locator : ((world.select m.objectProfile.locator p).bind fun value => requiredText value.1) = some s.locator
  time : ((world.select m.objectProfile.observedAt p).bind fun value => parseUtc world.host value.1) = some s.observedAt
  parent : m.parent world.select p = some s.parent
  acl : m.acl world.select p = some s.acl
  finite : Json.allFiniteMembers s.content = true
  formed : (Json.obj s.content).WellFormed
  connectorType : r.connectorType = "mcp"
  externalObjectId : r.externalObjectId = m.externalObjectId s.providerObjectId
  externalVersion : r.externalVersion = s.version
  whom : r.author = some s.author
  observed : r.observedAt = s.observedAt.1
  sourceLocator : r.sourceLocator = s.locator
  hash : r.contentHash = canonicalDigest (.obj s.content)
  payload : r.payload.1 = m.evidencePayload s.parent s.content
  parentRef : r.parentRef = none
  access : r.acl = s.acl

theorem payload_read {p : SourceValue} (captured : m.rawFromPayload world.host world.select p = some r) : ∃ s, Read world m p r s := by
  obtain ⟨providerObjectId,object,captured⟩ := Option.bind_eq_some_iff.mp captured
  obtain ⟨version,_,captured⟩ := Option.bind_eq_some_iff.mp captured
  obtain ⟨author,by',captured⟩ := Option.bind_eq_some_iff.mp captured
  obtain ⟨observedAt,time,captured⟩ := Option.bind_eq_some_iff.mp captured
  obtain ⟨locator,at',captured⟩ := Option.bind_eq_some_iff.mp captured
  obtain ⟨parent,under,captured⟩ := Option.bind_eq_some_iff.mp captured
  obtain ⟨acl,access,captured⟩ := Option.bind_eq_some_iff.mp captured
  obtain ⟨content,selected,rfl⟩ := Option.map_eq_some_iff.mp captured
  have formed : (Json.obj content.1).WellFormed := ⟨by rw [content.2.1]; exact m.objectProfile.content.2,content.2.2⟩
  exact ⟨⟨providerObjectId,version,author,locator,observedAt,parent,acl,content.1⟩,
    ⟨object,by',at',time,under,access,content_finite selected,formed,rfl,rfl,rfl,rfl,rfl,rfl,rfl,rfl,rfl,rfl⟩⟩

theorem read_content {p : SourceValue} (read : Read world m p r s) : r.hashedContent = Utf8.encode (Json.obj s.content).text := by
  have found : r.payload.1.lookup "content" = some (.obj s.content) := by
    rw [read.payload]
    rfl
  rw [RawSourceObject.hashedContent,found]

theorem read_hashed {p : SourceValue} (read : Read world m p r s) : r.Hashed := by
  rw [RawSourceObject.Hashed,read_content read,read.hash]
  rfl

theorem evidencePayload_equal (finite : Json.allFiniteMembers content = true) (parent parent' : Option String) :
    Json.equal (.obj (m.evidencePayload parent content)) (.obj (m.evidencePayload parent' content)) = true ↔ parent = parent' := by
  have same := Json.equalMembers_self content finite
  cases parent <;> cases parent' <;>
    simp [evidencePayload,Json.equal,Json.equalMembers,Json.scalarEqual,Json.amount,same,externalObjectId]

theorem objects_same {p q : SourceValue} (first : Read world m p a s) (second : Read world m q b s')
    (contents : CollisionFree a.hashedContent b.hashedContent) (texts : CollisionFree a.material b.material)
    (same : a.evidenceId = b.evidenceId) :
    a.normalizeRawSource.equal b.normalizeRawSource = true ↔
      s.providerObjectId = s'.providerObjectId ∧ s.author = s'.author ∧ s.locator = s'.locator ∧
        s.observedAt.1.instant = s'.observedAt.1.instant ∧ s.parent = s'.parent ∧ s.acl = s'.acl := by
  obtain ⟨digested,hash,front⟩ := RawSourceObject.same_hashed (read_hashed first) (read_hashed second) contents texts same
  have written : s.content = s'.content := by
    rw [read_content first,read_content second] at digested
    exact Json.obj.inj (ByteFrames.text_injective first.formed second.formed (ByteFrames.encode_injective digested))
  have objects : a.externalObjectId = b.externalObjectId ↔ s.providerObjectId = s'.providerObjectId := by
    rw [first.externalObjectId,second.externalObjectId]
    simp [externalObjectId]
  -- the identifier fixes the version once it is known where the object's name ends
  have versions : s.providerObjectId = s'.providerObjectId → s.version = s'.version := by
    intro object
    rw [object] at objects
    have ids := objects.mpr rfl
    rw [first.connectorType,second.connectorType,ids,first.externalVersion,second.externalVersion] at front
    exact String.toList_inj.mp (by simpa using front)
  simp only [EvidenceRecord.equal,RawSourceObject.normalizeRawSource,same,hash,first.connectorType,second.connectorType,objects,
    first.externalVersion,second.externalVersion,first.whom,second.whom,first.observed,second.observed,first.sourceLocator,
    second.sourceLocator,first.payload,second.payload,written,evidencePayload_equal second.finite,first.parentRef,second.parentRef,first.access,
    second.access,DateTime.same_utc,beq_self_eq_true,Bool.true_and,Bool.and_true,Bool.and_eq_true,beq_iff_eq,Option.some.injEq]
  constructor
  · rintro ⟨⟨⟨⟨⟨⟨one,_⟩,two⟩,three⟩,four⟩,five⟩,six⟩
    exact ⟨one,two,four,three,five,six⟩
  · rintro ⟨one,two,four,three,five,six⟩
    exact ⟨⟨⟨⟨⟨⟨one,versions one⟩,two⟩,three⟩,four⟩,five⟩,six⟩

end McpConnector

namespace CaptureConnector
variable {Selector : Type} {world : CaptureWorld Selector}

theorem captures_same {c : CaptureConnector Selector} (first : c.capture world u = some a) (second : c.capture world v = some b)
    (contents : CollisionFree a.hashedContent b.hashedContent) (texts : CollisionFree a.material b.material)
    (same : a.evidenceId = b.evidenceId) : a.normalizeRawSource.equal b.normalizeRawSource = true ↔ c.SameBeside world u v := by
  cases c with
  | markdown =>
    cases u <;> cases v <;> simp only [capture,reduceCtorEq] at first second
    obtain ⟨t,text,time,content,rfl⟩ := file_captured first
    obtain ⟨t',text',time',content',rfl⟩ := file_captured second
    rw [files_same content content' contents texts same]
    simp [SameBeside,time,time']
  | github repository =>
    cases u <;> cases v <;> simp only [capture,reduceCtorEq] at first second
    exact GitHub.items_same (GitHub.provider_said first) (GitHub.provider_said second) contents texts same
  | mcp m =>
    cases u <;> cases v <;> simp only [capture,reduceCtorEq] at first second
    obtain ⟨s,read⟩ := McpConnector.payload_read first
    obtain ⟨s',read'⟩ := McpConnector.payload_read second
    rw [McpConnector.objects_same read read' contents texts same]
    simp only [SameBeside,McpConnector.sameText_iff read.object read'.object,McpConnector.sameText_iff read.author read'.author,
      McpConnector.sameText_iff read.locator read'.locator,selectedTime,read.time,read'.time,read.parent,read'.parent,read.acl,read'.acl,
      Option.map_some,Option.some.injEq]

-- Two captures that share an identifier are one record exactly when they agree in
-- what the identifier leaves out, and any other second one is refused by the store.
theorem recaptures_accepted (world : CaptureWorld Selector) (c : CaptureConnector Selector) (u v : Upstream) (a b : RawSourceObject)
    (first : c.capture world u = some a) (second : c.capture world v = some b) (contents : CollisionFree a.hashedContent b.hashedContent)
    (texts : CollisionFree a.material b.material) (same : a.evidenceId = b.evidenceId) :
    (a.normalizeRawSource.equal b.normalizeRawSource = true ↔ c.SameBeside world u v) ∧
    ∀ lax content s existing connectorId, EvidenceStore.parseEvidenceLines lax content = .ok s → s.find b.evidenceId = some existing →
      existing.equal a.normalizeRawSource = true →
      (EvidenceStore.associate lax content connectorId b.normalizeRawSource = .error (.conflictingEvidenceId b.evidenceId) ↔
        ¬c.SameBeside world u v) := by
  have whole := captures_same first second contents texts same
  refine ⟨whole,?_⟩
  intro lax content s existing connectorId read held stored
  have kept : existing.equal b.normalizeRawSource = true ↔ a.normalizeRawSource.equal b.normalizeRawSource = true :=
    ⟨EvidenceRecord.equal_trans (EvidenceRecord.equal_symm stored),EvidenceRecord.equal_trans stored⟩
  rw [show b.evidenceId = b.normalizeRawSource.id from rfl,EvidenceStore.associate_held lax read held,←whole,←kept,Bool.not_eq_true]

theorem first_noon : DateTime.Valid 2025 1 1 12 0 0 0 (some 0) := by decide
theorem second_noon : DateTime.Valid 2025 1 2 12 0 0 0 (some 0) := by decide

def firstNoon : UtcTime := ⟨⟨2025,1,1,12,0,0,0,some 0,first_noon⟩,rfl⟩
def secondNoon : UtcTime := ⟨⟨2025,1,2,12,0,0,0,some 0,second_noon⟩,rfl⟩

-- A file that was last written on the first or on the second of January 2025.
def noons (modifiedNs : Int) : Option UtcTime :=
  if modifiedNs = 1735732800000000000 then some firstNoon
  else if modifiedNs = 1735819200000000000 then some secondNoon
  else none

def noonWorld : CaptureWorld Unit := ⟨noons,⟨fun _ => none,id⟩,⟨extendedInterpreter,fun _ => .error .osError⟩,fun _ _ => none,nofun⟩

def memo (modifiedNs : Int) : Markdown.SecureRead := ⟨Utf8.encode ['m','e','m','o'],modifiedNs⟩

def memoAt (modifiedNs : Int) : Upstream := .file "ada" "path:memo.md" (Markdown.contentHash (Utf8.encode ['m','e','m','o'])) (memo modifiedNs)

theorem memo_captured (found : noons modifiedNs = some t) :
    (markdown : CaptureConnector Unit).capture noonWorld (memoAt modifiedNs) =
      some (Markdown.rawFile "ada" "path:memo.md" (memo modifiedNs) t ['m','e','m','o']) := by
  have path : (!"path:".toList.isPrefixOf "path:memo.md".toList ||
      (Markdown.PurePosixPath.parse ("path:memo.md".toList.drop 5)).isAbsolute ||
      decide (['.','.'] ∈ (Markdown.PurePosixPath.parse ("path:memo.md".toList.drop 5)).parts) ||
      (Markdown.PurePosixPath.parse ("path:memo.md".toList.drop 5)).asPosix != "path:memo.md".toList.drop 5 ||
      "path:memo.md".toList.drop 5 == ['.']) = false := by decide
  have read : Utf8.decode (memo modifiedNs).content = some ['m','e','m','o'] := Utf8.decode_encode _
  simp only [capture,memoAt,Markdown.fetchSync,path,read]
  simp [noonWorld,memo,found]

-- The same content, written again a day later.
theorem touched_file_refused :
    ∃ a b, (markdown : CaptureConnector Unit).capture noonWorld (memoAt 1735732800000000000) = some a ∧
      (markdown : CaptureConnector Unit).capture noonWorld (memoAt 1735819200000000000) = some b ∧
      a.evidenceId = b.evidenceId ∧ a.normalizeRawSource.equal b.normalizeRawSource = false ∧
      ∀ lax content s, EvidenceStore.parseEvidenceLines lax content = .ok s → s.find b.evidenceId = some a.normalizeRawSource →
        EvidenceStore.associate lax content "markdown" b.normalizeRawSource = .error (.conflictingEvidenceId b.evidenceId) := by
  have apart : (Markdown.rawFile "ada" "path:memo.md" (memo 1735732800000000000) firstNoon ['m','e','m','o']).normalizeRawSource.equal
      (Markdown.rawFile "ada" "path:memo.md" (memo 1735819200000000000) secondNoon ['m','e','m','o']).normalizeRawSource = false := by
    have times : firstNoon.1.same secondNoon.1 = false := by decide
    simp [EvidenceRecord.equal,RawSourceObject.normalizeRawSource,Markdown.rawFile,times]
  refine ⟨_,_,memo_captured rfl,memo_captured rfl,rfl,apart,?_⟩
  intro lax content s read held
  exact (EvidenceStore.associate_held lax read held).mpr apart

-- The file is read a second time before it is written again.
theorem recaptures_accepted_memo :
    let a := Markdown.rawFile "ada" "path:memo.md" (memo 1735732800000000000) firstNoon ['m','e','m','o']
    a.normalizeRawSource.equal a.normalizeRawSource = true :=
  (recaptures_accepted noonWorld .markdown (memoAt 1735732800000000000) (memoAt 1735732800000000000) _ _ (memo_captured rfl)
    (memo_captured rfl) (fun _ => rfl) (fun _ => rfl) rfl).1.mpr ⟨rfl,rfl⟩

end CaptureConnector
