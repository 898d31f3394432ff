import IntentEngineering.Capture.GitHubConnector

-- The items that the endpoints list, decoded, and what is made of each.
namespace GitHub

structure SplitUrl where
  scheme : String
  hostname : Option String
  port : Option Nat
  username : Option String
  password : Option String
  path : String
  query : String
  fragment : String

-- `urlsplit`, which refuses a URL that it cannot split or whose port is no number, and `casefold`.
structure UrlText where
  urlsplit : String → Option SplitUrl
  casefold : String → String

structure Ref where
  ref : String
  sha : String

structure User where
  login : String

structure Issue where
  id : Int
  number : Int
  title : String
  body : Option String
  state : String
  user : Option User
  labels : List String
  milestone : Option String
  updatedAt : UtcTime
  htmlUrl : String

structure PullRequest extends Issue where
  base : Ref
  head : Ref
  mergeCommitSha : Option String

structure CommitAuthor where
  name : String
  date : UtcTime

structure CommitData where
  message : String
  author : Option CommitAuthor
  committer : Option CommitAuthor

structure Commit where
  sha : String
  htmlUrl : String
  commit : CommitData
  author : Option User

structure IssueComment where
  id : Int
  body : String
  user : Option User
  updatedAt : UtcTime
  htmlUrl : String
  issueUrl : String

structure ReviewComment where
  id : Int
  body : String
  user : Option User
  updatedAt : UtcTime
  htmlUrl : String
  pullRequestUrl : String
  path : String
  line : Option Int

inductive Item where
  | issue (item : Issue)
  | pullRequest (item : PullRequest)
  | commit (item : Commit)
  | issueComment (item : IssueComment)
  | reviewComment (item : ReviewComment)

def intText (n : Int) : String := String.ofList (Json.intToken n).text

-- `_format_datetime` of a time that was read in UTC.
def timeText (t : UtcTime) : String := String.ofList t.1.text

def lower (s : String) : String := String.ofList (s.toList.map Char.toLower)

def optionalText : Option String → Json
  | none => .null
  | some s => .str s

def optionalInt : Option Int → Json
  | none => .null
  | some n => .int n

-- `sorted({label.name for label in labels})`
def labelNames (labels : List String) : Json := .arr ((labels.dedup.insertionSort (· ≤ ·)).map .str)

-- `_NO_COMMIT_TIME`
def noCommitTime : UtcTime := ⟨⟨1970,1,1,0,0,0,0,some 0,by decide⟩,rfl⟩

def isAt (parsed : SplitUrl) (host : String) : Bool :=
  parsed.scheme == "https" && parsed.hostname == some host && (parsed.port == none || parsed.port == some 443) &&
    parsed.username.isNone && parsed.password.isNone && parsed.query == ""

section Items
variable (urls : UrlText) (repository : String)

-- `_validated_html_locator`
def validatedHtmlLocator (value : String) (expectedPaths : List String) (expectedFragment : String) : Option String :=
  (urls.urlsplit value).bind fun parsed =>
    (expectedPaths.find? fun candidate => urls.casefold parsed.path == urls.casefold candidate).bind fun canonicalPath =>
      if isAt parsed "github.com" && parsed.fragment == expectedFragment then
        some ("https://github.com" ++ canonicalPath ++ (if expectedFragment = "" then "" else "#" ++ expectedFragment))
      else none

-- `_linked_number`
def linkedNumber (value expectedStart : String) : Option Nat :=
  (urls.urlsplit value).bind fun parsed =>
    let suffix := parsed.path.toList.drop expectedStart.toList.length
    if isAt parsed "api.github.com" && parsed.fragment == "" &&
        (urls.casefold expectedStart).toList.isPrefixOf (urls.casefold parsed.path).toList && suffix != [] &&
        suffix.all Decimal.isDigit && decide (suffix.length ≤ maxStrDigits) && decide (1 ≤ Decimal.natValue suffix) then
      some (Decimal.natValue suffix)
    else none

-- `_raw`
def raw (externalObjectId externalVersion : String) (author : Option String) (observedAt : UtcTime) (locator : String) (payload : Payload) :
    RawSourceObject where
  connectorType := "github"
  externalObjectId := externalObjectId
  externalVersion := externalVersion
  author := author
  observedAt := observedAt.1
  sourceLocator := locator
  contentHash := canonicalDigest (.obj payload.1)
  payload := payload
  parentRef := none
  acl := []

theorem formed_of {ms : Json.Members} (ascending : (ms.map Prod.fst).Pairwise (· < ·)) (each : ∀ m ∈ ms, m.2.WellFormed) :
    (Json.obj ms).WellFormed := by
  refine ⟨ascending,?_⟩
  clear ascending
  induction ms with
  | nil => trivial
  | cons m ms ih => exact ⟨each m (by simp),ih fun other inside => each other (by simp [inside])⟩

theorem strings_formed (texts : List String) : (Json.arr (texts.map .str)).WellFormed := by
  induction texts with
  | nil => trivial
  | cons text texts ih => exact ⟨trivial,ih⟩

@[simp] theorem labelNames_formed (labels : List String) : (labelNames labels).WellFormed := strings_formed _

@[simp] theorem optionalText_formed (s : Option String) : (optionalText s).WellFormed := by cases s <;> trivial

@[simp] theorem optionalInt_formed (n : Option Int) : (optionalInt n).WellFormed := by cases n <;> trivial

def issuePayload (item : Issue) : Payload := ⟨
  [("body",optionalText item.body),("kind",.str "issue"),("labels",labelNames item.labels),("milestone",optionalText item.milestone),
    ("number",.int item.number),("provider_id",.int item.id),("repository",.str repository),("state",.str item.state),
    ("title",.str item.title),("updated_at",.str (timeText item.updatedAt))],
  formed_of (by
    change ["body","kind","labels","milestone","number","provider_id","repository","state","title","updated_at"].Pairwise (· < ·)
    decide) (by simp [Json.WellFormed])⟩

def pullRequestPayload (item : PullRequest) (mergeSha : Option String) : Payload := ⟨
  [("base_ref",.str item.base.ref),("base_sha",.str (lower item.base.sha)),("body",optionalText item.body),
    ("head_ref",.str item.head.ref),("head_sha",.str (lower item.head.sha)),("kind",.str "pull_request"),
    ("labels",labelNames item.labels),("merge_commit_sha",optionalText mergeSha),("milestone",optionalText item.milestone),
    ("number",.int item.number),("provider_id",.int item.id),("repository",.str repository),("state",.str item.state),
    ("title",.str item.title),("updated_at",.str (timeText item.updatedAt))],
  formed_of (by
    change ["base_ref","base_sha","body","head_ref","head_sha","kind","labels","merge_commit_sha","milestone","number","provider_id",
      "repository","state","title","updated_at"].Pairwise (· < ·)
    decide) (by simp [Json.WellFormed])⟩

def commitPayload (commitSha message : String) (observedAt : UtcTime) : Payload := ⟨
  [("committed_at",.str (timeText observedAt)),("kind",.str "commit"),("message",.str message),("repository",.str repository),
    ("sha",.str commitSha)],
  formed_of (by
    change ["committed_at","kind","message","repository","sha"].Pairwise (· < ·)
    decide) (by simp [Json.WellFormed])⟩

def issueCommentPayload (item : IssueComment) (number : Nat) : Payload := ⟨
  [("body",.str item.body),("issue_number",.int number),("kind",.str "issue_comment"),("provider_id",.int item.id),
    ("repository",.str repository),("updated_at",.str (timeText item.updatedAt))],
  formed_of (by
    change ["body","issue_number","kind","provider_id","repository","updated_at"].Pairwise (· < ·)
    decide) (by simp [Json.WellFormed])⟩

def reviewCommentPayload (item : ReviewComment) (number : Nat) : Payload := ⟨
  [("body",.str item.body),("kind",.str "review_comment"),("line",optionalInt item.line),("path",.str item.path),
    ("provider_id",.int item.id),("pull_request_number",.int number),("repository",.str repository),
    ("updated_at",.str (timeText item.updatedAt))],
  formed_of (by
    change ["body","kind","line","path","provider_id","pull_request_number","repository","updated_at"].Pairwise (· < ·)
    decide) (by simp [Json.WellFormed])⟩

def objectId (kind identity : String) : String := "github:" ++ repository ++ ":" ++ kind ++ ":" ++ identity

-- `_raw_issue`
def rawIssue (item : Issue) : Option RawSourceObject :=
  (validatedHtmlLocator urls item.htmlUrl ["/" ++ repository ++ "/issues/" ++ intText item.number] "").map fun locator =>
    raw (objectId repository "issue" (intText item.number)) (timeText item.updatedAt) (item.user.map User.login) item.updatedAt locator
      (issuePayload repository item)

-- `_raw_pull_request`
def rawPullRequest (item : PullRequest) : Option RawSourceObject :=
  if isSha (lower item.base.sha) && isSha (lower item.head.sha) && (item.mergeCommitSha.map lower).all isSha then
    (validatedHtmlLocator urls item.htmlUrl ["/" ++ repository ++ "/pull/" ++ intText item.number] "").map fun locator =>
      raw (objectId repository "pull_request" (intText item.number)) (timeText item.updatedAt) (item.user.map User.login) item.updatedAt
        locator (pullRequestPayload repository item (item.mergeCommitSha.map lower))
  else none

-- `_raw_commit`; the account's name goes before the one in the commit.
def rawCommit (item : Commit) : Option RawSourceObject :=
  let commitSha := lower item.sha
  let observedAt := ((item.commit.committer.or item.commit.author).map CommitAuthor.date).getD noCommitTime
  if isSha commitSha then
    (validatedHtmlLocator urls item.htmlUrl ["/" ++ repository ++ "/commit/" ++ commitSha] "").map fun locator =>
      raw (objectId repository "commit" commitSha) commitSha ((item.author.map User.login).or (item.commit.author.map CommitAuthor.name))
        observedAt locator (commitPayload repository commitSha item.commit.message observedAt)
  else none

-- `_raw_issue_comment`
def rawIssueComment (item : IssueComment) : Option RawSourceObject :=
  (linkedNumber urls item.issueUrl ("/repos/" ++ repository ++ "/issues/")).bind fun number =>
  (validatedHtmlLocator urls item.htmlUrl
    ["/" ++ repository ++ "/issues/" ++ intText number,"/" ++ repository ++ "/pull/" ++ intText number]
    ("issuecomment-" ++ intText item.id)).map fun locator =>
      raw (objectId repository "issue_comment" (intText item.id)) (timeText item.updatedAt) (item.user.map User.login) item.updatedAt
        locator (issueCommentPayload repository item number)

-- `_raw_review_comment`
def rawReviewComment (item : ReviewComment) : Option RawSourceObject :=
  (linkedNumber urls item.pullRequestUrl ("/repos/" ++ repository ++ "/pulls/")).bind fun number =>
  (validatedHtmlLocator urls item.htmlUrl ["/" ++ repository ++ "/pull/" ++ intText number] ("discussion_r" ++ intText item.id)).map
    fun locator =>
      raw (objectId repository "review_comment" (intText item.id)) (timeText item.updatedAt) (item.user.map User.login) item.updatedAt
        locator (reviewCommentPayload repository item number)

-- `_raw_from_provider`
def rawFromProvider : Item → Option RawSourceObject
  | .issue item => rawIssue urls repository item
  | .pullRequest item => rawPullRequest urls repository item
  | .commit item => rawCommit urls repository item
  | .issueComment item => rawIssueComment urls repository item
  | .reviewComment item => rawReviewComment urls repository item

end Items
end GitHub
