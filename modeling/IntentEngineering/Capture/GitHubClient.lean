import IntentEngineering.Capture.LinkHeader
import IntentEngineering.Capture.Redaction
import IntentEngineering.Library.DateTime
import IntentEngineering.Library.Json

namespace GitHub

-- How the URL library refuses a text: with a type or value error, or with its own.
inductive UrlFault where
  | refused
  | invalidUrl
deriving DecidableEq

-- What `httpx.URL` says of a URL that it has read.
structure Url where
  scheme : List Char
  host : List Char
  port : Option Nat
  userinfo : List Char
  fragment : List Char
  path : List Char
  isAbsolute : Bool
  text : String
deriving DecidableEq

-- The URL library. Merging parameters into a URL changes its query and its text.
structure UrlLibrary where
  parse : List Char → Except UrlFault Url
  join : List Char → Except UrlFault Url
  merge : Url → List (String × String) → Url
  merged : ∀ url params, ∃ text, merge url params = {url with text := text}

def httpsScheme : List Char := ['h','t','t','p','s']
def apiHost : List Char := ['a','p','i','.','g','i','t','h','u','b','.','c','o','m']

def effectivePort (url : Url) : Option Nat :=
  match url.port with
  | some port => some port
  | none => if url.scheme = httpsScheme then some 443 else none

def isAllowedOrigin (url : Url) : Bool :=
  decide (url.scheme = httpsScheme) && decide (url.host = apiHost) && decide (effectivePort url = some 443) &&
    decide (url.userinfo = []) && decide (url.fragment = [])

-- A body after its content coding is undone: JSON, text that is none, or a text
-- whose nesting the reader does not bear.
inductive Body where
  | json (payload : Json)
  | malformed
  | unbounded

structure Response where
  status : Nat
  link : Option (List Char)
  etag : Option (List Char)
  requestId : Option (List Char)
  rateLimitRemaining : Option (List Char)
  rateLimitReset : Option (List Char)
  retryAfter : Option (List Char)
  body : Body

-- What comes of one request: a transport error, a body that its content coding
-- does not decode, or a response.
inductive Reply where
  | transportError
  | decodingError
  | response (r : Response)

inductive ClientError where
  | protocol (endpoint : List Char)
  | transient (endpoint : List Char) (attempts : Nat) (status : Option Nat) (requestId : Option (List Char))
  | rateLimit (status : Nat) (endpoint : List Char) (requestId : Option (List Char)) (retryAt : Option DateTime)
  | permission (status : Nat) (endpoint : List Char) (requestId : Option (List Char))
  | notFound (status : Nat) (endpoint : List Char) (requestId : Option (List Char))
  | api (status : Nat) (endpoint : List Char) (requestId : Option (List Char))

-- An exception that is none of the client's errors.
inductive Escape where
  | invalidUrl
  | decodingError
  | recursionError
  | scanner
  | assertion
deriving DecidableEq

inductive Failure where
  | client (e : ClientError)
  | escaped (e : Escape)
  | endless

structure PageResult where
  items : List Json.Members
  etag : Option (List Char)
  notModified : Bool

structure Client where
  urls : UrlLibrary
  secret : List Char
  maxAttempts : Nat
  pageCap : Nat
  retries : 1 ≤ maxAttempts
  pages : 1 ≤ pageCap
  retryAt : Response → Option DateTime

namespace Client
variable (client : Client)

def safeRequestId (value : Option (List Char)) : Option (List Char) := Redaction.safeRequestId (some client.secret) value

def safeEndpoint (value : List Char) : List Char := Redaction.safeEndpoint (some client.secret) value

-- `_absolute_url`
def absoluteUrl (value : List Char) (pagination : Bool) : Except Escape (Option Url) :=
  let allowed (url : Url) : Option Url := if isAllowedOrigin url then some url else none
  match client.urls.parse value with
  | .error .refused => .ok none
  | .error .invalidUrl => .error .invalidUrl
  | .ok parsed =>
    if parsed.isAbsolute then .ok (allowed parsed)
    else if pagination then .ok none
    else if value.head? = some '/' ∧ value.take 2 ≠ ['/','/'] then
      match client.urls.join value with
      | .error .refused => .ok none
      | .error .invalidUrl => .error .invalidUrl
      | .ok resolved => .ok (allowed resolved)
    else .ok none

def isServerError (status : Nat) : Bool := decide (500 ≤ status ∧ status ≤ 599)

-- The loop of `_request_page`: the replies from the one with this index on, as
-- long as attempts remain.
def attempts (server : Nat → Reply) (endpoint : List Char) : Nat → Nat → Except Failure Response × List Reply
  | 0, _ => (.error (.escaped .assertion),[])
  | remaining + 1, index =>
    let again (failure : ClientError) : Except Failure Response × List Reply :=
      if remaining = 0 then (.error (.client failure),[server index])
      else
        let later := attempts server endpoint remaining (index + 1)
        (later.1,server index :: later.2)
    match server index with
    | .transportError => again (.transient endpoint client.maxAttempts none none)
    | .decodingError => (.error (.escaped .decodingError),[.decodingError])
    | .response r =>
      if isServerError r.status then again (.transient endpoint client.maxAttempts (some r.status) (client.safeRequestId r.requestId))
      else (.ok r,[.response r])

def statusError (r : Response) (endpoint : List Char) : ClientError :=
  let requestId := client.safeRequestId r.requestId
  let primary := r.status = 403 ∧ r.rateLimitRemaining = some ['0']
  let secondary := r.status = 403 ∧ r.retryAfter.isSome = true
  if r.status = 429 ∨ primary ∨ secondary then .rateLimit r.status endpoint requestId (client.retryAt r)
  else if r.status = 401 ∨ r.status = 403 then .permission r.status endpoint requestId
  else if r.status = 404 then .notFound r.status endpoint requestId
  else .api r.status endpoint requestId

end Client

-- `str.split`
def words (text : List Char) : List (List Char) := (text.splitOnP PyText.isSpace).filter (· ≠ [])

def relWord : List Char := ['r','e','l']
def nextWord : List Char := ['n','e','x','t']

-- `relation.casefold() == "next"`: no character outside ASCII folds to a letter of it.
def isNext (relation : List Char) : Bool := LinkHeader.lower relation = nextWord

def isNextLink (entry : LinkHeader.Entry) : Bool :=
  (words ((entry.2.lookup relWord).getD [])).any isNext

-- `_next_url`; the outer failure is an exception other than the parser's own.
def nextUrl (r : Response) : Except Escape (Option (Option (List Char))) :=
  match r.link with
  | none => .ok (some none)
  | some raw =>
    match LinkHeader.parseLinkHeader raw with
    | .error (.valueError _) => .ok none
    | .error _ => .error .scanner
    | .ok entries =>
      match (entries.filter isNextLink).map Prod.fst with
      | [] => .ok (some none)
      | [target] => .ok (some (some target))
      | _ => .ok none

-- `str` of a scalar of the payload.
def scalarText : Json → Option (List Char)
  | .str s => some s.toList
  | .int n => some (Json.intToken n).text
  | .float (.finite x) => some (FloatText.reprFloat x).text
  | .float (.infinite negative) => some (if negative then ['-','i','n','f'] else ['i','n','f'])
  | .float .nan => some ['n','a','n']
  | .bool b => some (if b then ['T','r','u','e'] else ['F','a','l','s','e'])
  | _ => none

def scalarOverlaps (secret : List Char) (v : Json) : Bool :=
  (scalarText v).any fun text => Redaction.providerValueOverlapsSecret text secret

mutual
def overlaps (secret : List Char) : Json → Bool
  | .arr vs => overlapsItems secret vs
  | .obj ms => overlapsMembers secret ms
  | v => scalarOverlaps secret v

def overlapsItems (secret : List Char) : List Json → Bool
  | [] => false
  | v :: vs => overlaps secret v || overlapsItems secret vs

def overlapsMembers (secret : List Char) : List (String × Json) → Bool
  | [] => false
  | (k,v) :: ms => Redaction.providerKeyOverlapsSecret k.toList secret || overlaps secret v || overlapsMembers secret ms
end

-- `_provider_material_overlaps_credential` of the entity tag, the links and the payload.
def materialOverlaps (secret : List Char) (r : Response) (payload : Json) : Bool :=
  (r.etag.any fun text => Redaction.providerValueOverlapsSecret text secret) ||
    (r.link.any fun text => Redaction.providerValueOverlapsSecret text secret) || overlaps secret payload

-- An array whose items are objects.
def objectItems : Json → Option (List Json.Members)
  | .arr vs => vs.mapM fun
    | .obj members => some members
    | _ => none
  | _ => none

structure Request where
  url : Url
  condition : Option (List Char)

-- One page: its request, sent once for each reply.
structure Fetch where
  request : Request
  replies : List Reply

-- The state at the head of the loop.
structure Walk where
  current : Url
  endpoint : List Char
  params : List (String × String)
  condition : Option (List Char)
  pageNumber : Nat
  firstEtag : Option (List Char)
  seen : List String
  items : List Json.Members
  fetches : List Fetch

def sent (fetches : List Fetch) : Nat := (fetches.map fun fetch => fetch.replies.length).sum

namespace Client
variable (client : Client)

def requestUrl (walk : Walk) : Url := if walk.params = [] then walk.current else client.urls.merge walk.current walk.params

-- What a settled response makes of the walk: the end of it, or the next page.
def settle (etag : Option (List Char)) (walk : Walk) (r : Response) : Except Failure (PageResult ⊕ Walk) :=
  let number := walk.pageNumber + 1
  let protocol : Except Failure (PageResult ⊕ Walk) := .error (.client (.protocol walk.endpoint))
  if r.status = 304 then
    if number ≠ 1 ∨ etag = none then protocol else .ok (.inl ⟨[],etag,true⟩)
  else if ¬(200 ≤ r.status ∧ r.status ≤ 299) then .error (.client (client.statusError r walk.endpoint))
  else match r.body with
    | .malformed => protocol
    | .unbounded => .error (.escaped .recursionError)
    | .json payload =>
      match objectItems payload with
      | none => protocol
      | some found =>
        if materialOverlaps client.secret r payload then protocol
        else
          let firstEtag := if number = 1 then r.etag else walk.firstEtag
          let items := walk.items ++ found
          match nextUrl r with
          | .error e => .error (.escaped e)
          | .ok none => protocol
          | .ok (some none) => .ok (.inl ⟨items,firstEtag,false⟩)
          | .ok (some (some next)) =>
            if client.pageCap ≤ number then protocol
            else match client.absoluteUrl next true with
              | .error e => .error (.escaped e)
              | .ok none => protocol
              | .ok (some url) => .ok (.inr {walk with
                  current := url
                  endpoint := client.safeEndpoint url.path
                  params := []
                  condition := none
                  pageNumber := number
                  firstEtag := firstEtag
                  items := items})

def getPagesLoop (server : Nat → Reply) (etag : Option (List Char)) : Nat → Walk → Except Failure PageResult × List Fetch
  | 0, walk => (.error .endless,walk.fetches)
  | fuel + 1, walk =>
    let url := client.requestUrl walk
    if url.text ∈ walk.seen then (.error (.client (.protocol walk.endpoint)),walk.fetches)
    else
      let page := client.attempts server walk.endpoint client.maxAttempts (sent walk.fetches)
      let walk := {walk with seen := walk.seen ++ [url.text], fetches := walk.fetches ++ [⟨⟨url,walk.condition⟩,page.2⟩]}
      match page.1 with
      | .error e => (.error e,walk.fetches)
      | .ok r =>
        match client.settle etag walk r with
        | .error e => (.error e,walk.fetches)
        | .ok (.inl result) => (.ok result,walk.fetches)
        | .ok (.inr walk) => getPagesLoop server etag fuel walk

-- `get_pages`, on an open client.
def getPages (server : Nat → Reply) (path : List Char) (params : List (String × String)) (etag : Option (List Char)) :
    Except Failure PageResult × List Fetch :=
  match client.absoluteUrl path false with
  | .error e => (.error (.escaped e),[])
  | .ok none => (.error (.client (.protocol ['/'])),[])
  | .ok (some current) =>
    client.getPagesLoop server etag client.pageCap ⟨current,client.safeEndpoint current.path,params,etag,0,none,[],[],[]⟩

end Client

end GitHub
