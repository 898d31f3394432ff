import IntentEngineering.Capture.GitHubClient

namespace GitHub

-- A reply after which the same request is sent again.
def Reply.retried : Reply → Bool
  | .transportError => true
  | .decodingError => false
  | .response r => Client.isServerError r.status

-- How the attempts at one page end.
def Ends : Except Failure Response → List Reply → Prop
  | .ok r, replies => replies.getLast? = some (.response r)
  | .error (.client _), _ => True
  | .error (.escaped e), replies => e = .decodingError ∧ replies.getLast? = some .decodingError
  | .error .endless, _ => False

-- What the attempts at one page leave behind: all but the last reply were retried.
structure Attempted (server : Nat → Reply) (limit index : Nat) (page : Except Failure Response × List Reply) : Prop where
  some' : page.2 ≠ []
  limited : page.2.length ≤ limit
  answered : page.2 = (List.range page.2.length).map fun i => server (index + i)
  retried : ∀ reply ∈ page.2.dropLast, reply.retried = true
  ends : Ends page.1 page.2

theorem ends_cons {outcome : Except Failure Response} {replies : List Reply} (reply : Reply) (some' : replies ≠ [])
    (ends : Ends outcome replies) : Ends outcome (reply :: replies) := by
  have last : (reply :: replies).getLast? = replies.getLast? := by
    cases replies with
    | nil => exact absurd rfl some'
    | cons next replies => rfl
  match outcome,ends with
  | .ok r,ends => exact last.trans ends
  | .error (.client _),_ => trivial
  | .error (.escaped e),ends => exact ⟨ends.1,last.trans ends.2⟩

theorem Attempted.single {outcome : Except Failure Response} {reply : Reply} (here : server index = reply) (limit : Nat)
    (ends : Ends outcome [reply]) : Attempted server (limit + 1) index (outcome,[reply]) :=
  ⟨List.cons_ne_nil _ _,by simp,by simp [here],by simp,ends⟩

theorem Attempted.again {page : Except Failure Response × List Reply} (later : Attempted server limit (index + 1) page)
    {reply : Reply} (here : server index = reply) (retried : reply.retried = true) :
    Attempted server (limit + 1) index (page.1,reply :: page.2) := by
  refine ⟨List.cons_ne_nil _ _,by simpa using later.limited,?_,?_,ends_cons _ later.some' later.ends⟩
  · simp only [List.length_cons,List.range_succ_eq_map,List.map_cons,List.map_map,Nat.add_zero,here]
    refine congrArg (reply :: ·) (later.answered.trans (List.map_congr_left fun i _ => ?_))
    simp only [Function.comp,Nat.succ_eq_add_one]
    congr 1
    omega
  · rw [List.dropLast_cons_of_ne_nil later.some']
    intro other member
    rcases List.mem_cons.mp member with rfl | member
    · exact retried
    · exact later.retried other member

theorem attempts_spec (client : Client) (server : Nat → Reply) (endpoint : List Char) (remaining index : Nat) (some' : remaining ≠ 0) :
    Attempted server remaining index (client.attempts server endpoint remaining index) := by
  induction remaining generalizing index with
  | zero => exact absurd rfl some'
  | succ remaining ih =>
    have again {reply : Reply} (here : server index = reply) (retried : reply.retried = true) (failure : ClientError) :
        Attempted server (remaining + 1) index
          (if remaining = 0 then (.error (.client failure),[server index])
          else ((client.attempts server endpoint remaining (index + 1)).1,
            server index :: (client.attempts server endpoint remaining (index + 1)).2)) := by
      split
      · rw [here]
        exact .single here remaining trivial
      · rename_i more
        rw [here]
        exact (ih (index + 1) more).again here retried
    cases here : server index with
    | transportError =>
      have step := again here rfl (.transient endpoint client.maxAttempts none none)
      simpa only [Client.attempts,here] using step
    | decodingError =>
      simp only [Client.attempts,here]
      exact .single here remaining ⟨rfl,rfl⟩
    | response r =>
      by_cases failing : Client.isServerError r.status = true
      · have step := again here failing (.transient endpoint client.maxAttempts (some r.status) (client.safeRequestId r.requestId))
        simpa only [Client.attempts,here,failing,if_true] using step
      · simp only [Client.attempts,here,failing]
        exact .single here remaining rfl

-- The response that settled a page.
def Fetch.answer (fetch : Fetch) : Option Response :=
  match fetch.replies.getLast? with
  | some (.response r) => some r
  | _ => none

def pageItems (r : Response) : List Json.Members :=
  match r.body with
  | .json payload => (objectItems payload).getD []
  | _ => []

-- A page that counts: a success whose body is an array of objects.
def IsPage (r : Response) : Prop :=
  (200 ≤ r.status ∧ r.status ≤ 299) ∧ ∃ payload found, r.body = .json payload ∧ objectItems payload = some found

-- The pages so far, and what has been collected from them.
structure Collected (fetches : List Fetch) (items : List Json.Members) (etag : Option (List Char)) : Prop where
  pages : ∃ responses : List Response, fetches.map Fetch.answer = responses.map some ∧ (∀ r ∈ responses, IsPage r) ∧
    items = responses.flatMap pageItems ∧ etag = responses.head?.bind Response.etag

structure Fetched (client : Client) (server : Nat → Reply) (fetches : List Fetch) : Prop where
  tried : ∀ fetch ∈ fetches, fetch.replies ≠ [] ∧ fetch.replies.length ≤ client.maxAttempts ∧
    ∀ reply ∈ fetch.replies.dropLast, reply.retried = true
  answered : fetches.flatMap Fetch.replies = (List.range (sent fetches)).map server
  once : (fetches.map fun fetch => fetch.request.url.text).Nodup
  origin : ∀ fetch ∈ fetches, isAllowedOrigin fetch.request.url = true

theorem sent_append (fetches : List Fetch) (fetch : Fetch) : sent (fetches ++ [fetch]) = sent fetches + fetch.replies.length := by
  simp [sent]

theorem Fetched.next (fetched : Fetched client server fetches) {request : Request} {page : Except Failure Response × List Reply}
    (attempted : Attempted server client.maxAttempts (sent fetches) page)
    (fresh : request.url.text ∉ fetches.map fun fetch => fetch.request.url.text) (allowed : isAllowedOrigin request.url = true) :
    Fetched client server (fetches ++ [⟨request,page.2⟩]) := by
  refine ⟨?_,?_,?_,?_⟩
  · intro fetch member
    rcases List.mem_append.mp member with old | new
    · exact fetched.tried fetch old
    · rw [List.mem_singleton.mp new]
      exact ⟨attempted.some',attempted.limited,attempted.retried⟩
  · rw [List.flatMap_append,fetched.answered,sent_append,List.range_add,List.map_append,List.map_map]
    congr 1
    simp only [List.flatMap_cons,List.flatMap_nil,List.append_nil]
    exact attempted.answered
  · rw [List.map_append,List.nodup_append]
    refine ⟨fetched.once,by simp,?_⟩
    intro text old other new
    simp only [List.map_cons,List.map_nil,List.mem_singleton] at new
    rw [new]
    exact fun same => fresh (same ▸ old)
  · intro fetch member
    rcases List.mem_append.mp member with old | new
    · exact fetched.origin fetch old
    · rw [List.mem_singleton.mp new]
      exact allowed

-- What the client's own code lets through of a response that settled.
inductive Slip (client : Client) (r : Response) : Escape → Prop where
  | recursion (unbounded : r.body = .unbounded) : Slip client r .recursionError
  | link (target : List Char) (linked : nextUrl r = .ok (some (some target))) (refused : client.urls.parse target = .error .invalidUrl) :
      Slip client r .invalidUrl

theorem nextUrl_scanned (r : Response) (e : Escape) : nextUrl r ≠ .error e := by
  intro raised
  unfold nextUrl at raised
  split at raised
  · cases raised
  · split at raised
    · cases raised
    · rename_i fault other failed
      obtain ⟨message,same⟩ := LinkHeader.parseLinkHeader_raise _ fault failed
      exact other message same
    · split at raised <;> cases raised

theorem allowed_some {resolved url : Url} (found : (if isAllowedOrigin resolved then some resolved else none) = some url) :
    isAllowedOrigin url = true := by
  split at found
  · rename_i allowed
    cases found
    exact allowed
  · cases found

theorem absoluteUrl_allowed {client : Client} {value : List Char} {pagination : Bool} {url : Url}
    (found : client.absoluteUrl value pagination = .ok (some url)) : isAllowedOrigin url = true := by
  simp only [Client.absoluteUrl] at found
  split at found
  · cases found
  · cases found
  · split at found
    · exact allowed_some (Except.ok.inj found)
    · split at found
      · cases found
      · split at found
        · split at found
          · cases found
          · cases found
          · exact allowed_some (Except.ok.inj found)
        · cases found

theorem absoluteUrl_raises {client : Client} {value : List Char} {pagination : Bool} {e : Escape}
    (raised : client.absoluteUrl value pagination = .error e) :
    e = .invalidUrl ∧ (client.urls.parse value = .error .invalidUrl ∨ pagination = false) := by
  simp only [Client.absoluteUrl] at raised
  split at raised
  · cases raised
  · rename_i refused
    cases raised
    exact ⟨rfl,.inl refused⟩
  · split at raised
    · cases raised
    · split at raised
      · cases raised
      · rename_i first
        split at raised
        · split at raised
          · cases raised
          · cases raised
            exact ⟨rfl,.inr (by simpa using first)⟩
          · cases raised
        · cases raised

section Settle

-- What a page adds to the walk.
structure Adds (walk : Walk) (r : Response) (items : List Json.Members) (first : Option (List Char)) : Prop where
  page : IsPage r
  items : items = walk.items ++ pageItems r
  first : first = if walk.pageNumber = 0 then r.etag else walk.firstEtag

structure GoesOn (client : Client) (walk : Walk) (r : Response) (next : Walk) : Prop where
  adds : Adds walk r next.items next.firstEtag
  number : next.pageNumber = walk.pageNumber + 1
  below : next.pageNumber < client.pageCap
  origin : isAllowedOrigin next.current = true
  plain : next.params = [] ∧ next.condition = none
  kept : next.seen = walk.seen ∧ next.fetches = walk.fetches

def Settled (client : Client) (etag : Option (List Char)) (walk : Walk) (r : Response) : Except Failure (PageResult ⊕ Walk) → Prop
  | .ok (.inl result) => (result = ⟨[],etag,true⟩ ∧ r.status = 304 ∧ walk.pageNumber = 0 ∧ etag ≠ none) ∨
      (result.notModified = false ∧ Adds walk r result.items result.etag)
  | .ok (.inr next) => GoesOn client walk r next
  | .error (.client _) => True
  | .error (.escaped e) => Slip client r e
  | .error .endless => False

theorem settle_spec (client : Client) (etag : Option (List Char)) (walk : Walk) (r : Response) :
    Settled client etag walk r (client.settle etag walk r) := by
  simp only [Client.settle]
  split
  · rename_i unchanged
    split
    · trivial
    · rename_i first
      simp only [not_or,not_not] at first
      exact .inl ⟨rfl,unchanged,by omega,first.2⟩
  split
  · trivial
  rename_i status
  simp only [not_not] at status
  cases body : r.body with
  | malformed => trivial
  | unbounded => exact .recursion body
  | json payload =>
    simp only
    cases found : objectItems payload with
    | none => trivial
    | some items =>
      have adds : Adds walk r (walk.items ++ items) (if walk.pageNumber + 1 = 1 then r.etag else walk.firstEtag) := by
        refine ⟨⟨status,payload,items,body,found⟩,?_,?_⟩
        · simp [pageItems,body,found]
        · simp
      by_cases reflected : materialOverlaps client.secret r payload = true
      · simp only [if_pos reflected]
        trivial
      simp only [if_neg reflected]
      cases linked : nextUrl r with
      | error e => exact absurd linked (nextUrl_scanned r e)
      | ok next =>
        cases next with
        | none => trivial
        | some next =>
          cases next with
          | none => exact .inr ⟨rfl,adds⟩
          | some target =>
            by_cases last : client.pageCap ≤ walk.pageNumber + 1
            · simp only [if_pos last]
              trivial
            simp only [if_neg last]
            cases resolved : client.absoluteUrl target true with
            | error e =>
              obtain ⟨rfl,refused⟩ := absoluteUrl_raises resolved
              exact .link target linked (refused.resolve_right (by simp))
            | ok url =>
              cases url with
              | none => trivial
              | some url => exact ⟨adds,rfl,Nat.lt_of_not_le last,absoluteUrl_allowed resolved,⟨rfl,rfl⟩,rfl,rfl⟩

end Settle

theorem Collected.next (collected : Collected fetches items first) {fetch : Fetch} {r : Response} (answer : fetch.answer = some r)
    (page : IsPage r) : Collected (fetches ++ [fetch]) (items ++ pageItems r) (if fetches.length = 0 then r.etag else first) := by
  obtain ⟨responses,answers,pages,rfl,rfl⟩ := collected
  have size : fetches.length = responses.length := by simpa using congrArg List.length answers
  refine ⟨responses ++ [r],by simp [answers,answer],?_,by simp,?_⟩
  · intro other member
    rcases List.mem_append.mp member with old | new
    · exact pages other old
    · rw [List.mem_singleton.mp new]
      exact page
  · rw [size]
    cases responses with
    | nil => rfl
    | cons head rest => simp

-- The state at the head of the loop.
structure Ready (client : Client) (server : Nat → Reply) (etag : Option (List Char)) (walk : Walk) : Prop where
  fetched : Fetched client server walk.fetches
  seen : walk.seen = walk.fetches.map fun fetch => fetch.request.url.text
  number : walk.fetches.length = walk.pageNumber
  below : walk.pageNumber < client.pageCap
  origin : isAllowedOrigin walk.current = true
  condition : walk.pageNumber = 0 → walk.condition = etag
  collected : Collected walk.fetches walk.items walk.firstEtag

-- The exceptions that are none of the client's errors, and where they come from.
inductive Escapes (client : Client) (fetches : List Fetch) : Escape → Prop where
  | decoding (fetch : Fetch) (last : fetches.getLast? = some fetch) (reply : fetch.replies.getLast? = some .decodingError) :
      Escapes client fetches .decodingError
  | slip (fetch : Fetch) (r : Response) (last : fetches.getLast? = some fetch) (answer : fetch.answer = some r)
      (slip : Slip client r e) : Escapes client fetches e

-- The 304 of a conditional request, and nothing requested before it.
structure Unmodified (etag : Option (List Char)) (fetches : List Fetch) (result : PageResult) : Prop where
  conditional : etag ≠ none
  result : result = ⟨[],etag,true⟩
  only : ∃ fetch r, fetches = [fetch] ∧ fetch.request.condition = etag ∧ fetch.answer = some r ∧ r.status = 304

structure Paginated (client : Client) (server : Nat → Reply) (etag : Option (List Char))
    (run : Except Failure PageResult × List Fetch) : Prop where
  pages : run.2.length ≤ client.pageCap
  fetched : Fetched client server run.2
  success : ∀ result, run.1 = .ok result →
    Unmodified etag run.2 result ∨ (result.notModified = false ∧ Collected run.2 result.items result.etag)
  failure : ∀ failure, run.1 = .error failure → (∃ e, failure = .client e) ∨ ∃ e, failure = .escaped e ∧ Escapes client run.2 e

theorem Paginated.refused {client : Client} {server : Nat → Reply} {etag : Option (List Char)} {fetches : List Fetch}
    (pages : fetches.length ≤ client.pageCap) (fetched : Fetched client server fetches) (e : ClientError) :
    Paginated client server etag (.error (.client e),fetches) :=
  ⟨pages,fetched,fun _ same => (by cases same),fun _ same => .inl ⟨e,(Except.error.inj same).symm⟩⟩

theorem Paginated.raised {client : Client} {server : Nat → Reply} {etag : Option (List Char)} {fetches : List Fetch}
    (pages : fetches.length ≤ client.pageCap) (fetched : Fetched client server fetches) {e : Escape} (escapes : Escapes client fetches e) :
    Paginated client server etag (.error (.escaped e),fetches) :=
  ⟨pages,fetched,fun _ same => (by cases same),fun _ same => .inr ⟨e,(Except.error.inj same).symm,escapes⟩⟩

theorem requestUrl_allowed {client : Client} {walk : Walk} (origin : isAllowedOrigin walk.current = true) :
    isAllowedOrigin (client.requestUrl walk) = true := by
  unfold Client.requestUrl
  split
  · exact origin
  · obtain ⟨text,merged⟩ := client.urls.merged walk.current walk.params
    rw [merged]
    exact origin

-- One round of the loop keeps the state, and every way out of it is a proper end.
theorem getPagesLoop_spec (client : Client) (server : Nat → Reply) (etag : Option (List Char)) (fuel : Nat) (walk : Walk)
    (ready : Ready client server etag walk) (enough : client.pageCap ≤ fuel + walk.pageNumber) :
    Paginated client server etag (client.getPagesLoop server etag fuel walk) := by
  induction fuel generalizing walk with
  | zero =>
    have below := ready.below
    omega
  | succ fuel ih =>
    have below := ready.below
    have number := ready.number
    unfold Client.getPagesLoop
    by_cases known : (client.requestUrl walk).text ∈ walk.seen
    · simp only [if_pos known]
      exact .refused (by omega) ready.fetched _
    · simp only [if_neg known]
      have attempted := attempts_spec client server walk.endpoint client.maxAttempts (sent walk.fetches) (by have := client.retries; omega)
      obtain ⟨page,pageDef⟩ : ∃ page, page = client.attempts server walk.endpoint client.maxAttempts (sent walk.fetches) := ⟨_,rfl⟩
      rw [←pageDef] at attempted ⊢
      obtain ⟨fetch,fetchDef⟩ : ∃ fetch : Fetch, fetch = ⟨⟨client.requestUrl walk,walk.condition⟩,page.2⟩ := ⟨_,rfl⟩
      have fetched : Fetched client server (walk.fetches ++ [fetch]) := by
        rw [fetchDef]
        exact ready.fetched.next attempted (ready.seen ▸ known) (requestUrl_allowed ready.origin)
      have pages : (walk.fetches ++ [fetch]).length ≤ client.pageCap := by
        rw [List.length_append,List.length_singleton]
        omega
      have last : (walk.fetches ++ [fetch]).getLast? = some fetch := by simp
      have ends := attempted.ends
      rw [←fetchDef]
      cases outcome : page.1 with
      | error failure =>
        rw [outcome] at ends
        cases failure with
        | client e => exact .refused pages fetched e
        | escaped e =>
          obtain ⟨rfl,reply⟩ := ends
          exact .raised pages fetched (.decoding fetch last (by rw [fetchDef]; exact reply))
        | endless => exact ends.elim
      | ok r =>
        rw [outcome] at ends
        have answer : fetch.answer = some r := by
          rw [fetchDef,Fetch.answer]
          simp only
          rw [ends]
        have settled := settle_spec client etag
          {walk with seen := walk.seen ++ [(client.requestUrl walk).text], fetches := walk.fetches ++ [fetch]} r
        have first : (walk.fetches.length = 0) = (walk.pageNumber = 0) := by rw [number]
        have collected {items : List Json.Members} {etag' : Option (List Char)}
            (adds : Adds {walk with seen := walk.seen ++ [(client.requestUrl walk).text], fetches := walk.fetches ++ [fetch]} r items etag') :
            Collected (walk.fetches ++ [fetch]) items etag' := by
          have next := ready.collected.next answer adds.page
          simp only [first] at next
          rw [adds.items,adds.first]
          exact next
        simp only
        cases step : client.settle etag
          {walk with seen := walk.seen ++ [(client.requestUrl walk).text], fetches := walk.fetches ++ [fetch]} r with
        | error failure =>
          rw [step] at settled
          cases failure with
          | client e => exact .refused pages fetched e
          | escaped e => exact .raised pages fetched (.slip fetch r last answer settled)
          | endless => exact settled.elim
        | ok next =>
          rw [step] at settled
          cases next with
          | inl result =>
            refine ⟨pages,fetched,fun found same => ?_,fun _ same => (by cases same)⟩
            cases same
            rcases settled with unchanged | page
            · obtain ⟨same,status,start,conditional⟩ := unchanged
              have none' : walk.fetches = [] := List.length_eq_zero_iff.mp (number.trans start)
              refine .inl ⟨conditional,same,fetch,r,by simp [none'],?_,answer,status⟩
              rw [fetchDef]
              exact ready.condition start
            · exact .inr ⟨page.1,collected page.2⟩
          | inr next =>
            obtain ⟨adds,number',below',origin,plain,kept⟩ := settled
            refine ih next ⟨?_,?_,?_,below',origin,?_,?_⟩ (by simp only at number'; omega)
            · rw [kept.2]
              exact fetched
            · rw [kept.1,kept.2,ready.seen,fetchDef]
              simp
            · rw [kept.2,number',List.length_append,number]
              rfl
            · intro start
              rw [number'] at start
              cases start
            · rw [kept.2]
              exact collected adds

-- The requests of a run in the order in which they were sent.
def requests (fetches : List Fetch) : List Request := fetches.flatMap fun fetch => List.replicate fetch.replies.length fetch.request

theorem requests_length (fetched : Fetched client server fetches) : (requests fetches).length ≤ fetches.length * client.maxAttempts := by
  have each := fetched.tried
  clear fetched
  induction fetches with
  | nil => exact Nat.zero_le _
  | cons fetch fetches ih =>
    have here := (each fetch (by simp)).2.1
    have later := ih fun other member => each other (by simp [member])
    simp only [requests,List.flatMap_cons,List.length_append,List.length_replicate,List.length_cons] at later ⊢
    rw [Nat.add_mul,Nat.one_mul]
    omega

theorem requests_allowed (fetched : Fetched client server fetches) : ∀ request ∈ requests fetches, isAllowedOrigin request.url = true := by
  intro request member
  obtain ⟨fetch,inside,sent⟩ := List.mem_flatMap.mp member
  rw [List.eq_of_mem_replicate sent]
  exact fetched.origin fetch inside

-- Paths and absolute texts of the one origin, enough of the library for one run.
def apiUrl (path text : List Char) : Url := ⟨httpsScheme,apiHost,none,[],[],path,true,String.ofList text⟩

def apiOrigin : List Char := httpsScheme ++ [':','/','/'] ++ apiHost

def queryText (params : List (String × String)) : List Char :=
  ['&'].intercalate (params.map fun param => param.1.toList ++ '=' :: param.2.toList)

def apiUrls : UrlLibrary where
  parse value :=
    if apiOrigin.isPrefixOf value then .ok (apiUrl (value.drop apiOrigin.length) value)
    else .ok ⟨[],[],none,[],[],value,false,String.ofList value⟩
  join value := .ok (apiUrl value (apiOrigin ++ value))
  merge url params := {url with text := String.ofList (url.text.toList ++ '?' :: queryText params)}
  merged _ _ := ⟨_,rfl⟩

def apiClient : Client where
  urls := apiUrls
  secret := ['g','h','p','_','0','1','2','3','4','5','6','7','8','9']
  maxAttempts := 3
  pageCap := 100
  retries := by decide
  pages := by decide
  retryAt _ := none

def bareResponse (status : Nat) : Response := ⟨status,none,none,none,none,none,none,.malformed⟩

-- A server error, and then nothing new.
def busyServer (index : Nat) : Reply := .response (bareResponse (if index = 0 then 503 else 304))

end GitHub
