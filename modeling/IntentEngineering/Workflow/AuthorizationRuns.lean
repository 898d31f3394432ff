import IntentEngineering.Workflow.Authorization

namespace Authorization

inductive Event where
  | issued (token : String) (i : Issuance)
  | ran (p : Presented)
  | ended (p : Presented) (raised : Bool)
  | revoked (token : String)
  | revokedAll

-- What one issuer goes through, in the order in which its lock is taken. An action
-- runs under the lock, so until it is left the steps are its own calls.
inductive Step (env : Platform) where
  | issue (i : Issuance) (draws : List String)
  -- an `issue` that was interrupted after the registration
  | withdraw (g : AuthorizationGrant env)
  | verify (p : Presented)
  | enter (p : Presented)
  | leave (raised : Bool)
  | revoke (token : String)
  | revokeAll

structure State (env : Platform) (capacity : Nat) where
  registry : Registry env capacity
  running : List Presented
  log : List Event

section Runs
variable {env : Platform} {capacity : Nat}

def initial : State env capacity := ⟨.empty,[],[]⟩

def step (s : State env capacity) : Step env → State env capacity
  | .issue i draws =>
    match issue env s.registry i draws with
    | (r,none) => ⟨r,s.running,s.log⟩
    | (r,some token) => ⟨r,s.running,s.log ++ [.issued token i]⟩
  | .withdraw g => if s.registry.find g.1.digest = some g then ⟨s.registry.pop g.1.digest,s.running,s.log⟩ else s
  | .verify p => ⟨(verify env s.registry p).1,s.running,s.log⟩
  | .enter p =>
    match claim env s.registry p with
    | (r,none) => ⟨r,s.running,s.log⟩
    | (r,some _) => ⟨r,p :: s.running,s.log ++ [.ran p]⟩
  | .leave raised =>
    match s.running with
    | [] => s
    | p :: outer => ⟨s.registry,outer,s.log ++ [.ended p raised]⟩
  | .revoke token => ⟨revoke s.registry token,s.running,s.log ++ if isToken token = true then [.revoked token] else []⟩
  | .revokeAll => ⟨.empty,s.running,s.log ++ [.revokedAll]⟩

def run (steps : List (Step env)) : State env capacity := steps.foldl step initial

def Step.tokens : Step env → List String
  | .issue _ draws => draws
  | .enter p => [p.token]
  | .revoke token => [token]
  | _ => []

-- No two tokens of a run share a digest.
def CollisionFree (steps : List (Step env)) : Prop :=
  ∀ a ∈ steps.flatMap Step.tokens, ∀ b ∈ steps.flatMap Step.tokens, tokenDigest a = tokenDigest b → a = b

end Runs

-- After such an event the token is used up.
def Event.spends (token : String) : Event → Bool
  | .ran p => p.token == token
  | .revoked other => other == token
  | .revokedAll => true
  | _ => false

def Event.runs (token : String) : Event → Bool
  | .ran p => p.token == token
  | _ => false

def Event.issues (token : String) : Event → Bool
  | .issued other _ => other == token
  | _ => false

-- What a presentation must have in common with the issuance.
structure Covers (env : Platform) (i : Issuance) (p : Presented) : Prop where
  actor : p.actor = i.envelope.1.actor
  repository : p.repositoryId = i.envelope.1.repositoryId
  task : p.taskId = i.envelope.1.id
  request : ∀ digest ∈ p.requestDigest, digest = requestDigest i.envelope.1.request
  version : p.graphVersion = i.envelope.1.graphVersion
  graph : ∃ digest, env.canonicalGraphDigest p.graphContent = some digest ∧ env.canonicalGraphDigest i.graphContent = some digest
  unexpired : p.now.instant < i.now.instant + ttl
  scope : p.requestedPaths ⊆ i.envelope.1.requestedScope
  whole : p.requestedPaths = [] → i.envelope.1.requestedScope = []

-- A run of an action stands after an issuance that covers it, with nothing between
-- that would have used the token up.
def Backed (env : Platform) (before : List Event) (p : Presented) : Prop :=
  ∃ earlier i later, before = earlier ++ .issued p.token i :: later ∧ (∀ e ∈ later, e.spends p.token = false) ∧ Covers env i p

def AllBacked (env : Platform) (log : List Event) : Prop :=
  ∀ before p after, log = before ++ .ran p :: after → Backed env before p

theorem AllBacked.initial_part (all : AllBacked env (log ++ more)) : AllBacked env log := by
  intro before p after shape
  apply all before p (after ++ more)
  rw [shape,List.append_assoc,List.cons_append]

theorem AllBacked.append (all : AllBacked env log) (backed : ∀ p, e = .ran p → Backed env log p) : AllBacked env (log ++ [e]) := by
  intro before p after shape
  induction after using List.reverseRecOn with
  | nil =>
    obtain ⟨rfl,same⟩ := List.append_inj' shape rfl
    exact backed p (by simpa using same)
  | append_singleton after last _ =>
    rw [←List.cons_append,←List.append_assoc] at shape
    obtain ⟨rfl,_⟩ := List.append_inj' shape rfl
    exact all before p after rfl

-- Between two runs with one token there is an issuance of it, so the issuances
-- bound the runs.
theorem AllBacked.counted (all : AllBacked env log) (token : String) :
    log.countP (Event.runs token) ≤ log.countP (Event.issues token) := by
  induction bound : log.length using Nat.strong_induction_on generalizing log with
  | _ n ih =>
    induction log using List.reverseRecOn with
    | nil => simp
    | append_singleton front e _ =>
      have rest := ih front.length (by rw [←bound]; simp) all.initial_part rfl
      rw [List.countP_append,List.countP_append]
      by_cases runs : e.runs token = true
      · cases e with
        | ran p =>
          obtain rfl : p.token = token := by simpa [Event.runs] using runs
          obtain ⟨earlier,i,later,rfl,unspent,_⟩ := all front p [] rfl
          have none : later.countP (Event.runs p.token) = 0 := by
            apply List.countP_eq_zero.mpr
            intro e member
            have kept := unspent e member
            cases e <;> simp_all [Event.runs,Event.spends]
          have part : AllBacked env earlier := by
            have whole : AllBacked env (earlier ++ (.issued p.token i :: later ++ [.ran p])) := by simpa using all
            exact whole.initial_part
          have before := ih earlier.length (by rw [←bound]; simp) part rfl
          simp [List.countP_append,Event.runs,Event.issues,none]
          omega
        | _ => simp [Event.runs] at runs
      · simp [List.countP_cons,runs]
        omega

section Specifications
variable {env : Platform} {capacity : Nat} {r r' : Registry env capacity}

-- The grant that an issuance makes for a token.
def Granted (env : Platform) (i : Issuance) (token : String) (g : GrantDraft) : Prop :=
  ∃ v, validatedIssue env i = some v ∧ g = i.grant v token

theorem register_spec (result : register env r i v draws = (r',outcome)) :
    (outcome = none ∧ r'.grants ⊆ r.grants) ∨
      ∃ token g, outcome = some token ∧ token ∈ draws ∧ g.1 = i.grant v token ∧
        ∀ h ∈ r'.grants, h ∈ r.grants ∨ h = g := by
  have evicted : (r.evictExpired v.issuedAt).grants ⊆ r.grants := List.filter_subset_self _
  simp only [register] at result
  split at result
  · split at result
    · cases result
      exact .inl ⟨rfl,evicted⟩
    · rename_i token drawn
      split at result
      · rename_i valid
        cases result
        refine .inr ⟨token,⟨i.grant v token,valid.2⟩,rfl,List.mem_of_mem_take (drawToken_spec drawn).1,rfl,?_⟩
        intro h member
        rcases List.mem_append.mp member with old | new
        · exact .inl (evicted old)
        · exact .inr (by simpa using new)
      · cases result
        exact .inl ⟨rfl,evicted⟩
  · cases result
    exact .inl ⟨rfl,evicted⟩

theorem register_mints (r : Registry env capacity) (room : (r.evictExpired v.issuedAt).grants.length < capacity)
    (drawn : drawToken (r.evictExpired v.issuedAt) (draws.take 4) = some token) (early : v.issuedAt + ttl < endOfTime)
    (valid : (i.grant v token).valid env = true) :
    ∃ r', register env r i v draws = (r',some token) ∧ r'.grants = (r.evictExpired v.issuedAt).grants ++ [⟨i.grant v token,valid⟩] := by
  simp only [register,dif_pos room]
  split
  · rename_i undrawn
    rw [drawn] at undrawn
    cases undrawn
  · rename_i other drawn'
    obtain rfl : token = other := Option.some.inj (drawn.symm.trans drawn')
    simp only [dif_pos (And.intro early valid)]
    exact ⟨_,rfl,rfl⟩

theorem issue_spec (result : issue env r i draws = (r',outcome)) :
    (outcome = none ∧ r'.grants ⊆ r.grants) ∨
      ∃ token g, outcome = some token ∧ token ∈ draws ∧ Granted env i token g.1 ∧
        ∀ h ∈ r'.grants, h ∈ r.grants ∨ h = g := by
  unfold issue at result
  split at result
  · cases result
    exact .inl ⟨rfl,fun _ member => member⟩
  · rename_i v validated
    rcases register_spec result with refused | ⟨token,g,same,drawn,shape,members⟩
    · exact .inl refused
    · exact .inr ⟨token,g,same,drawn,⟨v,validated,shape⟩,members⟩

theorem canonicalTuple_spec (sorted : canonicalTuple check values = some result) :
    ∀ value, value ∈ result ↔ value ∈ values := by
  unfold canonicalTuple at sorted
  split at sorted
  · cases sorted
    intro value
    exact (List.perm_insertionSort _ values).mem_iff
  · cases sorted

theorem presentable_spec (accepted : presentable env p = some (checkedAt,graphDigest,paths)) :
    checkedAt = p.now.instant ∧ env.canonicalGraphDigest p.graphContent = some graphDigest ∧
      env.paths p.requestedPaths = some paths := by
  simp only [presentable,Option.bind_eq_bind,Option.bind_eq_some_iff] at accepted
  obtain ⟨instant,timed,accepted⟩ := accepted
  split at accepted
  · simp only [Option.bind_eq_some_iff] at accepted
    obtain ⟨digest,digested,scope,ordered,same⟩ := accepted
    cases same
    unfold utc at timed
    split at timed
    · exact ⟨(Option.some.inj timed).symm,digested,ordered⟩
    · cases timed
  · cases accepted

theorem refusal_none (met : refusal g p graphDigest paths = none) :
    p.actor = g.actor ∧ p.repositoryId = g.repositoryId ∧ p.taskId = g.taskId ∧
      (∀ digest ∈ p.requestDigest, digest = g.requestDigest) ∧ p.graphVersion = g.graphVersion ∧ graphDigest = g.graphDigest ∧
      (paths = [] → g.permittedPaths = []) ∧ paths ⊆ g.permittedPaths := by
  unfold refusal at met
  split at met
  · cases met
  rename_i actor
  split at met
  · cases met
  rename_i repository
  split at met
  · cases met
  rename_i task
  split at met
  · cases met
  rename_i request
  split at met
  · cases met
  rename_i graph
  split at met
  · cases met
  rename_i scope
  simp only [not_or,not_not,not_and] at actor repository task graph scope
  refine ⟨actor,repository,task,?_,graph.1,graph.2,scope.1,scope.2⟩
  intro digest presented
  simp_all

theorem verify_spec (result : verify env r p = (r',verification)) :
    (∃ reason, verification = .denied reason ∧ r'.grants ⊆ r.grants) ∨
      ∃ g checkedAt graphDigest paths, r' = r ∧ r.find (tokenDigest p.token) = some g ∧
        presentable env p = some (checkedAt,graphDigest,paths) ∧ checkedAt < g.1.expiresAt ∧
        refusal g.1 p graphDigest paths = none ∧
        verification = .authorized g.1.classification g.1.relevantNodeIds g.1.expiresAt := by
  have whole : r.grants ⊆ r.grants := fun _ member => member
  unfold verify at result
  split at result
  · cases result
    exact .inl ⟨_,rfl,whole⟩
  split at result
  · cases result
    exact .inl ⟨_,rfl,whole⟩
  rename_i checkedAt graphDigest paths accepted
  split at result
  · cases result
    exact .inl ⟨_,rfl,whole⟩
  rename_i g found
  split at result
  · cases result
    exact .inl ⟨_,rfl,List.filter_subset_self _⟩
  rename_i live
  split at result
  · cases result
    exact .inl ⟨_,rfl,whole⟩
  · rename_i met
    cases result
    exact .inr ⟨g,checkedAt,graphDigest,paths,rfl,found,accepted,by omega,met,rfl⟩

theorem verify_keeps (r : Registry env capacity) (p : Presented) : (verify env r p).1.grants ⊆ r.grants := by
  rcases verify_spec (show verify env r p = ((verify env r p).1,(verify env r p).2) from rfl) with ⟨_,_,kept⟩ | ⟨_,_,_,_,same,_⟩
  · exact kept
  · rw [same]
    exact fun _ member => member

theorem validatedIssue_spec (validated : validatedIssue env i = some v) :
    v.issuedAt = i.now.instant ∧ env.canonicalGraphDigest i.graphContent = some v.graphDigest ∧
      v.requestDigest = requestDigest i.envelope.1.request ∧ env.paths i.envelope.1.requestedScope = some v.scope ∧
      i.result.graphVersion = i.envelope.1.graphVersion := by
  simp only [validatedIssue,Option.bind_eq_bind,Option.bind_eq_some_iff] at validated
  obtain ⟨issuedAt,timed,createdAt,_,validated⟩ := validated
  split at validated
  · simp only [Option.bind_eq_some_iff] at validated
    obtain ⟨scope,ordered,relevant,_,graph,_,digest,digested,validated⟩ := validated
    split at validated
    · rename_i conditions
      cases validated
      unfold utc at timed
      split at timed
      · have agreed := conditions.2.2
        simp only [authorizes,Bool.and_eq_true,beq_iff_eq] at agreed
        exact ⟨(Option.some.inj timed).symm,digested,rfl,ordered,agreed.1.1.1.1.1.1.1.2⟩
      · cases timed
    · cases validated
  · cases validated

theorem covers_of_granted (granted : Granted env i token g) (accepted : presentable env p = some (checkedAt,graphDigest,paths))
    (unexpired : checkedAt < g.expiresAt) (met : refusal g p graphDigest paths = none) : Covers env i p := by
  obtain ⟨v,validated,rfl⟩ := granted
  obtain ⟨issuedAt,digested,requested,ordered,version⟩ := validatedIssue_spec validated
  obtain ⟨rfl,presented,asked⟩ := presentable_spec accepted
  obtain ⟨actor,repository,task,request,version',graph,whole,scope⟩ := refusal_none met
  have inScope := canonicalTuple_spec ordered
  have inAsked := canonicalTuple_spec asked
  have empty {xs ys : List String} (same : ∀ x, x ∈ ys ↔ x ∈ xs) : ys = [] ↔ xs = [] := by
    simp only [List.eq_nil_iff_forall_not_mem,same]
  constructor
  · exact actor
  · exact repository
  · exact task
  · exact fun digest given => (request digest given).trans requested
  · exact version'.trans version
  · exact ⟨graphDigest,presented,by rw [graph]; exact digested⟩
  · rw [←issuedAt]
    exact unexpired
  · intro path member
    exact (inScope path).mp (scope ((inAsked path).mpr member))
  · intro none
    exact (empty inScope).mp (whole ((empty inAsked).mpr none))

theorem claim_spec (result : claim env r p = (r',outcome)) :
    (outcome = none ∧ r'.grants ⊆ r.grants) ∨
      ∃ g verification, outcome = some verification ∧ r.find (tokenDigest p.token) = some g ∧
        r' = r.pop (tokenDigest p.token) ∧ ∀ i token, Granted env i token g.1 → Covers env i p := by
  unfold claim at result
  split at result
  · rename_i middle reason checked
    cases result
    rcases verify_spec checked with ⟨_,_,kept⟩ | ⟨_,_,_,_,_,_,_,_,_,impossible⟩
    · exact .inl ⟨rfl,kept⟩
    · cases impossible
  · rename_i middle verification denied checked
    rcases verify_spec checked with ⟨reason,same,_⟩ | ⟨g,checkedAt,graphDigest,paths,rfl,found,accepted,unexpired,met,_⟩
    · exact absurd same (denied reason)
    · simp only [found,Option.isNone_some,Bool.false_eq_true,if_false] at result
      cases result
      exact .inr ⟨g,verification,rfl,found,rfl,fun i token granted => covers_of_granted granted accepted unexpired met⟩

theorem claim_accepts (shaped : isToken p.token = true) (accepted : presentable env p = some (checkedAt,graphDigest,paths))
    (found : r.find (tokenDigest p.token) = some g) (unexpired : checkedAt < g.1.expiresAt)
    (met : refusal g.1 p graphDigest paths = none) : ∃ r' verification, claim env r p = (r',some verification) := by
  have verified : verify env r p = (r,.authorized g.1.classification g.1.relevantNodeIds g.1.expiresAt) := by
    simp only [verify,shaped,accepted,found,met,Bool.true_eq_false,if_false,if_neg (Int.not_le.mpr unexpired)]
  simp [claim,verified,found]

end Specifications

-- An event that removes the grant of a digest.
def Event.removes (digest : String) : Event → Bool
  | .ran p => tokenDigest p.token == digest
  | .revoked token => tokenDigest token == digest
  | .revokedAll => true
  | _ => false

theorem Event.spends_removes (e : Event) (kept : e.removes (tokenDigest token) = false) : e.spends token = false := by
  cases e with
  | ran p =>
    simp only [removes,beq_eq_false_iff_ne] at kept
    simpa [spends] using fun same : p.token = token => kept (same ▸ rfl)
  | revoked other =>
    simp only [removes,beq_eq_false_iff_ne] at kept
    simpa [spends] using fun same : other = token => kept (same ▸ rfl)
  | _ => simp_all [removes,spends]

-- A live grant has its issuance in the log, and nothing after it removed the digest.
def Live (env : Platform) (known : List String) (log : List Event) (g : GrantDraft) : Prop :=
  ∃ earlier token i later, log = earlier ++ .issued token i :: later ∧ token ∈ known ∧ tokenDigest token = g.digest ∧
    Granted env i token g ∧ ∀ e ∈ later, e.removes g.digest = false

theorem Live.append (live : Live env known log g) (more : List Event) (kept : ∀ e ∈ more, e.removes g.digest = false) :
    Live env known (log ++ more) g := by
  obtain ⟨earlier,token,i,later,rfl,drawn,digest,granted,unremoved⟩ := live
  refine ⟨earlier,token,i,later ++ more,by simp,drawn,digest,granted,?_⟩
  intro e member
  rcases List.mem_append.mp member with old | new
  · exact unremoved e old
  · exact kept e new

structure Invariant {env : Platform} (known : List String) (s : State env capacity) : Prop where
  live : ∀ g ∈ s.registry.grants, Live env known s.log g.1
  backed : AllBacked env s.log

section Preservation
variable {env : Platform} {capacity : Nat} {s : State env capacity} {known : List String}

theorem initial_invariant : Invariant known (initial : State env capacity) := by
  constructor
  · simp [initial,Registry.empty]
  · intro before p after shape
    simp [initial] at shape

-- A step that adds no run of an action and no grant.
theorem Invariant.quiet (valid : Invariant known s) {r : Registry env capacity} (kept : r.grants ⊆ s.registry.grants)
    (running : List Presented) (more : List Event) (unrun : ∀ e ∈ more, ∀ p, e ≠ .ran p)
    (unremoved : ∀ g ∈ r.grants, ∀ e ∈ more, e.removes g.1.digest = false) (few : more.length ≤ 1) :
    Invariant known (⟨r,running,s.log ++ more⟩ : State env capacity) := by
  constructor
  · intro g member
    exact (valid.live g (kept member)).append more (unremoved g member)
  · cases more with
    | nil => simpa using valid.backed
    | cons e rest =>
      obtain rfl : rest = [] := by simpa using few
      apply valid.backed.append
      intro p same
      exact absurd same (unrun e (by simp) p)

theorem popped_digest {r : Registry env capacity} (member : g ∈ (r.pop digest).grants) : g.1.digest ≠ digest := by
  have passed := List.of_mem_filter member
  simpa using passed

theorem step_invariant (valid : Invariant known s) (action : Step env) (drawn : action.tokens ⊆ known)
    (free : ∀ a ∈ known, ∀ b ∈ known, tokenDigest a = tokenDigest b → a = b) : Invariant known (step s action) := by
  have still {r : Registry env capacity} (kept : r.grants ⊆ s.registry.grants) :
      Invariant known (⟨r,s.running,s.log⟩ : State env capacity) := by
    simpa using valid.quiet kept s.running [] (by simp) (by simp) (by simp)
  cases action with
  | issue i draws =>
    cases result : issue env s.registry i draws with
    | mk r outcome =>
      rcases issue_spec result with ⟨rfl,kept⟩ | ⟨token,g,rfl,member,granted,grants⟩
      · simpa only [step,result] using still kept
      · simp only [step,result]
        constructor
        · intro h inside
          rcases grants h inside with old | rfl
          · exact (valid.live h old).append _ (by simp [Event.removes])
          · obtain ⟨v,validated,shape⟩ := granted
            exact ⟨s.log,token,i,[],rfl,drawn member,by rw [shape]; rfl,⟨v,validated,shape⟩,by simp⟩
        · exact valid.backed.append (by simp)
  | withdraw g =>
    simp only [step]
    split
    · exact still (List.filter_subset_self _)
    · exact valid
  | verify p => exact still (verify_keeps _ _)
  | enter p =>
    cases result : claim env s.registry p with
    | mk r outcome =>
      rcases claim_spec result with ⟨rfl,kept⟩ | ⟨g,verification,rfl,found,rfl,covers⟩
      · simpa only [step,result] using still kept
      · simp only [step,result]
        obtain ⟨present,digest⟩ := Registry.find_spec _ found
        constructor
        · intro h member
          have other := popped_digest member
          apply (valid.live h (List.mem_of_mem_filter member)).append
          simpa [Event.removes] using other.symm
        · apply valid.backed.append
          intro q same
          cases same
          obtain ⟨earlier,token,i,later,shape,issued,named,granted,unremoved⟩ := valid.live g present
          have same : token = p.token := free token issued p.token (drawn (by simp [Step.tokens])) (named.trans digest)
          subst same
          refine ⟨earlier,i,later,shape,?_,covers i _ granted⟩
          intro e member
          apply e.spends_removes
          rw [named]
          exact unremoved e member
  | leave raised =>
    simp only [step]
    split
    · exact valid
    · exact valid.quiet (fun _ member => member) _ _ (by simp) (by simp [Event.removes]) (by simp)
  | revoke token =>
    simp only [step,revoke]
    by_cases shaped : isToken token = true
    · simp only [shaped,Bool.true_eq_false,if_false,if_true]
      apply valid.quiet (List.filter_subset_self _) _ _ (by simp) _ (by simp)
      intro h member e inside
      obtain rfl : e = .revoked token := by simpa using inside
      simpa [Event.removes] using (popped_digest member).symm
    · simpa [shaped] using still (fun _ member => member)
  | revokeAll =>
    simp only [step]
    exact valid.quiet (by simp [Registry.empty]) _ _ (by simp) (by simp [Registry.empty]) (by simp)

theorem run_invariant (steps : List (Step env)) (drawn : ∀ action ∈ steps, action.tokens ⊆ known)
    (free : ∀ a ∈ known, ∀ b ∈ known, tokenDigest a = tokenDigest b → a = b) (valid : Invariant known s) :
    Invariant known (steps.foldl step s) := by
  induction steps generalizing s with
  | nil => exact valid
  | cons action steps ih =>
    apply ih
    · exact fun other member => drawn other (List.mem_cons_of_mem _ member)
    · exact step_invariant valid action (drawn action (by simp)) free

end Preservation

-- Actions run only where an unexpired and unrevoked issuance covers the call, at
-- most once for each issuance, and the registry stays within its capacity.
theorem authorized_once (env : Platform) (capacity : Nat) (steps : List (Step env)) (free : CollisionFree steps) :
    let s : State env capacity := run steps
    (∀ before p after, s.log = before ++ .ran p :: after → Backed env before p) ∧
      (∀ token, s.log.countP (Event.runs token) ≤ s.log.countP (Event.issues token)) ∧
      s.registry.grants.length ≤ capacity := by
  intro s
  have drawn : ∀ action ∈ steps, action.tokens ⊆ steps.flatMap Step.tokens := by
    intro action member token inside
    exact List.mem_flatMap.mpr ⟨action,member,inside⟩
  have valid : Invariant (steps.flatMap Step.tokens) s := run_invariant steps drawn free initial_invariant
  exact ⟨valid.backed,valid.backed.counted,s.registry.bounded⟩

section Sample

variable {env : Platform} {capacity : Nat}

theorem first_issue (validated : validatedIssue env i = some v) (shaped : isToken token = true) (early : v.issuedAt + ttl < endOfTime)
    (valid : (i.grant v token).valid env = true) :
    ∃ r, issue env (Registry.empty : Registry env (capacity + 1)) i [token] = (r,some token) ∧ r.grants = [⟨_,valid⟩] := by
  have none : ((Registry.empty : Registry env (capacity + 1)).evictExpired v.issuedAt).grants = [] := rfl
  have drawn : drawToken ((Registry.empty : Registry env (capacity + 1)).evictExpired v.issuedAt) ([token].take 4) = some token := by
    simp [drawToken,shaped,Registry.find,none]
  obtain ⟨r,registered,grants⟩ := register_mints Registry.empty (by simp [none]) drawn early valid
  rw [none] at grants
  exact ⟨r,by simpa only [issue,validated] using registered,grants⟩

theorem one_action_log (issued : issue env (Registry.empty : Registry env capacity) i [token] = (r,some token))
    (claimed : claim env r p = (r',some verification)) :
    (run [.issue i [token],.enter p,.leave false] : State env capacity).log =
      [.issued token i,.ran p,.ended p false] := by
  simp [run,initial,step,issued,claimed]

def flowPlatform : Platform := ⟨canonicalOnly,Yaml.flow,fun _ => false⟩

def emptyGraph : IntentGraph := ⟨⟨"graph",0,"0.1.0",none,none,none,none,[],[],TypeRegistry.empty⟩,by decide⟩

def noon : DateTime := ⟨2026,1,5,12,0,0,0,some 0,by decide⟩

def tidyEnvelope : TaskEnvelope :=
  ⟨TaskEnvelopeDraft.assigned ⟨"","repo","alice","thread","tidy the imports","evidence:1",0,noon,["src/app.py"]⟩,
    TaskEnvelopeDraft.assigned_valid _ (by decide +kernel)⟩

def tidyResult : PreflightResult := ⟨tidyEnvelope.1.id,0,.noSemanticImpact,true,[],[],none,["src/app.py"]⟩

def tidyToken : String := "0123456789-0123456789_0123456789-0123456789"

def tidyIssuance : Issuance := ⟨tidyEnvelope,tidyResult,GraphStore.serializeGraph canonicalOnly Yaml.flow emptyGraph,noon⟩

def tidyCall (content : Utf8.Bytes) : Presented :=
  ⟨tidyToken,"alice","repo",tidyEnvelope.1.id,0,content,["src/app.py"],noon,none⟩

def tidyDigest : String :=
  "sha256:" ++ Sha256.hexdigest (GraphStore.serializeGraph canonicalOnly Yaml.flow emptyGraph)

theorem tidy_digest (parsed : GraphStore.parseGraph canonicalOnly Yaml.flow content = some emptyGraph) :
    flowPlatform.canonicalGraphDigest content = some tidyDigest := by
  simp only [Platform.canonicalGraphDigest,flowPlatform,parsed,Option.map_some,tidyDigest]

theorem emptyGraph_unbroken : JsonLines.Unbroken ((IntentGraph.codec canonicalOnly).dump emptyGraph) := by decide

theorem tidy_paths : flowPlatform.paths ["src/app.py"] = some ["src/app.py"] := by decide

theorem tidy_identities : identities [] = some [] := by decide

def tidyValidated : Validated := ⟨noon.instant,tidyDigest,requestDigest "tidy the imports",["src/app.py"],[]⟩

theorem tidy_validated : validatedIssue flowPlatform tidyIssuance = some tidyValidated := by
  have timed : utc noon = some noon.instant := rfl
  have parsed := GraphStore.parse_serialized canonicalOnly Yaml.flow emptyGraph emptyGraph_unbroken
  have named : identity "alice" && identity "repo" && identity "evidence:1" := by decide
  have actor : tidyEnvelope.1.actor = "alice" := rfl
  have repository : tidyEnvelope.1.repositoryId = "repo" := rfl
  have evidence : tidyEnvelope.1.requestEvidenceRef = "evidence:1" := rfl
  have created : tidyEnvelope.1.createdAt = noon := rfl
  have scope : tidyEnvelope.1.requestedScope = ["src/app.py"] := rfl
  have request : tidyEnvelope.1.request = "tidy the imports" := rfl
  have version : tidyEnvelope.1.graphVersion = 0 := rfl
  have empty : emptyGraph.1.version = 0 := rfl
  have task : taskIdentity tidyEnvelope.1.id = true := taskIdentity_digest _
  have lax : flowPlatform.lax = canonicalOnly := rfl
  have yaml : flowPlatform.yaml = Yaml.flow := rfl
  simp only [Bool.and_eq_true] at named
  simp [validatedIssue,tidyIssuance,timed,created,actor,repository,evidence,task,named,scope,tidy_paths,tidyResult,
    tidy_identities,lax,yaml,parsed,tidy_digest parsed,ttl,authorizes,version,empty,request,tidyValidated]

theorem tidy_presentable (parsed : GraphStore.parseGraph canonicalOnly Yaml.flow content = some emptyGraph) :
    presentable flowPlatform (tidyCall content) = some (noon.instant,tidyDigest,["src/app.py"]) := by
  have timed : utc noon = some noon.instant := rfl
  have named : identity "alice" && identity "repo" := by decide
  have task : taskIdentity tidyEnvelope.1.id = true := taskIdentity_digest _
  simp only [Bool.and_eq_true] at named
  simp [presentable,tidyCall,timed,named,task,tidy_digest parsed,tidy_paths]

theorem tidy_grant_valid : (tidyIssuance.grant tidyValidated tidyToken).valid flowPlatform = true := by
  have named : identity "alice" && identity "repo" := by decide
  have task : taskIdentity tidyEnvelope.1.id = true := taskIdentity_digest _
  have actor : tidyEnvelope.1.actor = "alice" := rfl
  have repository : tidyEnvelope.1.repositoryId = "repo" := rfl
  have token : isHash (tokenDigest tidyToken) = true := isPrefixedHash_hexdigest _ _
  have request : isHash (requestDigest "tidy the imports") = true := isPrefixedHash_hexdigest _ _
  have graph : isHash tidyDigest = true := isPrefixedHash_hexdigest _ _
  simp only [Bool.and_eq_true] at named
  simp [GrantDraft.valid,Issuance.grant,tidyIssuance,tidyValidated,tidyResult,actor,repository,named,task,token,request,graph,
    tidy_paths,tidy_identities,ttl]

theorem tidy_issue : ∃ r, issue flowPlatform (Registry.empty : Registry flowPlatform 1) tidyIssuance [tidyToken] = (r,some tidyToken) ∧
    r.grants = [⟨_,tidy_grant_valid⟩] := by
  have early : noon.instant + ttl < endOfTime := by decide
  exact first_issue tidy_validated (by decide) early tidy_grant_valid

theorem tidy_claim {r : Registry flowPlatform 1} (grants : r.grants = [⟨_,tidy_grant_valid⟩])
    (parsed : GraphStore.parseGraph canonicalOnly Yaml.flow content = some emptyGraph) :
    ∃ r' verification, claim flowPlatform r (tidyCall content) = (r',some verification) := by
  have shaped : isToken tidyToken = true := by decide
  have found : r.find (tokenDigest tidyToken) = some ⟨_,tidy_grant_valid⟩ := by
    simp [Registry.find,grants,Issuance.grant]
  have met : refusal (tidyIssuance.grant tidyValidated tidyToken) (tidyCall content) tidyDigest ["src/app.py"] = none := by
    have actor : tidyEnvelope.1.actor = "alice" := rfl
    have repository : tidyEnvelope.1.repositoryId = "repo" := rfl
    simp [refusal,tidyCall,Issuance.grant,tidyIssuance,tidyValidated,tidyResult,actor,repository]
  have unexpired : noon.instant < noon.instant + ttl := by simp [ttl]
  exact claim_accepts shaped (tidy_presentable parsed) found unexpired met

-- One issuance, one action under it.
def tidySteps (content : Utf8.Bytes) : List (Step flowPlatform) :=
  [.issue tidyIssuance [tidyToken],.enter (tidyCall content),.leave false]

theorem tidy_log (parsed : GraphStore.parseGraph canonicalOnly Yaml.flow content = some emptyGraph) :
    (run (tidySteps content) : State flowPlatform 1).log =
      [.issued tidyToken tidyIssuance,.ran (tidyCall content),.ended (tidyCall content) false] := by
  obtain ⟨r,issued,grants⟩ := tidy_issue
  obtain ⟨r',verification,claimed⟩ := tidy_claim grants parsed
  exact one_action_log issued claimed

theorem tidy_collision_free (content : Utf8.Bytes) : CollisionFree (tidySteps content) := by
  have tokens : ∀ a ∈ (tidySteps content).flatMap Step.tokens, a = tidyToken := by
    simp [tidySteps,Step.tokens,tidyCall]
  intro a left b right _
  rw [tokens a left,tokens b right]

end Sample

theorem tidy_authorized_once :
    let s : State flowPlatform 1 := run (tidySteps tidyIssuance.graphContent)
    s.log.countP (Event.runs tidyToken) = 1 ∧ s.log.countP (Event.issues tidyToken) = 1 ∧
      Backed flowPlatform [.issued tidyToken tidyIssuance] (tidyCall tidyIssuance.graphContent) ∧ s.registry.grants.length ≤ 1 := by
  have log : (run (tidySteps tidyIssuance.graphContent) : State flowPlatform 1).log = _ :=
    tidy_log (GraphStore.parse_serialized canonicalOnly Yaml.flow emptyGraph emptyGraph_unbroken)
  have once := authorized_once flowPlatform 1 (tidySteps tidyIssuance.graphContent) (tidy_collision_free _)
  refine ⟨?_,?_,once.1 _ _ _ log,once.2.2⟩
  · simp [log,Event.runs,tidyCall]
  · simp [log,Event.issues]

-- The graph is compared by its canonical digest: an action runs although the
-- content presented is not the content that the issuance was bound to.
theorem graph_bytes_not_compared :
    ¬ ∀ (env : Platform) (capacity : Nat) (steps : List (Step env)), CollisionFree steps →
      ∀ before p after, (run steps : State env capacity).log = before ++ .ran p :: after →
        ∃ earlier i later, before = earlier ++ .issued p.token i :: later ∧ p.graphContent = i.graphContent := by
  intro claim
  have log := tidy_log (GraphStore.parse_spaced canonicalOnly emptyGraph emptyGraph_unbroken (w := [' ']) (by decide))
  obtain ⟨earlier,i,later,shape,same⟩ := claim flowPlatform 1 _ (tidy_collision_free _) [_] _ _ log
  have issued : Event.issued tidyToken i ∈ [Event.issued tidyToken tidyIssuance] := by
    rw [shape]
    simp [tidyCall]
  obtain rfl : i = tidyIssuance := by simpa using issued
  have texts := congrArg Utf8.decode same
  simp [tidyCall,tidyIssuance,GraphStore.serializeGraph,Yaml.flow,Utf8.decode_encode] at texts

end Authorization
