import IntentEngineering.Mutations.ExecutorTurns

open Schema LocalTransaction Interrupt ReceiptStore ReceiptLedger

namespace WriteExecutor

variable {env : WriteEnv} {c : Coordinator} {s : ReceiptLedger env.lax env.sha256}

section Log

-- What must stand in the log before an event does.
def Due (log : List (Event env)) : Event env → Prop
  | .claimed job => ∀ other, .claimed other ∈ log → other.key ≠ job.key
  | .dispatched job target arguments => .claimed job ∈ log ∧ (∀ other t a, .dispatched other t a ∈ log → other.key ≠ job.key) ∧
      job.targetUnchanged target = true ∧ Json.detachedFrozen job.plan.1.arguments.1 = some arguments
  | .returned job _ => ∃ target arguments, .dispatched job target arguments ∈ log
  | .verified job result target => .returned job result ∈ log ∧ job.readBackMatches result target = true

def Ordered (log : List (Event env)) : Prop := ∀ earlier event later, log = earlier ++ event :: later → Due earlier event

theorem ordered_empty : Ordered ([] : List (Event env)) := by
  intro earlier event later split
  simp at split

theorem ordered_snoc {log : List (Event env)} (ordered : Ordered log) (due : Due log event) : Ordered (log ++ [event]) := by
  intro earlier e later split
  cases later using List.reverseRecOn with
  | nil =>
    obtain ⟨rfl,same⟩ := List.append_inj' split rfl
    cases same
    exact due
  | append_singleton front last =>
    rw [←List.cons_append,←List.append_assoc] at split
    exact ordered earlier e front (List.append_inj' split rfl).1

-- Where a call can stand, with such a log behind it.
def Fits (log : List (Event env)) : Stage env → Prop
  | .fetching job => .claimed job ∈ log ∧ ∀ other t a, .dispatched other t a ∈ log → other.key ≠ job.key
  | .awaiting job => ∃ target arguments, .dispatched job target arguments ∈ log
  | .verifying job result => .returned job result ∈ log
  | .completing _ receipt => receipt.1.status ≠ .succeeded
  | .committing job result receipt => (∃ target, .verified job result target ∈ log) ∧ receipt.1.key = job.key ∧
      receipt.1.executedBy = job.actor ∧ receipt.1.resultingVersion = some result.resultingVersion
  | _ => True

theorem fits_grown {log events : List (Event env)} {stage : Stage env} (fits : Fits log stage)
    (apart : ∀ job, stage = .fetching job → ∀ other t a, .dispatched other t a ∈ events → other.key ≠ job.key) :
    Fits (log ++ events) stage := by
  cases stage with
  | fetching job =>
    refine ⟨List.mem_append_left _ fits.1,?_⟩
    intro other t a member
    rcases List.mem_append.mp member with old | new
    · exact fits.2 other t a old
    · exact apart job rfl other t a new
  | awaiting job =>
    obtain ⟨target,arguments,member⟩ := fits
    exact ⟨target,arguments,List.mem_append_left _ member⟩
  | verifying job result => exact List.mem_append_left _ fits
  | completing job receipt => exact fits
  | committing job result receipt =>
    obtain ⟨⟨target,member⟩,rest⟩ := fits
    exact ⟨⟨target,List.mem_append_left _ member⟩,rest⟩
  | _ => trivial

variable {s' : ReceiptLedger env.lax env.sha256} {before after : Stage env} {log events : List (Event env)}

def Claimed (s : ReceiptLedger env.lax env.sha256) (job : Job env) : Prop :=
  ∃ claim ∈ s.claims, claim.key = job.key ∧ claim.actor = job.actor

theorem turned_due (turned : Turned s before after events s') (fits : Fits log before)
    (claims : ∀ job, .claimed job ∈ log → Claimed s job) : events = [] ∨ ∃ event, events = [event] ∧ Due log event := by
  cases turned with
  | claimed job claim key actor taken =>
    refine .inr ⟨_,rfl,?_⟩
    intro other member same
    obtain ⟨c,there,owned,_⟩ := claims other member
    exact claim_none.mp ((record_claim s claim).mp taken).1 c there (by rw [owned,same,key])
  | dispatched job target arguments unchanged detached => exact .inr ⟨_,rfl,fits.1,fits.2,unchanged,detached⟩
  | returned job result => exact .inr ⟨_,rfl,fits⟩
  | verified job result target stage matched next => exact .inr ⟨_,rfl,fits,matched⟩
  | _ => exact .inl rfl

theorem turned_claims (turned : Turned s before after events s') : s.claims <+: s'.claims ∧
    ∀ job, .claimed job ∈ events → Claimed s' job := by
  cases turned with
  | claimed job claim key actor taken =>
    obtain rfl := record_grown taken
    refine ⟨List.prefix_append _ _,?_⟩
    intro other member
    rw [List.mem_singleton] at member
    cases member
    exact ⟨claim,List.mem_append_right _ (List.mem_singleton_self _),key,actor⟩
  | claimLost job claim taken =>
    obtain rfl := record_grown taken
    exact ⟨List.prefix_append _ _,by simp⟩
  | completed job receipt taken =>
    obtain rfl := record_grown taken
    exact ⟨List.prefix_rfl,by simp⟩
  | committed job result receipt taken =>
    obtain rfl := record_grown taken
    exact ⟨List.prefix_rfl,by simp⟩
  | _ => exact ⟨List.prefix_rfl,by simp⟩

-- A receipt is added by the call that holds it.
theorem turned_receipts (turned : Turned s before after events s') (r : env.Receipt) (member : r ∈ s'.receipts) :
    r ∈ s.receipts ∨ (∃ job, before = .completing job r) ∨ ∃ job result, before = .committing job result r := by
  cases turned with
  | claimed job claim key actor taken =>
    obtain rfl := record_grown taken
    exact .inl member
  | claimLost job claim taken =>
    obtain rfl := record_grown taken
    exact .inl member
  | completed job receipt taken =>
    obtain rfl := record_grown taken
    rcases List.mem_append.mp member with old | new
    · exact .inl old
    · cases List.mem_singleton.mp new
      exact .inr (.inl ⟨job,rfl⟩)
  | committed job result receipt taken =>
    obtain rfl := record_grown taken
    rcases List.mem_append.mp member with old | new
    · exact .inl old
    · cases List.mem_singleton.mp new
      exact .inr (.inr ⟨job,result,rfl⟩)
  | _ => exact .inl member

theorem turned_fits (turned : Turned s before after events s') (fits : Fits log before) (ordered : Ordered log)
    (claims : ∀ job, .claimed job ∈ log → Claimed s job) : Fits (log ++ events) after := by
  cases turned with
  | stayed stage =>
    rw [List.append_nil]
    exact fits
  | claimed job claim key actor taken =>
    refine ⟨by simp,?_⟩
    intro other t a member same
    rcases List.mem_append.mp member with old | new
    · -- a dispatch has a claim before it
      obtain ⟨front,back,split⟩ := List.append_of_mem old
      have due := (ordered _ _ _ split).1
      obtain ⟨c,there,owned,_⟩ := claims other (split ▸ List.mem_append_left _ due)
      exact claim_none.mp ((record_claim s claim).mp taken).1 c there (by rw [owned,same,key])
    · simp at new
  | unfetched job receipt failed => exact failed
  | failed job receipt failed => exact failed
  | dispatched job target arguments unchanged detached => exact ⟨target,arguments,by simp⟩
  | returned job result => simp [Fits]
  | verified job result target stage matched next =>
    rcases next with rfl | ⟨receipt,rfl,built⟩
    · trivial
    · obtain ⟨key,actor,_,version⟩ := receipt_built built
      exact ⟨⟨target,by simp⟩,key,actor,version⟩
  | _ => trivial

-- A call that is about to read the target either was so already, or has just
-- made the first claim of its pair.
theorem turned_fetching (turned : Turned s before (.fetching job) events s') :
    (before = .fetching job ∧ events = []) ∨ (events = [.claimed job] ∧ ∀ claim ∈ s.claims, claim.key ≠ job.key) := by
  cases turned with
  | stayed stage => exact .inl ⟨rfl,rfl⟩
  | claimed job claim key actor taken =>
    have absent := claim_none.mp ((record_claim s claim).mp taken).1
    rw [key] at absent
    exact .inr ⟨rfl,absent⟩
  | verified job result target stage matched next =>
    rcases next with impossible | ⟨_,impossible,_⟩ <;> cases impossible

theorem turned_dispatched (turned : Turned s before after events s') (dispatched : .dispatched job t a ∈ events) :
    before = .fetching job := by
  cases turned <;> simp at dispatched
  rw [dispatched.1]

-- A ledger and the calls around it, with what the log says of both.
structure Accounted (given s : ReceiptLedger env.lax env.sha256) (log : List (Event env)) (stages : Nat → Stage env) : Prop where
  ordered : Ordered log
  claims : ∀ job, .claimed job ∈ log → Claimed s job
  successes : ∀ r ∈ s.receipts, r.1.status = .succeeded → r ∈ given.receipts ∨ ∃ job result target, .verified job result target ∈ log ∧
    r.1.key = job.key ∧ r.1.executedBy = job.actor ∧ r.1.resultingVersion = some result.resultingVersion
  fits : ∀ thread, Fits log (stages thread)
  apart : ∀ t t' job job', stages t = .fetching job → stages t' = .fetching job' → job.key = job'.key → t = t'

theorem accounted_start (given : ReceiptLedger env.lax env.sha256) : Accounted given given [] (fun _ => .idle) where
  ordered := ordered_empty
  claims := by simp
  successes := fun _ member _ => .inl member
  fits := fun _ => trivial
  apart := fun _ _ _ _ impossible => by cases impossible

variable {given : ReceiptLedger env.lax env.sha256} {stages : Nat → Stage env}

theorem accounted_step (accounted : Accounted given s log stages) (thread : Nat) (turned : Turned s (stages thread) after events s') :
    Accounted given s' (log ++ events) (fun other => if other = thread then after else stages other) where
  ordered := by
    rcases turned_due turned (accounted.fits thread) accounted.claims with rfl | ⟨event,rfl,due⟩
    · rw [List.append_nil]
      exact accounted.ordered
    · exact ordered_snoc accounted.ordered due
  claims := by
    intro job member
    rcases List.mem_append.mp member with old | new
    · obtain ⟨claim,there,owned⟩ := accounted.claims job old
      exact ⟨claim,(turned_claims turned).1.subset there,owned⟩
    · exact (turned_claims turned).2 job new
  successes := by
    intro r member succeeded
    rcases turned_receipts turned r member with old | ⟨job,stage⟩ | ⟨job,result,stage⟩
    · rcases accounted.successes r old succeeded with first | ⟨job,result,target,verified,rest⟩
      · exact .inl first
      · exact .inr ⟨job,result,target,List.mem_append_left _ verified,rest⟩
    · have failed := accounted.fits thread
      rw [stage] at failed
      exact absurd succeeded failed
    · have fits := accounted.fits thread
      rw [stage] at fits
      obtain ⟨⟨target,verified⟩,rest⟩ := fits
      exact .inr ⟨job,result,target,List.mem_append_left _ verified,rest⟩
  fits := by
    intro other
    split
    · exact turned_fits turned (accounted.fits thread) accounted.ordered accounted.claims
    · rename_i elsewhere
      apply fits_grown (accounted.fits other)
      intro job stage dispatching t a member same
      exact elsewhere (accounted.apart _ _ _ _ stage (turned_dispatched turned member) same.symm)
  apart := by
    -- two calls about to read have one pair only if one has just claimed it
    have claimedNow (t : Nat) (job job' : Job env) (stage : stages t = .fetching job) (other : t ≠ thread) (next : after = .fetching job') :
        job.key ≠ job'.key := by
      intro same
      subst next
      rcases turned_fetching turned with ⟨already,_⟩ | ⟨_,absent⟩
      · exact other (accounted.apart _ _ _ _ stage already same)
      · have fits := accounted.fits t
        rw [stage] at fits
        obtain ⟨claim,there,owned,_⟩ := accounted.claims job fits.1
        exact absent claim there (owned.trans same)
    intro t t' job job' here there same
    split at here
    · split at there
      · rename_i one two
        rw [one,two]
      · rename_i one two
        exact absurd same.symm (claimedNow t' job' job there two here)
    · split at there
      · rename_i one two
        exact absurd same (claimedNow t job job' here one there)
      · exact accounted.apart _ _ _ _ here there same

end Log

section Validated

variable {conforms : Json → Json.Members → Bool}

def Stage.job : Stage env → Option (Job env)
  | .idle => none
  | .looking job => some job
  | .claiming job => some job
  | .unclaimed job => some job
  | .fetching job => some job
  | .awaiting job => some job
  | .verifying job _ => some job
  | .completing job _ => some job
  | .committing job _ _ => some job

-- The inputs the call is about passed `_validated_inputs`.
def Validated (conforms : Json → Json.Members → Bool) (job : Job env) : Prop :=
  job.executor.validates env conforms job.plan job.approval job.actor = true

theorem begun_validated (began : (begun conforms executor committer plans approvals planId approvalId actor now : Stage env).job = some job) :
    Validated conforms job := by
  unfold begun at began
  cases valid : executor.validatedInputs env conforms plans approvals planId approvalId actor with
  | none => simp [valid,Stage.job] at began
  | some pair =>
    obtain ⟨plan,approval⟩ := pair
    simp only [valid,Stage.job,Option.some.injEq] at began
    subst began
    simp only [WriteExecutor.validatedInputs,Option.bind_eq_bind,Option.bind_eq_some_iff] at valid
    obtain ⟨_,_,_,_,accepted⟩ := valid
    split at accepted
    · rename_i validates
      cases accepted
      exact validates
    · cases accepted

theorem turned_job {before after : Stage env} {s' : ReceiptLedger env.lax env.sha256} {events : List (Event env)}
    (turned : Turned s before after events s') (busy : before ≠ .idle) (next : after.job = some job) : before.job = some job := by
  cases turned with
  | began job => exact absurd rfl busy
  | ended stage => cases next
  | claimLost job claim taken => cases next
  | completed job receipt taken => cases next
  | committed job result receipt taken => cases next
  | verified job result target stage matched ends =>
    rcases ends with rfl | ⟨receipt,rfl,_⟩
    · cases next
    · exact next
  | _ => exact next

theorem advance_job (disk : Disk) (stage : Stage env) (move : Move) (next : (advance conforms c disk stage move).1.job = some job) :
    stage.job = some job ∨ Validated conforms job := by
  by_cases busy : stage = .idle
  · subst busy
    cases move with
    | begin executor committer plans approvals planId approvalId actor now => exact .inr (begun_validated next)
    | _ => cases next
  · obtain ⟨s,standing,_⟩ := standing_exists disk
    obtain ⟨_,_,turned⟩ := advance_turned conforms standing stage move
    exact .inl (turned_job turned busy next)

end Validated

section Runs

variable {conforms : Json → Json.Members → Bool} {start : Disk} {m : Machine env} {given : ReceiptLedger env.lax env.sha256}

theorem reached_accounted (standing : Standing env c start given) (reached : Reached conforms c start m) :
    ∃ s, Standing env c m.disk s ∧ Accounted given s m.log m.stages := by
  induction reached with
  | start => exact ⟨given,standing,accounted_start given⟩
  | step earlier thread move ih =>
    obtain ⟨s,stands,accounted⟩ := ih
    obtain ⟨s',stands',turned⟩ := advance_turned conforms stands (Machine.stages _ thread) move
    exact ⟨s',stands',accounted_step accounted thread turned⟩

-- Every call that is under way has been validated, and so has every dispatch.
theorem reached_validated (reached : Reached conforms c start m) :
    (∀ thread job, (m.stages thread).job = some job → Validated conforms job) ∧
      ∀ job t a, .dispatched job t a ∈ m.log → Validated conforms job := by
  induction reached with
  | start =>
    refine ⟨?_,by simp⟩
    intro thread job next
    cases next
  | @step m earlier thread move ih =>
    refine ⟨?_,?_⟩
    · intro other job next
      simp only [Machine.step] at next
      split at next
      · rcases advance_job m.disk (m.stages thread) move next with already | validated
        · exact ih.1 thread job already
        · exact validated
      · exact ih.1 other job next
    · intro job t a member
      rcases List.mem_append.mp member with old | new
      · exact ih.2 job t a old
      · obtain ⟨s,standing,_⟩ := standing_exists m.disk
        obtain ⟨_,_,turned⟩ := advance_turned conforms standing (m.stages thread) move
        exact ih.1 thread job (by rw [turned_dispatched turned new]; rfl)

-- Only a commit changes what is not the ledger.
theorem advance_frame (conforms : Json → Json.Members → Bool) (stage : Stage env) (move : Move) (settled : effective c disk = some contents) :
    (∃ left, effective c (advance conforms c disk stage move).2.1 = some left ∧ ∀ name ≠ "receipts", left name = contents name) ∨
      ∃ job result receipt, stage = .committing job result receipt := by
  have operated {α : Type} {op : Operation α} {line : Record env.lax env.sha256 → Prop} (appends : Appends env op line)
      (schedule : List (Option Fault)) :
      ∃ left, effective c (op.act c ⟨disk,schedule⟩).2.state = some left ∧ ∀ name ≠ "receipts", left name = contents name := by
    obtain ⟨left,there,leaves⟩ := act_effective appends.coordinated settled (Prod.mk.eta (p := op.act c ⟨disk,schedule⟩)).symm
    refine ⟨left,there,?_⟩
    intro name other
    exact left_frame leaves (appends.receipts ▸ other)
  have still : ∃ left, effective c disk = some left ∧ ∀ name ≠ "receipts", left name = contents name := ⟨contents,settled,fun _ _ => rfl⟩
  cases move with
  | «local» transactionId schedule =>
    cases stage with
    | looking job =>
      have kept := operated job.lookup_appends schedule
      simp only [advance,localStep]
      cases ran : job.lookup.act c ⟨disk,schedule⟩ with
      | mk result after =>
        rw [ran] at kept
        rcases result with halt | found | receipt <;> exact .inl kept
    | claiming job =>
      have kept := operated job.claim_appends schedule
      simp only [advance,localStep]
      cases ran : job.claim.act c ⟨disk,schedule⟩ with
      | mk result after =>
        rw [ran] at kept
        rcases result with halt | added
        · exact .inl kept
        · cases added <;> exact .inl kept
    | unclaimed job => exact .inl (operated job.lookup_appends schedule)
    | completing job receipt => exact .inl (operated (complete_appends receipt) schedule)
    | committing job result receipt => exact .inr ⟨job,result,receipt,rfl⟩
    | _ => exact .inl still
  | _ => cases stage <;> exact .inl still

end Runs

end WriteExecutor
