import IntentEngineering.Storage.Transaction
import Mathlib

-- Bounded reads of authority files inside one lock scope, and the account
-- that is kept of them.
namespace ExtraReads
open LocalTransaction (Bytes validTargetName)

inductive Fault where
  | unsafePath
  | osError
  | invalidPolicy
deriving DecidableEq

section Descriptor

-- What the operating system answers while one entry is opened and read. Each
-- `os.read` is answered by at most the bytes asked for, `none` is its failure.
inductive Entry where
  | refused
  | regular (size : Nat) (chunks : List (Option Bytes))

-- The `os.stat` that follows a refused read.
inductive Stat where
  | missing
  | present
  | fails
deriving DecidableEq

structure Target where
  entry : Entry
  stat : Stat

def requestSize (maxBytes : Option Int) (total : Nat) : Int :=
  match maxBytes with
  | none => 65536
  | some limit => min 65536 (limit + 1 - total)

def exceeds (maxBytes : Option Int) (total : Nat) : Bool :=
  match maxBytes with
  | none => false
  | some limit => decide (limit < total)

-- `_read_descriptor`: the bytes read so far are `seen`.
def readDescriptor (maxBytes : Option Int) (seen : Bytes) : List (Option Bytes) → Except Fault Bytes
  | [] => if requestSize maxBytes seen.length ≤ 0 then .error .unsafePath else .ok seen
  | answer :: answers =>
    if requestSize maxBytes seen.length ≤ 0 then .error .unsafePath else
    match answer with
    | none => .error .osError
    | some available =>
      let chunk := available.take (requestSize maxBytes seen.length).toNat
      if chunk.isEmpty then .ok seen else
      if exceeds maxBytes (seen.length + chunk.length) then .error .unsafePath else
      readDescriptor maxBytes (seen ++ chunk) answers

def readNamed (entry : Entry) : Except Fault Bytes :=
  match entry with
  | .refused => .error .unsafePath
  | .regular _ chunks => readDescriptor none [] chunks

def readNamedNonblocking (maxBytes : Option Int) (entry : Entry) : Except Fault Bytes :=
  match entry with
  | .refused => .error .unsafePath
  | .regular size chunks =>
    if exceeds maxBytes size then .error .unsafePath else readDescriptor maxBytes [] chunks

-- `except UnsafePathError`: an absent target is no error.
def optional (stat : Stat) (outcome : Except Fault Bytes) : Except Fault (Option Bytes) :=
  match outcome with
  | .ok content => .ok (some content)
  | .error .unsafePath =>
    match stat with
    | .missing => .ok none
    | .present => .error .unsafePath
    | .fails => .error .osError
  | .error fault => .error fault

def Target.readOptional (target : Target) : Except Fault (Option Bytes) := optional target.stat (readNamed target.entry)

def readBytesNonblocking (maxBytes : Option Int) (entry : Entry) : Except Fault Bytes :=
  if maxBytes.any (fun limit => limit < 0) then .error .unsafePath else readNamedNonblocking maxBytes entry

def Target.readOptionalNonblocking (maxBytes : Option Int) (target : Target) : Except Fault (Option Bytes) :=
  optional target.stat (readBytesNonblocking maxBytes target.entry)

-- `0 if content is None else len(content)`.
def sizeOf (content : Option Bytes) : Nat := (content.map List.length).getD 0

theorem readDescriptor_bound {seen : Bytes} {limit : Int} (fits : seen.length ≤ limit)
    (done : readDescriptor (some limit) seen answers = .ok content) : content.length ≤ limit := by
  induction answers generalizing seen with
  | nil =>
    unfold readDescriptor at done
    split at done
    · cases done
    · cases done
      exact fits
  | cons answer answers ih =>
    unfold readDescriptor at done
    split at done
    · cases done
    · cases answer with
      | none => cases done
      | some available =>
        dsimp only at done
        split at done
        · cases done
          exact fits
        · split at done
          · cases done
          · rename_i within
            apply ih _ done
            simp only [exceeds,decide_eq_true_eq,not_lt] at within
            rw [List.length_append]
            exact within

theorem readBytesNonblocking_bound {limit : Int} (done : readBytesNonblocking (some limit) entry = .ok content) : content.length ≤ limit := by
  unfold readBytesNonblocking at done
  split at done
  · cases done
  · rename_i negative
    have nonnegative : 0 ≤ limit := by simpa using negative
    unfold readNamedNonblocking at done
    split at done
    · cases done
    · split at done
      · cases done
      · apply readDescriptor_bound _ done
        simpa using nonnegative

theorem optional_size {limit : Int} (nonnegative : 0 ≤ limit) (bounded : ∀ content, outcome = .ok content → (content.length : Int) ≤ limit)
    (done : optional stat outcome = .ok content) : sizeOf content ≤ limit := by
  unfold optional at done
  split at done
  · rename_i bytes
    cases done
    exact bounded bytes rfl
  · split at done
    · cases done
      simpa [sizeOf] using nonnegative
    · cases done
    · cases done
  · cases done

theorem readOptionalNonblocking_bound {limit : Int} (nonnegative : 0 ≤ limit)
    (done : Target.readOptionalNonblocking (some limit) target = .ok content) :
    sizeOf content ≤ limit :=
  optional_size nonnegative (fun _ => readBytesNonblocking_bound) done

end Descriptor

section Policies

structure PolicyFields where
  maxBytes : Int
  nonblockingRegular : Bool
  aggregateGroup : Option String
  maxAggregateBytes : Option Int
deriving DecidableEq

-- `__post_init__`.
def PolicyFields.valid (fields : PolicyFields) : Bool :=
  decide (0 ≤ fields.maxBytes) && fields.nonblockingRegular
    && (fields.aggregateGroup.isNone == fields.maxAggregateBytes.isNone)
    && fields.aggregateGroup.all validTargetName && fields.maxAggregateBytes.all (fun limit => 0 ≤ limit)

structure ExtraReadPolicy extends PolicyFields where
  checked : toPolicyFields.valid = true
deriving DecidableEq

-- A mapping from the names of the extras.
structure Policies where
  entries : List (String × ExtraReadPolicy)
  distinct : (entries.map Prod.fst).Nodup

def Policies.get (policies : Policies) (name : String) : Option ExtraReadPolicy :=
  (policies.entries.find? fun entry => entry.1 == name).map Prod.snd

inductive PolicyFault where
  | invalid
  | inconsistent
deriving DecidableEq

-- `aggregate_limits.setdefault(group, limit)`, policy by policy.
def aggregateLimits (limits : String → Option Int) : List ExtraReadPolicy → Except PolicyFault (String → Option Int)
  | [] => .ok limits
  | policy :: rest =>
    match policy.aggregateGroup, policy.maxAggregateBytes with
    | some group, some limit =>
      match limits group with
      | none => aggregateLimits (Function.update limits group (some limit)) rest
      | some existing => if existing ≠ limit then .error .inconsistent else aggregateLimits limits rest
    | _, _ => aggregateLimits limits rest

-- `LocalTransactionCoordinator._extra_read_policies`, with the limits it builds.
def extraReadPolicies (extras : List String) (policies : Policies) : Except PolicyFault (Policies × (String → Option Int)) :=
  if policies.entries.any (fun entry => !extras.contains entry.1) then .error .invalid else
  (aggregateLimits (fun _ => none) (policies.entries.map Prod.snd)).map fun limits => (policies,limits)

-- The names whose sizes a group counts.
def Policies.members (policies : Policies) (group : String) : List String :=
  (policies.entries.filter fun entry => entry.2.aggregateGroup == some group).map Prod.fst

theorem get_member {policies : Policies} (found : policies.get name = some policy) : (name,policy) ∈ policies.entries := by
  obtain ⟨entry,sought,rfl⟩ := Option.map_eq_some_iff.mp found
  have named : entry.1 = name := by simpa using List.find?_some sought
  rw [←named]
  exact List.mem_of_find?_eq_some sought

theorem member_get {policies : Policies} (member : (name,policy) ∈ policies.entries) : policies.get name = some policy := by
  unfold Policies.get
  cases sought : policies.entries.find? fun entry => entry.1 == name with
  | none =>
    have other := List.find?_eq_none.mp sought _ member
    simp at other
  | some entry =>
    have named : entry.1 = name := by simpa using List.find?_some sought
    have same : entry = (name,policy) := List.inj_on_of_nodup_map policies.distinct (List.mem_of_find?_eq_some sought) member named
    rw [same]
    rfl

theorem mem_members {policies : Policies} : name ∈ policies.members group ↔
    ∃ policy, policies.get name = some policy ∧ policy.aggregateGroup = some group := by
  simp only [Policies.members,List.mem_map,List.mem_filter,beq_iff_eq]
  constructor
  · rintro ⟨⟨_,policy⟩,⟨member,grouped⟩,rfl⟩
    exact ⟨policy,member_get member,grouped⟩
  · rintro ⟨policy,found,grouped⟩
    exact ⟨(name,policy),⟨get_member found,grouped⟩,rfl⟩

theorem members_nodup (policies : Policies) (group : String) : (policies.members group).Nodup :=
  policies.distinct.sublist (List.filter_sublist.map _)

theorem aggregateLimits_kept (built : aggregateLimits limits policies = .ok final) (known : limits group = some limit) :
    final group = some limit := by
  induction policies generalizing limits with
  | nil =>
    cases built
    exact known
  | cons policy rest ih =>
    unfold aggregateLimits at built
    split at built
    · rename_i named limited _ _
      split at built
      · rename_i fresh
        apply ih built
        have other : group ≠ named := by
          intro same
          rw [same,fresh] at known
          cases known
        rw [Function.update_of_ne other]
        exact known
      · split at built
        · cases built
        · exact ih built known
    · exact ih built known

-- Each policy of a group carries the group's one limit.
theorem aggregateLimits_agree (built : aggregateLimits limits policies = .ok final) (member : policy ∈ policies)
    (grouped : policy.aggregateGroup = some group) (limited : policy.maxAggregateBytes = some limit) :
    final group = some limit := by
  induction policies generalizing limits with
  | nil => cases member
  | cons first rest ih =>
    unfold aggregateLimits at built
    cases List.mem_cons.mp member with
    | inl here =>
      subst here
      simp only [grouped,limited] at built
      split at built
      · apply aggregateLimits_kept built
        rw [Function.update_self]
      · rename_i existing known
        split at built
        · cases built
        · rename_i equal
          apply aggregateLimits_kept built
          rw [known,not_not.mp equal]
    | inr later =>
      split at built
      · split at built
        · exact ih built later
        · split at built
          · cases built
          · exact ih built later
      · exact ih built later

end Policies

section Budget

-- `_ExtraReadBudget`: both dictionaries are read with a default of zero.
structure Budget where
  policies : Policies
  sizes : String → Nat
  totals : String → Int

def Budget.new (policies : Policies) : Budget := ⟨policies,fun _ => 0,fun _ => 0⟩

def Budget.record (budget : Budget) (name : String) (current : Nat) : Budget :=
  {budget with sizes := Function.update budget.sizes name current}

def Budget.recordTotal (budget : Budget) (group : String) (total : Int) : Budget :=
  {budget with totals := Function.update budget.totals group total}

-- The read of a member of `group`, whose limit is `aggregateLimit`.
def Budget.readGrouped (budget : Budget) (name : String) (target : Target) (policy : ExtraReadPolicy) (group : String)
    (aggregateLimit : Int) : Except Fault (Option Bytes) × Budget :=
  let previous := budget.sizes name
  let retainedWithoutCurrent := budget.totals group - previous
  let maxBytes := min policy.maxBytes (aggregateLimit - retainedWithoutCurrent)
  if maxBytes < 0 then (.error .unsafePath,budget) else
  match target.readOptionalNonblocking (some maxBytes) with
  | .error fault => (.error fault,budget)
  | .ok content =>
    let current := sizeOf content
    let nextTotal := budget.totals group - previous + current
    if aggregateLimit < nextTotal then (.error .unsafePath,budget) else
    (.ok content,(budget.recordTotal group nextTotal).record name current)

def Budget.readAlone (budget : Budget) (name : String) (target : Target) (policy : ExtraReadPolicy) :
    Except Fault (Option Bytes) × Budget :=
  match target.readOptionalNonblocking (some policy.maxBytes) with
  | .error fault => (.error fault,budget)
  | .ok content => (.ok content,budget.record name (sizeOf content))

def Budget.readOptional (budget : Budget) (name : String) (target : Target) : Except Fault (Option Bytes) × Budget :=
  match budget.policies.get name with
  | none => (target.readOptional,budget)
  | some policy =>
    match policy.aggregateGroup with
    | none => budget.readAlone name target policy
    | some group =>
      match policy.maxAggregateBytes with
      | none => (.error .invalidPolicy,budget)
      | some aggregateLimit => budget.readGrouped name target policy group aggregateLimit

-- Everything one read can do.
inductive Reads (budget : Budget) (name : String) : Except Fault (Option Bytes) → Budget → Prop where
  | failed : Reads budget name (.error fault) budget
  | unbounded (free : budget.policies.get name = none) : Reads budget name (.ok content) budget
  | alone (found : budget.policies.get name = some policy) (ungrouped : policy.aggregateGroup = none)
      (bounded : (sizeOf content : Int) ≤ policy.maxBytes) : Reads budget name (.ok content) (budget.record name (sizeOf content))
  | grouped (found : budget.policies.get name = some policy) (member : policy.aggregateGroup = some group)
      (limited : policy.maxAggregateBytes = some limit) (bounded : (sizeOf content : Int) ≤ policy.maxBytes)
      (fits : budget.totals group - budget.sizes name + sizeOf content ≤ limit) :
      Reads budget name (.ok content)
        ((budget.recordTotal group (budget.totals group - budget.sizes name + sizeOf content)).record name (sizeOf content))

theorem policy_nonnegative (policy : ExtraReadPolicy) : 0 ≤ policy.maxBytes := by
  have checked := policy.checked
  simp only [PolicyFields.valid,Bool.and_eq_true,decide_eq_true_eq] at checked
  exact checked.1.1.1.1

theorem readAlone_reads (found : budget.policies.get name = some policy) (ungrouped : policy.aggregateGroup = none) :
    Reads budget name (budget.readAlone name target policy).1 (budget.readAlone name target policy).2 := by
  unfold Budget.readAlone
  split
  · exact .failed
  · rename_i content done
    exact .alone found ungrouped (readOptionalNonblocking_bound (policy_nonnegative policy) done)

theorem readGrouped_reads (found : budget.policies.get name = some policy) (member : policy.aggregateGroup = some group)
    (limited : policy.maxAggregateBytes = some limit) :
    Reads budget name (budget.readGrouped name target policy group limit).1 (budget.readGrouped name target policy group limit).2 := by
  unfold Budget.readGrouped
  dsimp only
  split
  · exact .failed
  · rename_i room
    split
    · exact .failed
    · rename_i content done
      have bounded := readOptionalNonblocking_bound (not_lt.mp room) done
      split
      · exact .failed
      · rename_i fits
        exact .grouped found member limited (bounded.trans (min_le_left _ _)) (not_lt.mp fits)

theorem readOptional_reads (budget : Budget) (name : String) (target : Target) :
    Reads budget name (budget.readOptional name target).1 (budget.readOptional name target).2 := by
  unfold Budget.readOptional
  split
  · rename_i free
    cases target.readOptional with
    | error fault => exact .failed
    | ok content => exact .unbounded free
  · rename_i policy found
    split
    · rename_i ungrouped
      exact readAlone_reads found ungrouped
    · rename_i group member
      split
      · exact .failed
      · rename_i limit limited
        exact readGrouped_reads found member limited

theorem reads_policies (step : Reads before name outcome after) : after.policies = before.policies := by
  cases step <;> rfl

theorem failed_unchanged (step : Reads before name (.error fault) after) : after = before := by
  cases step
  rfl

theorem accepted_bounded (step : Reads before name (.ok content) after) (found : before.policies.get name = some policy) :
    (sizeOf content : Int) ≤ policy.maxBytes := by
  cases step with
  | unbounded free =>
    rw [free] at found
    cases found
  | alone known _ bounded =>
    cases known.symm.trans found
    exact bounded
  | grouped known _ _ bounded _ =>
    cases known.symm.trans found
    exact bounded

-- The size recorded under a bounded name is the one just read.
theorem accepted_recorded (step : Reads before name (.ok content) after) (found : before.policies.get name = some policy) :
    after.sizes name = sizeOf content := by
  cases step with
  | unbounded free =>
    rw [free] at found
    cases found
  | alone => exact Function.update_self ..
  | grouped => exact Function.update_self ..

theorem reads_other (step : Reads before name outcome after) (other : another ≠ name) : after.sizes another = before.sizes another := by
  cases step with
  | failed => rfl
  | unbounded => rfl
  | alone => exact Function.update_of_ne other ..
  | grouped => exact Function.update_of_ne other ..

end Budget

section Accounts

-- The members' recorded sizes.
def Budget.counted (budget : Budget) (group : String) : Int := ((budget.policies.members group).map fun name => (budget.sizes name : Int)).sum

def Budget.Balanced (budget : Budget) : Prop := ∀ group, budget.totals group = budget.counted group

def Budget.Within (budget : Budget) : Prop :=
  ∀ name policy group limit, budget.policies.get name = some policy → policy.aggregateGroup = some group →
    policy.maxAggregateBytes = some limit → budget.totals group ≤ limit

-- One limit for each group, as the coordinator requires it.
def Policies.Uniform (policies : Policies) : Prop :=
  ∃ limits : String → Option Int, ∀ name policy group limit, policies.get name = some policy → policy.aggregateGroup = some group →
    policy.maxAggregateBytes = some limit → limits group = some limit

theorem sum_update_absent {names : List String} {sizes : String → Nat} (absent : name ∉ names) :
    (names.map fun entry => (Function.update sizes name current entry : Int)).sum = (names.map fun entry => (sizes entry : Int)).sum := by
  congr 1
  apply List.map_congr_left
  intro entry member
  have other : entry ≠ name := fun same => absent (same ▸ member)
  rw [Function.update_of_ne other]

theorem sum_update_member {names : List String} {sizes : String → Nat} (distinct : names.Nodup) (member : name ∈ names) :
    (names.map fun entry => (Function.update sizes name current entry : Int)).sum
      = (names.map fun entry => (sizes entry : Int)).sum - sizes name + current := by
  induction names with
  | nil => cases member
  | cons first rest ih =>
    obtain ⟨fresh,others⟩ := List.nodup_cons.mp distinct
    simp only [List.map_cons,List.sum_cons]
    by_cases here : first = name
    · subst here
      rw [sum_update_absent fresh,Function.update_self]
      omega
    · have later : name ∈ rest := by
        cases List.mem_cons.mp member with
        | inl same => exact absurd same.symm here
        | inr later => exact later
      rw [ih others later,Function.update_of_ne here]
      omega

theorem recorded_balanced {before : Budget} (balanced : before.Balanced) (found : before.policies.get name = some policy)
    (outside : policy.aggregateGroup ≠ some group) : before.totals group = (before.record name current).counted group := by
  have absent : name ∉ before.policies.members group := by
    intro member
    obtain ⟨known,same,grouped⟩ := mem_members.mp member
    cases same.symm.trans found
    exact outside grouped
  rw [balanced group]
  exact (sum_update_absent absent).symm

theorem reads_balanced (balanced : before.Balanced) (step : Reads before name outcome after) : after.Balanced := by
  intro group
  cases step with
  | failed => exact balanced group
  | unbounded => exact balanced group
  | alone found ungrouped =>
    apply recorded_balanced balanced found
    simp [ungrouped]
  | @grouped policy own limit content found grouped limited bounded fits =>
    by_cases same : group = own
    · subst same
      have member : name ∈ before.policies.members group := mem_members.mpr ⟨policy,found,grouped⟩
      have counted : before.totals group = ((before.policies.members group).map fun entry => (before.sizes entry : Int)).sum := balanced group
      have total : (before.recordTotal group (before.totals group - before.sizes name + sizeOf content)).totals group
          = before.totals group - before.sizes name + sizeOf content := Function.update_self ..
      calc (before.recordTotal group (before.totals group - before.sizes name + sizeOf content)).totals group
          = before.totals group - before.sizes name + sizeOf content := total
        _ = ((before.policies.members group).map fun entry => (before.sizes entry : Int)).sum - before.sizes name + sizeOf content := by
            rw [counted]
        _ = ((before.policies.members group).map fun entry => (Function.update before.sizes name (sizeOf content) entry : Int)).sum :=
            (sum_update_member (members_nodup _ _) member).symm
    · have kept : (before.recordTotal own (before.totals own - before.sizes name + sizeOf content)).totals group = before.totals group :=
        Function.update_of_ne same ..
      have outside : policy.aggregateGroup ≠ some group := by
        rw [grouped]
        intro equal
        exact same (Option.some.inj equal).symm
      exact kept.trans (recorded_balanced balanced found outside)

theorem reads_within (uniform : before.policies.Uniform) (within : before.Within) (step : Reads before name outcome after) : after.Within := by
  cases step with
  | failed => exact within
  | unbounded => exact within
  | alone => exact within
  | @grouped policy own limit content found grouped limited bounded fits =>
    intro other another group aggregate known member allowed
    obtain ⟨limits,agree⟩ := uniform
    by_cases same : group = own
    · subst same
      have one := agree _ _ _ _ found grouped limited
      have two := agree _ _ _ _ known member allowed
      have equal : aggregate = limit := Option.some.inj (two.symm.trans one)
      rw [equal]
      exact (Function.update_self ..).le.trans fits
    · exact (Function.update_of_ne same ..).le.trans (within _ _ _ _ known member allowed)

end Accounts

section Runs

-- One call of `read_optional`, with what the operating system answers to it.
structure Call where
  name : String
  target : Target

structure Answer where
  name : String
  outcome : Except Fault (Option Bytes)

def Budget.run (budget : Budget) : List Call → List Answer × Budget
  | [] => ([],budget)
  | call :: calls =>
    let step := budget.readOptional call.name call.target
    let later := step.2.run calls
    (⟨call.name,step.1⟩ :: later.1,later.2)

def Answer.size (name : String) (answer : Answer) : Option Nat :=
  match answer.outcome with
  | .error _ => none
  | .ok content => if answer.name = name then some (sizeOf content) else none

-- The size of the latest accepted read under a name.
def latestSize (name : String) : List Answer → Option Nat
  | [] => none
  | answer :: answers => (latestSize name answers).or (answer.size name)

theorem run_policies (budget : Budget) (calls : List Call) : (budget.run calls).2.policies = budget.policies := by
  induction calls generalizing budget with
  | nil => rfl
  | cons call calls ih => exact (ih _).trans (reads_policies (readOptional_reads ..))

theorem run_balanced {budget : Budget} (balanced : budget.Balanced) (calls : List Call) : (budget.run calls).2.Balanced := by
  induction calls generalizing budget with
  | nil => exact balanced
  | cons call calls ih => exact ih (reads_balanced balanced (readOptional_reads ..))

theorem run_within {budget : Budget} (uniform : budget.policies.Uniform) (within : budget.Within) (calls : List Call) :
    (budget.run calls).2.Within := by
  induction calls generalizing budget with
  | nil => exact within
  | cons call calls ih =>
    have step := readOptional_reads budget call.name call.target
    apply ih
    · rw [reads_policies step]
      exact uniform
    · exact reads_within uniform within step

theorem read_latest (step : Reads before name outcome after) (found : before.policies.get sought = some policy) :
    after.sizes sought = (Answer.size sought ⟨name,outcome⟩).getD (before.sizes sought) := by
  by_cases same : name = sought
  · subst same
    cases outcome with
    | error fault =>
      rw [failed_unchanged step]
      rfl
    | ok content =>
      rw [accepted_recorded step found]
      simp [Answer.size]
  · rw [reads_other step (Ne.symm same)]
    cases outcome with
    | error fault => rfl
    | ok content => simp [Answer.size,same]

theorem run_latest {budget : Budget} (calls : List Call) (found : budget.policies.get name = some policy) :
    (budget.run calls).2.sizes name = (latestSize name (budget.run calls).1).getD (budget.sizes name) := by
  induction calls generalizing budget with
  | nil => rfl
  | cons call calls ih =>
    have step := readOptional_reads budget call.name call.target
    have kept : (budget.readOptional call.name call.target).2.policies.get name = some policy := by
      rw [reads_policies step]
      exact found
    have last := read_latest step found
    simp only [Budget.run,latestSize,ih kept,last]
    cases latestSize name ((budget.readOptional call.name call.target).2.run calls).1 with
    | none => rfl
    | some size => rfl

theorem run_bounded (budget : Budget) (calls : List Call) :
    ∀ answer ∈ (budget.run calls).1, ∀ content policy, answer.outcome = .ok content →
      budget.policies.get answer.name = some policy → (sizeOf content : Int) ≤ policy.maxBytes := by
  induction calls generalizing budget with
  | nil => simp [Budget.run]
  | cons call calls ih =>
    have step := readOptional_reads budget call.name call.target
    intro answer member content policy accepted found
    cases List.mem_cons.mp member with
    | inl here =>
      subst here
      dsimp only at accepted found
      rw [accepted] at step
      exact accepted_bounded step found
    | inr later =>
      apply ih _ answer later content policy accepted
      rw [reads_policies step]
      exact found

theorem new_balanced (policies : Policies) : (Budget.new policies).Balanced := by
  intro group
  simp [Budget.counted,Budget.new]

theorem new_within (policies : Policies) : (Budget.new policies).Within := by
  intro name policy group limit _ _ limited
  have checked := policy.checked
  simp only [PolicyFields.valid,Bool.and_eq_true,limited,Option.all_some,decide_eq_true_eq] at checked
  exact checked.2

theorem checked_uniform (checked : extraReadPolicies extras policies = .ok (admitted,limits)) :
    admitted = policies ∧ ∀ name policy group limit, policies.get name = some policy → policy.aggregateGroup = some group →
      policy.maxAggregateBytes = some limit → limits group = some limit := by
  unfold extraReadPolicies at checked
  split at checked
  · cases checked
  · cases built : aggregateLimits (fun _ => none) (policies.entries.map Prod.snd) with
    | error fault =>
      rw [built] at checked
      cases checked
    | ok final =>
      rw [built] at checked
      cases checked
      refine ⟨rfl,?_⟩
      intro name policy group limit found grouped limited
      apply aggregateLimits_agree built _ grouped limited
      exact List.mem_map_of_mem (get_member found)

-- The total of a group as its limit is met, whatever the other members' limits are.
theorem accepted_within (step : Reads before name (.ok content) after) (found : before.policies.get name = some policy)
    (grouped : policy.aggregateGroup = some group) (limited : policy.maxAggregateBytes = some limit) : after.totals group ≤ limit := by
  cases step with
  | unbounded free =>
    rw [free] at found
    cases found
  | alone known ungrouped =>
    cases known.symm.trans found
    rw [ungrouped] at grouped
    cases grouped
  | grouped known member allowed _ fits =>
    cases known.symm.trans found
    cases member.symm.trans grouped
    cases allowed.symm.trans limited
    exact (Function.update_self ..).le.trans fits

-- Every sequence of reads: the account is exact, the limits are kept, and a
-- failed read leaves no trace.
theorem reads_accounted (policies : Policies) (calls : List Call) :
    (∀ group, ((Budget.new policies).run calls).2.totals group
      = ((policies.members group).map fun name => ((latestSize name ((Budget.new policies).run calls).1).getD 0 : Int)).sum) ∧
    (∀ extras checked, extraReadPolicies extras policies = .ok checked → ∀ name policy group limit,
      policies.get name = some policy → policy.aggregateGroup = some group → policy.maxAggregateBytes = some limit →
      ((Budget.new policies).run calls).2.totals group ≤ limit) ∧
    (∀ answer ∈ ((Budget.new policies).run calls).1, ∀ content policy, answer.outcome = .ok content →
      policies.get answer.name = some policy → (sizeOf content : Int) ≤ policy.maxBytes) ∧
    (∀ name target,
      (∀ fault, (((Budget.new policies).run calls).2.readOptional name target).1 = .error fault →
        (((Budget.new policies).run calls).2.readOptional name target).2 = ((Budget.new policies).run calls).2) ∧
      (∀ content policy group limit, (((Budget.new policies).run calls).2.readOptional name target).1 = .ok content →
        policies.get name = some policy → policy.aggregateGroup = some group → policy.maxAggregateBytes = some limit →
        (((Budget.new policies).run calls).2.readOptional name target).2.totals group ≤ limit)) := by
  have kept := run_policies (Budget.new policies) calls
  refine ⟨?_,?_,run_bounded (Budget.new policies) calls,?_⟩
  · intro group
    have balanced := run_balanced (new_balanced policies) calls group
    rw [balanced,Budget.counted,kept]
    congr 1
    apply List.map_congr_left
    intro name member
    obtain ⟨policy,found,_⟩ := mem_members.mp member
    rw [run_latest calls (show (Budget.new policies).policies.get name = some policy from found)]
    rfl
  · intro extras checked admitted name policy group limit found grouped limited
    obtain ⟨_,agree⟩ := checked_uniform admitted
    apply run_within ⟨checked.2,agree⟩ (new_within policies) calls name policy group limit _ grouped limited
    rw [kept]
    exact found
  · intro name target
    have step := readOptional_reads ((Budget.new policies).run calls).2 name target
    constructor
    · intro fault refused
      rw [refused] at step
      exact failed_unchanged step
    · intro content policy group limit accepted found grouped limited
      rw [accepted] at step
      apply accepted_within step _ grouped limited
      rw [kept]
      exact found

def authority : ExtraReadPolicy where
  maxBytes := 4
  nonblockingRegular := true
  aggregateGroup := some "authority"
  maxAggregateBytes := some 6
  checked := by decide

def authorities : Policies := ⟨[("a",authority),("b",authority)],by decide⟩

def regular (content : Bytes) : Target := ⟨.regular content.length [some content],.present⟩

-- Two members, a refused read that would pass the limit, and a shorter reread.
def authorityCalls : List Call :=
  [⟨"a",regular [1,2,3,4]⟩,⟨"b",regular [5,6,7]⟩,⟨"a",regular [1]⟩,⟨"b",regular [5,6,7]⟩]

theorem reads_accounted_authorities :
    ((Budget.new authorities).run authorityCalls).2.totals "authority" = 4 ∧ (4 : Int) ≤ 6 := by
  obtain ⟨exact,limited,_⟩ := reads_accounted authorities authorityCalls
  have total : ((Budget.new authorities).run authorityCalls).2.totals "authority" = 4 := by
    rw [exact]
    decide
  refine ⟨total,total ▸ ?_⟩
  exact limited ["a","b"] (authorities,Function.update (fun _ => none) "authority" (some 6)) rfl "a" authority "authority" 6
    (by decide) rfl rfl

end Runs

end ExtraReads
