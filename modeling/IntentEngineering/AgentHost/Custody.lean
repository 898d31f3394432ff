import IntentEngineering.AgentHost.Adapter
import IntentEngineering.Workflow.AuthorizationRuns

open Authorization

namespace AgentHost

variable (env : Platform)

-- Where a call stands: each waits for the workflow port at most once.
inductive Stage where
  | idle
  | opening (request actor : String)
  | verifying (task : HostTask) (paths : List String) (capability : Token)
  | completing (task : HostTask) (submission : PostTaskSubmission env) (capability : Token)

-- A new call, or what the port answers to a waiting one. A task is none where it
-- is no `HostTask` or cannot be read.
inductive Move where
  | beforeTask (request actor : String)
  | opened (response : Response Opening)
  | beforeMutation (task : Option HostTask) (operation : String) (paths : List String) (token : Option Token)
  | verified (response : Response Verification)
  | afterTask (task : Option HostTask) (result : Adapter.PresentedResult env)
  | evaluated (response : Response (Option PostTaskResult))

-- The arguments of `authorization_verify`.
structure Question where
  token : Token
  actor : String
  repositoryId : String
  taskId : String
  graphVersion : Nat
  requestedPaths : List String

def question (task : HostTask) (paths : List String) (capability : Token) : Question :=
  ⟨capability,task.1.actor,task.1.repositoryId,task.1.id,task.1.graphVersion,paths⟩

-- What has passed between the adapter, its port and its callers.
inductive Event where
  | issued (taskId : Option String) (token : Token)
  | accepted (task : HostTask)
  | asked (question : Question)
  | decided (decision : MutationDecision)
  | submitted (submission : PostTaskSubmission env) (token : Token)
  | revoked (token : Token)
  | ended (task : HostTask) (completion : Option PostTaskResult)

structure Machine where
  adapter : Adapter
  stages : Nat → Stage env
  log : List (Event env)

variable {env}

-- The `finally` of `after_task`.
def finish (a : Adapter) (task : HostTask) (capability : Option Token) (completion : Option PostTaskResult) :
    Stage env × Adapter × List (Event env) :=
  (.idle,a.discard task.1.id,capability.toList.map .revoked ++ [.ended task completion])

def opened (a : Adapter) (request actor : String) (opening : Opening) : Stage env × Adapter × List (Event env) :=
  let issued := opening.token.toList.map (.issued (opening.envelope.map fun envelope => envelope.1.id))
  match a.register request actor opening with
  | none => (.idle,a,issued)
  | some (task,next) => (.idle,next,issued ++ [.accepted task])

def checked (a : Adapter) (task : HostTask) (operation : String) (paths : List String) (token : Option Token) :
    Stage env × Adapter × List (Event env) :=
  match a.checks env task operation paths token with
  | .refused => (.idle,a,[])
  | .decided decision => (.idle,a,[.decided decision])
  | .verify capability => (.verifying task paths capability,a,[.asked (question task paths capability)])

def completing (a : Adapter) (task : HostTask) : Adapter.PresentedResult env → Stage env × Adapter × List (Event env)
  | .foreign => (.idle,a,[.ended task none])
  | .unreadable => finish a task none none
  | .result result =>
    match a.completes env task result with
    | .submit submission capability => (.completing task submission capability,a,[.submitted submission capability])
    | _ => finish a task (a.tokens.lookup task.1.id) none

-- A move that does not fit the stage changes nothing.
def advance (a : Adapter) : Stage env → Move env → Stage env × Adapter × List (Event env)
  | .idle, .beforeTask request actor => (if Adapter.opens request actor then .opening request actor else .idle,a,[])
  | .opening request actor, .opened (.returned opening) => opened a request actor opening
  | .opening _ _, .opened .raised => (.idle,a,[])
  | .idle, .beforeMutation (some task) operation paths token => checked a task operation paths token
  | .verifying task paths _, .verified (.returned answer) => (.idle,a,[.decided (Adapter.verdict task paths answer)])
  | .verifying _ _ _, .verified .raised => (.idle,a,[])
  | .idle, .afterTask (some task) result => completing a task result
  | .completing task _ capability, .evaluated response => finish a task (some capability) (Adapter.accepts task response)
  | stage, _ => (stage,a,[])

def Machine.step (m : Machine env) (thread : Nat) (move : Move env) : Machine env :=
  let next := advance m.adapter (m.stages thread) move
  ⟨next.2.1,fun other => if other = thread then next.1 else m.stages other,m.log ++ next.2.2⟩

def Machine.events (m : Machine env) (thread : Nat) (move : Move env) : List (Event env) :=
  (advance m.adapter (m.stages thread) move).2.2

-- Every interleaving of calls and answers, each step held to a condition.
inductive Reached (meets : Machine env → Nat → Move env → Prop) : Machine env → Prop where
  | start : Reached meets ⟨.empty,fun _ => .idle,[]⟩
  | step (earlier : Reached meets m) (thread : Nat) (move : Move env) (met : meets m thread move) :
      Reached meets (m.step thread move)

-- No other token stands under the task, or it has been revoked.
def Machine.Free (m : Machine env) (taskId : String) (kept : Option Token) : Prop :=
  ∀ held, m.adapter.tokens.lookup taskId = some held → some held = kept ∨ .revoked held ∈ m.log

-- A token that comes is taken up and drops no other; a task that ends drops no
-- other token than its own; a completion is given a result record; and a task is
-- still registered when it is allowed something.
def Meets (m : Machine env) (thread : Nat) (move : Move env) : Prop :=
  match m.stages thread, move with
  | .opening request actor, .opened (.returned opening) =>
    ∀ token, opening.token = some token →
      ∃ task next, m.adapter.register request actor opening = some (task,next) ∧ m.Free task.1.id (some token)
  | .idle, .afterTask (some _) .foreign => False
  | .idle, .afterTask (some task) .unreadable => m.Free task.1.id none
  | .completing task _ capability, .evaluated _ => m.Free task.1.id (some capability)
  | .verifying task _ _, .verified (.returned (.authorized ..)) => m.adapter.registered task = true
  | _, _ => True

-- Each token the workflow has handed out is in its place or has been revoked.
def Custody (a : Adapter) (log : List (Event env)) : Prop :=
  ∀ taskId token, .issued taskId token ∈ log →
    (∃ id, taskId = some id ∧ a.tokens.lookup id = some token) ∨ .revoked token ∈ log

section Register
variable {a : Adapter}

-- What `before_task` has done when it returns.
structure Registers (a : Adapter) (opening : Opening) (task : HostTask) (next : Adapter) : Prop where
  named : ∃ envelope, opening.envelope = some envelope ∧ envelope.1.id = task.1.id
  room : task.1.id ∈ a.tasks ∨ a.tasks.keys.length < maxLiveTasks
  next : next = a.record task opening.token

theorem register_spec (registered : a.register request actor opening = some (task,next)) : Registers a opening task next := by
  unfold Adapter.register at registered
  split at registered
  · rename_i envelope preflight named _
    split at registered
    · cases registered
    · split at registered
      · cases registered
      · rename_i built made
        split at registered
        · cases registered
        · split at registered
          · cases registered
          · rename_i room
            cases registered
            have shape : task.1 = Adapter.taskOf request envelope preflight := by
              unfold HostTask.build at made
              split at made
              · cases made
                rfl
              · cases made
            refine ⟨⟨envelope,named,by rw [shape]; rfl⟩,?_,rfl⟩
            by_cases held : task.1.id ∈ a.tasks
            · exact .inl held
            · exact .inr (Nat.lt_of_not_le fun full => room ⟨full,held⟩)
  · cases registered

theorem registered_spec (found : a.registered task = true) :
    ∃ issued, a.tasks.lookup task.1.id = some issued ∧ issued.1.actor = task.1.actor ∧
      issued.1.repositoryId = task.1.repositoryId ∧ issued.1.graphVersion = task.1.graphVersion := by
  unfold Adapter.registered at found
  split at found
  · rename_i issued there
    simp only [HostTaskDraft.equal,Bool.and_eq_true,beq_iff_eq] at found
    exact ⟨issued,there,found.1.1.1.1.1.1.2,found.1.1.1.1.1.2,found.1.1.2⟩
  · cases found

end Register

-- The steps that do something, and any other.
inductive Advanced (a : Adapter) : Stage env → Move env → Stage env × Adapter × List (Event env) → Prop where
  | unmoved (stage stage' move) (waits : stage' = stage ∨ ∀ task paths capability, stage' ≠ .verifying task paths capability) :
      Advanced a stage move (stage',a,[])
  | opened (request actor opening) :
      Advanced a (.opening request actor) (.opened (.returned opening)) (opened a request actor opening)
  | checked (task operation paths token) :
      Advanced a .idle (.beforeMutation (some task) operation paths token) (checked a task operation paths token)
  | verified (task paths capability answer) :
      Advanced a (.verifying task paths capability) (.verified (.returned answer)) (.idle,a,[.decided (Adapter.verdict task paths answer)])
  | completing (task result) : Advanced a .idle (.afterTask (some task) result) (completing a task result)
  | evaluated (task submission capability response) : Advanced a (.completing task submission capability) (.evaluated response)
      (finish a task (some capability) (Adapter.accepts task response))

theorem advance_advanced (a : Adapter) (stage : Stage env) (move : Move env) : Advanced a stage move (advance a stage move) := by
  have idle : (Stage.idle : Stage env) = stage ∨ ∀ task paths capability, (Stage.idle : Stage env) ≠ .verifying task paths capability :=
    .inr fun _ _ _ impossible => by cases impossible
  cases stage with
  | idle =>
    cases move with
    | beforeTask request actor =>
      refine .unmoved _ _ _ (.inr fun _ _ _ impossible => ?_)
      split at impossible <;> cases impossible
    | beforeMutation task operation paths token =>
      cases task with
      | none => exact .unmoved _ _ _ (.inl rfl)
      | some task => exact .checked task operation paths token
    | afterTask task result =>
      cases task with
      | none => exact .unmoved _ _ _ (.inl rfl)
      | some task => exact .completing task result
    | _ => exact .unmoved _ _ _ (.inl rfl)
  | opening request actor =>
    cases move with
    | opened response =>
      cases response with
      | returned opening => exact .opened request actor opening
      | raised => exact .unmoved _ _ _ idle
    | _ => exact .unmoved _ _ _ (.inl rfl)
  | verifying task paths capability =>
    cases move with
    | verified response =>
      cases response with
      | returned answer => exact .verified task paths capability answer
      | raised => exact .unmoved _ _ _ idle
    | _ => exact .unmoved _ _ _ (.inl rfl)
  | completing task submission capability =>
    cases move with
    | evaluated response => exact .evaluated task submission capability response
    | _ => exact .unmoved _ _ _ (.inl rfl)

section Tokens
variable {a : Adapter} {log events : List (Event env)}

theorem custody_grows (held : Custody a log)
    (fresh : ∀ taskId token, .issued taskId token ∈ events →
      (∃ id, taskId = some id ∧ a'.tokens.lookup id = some token) ∨ .revoked token ∈ log ++ events)
    (kept : ∀ id token, a.tokens.lookup id = some token → a'.tokens.lookup id = some token ∨ .revoked token ∈ log ++ events) :
    Custody a' (log ++ events) := by
  intro taskId token member
  rcases List.mem_append.mp member with old | new
  · rcases held taskId token old with ⟨id,named,there⟩ | revoked
    · rcases kept id token there with still | revoked
      · exact .inl ⟨id,named,still⟩
      · exact .inr revoked
    · exact .inr (List.mem_append_left _ revoked)
  · exact fresh taskId token new

theorem custody_same (held : Custody a log) (fresh : ∀ taskId token, .issued taskId token ∉ events) : Custody a (log ++ events) :=
  custody_grows held (fun taskId token member => absurd member (fresh taskId token)) (fun _ _ there => .inl there)

theorem custody_finish {task : HostTask} {capability : Option Token} {completion : Option PostTaskResult} (held : Custody a log)
    (free : ∀ token, a.tokens.lookup task.1.id = some token → some token = capability ∨ .revoked token ∈ log) :
    Custody (finish a task capability completion : Stage env × Adapter × List (Event env)).2.1 (log ++ (finish a task capability completion).2.2) := by
  apply custody_grows held
  · intro taskId token member
    simp [finish] at member
  · intro id token there
    by_cases same : id = task.1.id
    · subst same
      rcases free token there with mine | revoked
      · exact .inr (by simp [finish,←mine])
      · exact .inr (List.mem_append_left _ revoked)
    · refine .inl ?_
      rw [finish,Adapter.discard,AList.lookup_erase_ne same]
      exact there

end Tokens

section Steps
variable {m : Machine env} {thread : Nat} {move : Move env}

theorem custody_step (held : Custody m.adapter m.log) (met : Meets m thread move) :
    Custody (m.step thread move).adapter (m.step thread move).log := by
  have advanced := advance_advanced m.adapter (m.stages thread) move
  unfold Meets at met
  change Custody (advance m.adapter (m.stages thread) move).2.1 (m.log ++ (advance m.adapter (m.stages thread) move).2.2)
  generalize advance m.adapter (m.stages thread) move = next at advanced ⊢
  generalize m.stages thread = stage at advanced met
  cases advanced with
  | unmoved => exact custody_same held fun _ _ member => absurd member List.not_mem_nil
  | opened request actor opening =>
    unfold opened
    cases registered : m.adapter.register request actor opening with
    | none =>
      cases offered : opening.token with
      | none => exact custody_same held fun _ _ member => by simp at member
      | some token =>
        obtain ⟨task,next,impossible,_⟩ := met token offered
        rw [registered] at impossible
        cases impossible
    | some found =>
      obtain ⟨task,next⟩ := found
      obtain ⟨⟨envelope,named,id⟩,_,rfl⟩ := register_spec registered
      cases offered : opening.token with
      | none =>
        apply custody_grows held
        · intro taskId token member
          simp at member
        · intro id token there
          exact .inl there
      | some token =>
        obtain ⟨_,_,same,free⟩ := met token offered
        rw [registered] at same
        cases same
        have stored : (m.adapter.record task (some token)).tokens.lookup task.1.id = some token := AList.lookup_insert _
        apply custody_grows held
        · intro taskId other member
          simp only [named,Option.map_some,Option.toList_some,List.map_cons,List.map_nil,List.singleton_append,List.mem_cons,
            Event.issued.injEq,reduceCtorEq,List.not_mem_nil,or_self,or_false] at member
          obtain ⟨rfl,rfl⟩ := member
          exact .inl ⟨task.1.id,by rw [id],stored⟩
        · intro other held there
          by_cases same : other = task.1.id
          · subst same
            rcases free held there with mine | revoked
            · cases mine
              exact .inl stored
            · exact .inr (List.mem_append_left _ revoked)
          · refine .inl ?_
            rw [Adapter.record,AList.lookup_insert_ne same]
            exact there
  | checked task operation paths token =>
    unfold checked
    split
    · exact custody_same held fun _ _ member => absurd member List.not_mem_nil
    · exact custody_same held fun _ _ member => by simp at member
    · exact custody_same held fun _ _ member => by simp at member
  | verified => exact custody_same held fun _ _ member => by simp at member
  | completing task result =>
    cases result with
    | foreign => exact met.elim
    | unreadable => exact custody_finish held met
    | result result =>
      unfold completing
      dsimp only
      split
      · exact custody_same held fun _ _ member => by simp at member
      · exact custody_finish held fun token there => .inl there.symm
  | evaluated => exact custody_finish held met

-- A task that has ended is gone, and its token with it.
theorem ended_step (met : Meets m thread move) (ended : .ended task completion ∈ m.events thread move) :
    (m.step thread move).adapter.tasks.lookup task.1.id = none ∧ (m.step thread move).adapter.tokens.lookup task.1.id = none := by
  have advanced := advance_advanced m.adapter (m.stages thread) move
  unfold Meets at met
  unfold Machine.events at ended
  change (advance m.adapter (m.stages thread) move).2.1.tasks.lookup task.1.id = none ∧
    (advance m.adapter (m.stages thread) move).2.1.tokens.lookup task.1.id = none
  generalize advance m.adapter (m.stages thread) move = next at advanced ended ⊢
  generalize m.stages thread = stage at advanced met
  have gone (closing : HostTask) (capability : Option Token) (outcome : Option PostTaskResult)
      (ended : .ended task completion ∈ (finish m.adapter closing capability outcome : Stage env × Adapter × List (Event env)).2.2) :
      (finish m.adapter closing capability outcome : Stage env × Adapter × List (Event env)).2.1.tasks.lookup task.1.id = none ∧
        (finish m.adapter closing capability outcome : Stage env × Adapter × List (Event env)).2.1.tokens.lookup task.1.id = none := by
    simp only [finish,List.mem_append,List.mem_map,reduceCtorEq,and_false,exists_false,List.mem_singleton,Event.ended.injEq,
      false_or] at ended
    obtain ⟨rfl,_⟩ := ended
    exact ⟨AList.lookup_erase _ _,AList.lookup_erase _ _⟩
  cases advanced with
  | unmoved => cases ended
  | opened request actor opening =>
    unfold opened at ended
    split at ended <;> simp at ended
  | checked task operation paths token =>
    unfold checked at ended
    split at ended <;> simp at ended
  | verified => simp at ended
  | completing closing result =>
    cases result with
    | foreign => exact met.elim
    | unreadable => exact gone closing none none ended
    | result result =>
      unfold completing at ended ⊢
      dsimp only at ended ⊢
      split at ended
      · simp at ended
      · exact gone closing _ none ended
  | evaluated closing submission capability response => exact gone closing _ _ ended

-- The question is about a task that is registered as it is asked about.
def Registered (a : Adapter) (q : Question) : Prop :=
  ∃ issued, a.tasks.lookup q.taskId = some issued ∧ q.actor = issued.1.actor ∧ q.repositoryId = issued.1.repositoryId ∧
    q.graphVersion = issued.1.graphVersion

theorem registered_question {a : Adapter} {task : HostTask} (paths : List String) (capability : Token)
    (found : a.registered task = true) : Registered a (question task paths capability) := by
  obtain ⟨issued,there,actor,repository,version⟩ := registered_spec found
  exact ⟨issued,there,actor.symm,repository.symm,version.symm⟩

theorem asked_step (asked : .asked q ∈ m.events thread move) :
    Registered m.adapter q ∧ ∃ task operation token, move = .beforeMutation (some task) operation q.requestedPaths token := by
  have advanced := advance_advanced m.adapter (m.stages thread) move
  unfold Machine.events at asked
  generalize advance m.adapter (m.stages thread) move = next at advanced asked
  generalize m.stages thread = stage at advanced
  cases advanced with
  | unmoved => cases asked
  | opened request actor opening =>
    unfold opened at asked
    split at asked <;> simp at asked
  | checked task operation paths token =>
    unfold checked at asked
    split at asked
    · cases asked
    · simp at asked
    · rename_i capability verifies
      simp only [List.mem_singleton,Event.asked.injEq] at asked
      subst asked
      refine ⟨?_,task,operation,token,rfl⟩
      apply registered_question
      unfold Adapter.checks at verifies
      split at verifies
      · cases verifies
      · split at verifies
        · cases verifies
        · rename_i present
          simpa using present
  | verified => simp at asked
  | completing task result =>
    cases result with
    | foreign => simp [completing] at asked
    | unreadable => simp [completing,finish] at asked
    | result result =>
      unfold completing at asked
      dsimp only at asked
      split at asked <;> simp [finish] at asked
  | evaluated => simp [finish] at asked

-- An allowance is the answer to a question that waits for it.
theorem allowed_step (decided : .decided decision ∈ m.events thread move) (allowed : decision.allowed = true) :
    ∃ task capability classification nodes expiry, m.stages thread = .verifying task decision.paths capability ∧
      move = .verified (.returned (.authorized classification nodes expiry)) ∧
      decision = Adapter.decision task decision.paths .authorized := by
  have advanced := advance_advanced m.adapter (m.stages thread) move
  unfold Machine.events at decided
  generalize advance m.adapter (m.stages thread) move = next at advanced decided
  generalize m.stages thread = stage at advanced ⊢
  cases advanced with
  | unmoved => cases decided
  | opened request actor opening =>
    unfold opened at decided
    split at decided <;> simp at decided
  | checked task operation paths token =>
    unfold checked at decided
    split at decided
    · cases decided
    · rename_i denial denied
      simp only [List.mem_singleton,Event.decided.injEq] at decided
      subst decided
      unfold Adapter.checks at denied
      split at denied
      · cases denied
      · split at denied
        · cases denied
          cases allowed
        · split at denied
          · cases denied
            cases allowed
          · split at denied
            · cases denied
            · cases denied
              cases allowed
    · simp at decided
  | verified task paths capability answer =>
    simp only [List.mem_singleton,Event.decided.injEq] at decided
    subst decided
    cases answer with
    | authorized classification nodes expiry => exact ⟨task,capability,classification,nodes,expiry,rfl,rfl,rfl⟩
    | denied reason => cases reason <;> cases allowed
  | completing task result =>
    cases result with
    | foreign => simp [completing] at decided
    | unreadable => simp [completing,finish] at decided
    | result result =>
      unfold completing at decided
      dsimp only at decided
      split at decided <;> simp [finish] at decided
  | evaluated => simp [finish] at decided

-- A call that waits for an answer has asked.
def Fits (m : Machine env) : Prop :=
  ∀ thread task paths capability, m.stages thread = .verifying task paths capability → .asked (question task paths capability) ∈ m.log

theorem fits_step (fits : Fits m) : Fits (m.step thread move) := by
  intro other task paths capability waits
  change (if other = thread then (advance m.adapter (m.stages thread) move).1 else m.stages other) = _ at waits
  change _ ∈ m.log ++ (advance m.adapter (m.stages thread) move).2.2
  split at waits
  · have advanced := advance_advanced m.adapter (m.stages thread) move
    have before := fits thread task paths capability
    generalize advance m.adapter (m.stages thread) move = next at advanced waits ⊢
    generalize m.stages thread = stage at advanced before
    cases advanced with
    | unmoved stage stage' move keeps =>
      rcases keeps with rfl | never
      · exact List.mem_append_left _ (before waits)
      · exact absurd waits (never task paths capability)
    | opened request actor opening =>
      unfold opened at waits
      split at waits <;> cases waits
    | checked task operation paths token =>
      unfold checked at waits ⊢
      split at waits
      · cases waits
      · cases waits
      · rename_i verifies
        cases waits
        exact List.mem_append_right _ (by simp)
    | verified => cases waits
    | completing task result =>
      cases result with
      | foreign => cases waits
      | unreadable => cases waits
      | result result =>
        unfold completing at waits
        dsimp only at waits
        split at waits <;> cases waits
    | evaluated => cases waits
  · exact List.mem_append_left _ (fits other task paths capability waits)

theorem record_room {a : Adapter} (room : task.1.id ∈ a.tasks ∨ a.tasks.keys.length < maxLiveTasks)
    (bounded : a.tasks.keys.length ≤ maxLiveTasks) (token : Option Token) : (a.record task token).tasks.keys.length ≤ maxLiveTasks := by
  have listed : (a.record task token).tasks.keys = task.1.id :: a.tasks.keys.erase task.1.id := AList.keys_insert _
  rw [listed,List.length_cons]
  by_cases held : task.1.id ∈ a.tasks.keys
  · have shorter := List.length_erase_of_mem held
    have some : 0 < a.tasks.keys.length := List.length_pos_of_mem held
    omega
  · have space : a.tasks.keys.length < maxLiveTasks := by
      rcases room with there | space
      · exact absurd (AList.mem_keys.mp there) held
      · exact space
    rw [List.erase_of_not_mem held]
    omega

theorem discard_room {a : Adapter} (bounded : a.tasks.keys.length ≤ maxLiveTasks) (taskId : String) :
    (a.discard taskId).tasks.keys.length ≤ maxLiveTasks := by
  have shorter : (a.tasks.keys.erase taskId).length ≤ a.tasks.keys.length := List.length_erase_le
  rw [Adapter.discard,AList.keys_erase]
  omega

theorem room_step (bounded : m.adapter.tasks.keys.length ≤ maxLiveTasks) :
    (m.step thread move).adapter.tasks.keys.length ≤ maxLiveTasks := by
  have advanced := advance_advanced m.adapter (m.stages thread) move
  change (advance m.adapter (m.stages thread) move).2.1.tasks.keys.length ≤ maxLiveTasks
  generalize advance m.adapter (m.stages thread) move = next at advanced ⊢
  generalize m.stages thread = stage at advanced
  cases advanced with
  | unmoved => exact bounded
  | opened request actor opening =>
    unfold opened
    split
    · exact bounded
    · rename_i registered
      obtain ⟨_,room,rfl⟩ := register_spec registered
      exact record_room room bounded _
  | checked task operation paths token =>
    unfold checked
    split <;> exact bounded
  | verified => exact bounded
  | completing task result =>
    cases result with
    | foreign => exact bounded
    | unreadable => exact discard_room bounded _
    | result result =>
      unfold completing
      dsimp only
      split
      · exact bounded
      · exact discard_room bounded _
  | evaluated => exact discard_room bounded _

end Steps

section Runs
variable {meets : Machine env → Nat → Move env → Prop}

theorem reached_fits (reached : Reached meets m) : Fits m ∧ m.adapter.tasks.keys.length ≤ maxLiveTasks := by
  induction reached with
  | start =>
    refine ⟨?_,Nat.zero_le _⟩
    intro _ _ _ _ impossible
    cases impossible
  | step _ thread move _ ih => exact ⟨fits_step ih.1,room_step ih.2⟩

theorem reached_custody (reached : Reached (Meets : Machine env → Nat → Move env → Prop) m) : Custody m.adapter m.log := by
  induction reached with
  | start => exact fun _ _ member => absurd member List.not_mem_nil
  | step _ thread move met ih => exact custody_step ih met

end Runs

section Main
variable (env : Platform)

end Main

section Tidy

theorem context_formed : (Json.obj []).WellFormed := by decide

def tidyPreflight : HostPreflight := ⟨tidyResult,"",[],⟨[],context_formed⟩⟩

def tidyCapability : Token := ⟨"capability",true⟩

def tidyOpening : Opening := ⟨some tidyEnvelope,some tidyPreflight,some tidyCapability⟩

theorem tidy_task_valid : (Adapter.taskOf "tidy the imports" tidyEnvelope tidyPreflight).valid = true := by
  have task : taskIdentity tidyEnvelope.1.id = true := taskIdentity_digest _
  have names : identity "alice" = true ∧ identity "repo" = true ∧ identity "thread" = true := by decide
  have digest : isHash (requestDigest "tidy the imports") = true := isPrefixedHash_hexdigest _ _
  have actor : tidyEnvelope.1.actor = "alice" := rfl
  have repository : tidyEnvelope.1.repositoryId = "repo" := rfl
  have conversation : tidyEnvelope.1.conversationRef = "thread" := rfl
  have created : tidyEnvelope.1.createdAt.offset = some 0 := rfl
  have version : tidyEnvelope.1.graphVersion = 0 := rfl
  simp only [taskIdentity,Bool.and_eq_true] at task
  simp [HostTaskDraft.valid,Adapter.taskOf,tidyPreflight,tidyResult,task.2,names,digest,actor,repository,conversation,created,version]

def tidyTask : HostTask := ⟨_,tidy_task_valid⟩

theorem tidy_registered : Adapter.empty.register "tidy the imports" "alice" tidyOpening =
    some (tidyTask,Adapter.empty.record tidyTask (some tidyCapability)) := by
  have bound : ¬ (tidyEnvelope.1.request ≠ "tidy the imports" ∨ tidyEnvelope.1.actor ≠ "alice") := by
    rintro (request | actor)
    · exact request rfl
    · exact actor rfl
  have built : HostTask.build (Adapter.taskOf "tidy the imports" tidyEnvelope tidyPreflight) = some tidyTask := dif_pos tidy_task_valid
  have taken : ¬ (some tidyCapability).all Token.acceptable = false := by decide
  have room : ¬ (maxLiveTasks ≤ Adapter.empty.tasks.keys.length ∧ tidyTask.1.id ∉ Adapter.empty.tasks) := by
    rintro ⟨full,_⟩
    exact absurd full (by decide)
  simp only [Adapter.register,tidyOpening,if_neg bound,built,if_neg taken,if_neg room]

-- The two answers to one opening: to the actor it names, and to another.
def tidyMachine (actor : String) : Machine flowPlatform :=
  (Machine.step ⟨.empty,fun _ => .idle,[]⟩ 0 (.beforeTask "tidy the imports" actor)).step 0 (.opened (.returned tidyOpening))

theorem tidy_meets : Reached Meets (tidyMachine "alice") := by
  have opens : Adapter.opens "tidy the imports" "alice" = true := by decide
  refine .step (.step .start 0 _ trivial) 0 _ ?_
  simp only [Meets,Machine.step,advance,opens,if_true]
  intro token given
  refine ⟨_,_,tidy_registered,?_⟩
  intro held there
  cases there

end Tidy

end AgentHost
