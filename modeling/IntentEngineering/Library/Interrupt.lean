namespace Interrupt

-- How control leaves a step that did not finish. `died` is the end of the
-- process: no handler of the interrupted program runs after it.
inductive Halt where
  | exception
  | baseException
  | died
deriving DecidableEq

-- One scheduled interruption. `reached` says how much of the step had taken
-- effect by then: nothing at zero, and as the step itself defines above it.
structure Fault where
  halt : Halt
  reached : Nat
deriving DecidableEq

-- The environment's choices are data: one entry for each durable step or
-- interruption point still to come. Past the end every step completes.
structure World (σ : Type) where
  state : σ
  schedule : List (Option Fault)

abbrev Act (σ α : Type) := ExceptT Halt (StateM (World σ)) α

variable {σ α β : Type}

def durable (complete : σ → σ) (torn : Nat → σ → σ) : Act σ Unit := fun world =>
  match world.schedule with
  | [] => (.ok (),⟨complete world.state,[]⟩)
  | none :: rest => (.ok (),⟨complete world.state,rest⟩)
  | some fault :: rest => (.error fault.halt,⟨torn fault.reached world.state,rest⟩)

-- A step that replaces its whole effect or none of it.
def atomically (complete : σ → σ) : Act σ Unit :=
  durable complete (fun reached state => if reached = 0 then state else complete state)

-- A point that may halt and changes nothing.
def interruptible : Act σ Unit := durable id (fun _ => id)

-- What the program knows about its own state without a step that could halt.
def current : Act σ σ := do
  return (← get).state

def observe (view : σ → β) : Act σ β := do
  interruptible
  return view (← current)

def update (change : σ → σ) : Act σ Unit :=
  modify fun world => {world with state := change world.state}

-- `except Exception`: the other two ways of leaving pass through.
def handleException (act : Act σ α) (handler : Act σ α) : Act σ α :=
  tryCatch act fun halt => match halt with
    | .exception => handler
    | .baseException => throw .baseException
    | .died => throw .died

-- What the three ways of composing steps do to one world.
theorem run_bind (act : Act σ α) (next : α → Act σ β) (world : World σ) :
    (act >>= next) world = match act world with
      | (.ok value,after) => next value after
      | (.error halt,after) => (.error halt,after) := by
  simp only [bind,ExceptT.bind,ExceptT.mk,StateT.bind]
  cases act world with
  | mk outcome after => cases outcome <;> rfl

theorem run_catch (act : Act σ α) (handler : Halt → Act σ α) (world : World σ) :
    (tryCatch act handler : Act σ α) world = match act world with
      | (.ok value,after) => (.ok value,after)
      | (.error halt,after) => handler halt after := by
  simp only [tryCatch,tryCatchThe,MonadExceptOf.tryCatch,ExceptT.tryCatch,ExceptT.mk,bind,StateT.bind]
  cases act world with
  | mk outcome after => cases outcome <;> rfl

theorem run_handleException (act handler : Act σ α) (world : World σ) :
    handleException act handler world = match act world with
      | (.error .exception,after) => handler after
      | result => result := by
  unfold handleException
  rw [run_catch]
  cases act world with
  | mk outcome after =>
    cases outcome with
    | ok value => rfl
    | error halt => cases halt <;> rfl

-- Every run from a state in `pre`, under every schedule, ends in `post` when it
-- returns and in `halted` when it does not.
def Ensures (pre : σ → Prop) (act : Act σ α) (post : α → σ → Prop) (halted : Halt → σ → Prop) : Prop :=
  ∀ world, pre world.state → match act world with
    | (.ok value,after) => post value after.state
    | (.error halt,after) => halted halt after.state

-- None of the next `count` steps is interrupted.
def Undisturbed (count : Nat) (world : World σ) : Prop := ∀ entry ∈ world.schedule.take count, entry = none

theorem durable_undisturbed (calm : Undisturbed (count + 1) world) (complete : σ → σ) (torn : Nat → σ → σ) :
    durable complete torn world = (.ok (),⟨complete world.state,world.schedule.tail⟩) ∧
      Undisturbed count ⟨complete world.state,world.schedule.tail⟩ := by
  rcases world with ⟨state,_ | ⟨_ | fault,rest⟩⟩
  · exact ⟨rfl,by simp [Undisturbed]⟩
  · exact ⟨rfl,fun entry member => calm entry (by simp only [List.take_succ_cons]; exact .tail _ member)⟩
  · cases calm (some fault) (by simp)

theorem forM_undisturbed {turn : β → Act σ Unit} {items : List β} (calm : Undisturbed items.length world)
    (each : ∀ item, ∃ complete torn, turn item = durable complete torn) :
    ∃ after, items.forM turn world = (.ok (),after) := by
  induction items generalizing world with
  | nil => exact ⟨world,rfl⟩
  | cons item rest ih =>
    obtain ⟨complete,torn,same⟩ := each item
    obtain ⟨ran,later⟩ := durable_undisturbed calm complete torn
    have unfolded : (item :: rest).forM turn = turn item >>= fun _ => rest.forM turn := rfl
    rw [unfolded,same,run_bind,ran]
    exact ih later

section Rules
variable {pre pre' : σ → Prop} {act : Act σ α} {post post' : α → σ → Prop} {halted halted' : Halt → σ → Prop}

theorem Ensures.ok (triple : Ensures pre act post halted) (start : pre world.state)
    (ran : act world = (.ok value,after)) : post value after.state := by
  have result := triple world start
  rwa [ran] at result

theorem Ensures.error (triple : Ensures pre act post halted) (start : pre world.state)
    (ran : act world = (.error halt,after)) : halted halt after.state := by
  have result := triple world start
  rwa [ran] at result

theorem Ensures.ends {kept : σ → Prop} (triple : Ensures pre act (fun _ => kept) (fun _ => kept)) (start : pre world.state) :
    kept (act world).2.state := by
  have result := triple world start
  cases ran : act world with
  | mk outcome after =>
    rw [ran] at result
    cases outcome <;> exact result

theorem ensures_weaken (triple : Ensures pre act post halted) (enter : ∀ s, pre' s → pre s)
    (leave : ∀ a s, post a s → post' a s) (stop : ∀ h s, halted h s → halted' h s) :
    Ensures pre' act post' halted' := by
  intro world start
  have result := triple world (enter _ start)
  cases ran : act world with
  | mk outcome after =>
    rw [ran] at result
    cases outcome with
    | ok value => exact leave _ _ result
    | error halt => exact stop _ _ result

-- It is enough to follow each single start.
theorem ensures_each (triple : ∀ s, pre s → Ensures (· = s) act post halted) : Ensures pre act post halted :=
  fun world start => triple world.state start world rfl

theorem ensures_pure (post : α → σ → Prop) (value : α) : Ensures (post value) (pure value) post halted :=
  fun _ start => start

theorem ensures_throw (halted : Halt → σ → Prop) (halt : Halt) : Ensures (halted halt) (throw halt : Act σ α) post halted :=
  fun _ start => start

theorem ensures_bind {next : α → Act σ β} (mid : α → σ → Prop) {post : β → σ → Prop}
    (first : Ensures pre act mid halted) (rest : ∀ a, Ensures (mid a) (next a) post halted) :
    Ensures pre (act >>= next) post halted := by
  intro world start
  rw [run_bind]
  have result := first world start
  cases ran : act world with
  | mk outcome after =>
    rw [ran] at result
    cases outcome with
    | ok value => exact rest value after result
    | error halt => exact result

theorem ensures_catch {handler : Halt → Act σ α} {stopped : Halt → σ → Prop}
    (body : Ensures pre act post stopped) (handled : ∀ h, Ensures (stopped h) (handler h) post halted) :
    Ensures pre (tryCatch act handler) post halted := by
  intro world start
  rw [run_catch]
  have result := body world start
  cases ran : act world with
  | mk outcome after =>
    rw [ran] at result
    cases outcome with
    | ok value => exact result
    | error halt => exact handled halt after result

theorem ensures_handleException {handler : Act σ α}
    (body : Ensures pre act post halted) (handled : Ensures (halted .exception) handler post halted) :
    Ensures pre (handleException act handler) post halted := by
  refine ensures_catch body (fun halt => ?_)
  cases halt with
  | exception => exact handled
  | baseException => exact ensures_throw _ _
  | died => exact ensures_throw _ _

theorem ensures_durable {complete : σ → σ} {torn : Nat → σ → σ} {post : Unit → σ → Prop}
    (done : ∀ s, pre s → post () (complete s)) (stop : ∀ s h n, pre s → halted h (torn n s)) :
    Ensures pre (durable complete torn) post halted := by
  intro world start
  rcases world with ⟨state,_ | ⟨_ | fault,rest⟩⟩
  · exact done state start
  · exact done state start
  · exact stop state fault.halt fault.reached start

theorem ensures_atomically {complete : σ → σ} {post : Unit → σ → Prop}
    (done : ∀ s, pre s → post () (complete s)) (before : ∀ s h, pre s → halted h s)
    (after : ∀ s h, pre s → halted h (complete s)) :
    Ensures pre (atomically complete) post halted := by
  refine ensures_durable done (fun s h n start => ?_)
  split
  · exact before s h start
  · exact after s h start

theorem ensures_interruptible {post : Unit → σ → Prop} (done : ∀ s, pre s → post () s)
    (stop : ∀ s h, pre s → halted h s) : Ensures pre (interruptible : Act σ Unit) post halted :=
  ensures_durable done (fun s h _ => stop s h)

theorem ensures_update {change : σ → σ} {post : Unit → σ → Prop} (done : ∀ s, pre s → post () (change s)) :
    Ensures pre (update change) post halted :=
  fun world start => done world.state start

theorem ensures_current : Ensures pre current (fun value s => value = s ∧ pre s) halted :=
  fun _ start => ⟨rfl,start⟩

theorem ensures_observe {view : σ → β} {post : β → σ → Prop} (done : ∀ s, pre s → post (view s) s)
    (stop : ∀ s h, pre s → halted h s) : Ensures pre (observe view) post halted :=
  ensures_bind (fun _ => pre) (ensures_interruptible (fun _ start => start) stop)
    (fun _ world start => done world.state start)

-- `kept rest` is what holds when `rest` is still to be done.
theorem ensures_forM {turn : β → Act σ Unit} {kept : List β → σ → Prop}
    (each : ∀ item rest, Ensures (kept (item :: rest)) (turn item) (fun _ => kept rest) halted)
    (items : List β) : Ensures (kept items) (items.forM turn) (fun _ => kept []) halted := by
  induction items with
  | nil => exact ensures_pure (fun _ => kept []) ()
  | cons item rest ih => exact ensures_bind _ (each item rest) (fun _ => ih)

end Rules

end Interrupt
