namespace Choices

-- The environment's choices are data: what each step of it asks for next.
structure World (κ σ : Type) where
  state : σ
  choices : Nat → κ

-- A program with exceptions `ε`, which keeps the state of a run that raises.
abbrev Act (ε κ σ α : Type) := ExceptT ε (StateM (World κ σ)) α

variable {ε κ σ α β : Type}

def choose : Act ε κ σ κ := fun world => (.ok (world.choices 0),{world with choices := fun n => world.choices (n + 1)})

def current : Act ε κ σ σ := fun world => (.ok world.state,world)

def update (change : σ → σ) : Act ε κ σ Unit := fun world => (.ok (),{world with state := change world.state})

-- How a piece of the program ended, as a value.
def outcome (act : Act ε κ σ α) : Act ε κ σ (Except ε α) := fun world =>
  match act world with
  | (result,after) => (.ok result,after)

-- Every run from a state in `pre`, whatever the environment chooses, ends in
-- `post` when it returns and in `raised` when it raises.
def Ensures (pre : σ → Prop) (act : Act ε κ σ α) (post : α → σ → Prop) (raised : ε → σ → Prop) : Prop :=
  ∀ world, pre world.state → match act world with
    | (.ok value,after) => post value after.state
    | (.error error,after) => raised error after.state

-- What an ending shows: one thing of what it returns, another of what it raises.
def Ended (post : α → σ → Prop) (raised : ε → σ → Prop) : Except ε α → σ → Prop
  | .ok value => post value
  | .error error => raised error

theorem run_bind (act : Act ε κ σ α) (next : α → Act ε κ σ β) (world : World κ σ) :
    (act >>= next) world = match act world with
      | (.ok value,after) => next value after
      | (.error error,after) => (.error error,after) := by
  simp only [bind,ExceptT.bind,ExceptT.mk,StateT.bind]
  cases act world with
  | mk result after => cases result <;> rfl

section Rules
variable {pre pre' : σ → Prop} {act : Act ε κ σ α} {post post' : α → σ → Prop} {raised raised' : ε → σ → Prop}

theorem ensures_weaken (triple : Ensures pre act post raised) (enter : ∀ s, pre' s → pre s)
    (leave : ∀ a s, post a s → post' a s) (stop : ∀ e s, raised e s → raised' e s) :
    Ensures pre' act post' raised' := by
  intro world start
  have result := triple world (enter _ start)
  cases ran : act world with
  | mk ended after =>
    rw [ran] at result
    cases ended with
    | ok value => exact leave _ _ result
    | error error => exact stop _ _ result

theorem ensures_enter (pre : σ → Prop) (enter : ∀ s, pre' s → pre s) (triple : Ensures pre act post raised) :
    Ensures pre' act post raised :=
  ensures_weaken triple enter (fun _ _ done => done) (fun _ _ stopped => stopped)

theorem ensures_leave (triple : Ensures pre act post raised) (leave : ∀ a s, post a s → post' a s)
    (stop : ∀ e s, raised e s → raised' e s) : Ensures pre act post' raised' :=
  ensures_weaken triple (fun _ start => start) leave stop

theorem ensures_either {other : σ → Prop} (left : Ensures pre act post raised) (right : Ensures other act post raised) :
    Ensures (fun s => pre s ∨ other s) act post raised := by
  rintro world (start | start)
  · exact left world start
  · exact right world start

-- What the state shows may be used as a fact.
theorem ensures_given (fact : Prop) (shown : ∀ s, pre s → fact) (triple : fact → Ensures pre act post raised) :
    Ensures pre act post raised :=
  fun world start => triple (shown _ start) world start

theorem ensures_pure {value : α} (done : ∀ s, pre s → post value s) : Ensures pre (pure value : Act ε κ σ α) post raised :=
  fun _ start => done _ start

theorem ensures_throw {error : ε} (stop : ∀ s, pre s → raised error s) : Ensures pre (throw error : Act ε κ σ α) post raised :=
  fun _ start => stop _ start

theorem ensures_bind {next : α → Act ε κ σ β} {post : β → σ → Prop} (mid : α → σ → Prop)
    (first : Ensures pre act mid raised) (rest : ∀ a, Ensures (mid a) (next a) post raised) :
    Ensures pre (act >>= next) post raised := by
  intro world start
  rw [run_bind]
  have result := first world start
  cases ran : act world with
  | mk ended after =>
    rw [ran] at result
    cases ended with
    | ok value => exact rest value after result
    | error error => exact result

theorem ensures_outcome (post : Except ε α → σ → Prop) (body : Ensures pre act (fun a => post (.ok a)) (fun e => post (.error e))) :
    Ensures pre (outcome act) post raised := by
  intro world start
  have result := body world start
  unfold outcome
  cases ran : act world with
  | mk ended after =>
    rw [ran] at result
    cases ended with
    | ok value => exact result
    | error error => exact result

theorem ensures_choose {post : κ → σ → Prop} (done : ∀ c s, pre s → post c s) : Ensures pre (choose : Act ε κ σ κ) post raised :=
  fun _ start => done _ _ start

theorem ensures_current {post : σ → σ → Prop} (done : ∀ s, pre s → post s s) : Ensures pre (current : Act ε κ σ σ) post raised :=
  fun _ start => done _ start

theorem ensures_update {change : σ → σ} {post : Unit → σ → Prop} (done : ∀ s, pre s → post () (change s)) :
    Ensures pre (update change : Act ε κ σ Unit) post raised :=
  fun _ start => done _ start

-- What a branch is taken on is known inside it.
theorem ensures_ite {decided : Prop} [Decidable decided] {other : Act ε κ σ α}
    (yes : decided → Ensures pre act post raised) (no : ¬ decided → Ensures pre other post raised) :
    Ensures pre (if decided then act else other) post raised := by
  by_cases known : decided
  · rw [if_pos known]
    exact yes known
  · rw [if_neg known]
    exact no known

end Rules

end Choices
