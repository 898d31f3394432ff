import Mathlib.Data.List.Basic

-- A search that goes a bounded number of steps from where it starts.
namespace BoundedSearch

section Walks
variable {α : Type}

-- A walk of so many steps.
inductive Walk (step : α → List α) : Nat → α → α → Prop where
  | nil (a : α) : Walk step 0 a a
  | cons {n : Nat} {a b c : α} (first : b ∈ step a) (rest : Walk step n b c) : Walk step (n + 1) a c

theorem Walk.mono {step step' : α → List α} (more : ∀ a, ∀ b ∈ step a, b ∈ step' a) (walk : Walk step n a c) : Walk step' n a c := by
  induction walk with
  | nil a => exact .nil a
  | cons first rest ih => exact .cons (more _ _ first) ih

end Walks

section Search
variable {α : Type} [DecidableEq α] (step : α → List α)

-- The neighbours that have not been seen.
def next (frontier seen : List α) : List α := (frontier.flatMap step).filter fun b => !seen.contains b

def search (goal : α → Bool) : Nat → List α → List α → Bool
  | 0, _, _ => false
  | depth + 1, frontier, seen =>
    let found := next step frontier seen
    found.any goal || search goal depth found (seen ++ found)

-- Whatever has been seen and is not on the frontier leads to what has been seen.
structure Explored (frontier seen : List α) : Prop where
  within : ∀ a ∈ frontier, a ∈ seen
  closed : ∀ a ∈ seen, a ∉ frontier → ∀ b ∈ step a, b ∈ seen

variable {step}

theorem next_mem {frontier seen : List α} : b ∈ next step frontier seen ↔ (∃ a ∈ frontier, b ∈ step a) ∧ b ∉ seen := by
  simp [next]

omit [DecidableEq α] in
theorem start_explored (a : α) : Explored step [a] [a] :=
  ⟨fun _ inside => inside,fun _ inside left => absurd inside left⟩

theorem next_explored {frontier seen : List α} (explored : Explored step frontier seen) :
    Explored step (next step frontier seen) (seen ++ next step frontier seen) := by
  refine ⟨fun b inside => List.mem_append_right _ inside,?_⟩
  intro a inside left b stepped
  have old : a ∈ seen := (List.mem_append.mp inside).resolve_right left
  by_cases known : b ∈ seen
  · exact List.mem_append_left _ known
  · have border : a ∈ frontier := by
      by_contra behind
      exact known (explored.closed a old behind b stepped)
    exact List.mem_append_right _ (next_mem.mpr ⟨⟨a,border,stepped⟩,known⟩)

-- A walk out of what has been seen passes the new frontier.
theorem walk_leaves {frontier seen : List α} (explored : Explored step frontier seen) (walk : Walk step n a c) (inside : a ∈ seen)
    (outside : c ∉ seen) : ∃ m b, m < n ∧ b ∈ next step frontier seen ∧ Walk step m b c := by
  induction walk with
  | nil a => exact absurd inside outside
  | @cons n a b c first rest ih =>
    by_cases known : b ∈ seen
    · obtain ⟨m,d,shorter,new,walk⟩ := ih known outside
      exact ⟨m,d,Nat.lt_succ_of_lt shorter,new,walk⟩
    · have border : a ∈ frontier := by
        by_contra behind
        exact known (explored.closed a inside behind b first)
      exact ⟨n,b,Nat.lt_succ_self n,next_mem.mpr ⟨⟨a,border,first⟩,known⟩,rest⟩

-- The search succeeds exactly if a walk of at most its depth leads to a goal.
theorem search_iff {goal : α → Bool} {depth : Nat} {frontier seen : List α} (explored : Explored step frontier seen)
    (fresh : ∀ a ∈ seen, goal a = false) :
    search step goal depth frontier seen = true ↔ ∃ n ≤ depth, ∃ a ∈ frontier, ∃ c, Walk step n a c ∧ goal c = true := by
  induction depth generalizing frontier seen with
  | zero =>
    constructor
    · intro impossible
      cases impossible
    · intro found
      obtain ⟨n,none,a,border,c,walk,met⟩ := found
      obtain rfl := Nat.le_zero.mp none
      cases walk
      rw [fresh a (explored.within a border)] at met
      cases met
  | succ depth ih =>
    rw [search,Bool.or_eq_true]
    constructor
    · intro found
      rcases found with here | later
      · obtain ⟨b,new,met⟩ := List.any_eq_true.mp here
        obtain ⟨⟨a,border,stepped⟩,_⟩ := next_mem.mp new
        exact ⟨1,by omega,a,border,b,.cons stepped (.nil b),met⟩
      · by_cases here : (next step frontier seen).any goal = true
        · obtain ⟨b,new,met⟩ := List.any_eq_true.mp here
          obtain ⟨⟨a,border,stepped⟩,_⟩ := next_mem.mp new
          exact ⟨1,by omega,a,border,b,.cons stepped (.nil b),met⟩
        · have still : ∀ a ∈ seen ++ next step frontier seen, goal a = false := by
            intro a inside
            rcases List.mem_append.mp inside with old | new
            · exact fresh a old
            · simpa using fun met => here (List.any_eq_true.mpr ⟨a,new,met⟩)
          obtain ⟨n,short,b,new,c,walk,met⟩ := (ih (next_explored explored) still).mp later
          obtain ⟨⟨a,border,stepped⟩,_⟩ := next_mem.mp new
          exact ⟨n + 1,by omega,a,border,c,.cons stepped walk,met⟩
    · intro found
      obtain ⟨n,short,a,border,c,walk,met⟩ := found
      have outside : c ∉ seen := by
        intro inside
        rw [fresh c inside] at met
        cases met
      obtain ⟨m,b,shorter,new,rest⟩ := walk_leaves explored walk (explored.within a border) outside
      by_cases here : (next step frontier seen).any goal = true
      · exact .inl here
      · have still : ∀ a ∈ seen ++ next step frontier seen, goal a = false := by
          intro a inside
          rcases List.mem_append.mp inside with old | new
          · exact fresh a old
          · simpa using fun met => here (List.any_eq_true.mpr ⟨a,new,met⟩)
        exact .inr ((ih (next_explored explored) still).mpr ⟨m,by omega,b,new,c,rest,met⟩)

end Search

end BoundedSearch
