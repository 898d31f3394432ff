import Mathlib.Data.List.Sort
import Mathlib.Data.String.Basic

-- Dictionaries whose keys are part of their values, and ordered sets of keys.
namespace Keyed

-- `dict.fromkeys`: each item once, where it first stands.
def fromKeys [DecidableEq α] : List α → List α
  | [] => []
  | x :: xs => x :: (fromKeys xs).filter (· ≠ x)

section FromKeys
variable [DecidableEq α]

@[simp] theorem mem_fromKeys {xs : List α} : x ∈ fromKeys xs ↔ x ∈ xs := by
  induction xs with
  | nil => simp [fromKeys]
  | cons y ys ih =>
    by_cases same : x = y
    · simp [fromKeys,same]
    · simp [fromKeys,same,ih]

theorem fromKeys_nodup (xs : List α) : (fromKeys xs).Nodup := by
  induction xs with
  | nil => exact .nil
  | cons x xs ih =>
    apply List.nodup_cons.mpr
    constructor
    · simp
    · exact ih.filter _

theorem fromKeys_fixed {xs : List α} (distinct : xs.Nodup) : fromKeys xs = xs := by
  induction xs with
  | nil => rfl
  | cons x xs ih =>
    obtain ⟨fresh,rest⟩ := List.nodup_cons.mp distinct
    have kept : xs.filter (· ≠ x) = xs := by
      apply List.filter_eq_self.mpr
      intro y member
      have other : y ≠ x := fun same => fresh (same ▸ member)
      simpa using other
    rw [fromKeys,ih rest,kept]

end FromKeys

variable {α : Type} (key : α → String)

def find (xs : List α) (name : String) : Option α := xs.find? fun x => key x == name

-- An assignment to a key that is present.
def replace (xs : List α) (name : String) (change : α → α) : List α := xs.map fun x => if key x = name then change x else x

-- `sorted(values)`, each value under its key.
def inOrder (xs : List α) : List α := xs.insertionSort fun a b => key a ≤ key b

variable {key}

theorem find_key {xs : List α} (found : find key xs name = some x) : x ∈ xs ∧ key x = name :=
  ⟨List.mem_of_find?_eq_some found,by simpa using List.find?_some found⟩

theorem find_isSome {xs : List α} : (find key xs name).isSome = true ↔ name ∈ xs.map key := by
  simp only [find,List.find?_isSome,beq_iff_eq,List.mem_map]

theorem find_none {xs : List α} : find key xs name = none ↔ name ∉ xs.map key := by
  rw [←find_isSome]
  simp

theorem find_member {xs : List α} (distinct : (xs.map key).Nodup) (member : x ∈ xs) : find key xs (key x) = some x := by
  cases found : find key xs (key x) with
  | none =>
    have absent := find_none.mp found
    exact absurd (List.mem_map_of_mem member) absent
  | some y =>
    obtain ⟨inside,named⟩ := find_key found
    rw [List.inj_on_of_nodup_map distinct inside member named]

theorem replace_keys {xs : List α} {change : α → α} (kept : ∀ x ∈ xs, key x = name → key (change x) = name) :
    (replace key xs name change).map key = xs.map key := by
  simp only [replace,List.map_map]
  apply List.map_congr_left
  intro x member
  by_cases here : key x = name
  · simp [here,kept x member here]
  · simp [here]

theorem inOrder_perm (xs : List α) : (inOrder key xs).Perm xs := List.perm_insertionSort _ xs

theorem inOrder_member {xs : List α} : x ∈ inOrder key xs ↔ x ∈ xs := (inOrder_perm xs).mem_iff

-- Dropping keys leaves what the others hold.
theorem find_filter (keep : String → Bool) (xs : List α) (name : String) :
    find key (xs.filter fun x => keep (key x)) name = if keep name then find key xs name else none := by
  induction xs with
  | nil => simp [find]
  | cons x xs ih =>
    simp only [find] at ih ⊢
    by_cases same : key x = name
    · cases kept : keep name with
      | true => simp [same,kept]
      | false => simpa [same,kept] using ih
    · cases kept : keep (key x) with
      | true => simpa [same,kept] using ih
      | false => simpa [same,kept] using ih

section Latest
variable (key)

-- `{key(x): x for x in xs}`: of several values under one key the last is kept.
def latest (xs : List α) (name : String) : Option α := find key xs.reverse name

variable {key}

theorem latest_key {xs : List α} (found : latest key xs name = some x) : x ∈ xs ∧ key x = name := by
  obtain ⟨member,same⟩ := find_key found
  exact ⟨List.mem_reverse.mp member,same⟩

theorem latest_filter (keep : String → Bool) (xs : List α) (name : String) :
    latest key (xs.filter fun x => keep (key x)) name = if keep name then latest key xs name else none := by
  rw [latest,←List.filter_reverse,find_filter,latest]

end Latest

section Batch
variable {α β : Type} (key : α → String) (name : β → String) (change : β → α → α)

-- What a batch makes of one value: the change under its key, if there is one.
def changed (batch : List β) (x : α) : α :=
  match find name batch (key x) with
  | some b => change b x
  | none => x

variable {key name change}

theorem changed_other {batch : List β} (absent : key x ∉ batch.map name) : changed key name change batch x = x := by
  simp only [changed,find_none.mpr absent]

theorem changed_member {batch : List β} (distinct : (batch.map name).Nodup) (member : b ∈ batch) (named : key x = name b) :
    changed key name change batch x = change b x := by
  simp only [changed,named,find_member distinct member]

theorem changed_key {batch : List β} (keeps : ∀ b ∈ batch, ∀ x, key x = name b → key (change b x) = name b) (x : α) :
    key (changed key name change batch x) = key x := by
  unfold changed
  split
  · rename_i b found
    obtain ⟨member,named⟩ := find_key found
    rw [keeps b member x named.symm,named]
  · rfl

-- One replacement after another, under distinct keys, is one pass.
theorem fold_replace {batch : List β} (distinct : (batch.map name).Nodup)
    (keeps : ∀ b ∈ batch, ∀ x, key x = name b → key (change b x) = name b) (xs : List α) :
    batch.foldl (fun xs b => replace key xs (name b) (change b)) xs = xs.map (changed key name change batch) := by
  induction batch generalizing xs with
  | nil =>
    have same : changed key name change [] = id := funext fun _ => rfl
    rw [same,List.map_id]
    rfl
  | cons b rest ih =>
    obtain ⟨fresh,distinct⟩ := List.nodup_cons.mp distinct
    rw [List.foldl_cons,ih distinct fun other member => keeps other (List.mem_cons_of_mem _ member)]
    simp only [replace,List.map_map]
    apply List.map_congr_left
    intro x _
    by_cases named : key x = name b
    · have after : find name rest (key (change b x)) = none := by
        rw [keeps b List.mem_cons_self x named]
        exact find_none.mpr fresh
      simp only [find] at after
      simp [named,changed,find,after]
    · have other : ¬ name b = key x := fun same => named same.symm
      simp [named,changed,find,other]

-- A batch and its permutation change each value alike.
theorem changed_perm {batch other : List β} (distinct : (batch.map name).Nodup) (same : batch.Perm other) (x : α) :
    changed key name change batch x = changed key name change other x := by
  have distinct' : (other.map name).Nodup := (same.map name).nodup_iff.mp distinct
  by_cases named : key x ∈ batch.map name
  · obtain ⟨b,member,name_b⟩ := List.mem_map.mp named
    rw [changed_member distinct member name_b.symm,changed_member distinct' (same.mem_iff.mp member) name_b.symm]
  · rw [changed_other named,changed_other (fun member => named ((same.map name).mem_iff.mpr member))]

end Batch

section Order
variable {α : Type} {key : α → String}

theorem inOrder_strict {xs : List α} (distinct : (xs.map key).Nodup) : (inOrder key xs).Pairwise fun a b => key a < key b := by
  have sorted : (inOrder key xs).Pairwise fun a b => key a ≤ key b := List.pairwise_insertionSort _ _
  have apart : (inOrder key xs).Pairwise fun a b => key a ≠ key b :=
    List.pairwise_map.mp (((inOrder_perm xs).map key).nodup_iff.mpr distinct)
  exact sorted.imp₂ (fun _ _ before other => lt_of_le_of_ne before other) apart

theorem inOrder_congr {xs ys : List α} (distinct : (xs.map key).Nodup) (same : xs.Perm ys) : inOrder key xs = inOrder key ys := by
  have distinct' : (ys.map key).Nodup := (same.map key).nodup_iff.mp distinct
  refine ((inOrder_perm xs).trans (same.trans (inOrder_perm ys).symm)).eq_of_pairwise ?_ (inOrder_strict distinct) (inOrder_strict distinct')
  intro a b _ _ before after
  exact absurd after (lt_asymm before)

end Order

end Keyed
