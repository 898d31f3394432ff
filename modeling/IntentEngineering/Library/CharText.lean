import IntentEngineering.Library.PyText

-- Character by character rewriting of text.
namespace CharText
open LineText PyText

-- What `unicodedata` says of a character, as far as it is asked: whether its
-- category starts with `C`. Controls are such characters, printable ASCII is not.
structure Categories where
  other : Char → Bool
  controls : ∀ c : Char, c.toNat < 32 ∨ 127 ≤ c.toNat ∧ c.toNat < 160 → other c = true
  printables : ∀ c : Char, 32 ≤ c.toNat → c.toNat < 127 → other c = false

-- Only the controls themselves.
def controlsOnly : Categories where
  other c := decide (c.toNat < 32 ∨ 127 ≤ c.toNat ∧ c.toNat < 160)
  controls c control := decide_eq_true control
  printables c low high := by
    apply decide_eq_false
    omega

-- `" " if character in "\r\n\u2028\u2029" or category(character).startswith("C") else character`
def Categories.flatten (table : Categories) (value : List Char) : List Char :=
  value.map fun c => if c = '\r' ∨ c = '\n' ∨ c.toNat = 0x2028 ∨ c.toNat = 0x2029 ∨ table.other c = true then ' ' else c

-- `value.replace(old, new)` for one character.
def replace (old : Char) (new : List Char) (value : List Char) : List Char := value.flatMap fun c => if c = old then new else [c]

-- A backslash before each of the marked characters.
def backslashed (marked : Char → Bool) (value : List Char) : List Char := value.flatMap fun c => if marked c then ['\\',c] else [c]

theorem flatten_plain (table : Categories) (value : List Char) : Plain lineRule (table.flatten value) := by
  intro c member
  obtain ⟨original,_,rfl⟩ := List.mem_map.mp member
  split
  · decide
  · rename_i kept
    simp only [not_or] at kept
    by_contra broken
    have code := (isBreak_iff original).mp (by simpa using broken)
    apply kept.2.2.2.2
    apply table.controls
    have cr : original.toNat ≠ 0x0d := fun same => kept.1 (Char.toNat_inj.mp same)
    simp only [List.mem_cons,List.not_mem_nil,or_false] at code
    omega

theorem flatten_empty {table : Categories} {value : List Char} : table.flatten value = [] ↔ value = [] := by
  simp [Categories.flatten]

-- Printable characters other than a blank stay, and none appear.
theorem mem_flatten {table : Categories} {value : List Char} (low : 32 < mark.toNat) (high : mark.toNat < 127) :
    mark ∈ table.flatten value ↔ mark ∈ value := by
  have blank : mark ≠ ' ' := by
    rintro rfl
    exact absurd low (by decide)
  simp only [Categories.flatten,List.mem_map]
  constructor
  · rintro ⟨c,member,shown⟩
    split at shown
    · exact absurd shown.symm blank
    · rwa [←shown]
  · intro member
    refine ⟨mark,member,if_neg ?_⟩
    have printed := table.printables mark (by omega) high
    have cr : mark ≠ '\r' := by
      rintro rfl
      exact absurd low (by decide)
    have lf : mark ≠ '\n' := by
      rintro rfl
      exact absurd low (by decide)
    simp only [cr,lf,printed,Bool.false_eq_true,or_false,false_or,not_or]
    omega

theorem mem_replace {value : List Char} : x ∈ replace old new value ↔ x ∈ value ∧ x ≠ old ∨ old ∈ value ∧ x ∈ new := by
  simp only [replace,List.mem_flatMap]
  constructor
  · rintro ⟨c,member,shown⟩
    split at shown
    · rename_i same
      subst same
      exact .inr ⟨member,shown⟩
    · rename_i other
      rw [List.mem_singleton.mp shown]
      exact .inl ⟨member,other⟩
  · rintro (⟨member,other⟩ | ⟨member,inside⟩)
    · exact ⟨x,member,by simp [other]⟩
    · exact ⟨old,member,by simpa using inside⟩

theorem mem_backslashed {value : List Char} (other : x ≠ '\\') : x ∈ backslashed marked value ↔ x ∈ value := by
  simp only [backslashed,List.mem_flatMap]
  constructor
  · rintro ⟨c,member,shown⟩
    split at shown
    · simp only [List.mem_cons,List.not_mem_nil,or_false] at shown
      rcases shown with impossible | same
      · exact absurd impossible other
      · rwa [same]
    · rwa [List.mem_singleton.mp shown]
  · intro member
    refine ⟨x,member,?_⟩
    split <;> simp

theorem backslashed_plain {value : List Char} (plain : Plain lineRule value) : Plain lineRule (backslashed marked value) := by
  intro c member
  by_cases slash : c = '\\'
  · rw [slash]
    decide
  · exact plain c ((mem_backslashed slash).mp member)

theorem replace_plain {value new : List Char} (plain : Plain lineRule value) (fresh : Plain lineRule new) :
    Plain lineRule (replace old new value) := by
  intro c member
  rcases mem_replace.mp member with ⟨kept,_⟩ | ⟨_,added⟩
  · exact plain c kept
  · exact fresh c added

theorem backslashed_empty {value : List Char} : backslashed marked value = [] ↔ value = [] := by
  cases value with
  | nil => simp [backslashed]
  | cons c rest =>
    simp only [backslashed,List.flatMap_cons,List.append_eq_nil_iff,reduceCtorEq,iff_false,not_and]
    intro empty
    split at empty <;> cases empty

theorem plain_append {xs ys : List Char} (first : Plain lineRule xs) (second : Plain lineRule ys) : Plain lineRule (xs ++ ys) := by
  intro c member
  rcases List.mem_append.mp member with left | right
  · exact first c left
  · exact second c right

end CharText
