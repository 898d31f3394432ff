import Mathlib.Data.List.AList
import IntentEngineering.Library.Utf8

namespace FileTree

abbrev Path := List String

-- What a name stands for: a regular file with its number of links, a directory,
-- something that opens but is no regular file, or something that does not open.
inductive Entry where
  | file (content : Utf8.Bytes) (links : Nat)
  | directory
  | special
  | unopenable
deriving DecidableEq

abbrev Tree := AList fun _ : Path => Entry

-- What opening a name for reading gives, no link followed.
inductive Opened where
  | missing
  | refused
  | irregular
  | content (bytes : Utf8.Bytes)
deriving DecidableEq

namespace Tree

variable (t : Tree)

def isDirectory (path : Path) : Bool := t.lookup path == some .directory

def read (path : Path) : Opened :=
  match t.lookup path with
  | none => .missing
  | some (.file content _) => .content content
  | some .directory => .irregular
  | some .special => .irregular
  | some .unopenable => .refused

def children (path : Path) : List Path := t.keys.filter fun child => child.dropLast = path

-- A renamed file replaces anything but a directory.
def replace (path : Path) (content : Utf8.Bytes) : Option Tree :=
  if t.isDirectory path then none else some (t.insert path (.file content 1))

end Tree

-- An entry that must be there: one that is there must fit, and a fresh one is made
-- where there is none.
structure Requirement where
  path : Path
  fit : Entry → Bool
  fresh : Entry
  fits : fit fresh = true

def Requirement.Met (r : Requirement) (t : Tree) : Prop := ∃ e, t.lookup r.path = some e ∧ r.fit e = true

def Requirement.Possible (r : Requirement) (t : Tree) : Prop := ∀ e, t.lookup r.path = some e → r.fit e = true

def provide (t : Tree) (r : Requirement) : Option Tree :=
  match t.lookup r.path with
  | none => some (t.insert r.path r.fresh)
  | some e => if r.fit e then some t else none

-- One after the other up to the first that fails, with the tree it is left in.
def provideAll : List Requirement → Tree → Bool × Tree
  | [], t => (true,t)
  | r :: rest, t =>
    match provide t r with
    | none => (false,t)
    | some next => provideAll rest next

def Grows (t next : Tree) : Prop := ∀ path e, t.lookup path = some e → next.lookup path = some e

theorem Grows.trans (first : Grows t next) (second : Grows next later) : Grows t later :=
  fun path e there => second path e (first path e there)

theorem read_kept {t next : Tree} (stays : ∀ e, t.lookup path = some e → next.lookup path = some e) (there : t.read path ≠ .missing) :
    next.read path = t.read path := by
  cases found : t.lookup path with
  | none => simp [Tree.read,found] at there
  | some e => simp only [Tree.read,found,stays e found]

theorem Grows.read (grows : Grows t next) (there : t.read path ≠ .missing) : next.read path = t.read path :=
  read_kept (grows path) there

theorem Grows.directory (grows : Grows t next) (there : t.isDirectory path = true) : next.isDirectory path = true := by
  simp only [Tree.isDirectory,beq_iff_eq] at there ⊢
  exact grows path _ there

theorem read_file {t : Tree} (there : t.lookup path = some (.file content links)) : t.read path = .content content := by
  simp only [Tree.read,there]

section Provide
variable {t next : Tree} {r : Requirement} {rs : List Requirement}

theorem provide_spec (given : provide t r = some next) :
    r.Met next ∧ r.Possible t ∧ Grows t next ∧ ∀ path, path ≠ r.path → next.lookup path = t.lookup path := by
  unfold provide at given
  split at given
  · rename_i absent
    cases given
    refine ⟨⟨r.fresh,AList.lookup_insert _,r.fits⟩,?_,?_,fun path other => AList.lookup_insert_ne other⟩
    · intro e there
      rw [absent] at there
      cases there
    · intro path e there
      by_cases same : path = r.path
      · rw [same,absent] at there
        cases there
      · rw [AList.lookup_insert_ne same]
        exact there
  · rename_i e found
    split at given
    · rename_i fit
      cases given
      refine ⟨⟨e,found,fit⟩,?_,fun _ _ there => there,fun _ _ => rfl⟩
      intro other there
      rw [found] at there
      cases there
      exact fit
    · cases given

theorem provide_refused (refused : provide t r = none) : ¬ r.Possible t := by
  intro possible
  unfold provide at refused
  split at refused
  · cases refused
  · rename_i e found
    rw [if_pos (possible e found)] at refused
    cases refused

theorem provideAll_grows (rs : List Requirement) (t : Tree) : Grows t (provideAll rs t).2 := by
  induction rs generalizing t with
  | nil => exact fun _ _ there => there
  | cons r rest ih =>
    unfold provideAll
    cases given : provide t r with
    | none => exact fun _ _ there => there
    | some next => exact (provide_spec given).2.2.1.trans (ih next)

theorem provideAll_frame (rs : List Requirement) (t : Tree) (apart : path ∉ rs.map Requirement.path) :
    (provideAll rs t).2.lookup path = t.lookup path := by
  induction rs generalizing t with
  | nil => rfl
  | cons r rest ih =>
    simp only [List.map_cons,List.mem_cons,not_or] at apart
    unfold provideAll
    cases given : provide t r with
    | none => rfl
    | some next =>
      have later := ih next apart.2
      have first := (provide_spec given).2.2.2 path apart.1
      exact later.trans first

theorem Requirement.Met.grows (met : r.Met t) (grown : Grows t next) : r.Met next := by
  obtain ⟨e,there,fit⟩ := met
  exact ⟨e,grown _ _ there,fit⟩

theorem provideAll_met (done : (provideAll rs t).1 = true) : ∀ r ∈ rs, r.Met (provideAll rs t).2 := by
  induction rs generalizing t with
  | nil => simp
  | cons first rest ih =>
    unfold provideAll at done ⊢
    cases given : provide t first with
    | none =>
      rw [given] at done
      cases done
    | some next =>
      rw [given] at done
      intro r member
      rcases List.mem_cons.mp member with rfl | later
      · exact (provide_spec given).1.grows (provideAll_grows rest next)
      · exact ih done r later

-- What has been provided is not provided again.
theorem provideAll_again (met : ∀ r ∈ rs, r.Met t) : provideAll rs t = (true,t) := by
  induction rs with
  | nil => rfl
  | cons r rest ih =>
    obtain ⟨e,there,fit⟩ := met r (by simp)
    have given : provide t r = some t := by simp [provide,there,fit]
    simp only [provideAll,given]
    exact ih fun later member => met later (List.mem_cons_of_mem _ member)

theorem provideAll_iff (distinct : (rs.map Requirement.path).Nodup) :
    (provideAll rs t).1 = true ↔ ∀ r ∈ rs, r.Possible t := by
  induction rs generalizing t with
  | nil => simp [provideAll]
  | cons r rest ih =>
    obtain ⟨apart,distinct⟩ := List.nodup_cons.mp distinct
    unfold provideAll
    cases given : provide t r with
    | none =>
      have impossible := provide_refused given
      simp [impossible]
    | some next =>
      obtain ⟨_,possible,_,frame⟩ := provide_spec given
      have same (later : Requirement) (member : later ∈ rest) : later.Possible next ↔ later.Possible t := by
        have other : later.path ≠ r.path := fun equal => apart (equal ▸ List.mem_map_of_mem member)
        simp only [Requirement.Possible,frame _ other]
      have rests : (∀ later ∈ rest, later.Possible next) ↔ ∀ later ∈ rest, later.Possible t :=
        forall_congr' fun later => forall_congr' fun member => same later member
      rw [ih distinct,rests]
      simp [possible]

end Provide

section Replace
variable {t next : Tree} {path : Path} {content : Utf8.Bytes}

theorem replace_spec (replaced : t.replace path content = some next) :
    next.lookup path = some (.file content 1) ∧ t.isDirectory path = false ∧
      ∀ other, other ≠ path → next.lookup other = t.lookup other := by
  unfold Tree.replace at replaced
  split at replaced
  · cases replaced
  · rename_i file
    cases replaced
    exact ⟨AList.lookup_insert _,by simpa using file,fun _ apart => AList.lookup_insert_ne apart⟩

theorem replace_refused (refused : t.replace path content = none) : t.isDirectory path = true := by
  unfold Tree.replace at refused
  split at refused
  · assumption
  · cases refused

end Replace

end FileTree
