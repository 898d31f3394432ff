import IntentEngineering.Library.JsonShape

namespace Schema
open Json

-- How values of one type are written and read back. A reader may accept more
-- spellings than the writer has; it must accept every one the writer has.
structure Codec (α : Type) where
  dump : α → Json
  load : Json → Option α
  exact : ∀ a, load (dump a) = some a
  formed : ∀ a, (dump a).WellFormed

-- The members of one object, listed by ascending name. `load` looks its names
-- up among all the members it is given.
structure Fields (names : List String) (α : Type) where
  dump : α → Members
  load : Members → Option α
  named : ∀ a, (dump a).map Prod.fst = names
  ascending : names.Pairwise (· < ·)
  formed : ∀ a, WellFormedMembers (dump a)
  reads : ∀ a (ms : Members), (∀ m ∈ dump a, ms.lookup m.1 = some m.2) → load ms = some a

theorem lookup_member {ms : Members} (ascending : (ms.map Prod.fst).Pairwise (· < ·)) (member : m ∈ ms) :
    ms.lookup m.1 = some m.2 := by
  induction ms with
  | nil => cases member
  | cons first rest ih =>
    obtain ⟨key,value⟩ := first
    obtain ⟨before,later⟩ := List.pairwise_cons.mp ascending
    rcases List.mem_cons.mp member with rfl | further
    · simp
    · have apart : m.1 ≠ key := (before m.1 (List.mem_map_of_mem further)).ne'
      have test : (m.1 == key) = false := beq_eq_false_iff_ne.mpr apart
      simpa only [List.lookup_cons,test] using ih later further

theorem ascending_cons {names : List String} (before : ∀ n ∈ names.head?, name < n) (rest : names.Pairwise (· < ·)) :
    (name :: names).Pairwise (· < ·) := by
  cases names with
  | nil => simp
  | cons first names =>
    have less := before first rfl
    refine List.pairwise_cons.mpr ⟨fun n member => ?_,rest⟩
    rcases List.mem_cons.mp member with rfl | later
    · exact less
    · exact less.trans ((List.pairwise_cons.mp rest).1 n later)

namespace Codec

def string : Codec String where
  dump := .str
  load | .str s => some s | _ => none
  exact _ := rfl
  formed _ := trivial

def bool : Codec Bool where
  dump := .bool
  load | .bool b => some b | _ => none
  exact _ := rfl
  formed _ := trivial

def int : Codec Int where
  dump := .int
  load | .int n => some n | _ => none
  exact _ := rfl
  formed _ := trivial

def float : Codec Binary64.Float64 where
  dump := .float
  load | .float x => some x | _ => none
  exact _ := rfl
  formed _ := trivial

-- Any object at all, kept as it is.
def mapping : Codec {ms : Members // (Json.obj ms).WellFormed} where
  dump ms := .obj ms.1
  load
    | .obj ms => if formed : (Json.obj ms).WellFormed then some ⟨ms,formed⟩ else none
    | _ => none
  exact ms := by simp [ms.2]
  formed ms := ms.2

-- Further spellings that a reader takes after the canonical one.
def lax (c : Codec α) (extra : Json → Option α) : Codec α where
  dump := c.dump
  load v := (c.load v).or (extra v)
  exact a := by simp [c.exact]
  formed := c.formed

def nullable (c : Codec α) (solid : ∀ a, c.dump a ≠ .null) : Codec (Option α) where
  dump | none => .null | some a => c.dump a
  load | .null => some none | v => (c.load v).map some
  exact a := by
    cases a with
    | none => rfl
    | some a =>
      have present := solid a
      have read := c.exact a
      cases shape : c.dump a <;> simp_all
  formed a := by
    cases a with
    | none => trivial
    | some a => exact c.formed a

theorem items_formed (c : Codec α) (xs : List α) : WellFormedItems (xs.map c.dump) := by
  induction xs with
  | nil => trivial
  | cons x xs ih => exact ⟨c.formed x,ih⟩

theorem items_exact (c : Codec α) (xs : List α) : (xs.map c.dump).mapM c.load = some xs := by
  induction xs with
  | nil => rfl
  | cons x xs ih => simp [c.exact,ih]

def list (c : Codec α) : Codec (List α) where
  dump xs := .arr (xs.map c.dump)
  load | .arr vs => vs.mapM c.load | _ => none
  exact := items_exact c
  formed := items_formed c

-- A type that is read by checking or rebuilding a value of another one.
def convert (c : Codec α) (build : α → Option β) (parts : β → α) (whole : ∀ b, build (parts b) = some b) : Codec β where
  dump b := c.dump (parts b)
  load v := (c.load v).bind build
  exact b := by simp [c.exact,whole]
  formed b := c.formed (parts b)

def checked (c : Codec α) (check : α → Bool) : Codec {a : α // check a = true} :=
  c.convert (fun a => if valid : check a = true then some ⟨a,valid⟩ else none) Subtype.val
    (fun a => by simp [a.2])

-- One admitted value.
def only [DecidableEq α] (c : Codec α) (a : α) : Codec Unit :=
  c.convert (fun b => if b = a then some () else none) (fun _ => a) (by simp)

def natural (c : Codec Int) : Codec Nat :=
  c.convert (fun n => if 0 ≤ n then some n.toNat else none) (fun n => n) (by simp)

def optionalString : Codec (Option String) := string.nullable nofun

def spelled (spelling : α → String) (all : List α)
    (found : ∀ a, all.find? (fun b => spelling b == spelling a) = some a) : Codec α :=
  string.convert (fun s => all.find? (fun a => spelling a == s)) spelling found

end Codec

namespace Fields

def nil : Fields [] Unit where
  dump _ := []
  load _ := some ()
  named _ := rfl
  ascending := .nil
  formed _ := trivial
  reads _ _ _ := rfl

def push (name : String) (c : Codec α) (missing : Option α) (rest : Fields names β) (before : ∀ n ∈ names.head?, name < n) :
    Fields (name :: names) (α × β) where
  dump a := (name,c.dump a.1) :: rest.dump a.2
  load ms :=
    let first := match ms.lookup name with
      | none => missing
      | some v => c.load v
    first.bind fun a => (rest.load ms).map fun b => (a,b)
  named a := by simp [rest.named]
  ascending := ascending_cons before rest.ascending
  formed a := ⟨c.formed a.1,rest.formed a.2⟩
  reads := by
    intro a ms present
    have first : ms.lookup name = some (c.dump a.1) := present (name,c.dump a.1) (by simp)
    have later := rest.reads a.2 ms (fun m member => present m (by simp [member]))
    simp [first,c.exact,later]

def required (name : String) (c : Codec α) (rest : Fields names β) (before : ∀ n ∈ names.head?, name < n := by decide +kernel) :
    Fields (name :: names) (α × β) :=
  rest.push name c none before

def defaulted (name : String) (c : Codec α) (value : α) (rest : Fields names β) (before : ∀ n ∈ names.head?, name < n := by decide +kernel) :
    Fields (name :: names) (α × β) :=
  rest.push name c (some value) before

-- A field with a next one; `missing` is what leaving it out means.
def leading (name : String) (c : Codec α) (missing : Option α) (rest : Fields (next :: names) β) (before : name < next := by decide +kernel) :
    Fields (name :: next :: names) (α × β) :=
  rest.push name c missing (by simpa using before)

-- The condition of the last field.
theorem before_nil (name : String) : ∀ n ∈ ([] : List String).head?, name < n := by
  intro n member
  cases member

end Fields

-- A member under any other name is refused.
def Codec.object (fields : Fields names α) : Codec α where
  dump a := .obj (fields.dump a)
  load
    | .obj ms => if ms.all (fun m => decide (m.1 ∈ names)) then fields.load ms else none
    | _ => none
  exact a := by
    have ascending : ((fields.dump a).map Prod.fst).Pairwise (· < ·) := by
      rw [fields.named]
      exact fields.ascending
    have known : (fields.dump a).all (fun m => decide (m.1 ∈ names)) = true := by
      simp only [List.all_eq_true,decide_eq_true_eq,←fields.named a]
      exact fun m member => List.mem_map_of_mem member
    simp only [known,if_true]
    exact fields.reads a _ fun m member => lookup_member ascending member
  formed a := ⟨by rw [fields.named]; exact fields.ascending,fields.formed a⟩

theorem lookup_absent {ms : Members} (absent : name ∉ ms.map Prod.fst) : ms.lookup name = none := by
  induction ms with
  | nil => rfl
  | cons first rest ih =>
    obtain ⟨key,value⟩ := first
    simp only [List.map_cons,List.mem_cons,not_or] at absent
    have test : (name == key) = false := beq_eq_false_iff_ne.mpr absent.1
    simpa only [List.lookup_cons,test] using ih absent.2

theorem lookup_dumped (fields : Fields names α) (a : α) (absent : name ∉ names) : (fields.dump a).lookup name = none :=
  lookup_absent (by rwa [fields.named])

-- An object whose first member is written only when it has a value, and may be
-- absent or null when read.
def Codec.omitting (name : String) (c : Codec α) (solid : ∀ a, c.dump a ≠ .null) (rest : Fields names β)
    (before : ∀ n ∈ names.head?, name < n := by decide +kernel) : Codec (Option α × β) where
  dump
    | (none,b) => .obj (rest.dump b)
    | (some a,b) => .obj ((name,c.dump a) :: rest.dump b)
  load v := (Codec.object (Fields.push name (c.nullable solid) (some none) rest before)).load v
  exact
    | (some a,b) => (Codec.object (Fields.push name (c.nullable solid) (some none) rest before)).exact (some a,b)
    | (none,b) => by
      have ascending := ascending_cons before rest.ascending
      have absent : (rest.dump b).lookup name = none :=
        lookup_dumped rest b fun inside => (List.pairwise_cons.mp ascending).1 name inside |>.false
      have known : (rest.dump b).all (fun m => decide (m.1 ∈ name :: names)) = true := by
        simp only [List.all_eq_true,decide_eq_true_eq]
        intro m member
        rw [←rest.named b]
        exact List.mem_cons_of_mem _ (List.mem_map_of_mem member)
      have sorted : ((rest.dump b).map Prod.fst).Pairwise (· < ·) := by
        rw [rest.named]
        exact rest.ascending
      have later := rest.reads b (rest.dump b) fun m member => lookup_member sorted member
      simp only [Codec.object,known,if_true]
      simp [Fields.push,absent,later]
  formed
    | (some a,b) => (Codec.object (Fields.push name (c.nullable solid) (some none) rest before)).formed (some a,b)
    | (none,b) => ⟨by rw [rest.named]; exact rest.ascending,rest.formed b⟩

-- Two record types under one field: the first that reads a value takes it.
def Codec.either (first : Codec α) (second : Codec β) (apart : ∀ b, first.load (second.dump b) = none) : Codec (α ⊕ β) where
  dump | .inl a => first.dump a | .inr b => second.dump b
  load v := ((first.load v).map .inl).or ((second.load v).map .inr)
  exact ab := by
    cases ab with
    | inl a => simp [first.exact]
    | inr b => simp [apart,second.exact]
  formed ab := by
    cases ab with
    | inl a => exact first.formed a
    | inr b => exact second.formed b

theorem push_none {ms : Members} (name : String) (c : Codec α) (missing : Option α) (rest : Fields names β)
    (before : ∀ n ∈ names.head?, name < n) (failed : rest.load ms = none) : (rest.push name c missing before).load ms = none := by
  simp [Fields.push,failed]

theorem required_none {ms : Members} (name : String) (c : Codec α) (rest : Fields names β) (before : ∀ n ∈ names.head?, name < n)
    (absent : ms.lookup name = none) : (rest.push name c none before).load ms = none := by
  simp [Fields.push,absent]

theorem object_extra {ms : Members} (fields : Fields names α) (extra : ∃ key ∈ ms.map Prod.fst, key ∉ names) :
    (Codec.object fields).load (.obj ms) = none := by
  obtain ⟨key,member,unknown⟩ := extra
  obtain ⟨m,inside,rfl⟩ := List.mem_map.mp member
  have refused : ¬ ms.all (fun m => decide (m.1 ∈ names)) = true := by
    intro all
    exact unknown (of_decide_eq_true (List.all_eq_true.mp all m inside))
  simp only [Codec.object,if_neg refused]

theorem object_none {ms : Members} (fields : Fields names α) (failed : fields.load ms = none) :
    (Codec.object fields).load (.obj ms) = none := by
  simp only [Codec.object,failed]
  split <;> rfl

theorem convert_none (c : Codec α) (build : α → Option β) (parts : β → α) (whole : ∀ b, build (parts b) = some b)
    (failed : c.load v = none) : (c.convert build parts whole).load v = none := by
  simp [Codec.convert,failed]

theorem push_finite (name : String) (c : Codec α) (missing : Option α) (rest : Fields names β)
    (before : ∀ n ∈ names.head?, name < n) (a : α) (b : β) :
    allFiniteMembers ((Fields.push name c missing rest before).dump (a,b)) =
      (allFinite (c.dump a) && allFiniteMembers (rest.dump b)) := rfl

theorem strings_finite (xs : List String) : allFinite (Codec.string.list.dump xs) = true := by
  have each : allFiniteItems (xs.map Codec.string.dump) = true := by
    induction xs with
    | nil => rfl
    | cons x xs ih => exact ih
  exact each

theorem lookup_present (fields : Fields names α) (a : α) (present : name ∈ names) :
    ((fields.dump a).lookup name).isSome = true := by
  rw [←fields.named a] at present
  obtain ⟨m,member,rfl⟩ := List.mem_map.mp present
  have ascending : ((fields.dump a).map Prod.fst).Pairwise (· < ·) := by
    rw [fields.named]
    exact fields.ascending
  rw [lookup_member ascending member]
  rfl

-- A codec that writes no infinite number and no NaN.
class Codec.Finite (c : Codec α) : Prop where
  finite : ∀ a, allFinite (c.dump a) = true

class Fields.Finite (f : Fields names α) : Prop where
  finite : ∀ a, allFiniteMembers (f.dump a) = true

section Finite

variable {c : Codec α}

instance : Codec.string.Finite := ⟨fun _ => rfl⟩
instance : Codec.bool.Finite := ⟨fun _ => rfl⟩
instance : Codec.int.Finite := ⟨fun _ => rfl⟩

instance [c.Finite] (extra : Json → Option α) : (c.lax extra).Finite := ⟨Codec.Finite.finite (c := c)⟩

instance [c.Finite] (solid : ∀ a, c.dump a ≠ .null) : (c.nullable solid).Finite where
  finite
    | none => rfl
    | some a => Codec.Finite.finite (c := c) a

instance [c.Finite] : c.list.Finite where
  finite xs := by
    have each : allFiniteItems (xs.map c.dump) = true := by
      induction xs with
      | nil => rfl
      | cons x xs ih =>
        have first := Codec.Finite.finite (c := c) x
        simp [allFiniteItems,first,ih]
    exact each

instance [c.Finite] (build : α → Option β) (parts : β → α) (whole : ∀ b, build (parts b) = some b) :
    (c.convert build parts whole).Finite := ⟨fun b => Codec.Finite.finite (c := c) (parts b)⟩

instance [c.Finite] (check : α → Bool) : (c.checked check).Finite := inferInstanceAs (Codec.convert ..).Finite
instance [DecidableEq α] [c.Finite] (a : α) : (c.only a).Finite := inferInstanceAs (Codec.convert ..).Finite
instance {c : Codec Int} [c.Finite] : c.natural.Finite := inferInstanceAs (Codec.convert ..).Finite
instance : Codec.optionalString.Finite := inferInstanceAs (Codec.nullable ..).Finite

instance (spelling : α → String) (all : List α) (found : ∀ a, all.find? (fun b => spelling b == spelling a) = some a) :
    (Codec.spelled spelling all found).Finite := inferInstanceAs (Codec.convert ..).Finite

instance {d : Codec β} [c.Finite] [d.Finite] (apart : ∀ b, c.load (d.dump b) = none) : (c.either d apart).Finite where
  finite
    | .inl a => Codec.Finite.finite (c := c) a
    | .inr b => Codec.Finite.finite (c := d) b

instance : Fields.nil.Finite := ⟨fun _ => rfl⟩

variable {rest : Fields names β}

instance [c.Finite] [rest.Finite] (missing : Option α) (before : ∀ n ∈ names.head?, name < n) :
    (Fields.push name c missing rest before).Finite where
  finite a := by
    have first := Codec.Finite.finite (c := c) a.1
    have later := Fields.Finite.finite (f := rest) a.2
    simp [Fields.push,allFiniteMembers,first,later]

instance [c.Finite] [rest.Finite] (before : ∀ n ∈ names.head?, name < n) :
    (Fields.required name c rest before).Finite := inferInstanceAs (Fields.push ..).Finite

instance [c.Finite] [rest.Finite] (value : α) (before : ∀ n ∈ names.head?, name < n) :
    (Fields.defaulted name c value rest before).Finite := inferInstanceAs (Fields.push ..).Finite

instance {rest : Fields (next :: names) β} [c.Finite] [rest.Finite] (missing : Option α) (before : name < next) :
    (Fields.leading name c missing rest before).Finite := inferInstanceAs (Fields.push ..).Finite

instance {fields : Fields names α} [fields.Finite] : (Codec.object fields).Finite := ⟨Fields.Finite.finite (f := fields)⟩

end Finite

-- A member that is left out.
theorem kept_push {skipped : String} (name : String) (c : Codec α) (missing : Option α) (rest : Fields names β)
    (before : ∀ n ∈ names.head?, name < n) (other : (name != skipped) = true) (a : α) (b : β) :
    ((Fields.push name c missing rest before).dump (a,b)).filter (fun m => m.1 != skipped) =
      (name,c.dump a) :: (rest.dump b).filter fun m => m.1 != skipped :=
  List.filter_cons_of_pos other

theorem skipped_push (name : String) (c : Codec α) (missing : Option α) (rest : Fields names β)
    (before : ∀ n ∈ names.head?, name < n) (a : α) (b : β) :
    ((Fields.push name c missing rest before).dump (a,b)).filter (fun m => m.1 != name) = (rest.dump b).filter fun m => m.1 != name :=
  List.filter_cons_of_neg (by simp)

end Schema
