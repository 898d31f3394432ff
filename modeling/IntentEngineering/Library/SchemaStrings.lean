import IntentEngineering.Library.Schema

-- Which strings the codecs write, in terms of the values they write.
namespace Schema
open Json

variable {P : String → Prop}

-- Every string in the written form satisfies `P`, keys included.
def Codec.Writes (c : Codec α) (P : String → Prop) (a : α) : Prop := ∀ s ∈ strings (c.dump a), P s

def Fields.Writes (f : Fields names α) (P : String → Prop) (a : α) : Prop := ∀ s ∈ stringsMembers (f.dump a), P s

theorem strings_items (s : String) (vs : List Json) : s ∈ stringsItems vs ↔ ∃ v ∈ vs, s ∈ strings v := by
  induction vs with
  | nil => simp [stringsItems]
  | cons v vs ih => simp [stringsItems,ih]

@[simp] theorem writes_string (s : String) : Codec.string.Writes P s ↔ P s := by
  simp [Codec.Writes,Codec.string,strings]

@[simp] theorem writes_lax (c : Codec α) (extra : Json → Option α) (a : α) : (c.lax extra).Writes P a ↔ c.Writes P a := .rfl

@[simp] theorem writes_convert (c : Codec α) (build : α → Option β) (parts : β → α) (whole : ∀ b, build (parts b) = some b) (b : β) :
    (c.convert build parts whole).Writes P b ↔ c.Writes P (parts b) := .rfl

@[simp] theorem writes_checked (c : Codec α) (check : α → Bool) (a : {a : α // check a = true}) :
    (c.checked check).Writes P a ↔ c.Writes P a.1 := .rfl

@[simp] theorem writes_object (f : Fields names α) (a : α) : (Codec.object f).Writes P a ↔ f.Writes P a := .rfl

theorem writes_list (c : Codec α) (xs : List α) : c.list.Writes P xs ↔ ∀ x ∈ xs, c.Writes P x := by
  simp only [Codec.Writes,Codec.list,strings,strings_items]
  constructor
  · intro all x member s inside
    exact all s ⟨_,List.mem_map_of_mem member,inside⟩
  · rintro all s ⟨v,member,inside⟩
    obtain ⟨x,here,rfl⟩ := List.mem_map.mp member
    exact all x here s inside

@[simp] theorem writes_nullable_none (c : Codec α) (solid : ∀ a, c.dump a ≠ .null) : (c.nullable solid).Writes P none := by
  simp [Codec.Writes,Codec.nullable,strings]

@[simp] theorem writes_nullable_some (c : Codec α) (solid : ∀ a, c.dump a ≠ .null) (a : α) :
    (c.nullable solid).Writes P (some a) ↔ c.Writes P a := .rfl

@[simp] theorem writes_nil : Fields.nil.Writes P () := by
  simp [Fields.Writes,Fields.nil,stringsMembers]

@[simp] theorem writes_push (name : String) (c : Codec α) (missing : Option α) (rest : Fields names β)
    (before : ∀ n ∈ names.head?, name < n) (a : α) (b : β) :
    (Fields.push name c missing rest before).Writes P (a,b) ↔ P name ∧ c.Writes P a ∧ rest.Writes P b := by
  simp [Fields.Writes,Codec.Writes,Fields.push,stringsMembers,or_imp,forall_and]

@[simp] theorem writes_required (name : String) (c : Codec α) (rest : Fields names β) (before : ∀ n ∈ names.head?, name < n)
    (a : α) (b : β) : (Fields.required name c rest before).Writes P (a,b) ↔ P name ∧ c.Writes P a ∧ rest.Writes P b :=
  writes_push ..

@[simp] theorem writes_defaulted (name : String) (c : Codec α) (value : α) (rest : Fields names β)
    (before : ∀ n ∈ names.head?, name < n) (a : α) (b : β) :
    (Fields.defaulted name c value rest before).Writes P (a,b) ↔ P name ∧ c.Writes P a ∧ rest.Writes P b :=
  writes_push ..

end Schema
