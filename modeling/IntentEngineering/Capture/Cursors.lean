import IntentEngineering.Library.Interpreter
import IntentEngineering.Models.Providers

open Schema

-- How decoding a cursor ends when it gives no checkpoint: with a fixed text of the
-- connector, or with an exception of a library call that nothing caught.
inductive DecodeFailure where
  | fixed (message : String)
  | unicodeEncodeError
  | recursionError
  | overflowError
deriving DecidableEq

@[simp] theorem raised_error {ε : Type u} {α : Type v} (a b : ε) : (∀ e, (.error a : Except ε α) = .error e → e = b) ↔ a = b := by
  constructor
  · intro only
    exact only a rfl
  · rintro rfl e same
    cases same
    rfl

@[simp] theorem raised_ok {ε : Type u} {α : Type v} (value : α) (b : ε) : (∀ e, (.ok value : Except ε α) = .error e → e = b) ↔ True :=
  iff_true_intro fun _ same => by cases same

namespace Named

theorem keys_map (entries : List (String × α)) (value : α → β) :
    (entries.map fun entry => (entry.1,value entry.2)).map Prod.fst = entries.map Prod.fst := by
  simp [Function.comp_def]

theorem members_formed (c : Codec α) (entries : List (String × α)) :
    Json.WellFormedMembers (entries.map fun entry => (entry.1,c.dump entry.2)) := by
  induction entries with
  | nil => trivial
  | cons first rest ih => exact ⟨c.formed first.2,ih⟩

theorem members_exact (c : Codec α) (entries : List (String × α)) :
    (entries.map fun entry => (entry.1,c.dump entry.2)).mapM (fun m => (c.load m.2).map fun a => (m.1,a)) = some entries := by
  induction entries with
  | nil => rfl
  | cons first rest ih => simp [c.exact,ih]

def codec (c : Codec α) : Codec (Named α) where
  dump m := m.dump c.dump
  load
    | .obj ms => (ms.mapM fun m => (c.load m.2).map fun a => (m.1,a)).bind fun entries =>
        if ascending : (entries.map Prod.fst).Pairwise (· < ·) then some ⟨entries,ascending⟩ else none
    | _ => none
  exact m := by simp only [Named.dump,members_exact,Option.bind_some,dif_pos m.2]
  formed m := ⟨by rw [keys_map]; exact m.2,members_formed c m.1⟩

instance {c : Codec α} [c.Finite] : (codec c).Finite where
  finite m := by
    have each : ∀ entries : List (String × α), Json.allFiniteMembers (entries.map fun entry => (entry.1,c.dump entry.2)) = true := by
      intro entries
      induction entries with
      | nil => rfl
      | cons first rest ih =>
        have here := Codec.Finite.finite (c := c) first.2
        simp [Json.allFiniteMembers,here,ih]
    exact each m.1

theorem depth_scalars (value : α → Json) (scalar : ∀ a, (value a).depth = 0) (entries : List (String × α)) :
    Json.depthMembers (entries.map fun entry => (entry.1,value entry.2)) = 0 := by
  induction entries with
  | nil => rfl
  | cons first rest ih => simp [Json.depthMembers,scalar,ih]

end Named

-- What a codec writes is what reading its text gives.
theorem Schema.Codec.loads_dump (c : Codec α) [c.Finite] (d : Json.Dialect) (a : α) :
    Json.loads d (c.dump a).text = some (c.dump a) := by
  have text := Json.loads_text d (c.formed a) (.inr (Codec.Finite.finite (c := c) a)) Json.blank_nil
  simpa using text
