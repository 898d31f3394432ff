import IntentEngineering.Library.JsonSound
import IntentEngineering.Library.TimeShift

-- A text as the interpreter has it: characters, and surrogates that stand alone.
inductive CodePoint where
  | char (c : Char)
  | surrogate (unit : Fin 2048)
deriving DecidableEq

abbrev CodePoints := List CodePoint

namespace CodePoints

def ofChars (cs : List Char) : CodePoints := cs.map .char

-- `value.encode("utf-8")` up to the bytes; `none` where it raises.
def chars : CodePoints → Option (List Char)
  | [] => some []
  | .char c :: rest => (chars rest).map (c :: ·)
  | .surrogate _ :: _ => none

@[simp] theorem chars_ofChars (cs : List Char) : chars (ofChars cs) = some cs := by
  induction cs with
  | nil => rfl
  | cons c cs ih => simpa [ofChars,chars] using ih

theorem ofChars_chars {value : CodePoints} (read : chars value = some cs) : ofChars cs = value := by
  induction value generalizing cs with
  | nil =>
    cases read
    rfl
  | cons point rest ih =>
    cases point with
    | surrogate unit => cases read
    | char c =>
      obtain ⟨later,found,rfl⟩ := Option.map_eq_some_iff.mp read
      rw [←ih found]
      rfl

end CodePoints

-- A `datetime`: what its calendar and clock show, and how far east of UTC they
-- are kept, in microseconds; a naive one has no offset.
structure Moment where
  shown : UtcTime
  offset : Option Int
  within : ∀ east ∈ offset, -DateTime.dayLength < east ∧ east < DateTime.dayLength

namespace Moment

def ofUtc (t : UtcTime) : Moment := ⟨t,some 0,fun east zero => by cases zero; decide⟩

-- `astimezone(UTC)` of an aware value; `none` where it raises `OverflowError`.
def astimezone (t : UtcTime) (east : Int) : Option UtcTime :=
  if east = 0 then some t
  else if 0 < east then t.earlier east.toNat
  else t.later (-east).toNat

theorem astimezone_zero (t : UtcTime) : astimezone t 0 = some t := rfl

theorem astimezone_none {t : UtcTime} {east : Int} (within : -DateTime.dayLength < east ∧ east < DateTime.dayLength) :
    astimezone t east = none ↔ ¬UtcTime.Dated (t.1.instant - east) := by
  unfold astimezone
  split
  · rename_i zero
    have here := UtcTime.dated t
    simpa [zero] using here
  · split
    · have size : (east.toNat : Int) = east := by omega
      have spec := t.earlier_spec (show east.toNat < DateTime.dayLength by omega)
      rw [size] at spec
      rcases spec with ⟨t',shown,_,dated⟩ | ⟨hidden,undated⟩
      · simp [shown,dated]
      · simp [hidden,undated]
    · have size : ((-east).toNat : Int) = -east := by omega
      have spec := t.later_spec (show (-east).toNat < DateTime.dayLength by omega)
      rw [size,←sub_eq_add_neg] at spec
      rcases spec with ⟨t',shown,_,dated⟩ | ⟨hidden,undated⟩
      · simp [shown,dated]
      · simp [hidden,undated]

end Moment

namespace Json

-- How deeply the brackets of a value's text are nested.
mutual
def depth : Json → Nat
  | .arr vs => depthItems vs + 1
  | .obj ms => depthMembers ms + 1
  | _ => 0
termination_by structural v => v

def depthItems : List Json → Nat
  | [] => 0
  | v :: vs => max v.depth (depthItems vs)
termination_by structural vs => vs

def depthMembers : List (String × Json) → Nat
  | [] => 0
  | (_,v) :: ms => max v.depth (depthMembers ms)
termination_by structural ms => ms
end

end Json

-- What a run of the program takes from its interpreter: the texts on which the
-- JSON scanner exceeds the recursion limit, and the spellings of a time that
-- `datetime.fromisoformat` of this version takes. Two brackets inside one another
-- are within the limit, and what `isoformat` writes of a UTC time can be read back.
structure Interpreter where
  exhausts : List Char → Bool
  fromisoformat : List Char → Option Moment
  shallow : ∀ v : Json, v.depth ≤ 2 → exhausts v.text = false
  reads : ∀ t : UtcTime, fromisoformat t.1.text = some (.ofUtc t)
