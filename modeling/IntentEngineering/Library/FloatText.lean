import IntentEngineering.Library.JsonNumber

namespace FloatText
open Decimal Binary64 JsonNumber

def exponentValue (e : Exponent) : ℤ := if e.sign = ['-'] then -natValue e.digits else natValue e.digits

def magnitude (t : Token) : ℚ :=
  natValue (t.integer ++ t.fraction) * 10 ^ ((t.exponent.map exponentValue).getD 0 - (t.fraction.length : ℤ))

def readFloat (t : Token) : Float64 := nearest t.negative (magnitude t)

def isFloat (t : Token) : Bool := t.fraction ≠ [] || t.exponent.isSome

instance (e : Exponent) : Decidable e.Shaped :=
  decidable_of_iff ((e.letter = 'e' ∨ e.letter = 'E') ∧ (e.sign = [] ∨ e.sign = ['-'] ∨ e.sign = ['+']) ∧
    Digits e.digits ∧ e.digits ≠ [])
    ⟨fun ⟨a,b,c,d⟩ => ⟨a,b,c,d⟩,fun ⟨a,b,c,d⟩ => ⟨a,b,c,d⟩⟩

instance (t : Token) : Decidable t.Shaped :=
  decidable_of_iff (Digits t.integer ∧ t.integer ≠ [] ∧ (t.integer.head? = some '0' → t.integer = ['0']) ∧
    Digits t.fraction ∧ ∀ e ∈ t.exponent, e.Shaped)
    ⟨fun ⟨a,b,c,d,e⟩ => ⟨a,b,c,d,fun x h => e x (Option.mem_def.mpr h)⟩,
      fun ⟨a,b,c,d,e⟩ => ⟨a,b,c,d,fun x h => e x (Option.mem_def.mp h)⟩⟩

-- `digits` with the point after `point` of them. Values from 1e-4 up to 1e16
-- are written without an exponent; an exponent has at least two digits.
def layout (negative : Bool) (digits : List Char) (point : ℤ) : Token :=
  if -4 < point ∧ point ≤ 16 then
    if point ≤ 0 then ⟨negative,['0'],List.replicate point.natAbs '0' ++ digits,none⟩
    else if (digits.length : ℤ) ≤ point then
      ⟨negative,digits ++ List.replicate (point.toNat - digits.length) '0',['0'],none⟩
    else ⟨negative,digits.take point.toNat,digits.drop point.toNat,none⟩
  else
    let exponent := (point - 1).natAbs
    ⟨negative,digits.take 1,digits.drop 1,
      some ⟨'e',if point - 1 < 0 then ['-'] else ['+'],
        if exponent < 10 then padded 2 exponent else natText exponent⟩⟩

-- The decimal with this many significant digits that is closest to the value.
def candidate (x : Finite) (significant : ℕ) : Token :=
  if x.magnitude = 0 then ⟨x.negative,['0'],['0'],none⟩
  else
    let last := Int.log 10 x.magnitude + 1 - (significant : ℤ)
    let digits := natText (halfEven (x.magnitude / 10 ^ last))
    layout x.negative digits (digits.length + last)

-- All decimals down to `places` digits after the point.
def exact (x : Finite) (places : ℕ) : Token :=
  let units := ⌊x.magnitude * 10 ^ places⌋₊
  ⟨x.negative,natText (units / 10 ^ places),padded places (units % 10 ^ places),none⟩

def accurate (x : Finite) (t : Token) : Bool :=
  decide t.Shaped && isFloat t && decide (readFloat t = .finite x)

-- `repr`: the shortest decimal that reads back as the same value. Seventeen
-- digits are always enough; the exact decimal stands in for a proof of that.
def reprFloat (x : Finite) : Token :=
  (((List.range 17).map fun n => candidate x (n + 1)).find? (accurate x)).getD (exact x 1074)

-- Every finite value is a whole number of units of 10^-1074.
theorem units_whole (representable : Representable q) (deep : places = 1074) :
    ∃ units : ℕ, q * 10 ^ places = units := by
  obtain ⟨m,e,_,low,_,rfl⟩ := representable
  obtain ⟨shift,rise⟩ := Int.eq_ofNat_of_zero_le (show 0 ≤ e + (places : ℤ) by omega)
  refine ⟨m * 2 ^ shift * 5 ^ places,?_⟩
  have split : (10 : ℚ) ^ places = 2 ^ (places : ℤ) * 5 ^ places := by
    rw [zpow_natCast,←mul_pow]
    norm_num only
  have power : (2 : ℚ) ^ e * 2 ^ (places : ℤ) = 2 ^ shift := by
    rw [←zpow_add₀ (by norm_num),rise]
    exact zpow_natCast 2 shift
  push_cast
  rw [split,←power]
  ring

theorem exact_accurate (x : Finite) (whole : x.magnitude * 10 ^ places = (units : ℕ)) (deep : 0 < places) :
    accurate x (exact x places) = true := by
  have floor : ⌊x.magnitude * 10 ^ places⌋₊ = units := by rw [whole]; exact Nat.floor_natCast units
  have shaped : (exact x places).Shaped := by
    refine ⟨natText_digits _,natText_ne_nil _,fun zero => ?_,padded_digits _ _,by simp [exact]⟩
    by_cases none : ⌊x.magnitude * 10 ^ places⌋₊ / 10 ^ places = 0
    · simp only [exact,none]; rfl
    · exact (natText_head none zero).elim
  have float : isFloat (exact x places) = true := by
    have long : (exact x places).fraction.length = places := padded_length _ _
    have nonempty : (exact x places).fraction ≠ [] := by
      intro empty
      rw [empty] at long
      exact absurd long (Nat.ne_of_lt deep)
    simp [isFloat,nonempty]
  have value : magnitude (exact x places) = x.magnitude := by
    unfold magnitude exact
    simp only [floor,natValue_append,natValue_natText,padded_length,Option.map_none,Option.getD_none]
    rw [natValue_padded (Nat.mod_lt _ (by positivity)),mul_comm (units / 10 ^ places),Nat.div_add_mod,←whole]
    rw [zero_sub,zpow_neg,zpow_natCast,mul_assoc,mul_inv_cancel₀ (by positivity),mul_one]
  have read : readFloat (exact x places) = .finite x := by
    unfold readFloat
    rw [value]
    exact nearest_exact x.representable
  simp [accurate,shaped,float,read]

theorem reprFloat_accurate (x : Finite) : accurate x (reprFloat x) = true := by
  unfold reprFloat
  cases found : ((List.range 17).map fun n => candidate x (n + 1)).find? (accurate x) with
  | none =>
    obtain ⟨units,whole⟩ := units_whole x.representable rfl
    exact exact_accurate x whole (by omega)
  | some t => exact List.find?_some found

theorem reprFloat_shaped (x : Finite) : (reprFloat x).Shaped := by
  have accurate := reprFloat_accurate x
  simp only [FloatText.accurate,Bool.and_eq_true,decide_eq_true_eq] at accurate
  exact accurate.1.1

theorem reprFloat_isFloat (x : Finite) : isFloat (reprFloat x) = true := by
  have accurate := reprFloat_accurate x
  simp only [FloatText.accurate,Bool.and_eq_true] at accurate
  exact accurate.1.2

theorem readFloat_reprFloat (x : Finite) : readFloat (reprFloat x) = .finite x := by
  have accurate := reprFloat_accurate x
  simp only [FloatText.accurate,Bool.and_eq_true,decide_eq_true_eq] at accurate
  exact accurate.2

end FloatText
