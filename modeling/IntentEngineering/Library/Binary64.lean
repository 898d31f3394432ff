import IntentEngineering.Library.Decimal
import Mathlib.Data.Int.Log
import Mathlib.Data.Rat.Floor
import Mathlib.Tactic

namespace Binary64

-- Magnitudes of finite values: 53 bits and a bounded power of two.
def Representable (q : ℚ) : Prop :=
  ∃ m : ℕ, ∃ e : ℤ, m < 2 ^ 53 ∧ -1074 ≤ e ∧ e ≤ 971 ∧ q = m * 2 ^ e

structure Finite where
  negative : Bool
  magnitude : ℚ
  representable : Representable magnitude
deriving DecidableEq

inductive Float64 where
  | finite (value : Finite)
  | infinite (negative : Bool)
  | nan
deriving DecidableEq

def halfEven (q : ℚ) : ℕ :=
  let low := ⌊q⌋₊
  let rest := q - low
  if rest < 1 / 2 then low
  else if 1 / 2 < rest then low + 1
  else if low % 2 = 0 then low else low + 1

-- The last place of the significand; below the normal range it stops falling.
def place (q : ℚ) : ℤ := max (-1074) (Int.log 2 q - 52)

theorem place_low (q : ℚ) : -1074 ≤ place q := le_max_left _ _

theorem carry_representable (e : ℤ) (fits : e + 1 ≤ 971) (low : -1074 ≤ e) :
    Representable ((2 : ℚ) ^ 53 * 2 ^ e) := by
  refine ⟨2 ^ 52,e + 1,by norm_num,by omega,fits,?_⟩
  rw [zpow_add₀ (by norm_num)]
  push_cast
  ring

-- Round to nearest, ties to even. Rounding up may carry into the next place.
def nearest (negative : Bool) (q : ℚ) : Float64 :=
  let m := halfEven (q / 2 ^ place q)
  if fits : m < 2 ^ 53 ∧ place q ≤ 971 then
    .finite ⟨negative,m * 2 ^ place q,⟨m,place q,fits.1,place_low q,fits.2,rfl⟩⟩
  else if carries : m = 2 ^ 53 ∧ place q + 1 ≤ 971 then
    .finite ⟨negative,2 ^ 53 * 2 ^ place q,carry_representable (place q) carries.2 (place_low q)⟩
  else .infinite negative

theorem halfEven_nat (m : ℕ) : halfEven m = m := by
  simp [halfEven]

-- The last place of a representable value is no higher than the exponent of
-- any way of writing it.
theorem place_le {m : ℕ} {e : ℤ} (small : m < 2 ^ 53) (low : -1074 ≤ e) (nonzero : m ≠ 0) :
    place ((m : ℚ) * 2 ^ e) ≤ e := by
  have positive : (0 : ℚ) < m * 2 ^ e := by positivity
  have below := Int.zpow_log_le_self (b := 2) (by norm_num) positive
  push_cast at below
  have above : (m : ℚ) * 2 ^ e < 2 ^ (53 + e) := by
    rw [zpow_add₀ (by norm_num)]
    have bound : (m : ℚ) < 2 ^ (53 : ℤ) := by exact_mod_cast small
    exact mul_lt_mul_of_pos_right bound (by positivity)
  have exponents := (zpow_lt_zpow_iff_right₀ (by norm_num : (1 : ℚ) < 2)).mp (lt_of_le_of_lt below above)
  unfold place
  omega

theorem scaled_small (q : ℚ) : q / 2 ^ place q < 2 ^ (53 : ℤ) := by
  have above := Int.lt_zpow_succ_log_self (b := 2) (by norm_num) q
  push_cast at above
  rw [div_lt_iff₀ (by positivity),←zpow_add₀ (by norm_num)]
  refine lt_of_lt_of_le above ?_
  refine zpow_le_zpow_right₀ (by norm_num) ?_
  unfold place
  omega

theorem nearest_exact (representable : Representable q) :
    nearest negative q = .finite ⟨negative,q,representable⟩ := by
  have whole : ∃ k : ℕ, k < 2 ^ 53 ∧ q / 2 ^ place q = k ∧ place q ≤ 971 := by
    obtain ⟨m,e,small,low,high,rfl⟩ := representable
    by_cases zero : m = 0
    · subst zero
      exact ⟨0,by norm_num,by simp,by simp [place]⟩
    · have lower := place_le small low zero
      obtain ⟨shift,rise⟩ := Int.eq_ofNat_of_zero_le (show 0 ≤ e - place ((m : ℚ) * 2 ^ e) by omega)
      have quotient : (m : ℚ) * 2 ^ e / 2 ^ place ((m : ℚ) * 2 ^ e) = (m * 2 ^ shift : ℕ) := by
        rw [mul_div_assoc,←zpow_sub₀ (by norm_num),rise]
        push_cast
        rfl
      refine ⟨m * 2 ^ shift,?_,quotient,by omega⟩
      have small := scaled_small ((m : ℚ) * 2 ^ e)
      rw [quotient] at small
      exact_mod_cast small
  obtain ⟨k,fits,quotient,range⟩ := whole
  have value : (k : ℚ) * 2 ^ place q = q := by
    rw [←quotient]
    field_simp
  have rounded : halfEven (q / 2 ^ place q) = k := by rw [quotient,halfEven_nat]
  simp only [nearest,rounded,fits,range,and_self,dif_pos,value]

end Binary64
