import Mathlib.Data.Nat.Digits.Lemmas

namespace Decimal

def digitChar (d : Nat) : Char := Char.ofNat (48 + d)

def isDigit (c : Char) : Bool := decide (48 ≤ c.toNat) && decide (c.toNat ≤ 57)

def digitValue (c : Char) : Nat := c.toNat - 48

-- Most significant digit first, no leading zero.
def natText (n : Nat) : List Char :=
  if n = 0 then ['0'] else (Nat.digits 10 n).reverse.map digitChar

def natValue (cs : List Char) : Nat := cs.foldl (fun value c => value * 10 + digitValue c) 0

-- Exactly `width` digits; higher ones are dropped.
def padded : Nat → Nat → List Char
  | 0, _ => []
  | width + 1, n => padded width (n / 10) ++ [digitChar (n % 10)]

theorem toNat_digitChar (small : d < 10) : (digitChar d).toNat = 48 + d := by
  have each : ∀ d < 10, (digitChar d).toNat = 48 + d := by decide
  exact each d small

@[simp] theorem digitValue_digitChar (small : d < 10) : digitValue (digitChar d) = d := by
  simp [digitValue,toNat_digitChar small]

@[simp] theorem isDigit_digitChar (small : d < 10) : isDigit (digitChar d) = true := by
  simp only [isDigit,toNat_digitChar small,Bool.and_eq_true,decide_eq_true_eq]
  omega

theorem natText_digits (n : Nat) : ∀ c ∈ natText n, isDigit c = true := by
  intro c member
  unfold natText at member
  split at member
  · simp only [List.mem_singleton] at member
    subst member
    decide
  · obtain ⟨d,inside,rfl⟩ := List.mem_map.mp member
    exact isDigit_digitChar (Nat.digits_lt_base (by omega) (List.mem_reverse.mp inside))

theorem natText_ne_nil (n : Nat) : natText n ≠ [] := by
  unfold natText
  split
  · simp
  · rename_i positive
    simp [Nat.digits_ne_nil_iff_ne_zero,positive]

theorem natText_head (positive : n ≠ 0) : (natText n).head? ≠ some '0' := by
  unfold natText
  rw [if_neg positive]
  have nonempty : Nat.digits 10 n ≠ [] := Nat.digits_ne_nil_iff_ne_zero.mpr positive
  have last := Nat.getLast_digit_ne_zero 10 positive
  have small := Nat.digits_lt_base (b := 10) (by omega) (List.getLast_mem nonempty)
  rw [List.head?_map,List.head?_reverse,List.getLast?_eq_some_getLast nonempty]
  intro same
  have value := congrArg (Option.map digitValue) same
  simp [digitValue_digitChar small] at value
  exact last value

theorem natValue_append (xs ys : List Char) :
    natValue (xs ++ ys) = natValue xs * 10 ^ ys.length + natValue ys := by
  have shifted (start : Nat) : ys.foldl (fun value c => value * 10 + digitValue c) start =
      start * 10 ^ ys.length + natValue ys := by
    unfold natValue
    induction ys generalizing start with
    | nil => simp
    | cons y ys ih =>
      simp only [List.foldl_cons,List.length_cons]
      rw [ih,ih (0 * 10 + digitValue y)]
      ring
  simpa [natValue] using shifted (natValue xs)

theorem natValue_natText (n : Nat) : natValue (natText n) = n := by
  unfold natText
  split
  · rename_i zero
    subst zero
    rfl
  · have bound : ∀ d ∈ Nat.digits 10 n, d < 10 := fun d member => Nat.digits_lt_base (by omega) member
    have value (ds : List Nat) (small : ∀ d ∈ ds, d < 10) :
        natValue (ds.reverse.map digitChar) = Nat.ofDigits 10 ds := by
      induction ds with
      | nil => rfl
      | cons d ds ih =>
        have one : natValue [digitChar d] = d := by simp [natValue,digitValue_digitChar (small d (by simp))]
        rw [List.reverse_cons,List.map_append,List.map_singleton,natValue_append,one,
          ih fun e member => small e (by simp [member]),Nat.ofDigits_cons]
        simp
        ring
    rw [value _ bound,Nat.ofDigits_digits]

theorem padded_length (width n : Nat) : (padded width n).length = width := by
  induction width generalizing n with
  | zero => rfl
  | succ width ih => simp [padded,ih]

theorem padded_digits (width n : Nat) : ∀ c ∈ padded width n, isDigit c = true := by
  induction width generalizing n with
  | zero => simp [padded]
  | succ width ih =>
    intro c member
    rcases List.mem_append.mp member with earlier | last
    · exact ih _ c earlier
    · simp only [List.mem_singleton] at last
      subst last
      exact isDigit_digitChar (Nat.mod_lt _ (by omega))

theorem natValue_padded (fits : n < 10 ^ width) : natValue (padded width n) = n := by
  induction width generalizing n with
  | zero => simp at fits; subst fits; rfl
  | succ width ih =>
    have smaller : n / 10 < 10 ^ width := by
      rw [Nat.pow_succ] at fits
      omega
    have one : natValue [digitChar (n % 10)] = n % 10 := by
      simp [natValue,digitValue_digitChar (Nat.mod_lt n (show 10 > 0 by omega))]
    rw [padded,natValue_append,ih smaller,one]
    simp
    omega

end Decimal
