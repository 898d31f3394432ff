import IntentEngineering.Library.PyText
import IntentEngineering.Library.Sha256

-- Bytes written as ASCII text.
namespace ByteText
open Sha256 (hexDigit)

-- `bytes.hex`
def hex (bytes : Utf8.Bytes) : List Char := bytes.flatMap fun b => [hexDigit (b.toNat / 16),hexDigit (b.toNat % 16)]

def base64Digit (n : Nat) : Char :=
  if n < 26 then Char.ofNat (65 + n)
  else if n < 52 then Char.ofNat (71 + n)
  else if n < 62 then Char.ofNat (n - 4)
  else if n = 62 then '+'
  else '/'

-- `base64.b64encode`
def base64 : Utf8.Bytes → List Char
  | [] => []
  | [a] => [base64Digit (a.toNat / 4),base64Digit (a.toNat % 4 * 16),'=','=']
  | [a,b] => [base64Digit (a.toNat / 4),base64Digit (a.toNat % 4 * 16 + b.toNat / 16),base64Digit (b.toNat % 16 * 4),'=']
  | a :: b :: c :: rest =>
    base64Digit (a.toNat / 4) :: base64Digit (a.toNat % 4 * 16 + b.toNat / 16) ::
      base64Digit (b.toNat % 16 * 4 + c.toNat / 64) :: base64Digit (c.toNat % 64) :: base64 rest

theorem hexDigit_solid (small : d < 16) : PyText.isSpace (hexDigit d) = false := by
  have each : ∀ d < 16, PyText.isSpace (hexDigit d) = false := by decide
  exact each d small

theorem hex_solid (bytes : Utf8.Bytes) : ∀ c ∈ hex bytes, PyText.isSpace c = false := by
  intro c member
  obtain ⟨b,_,digit⟩ := List.mem_flatMap.mp member
  have bound : b.toNat < 256 := b.toNat_lt
  simp only [List.mem_cons,List.not_mem_nil,or_false] at digit
  rcases digit with rfl | rfl
  · exact hexDigit_solid (by omega)
  · exact hexDigit_solid (by omega)

theorem base64Digit_solid (n : Nat) : PyText.isSpace (base64Digit n) = false := by
  by_cases small : n < 63
  · have each : ∀ n < 63, PyText.isSpace (base64Digit n) = false := by decide
    exact each n small
  · have last : base64Digit n = '/' := by
      rw [base64Digit,if_neg (by omega),if_neg (by omega),if_neg (by omega),if_neg (by omega)]
    rw [last]
    rfl

theorem base64_solid (bytes : Utf8.Bytes) : ∀ c ∈ base64 bytes, PyText.isSpace c = false := by
  have padding : PyText.isSpace '=' = false := rfl
  induction bytes using base64.induct with
  | case1 => simp [base64]
  | case2 a => simp [base64,base64Digit_solid,padding]
  | case3 a b => simp [base64,base64Digit_solid,padding]
  | case4 a b c rest ih => simpa [base64,base64Digit_solid] using ih

-- The bytes that `urllib.parse.quote` leaves as they are.
def isUnreserved (n : Nat) : Bool :=
  decide (48 ≤ n ∧ n ≤ 57) || decide (65 ≤ n ∧ n ≤ 90) || decide (97 ≤ n ∧ n ≤ 122) || decide (n ∈ [45,46,95,126])

def upperHexDigit (d : Nat) : Char := if d < 10 then Char.ofNat (48 + d) else Char.ofNat (55 + d)

def quoteByte (b : UInt8) : List Char :=
  if isUnreserved b.toNat then [Char.ofNat b.toNat] else ['%',upperHexDigit (b.toNat / 16),upperHexDigit (b.toNat % 16)]

-- `urllib.parse.quote` with no further safe character.
def quote (bytes : Utf8.Bytes) : List Char := bytes.flatMap quoteByte

def isQuoted (c : Char) : Bool := isUnreserved c.toNat || c = '%'

theorem ascii_toNat (small : n < 128) : (Char.ofNat n).toNat = n := by
  have each : ∀ n < 128, (Char.ofNat n).toNat = n := by decide
  exact each n small

theorem unreserved_small (unreserved : isUnreserved n = true) : n < 128 := by
  simp only [isUnreserved,Bool.or_eq_true,decide_eq_true_eq,List.mem_cons,List.not_mem_nil,or_false] at unreserved
  omega

theorem upperHexDigit_quoted (small : d < 16) : isQuoted (upperHexDigit d) = true := by
  have each : ∀ d < 16, isQuoted (upperHexDigit d) = true := by decide
  exact each d small

theorem upperHexDigit_injective (small : d < 16) (small' : e < 16) (same : upperHexDigit d = upperHexDigit e) : d = e := by
  have each : ∀ d < 16, ∀ e < 16, upperHexDigit d = upperHexDigit e → d = e := by decide
  exact each d small e small' same

theorem quoteByte_quoted (b : UInt8) : ∀ c ∈ quoteByte b, isQuoted c = true := by
  have bound : b.toNat < 256 := b.toNat_lt
  intro c member
  unfold quoteByte at member
  split at member
  · rename_i unreserved
    rw [List.mem_singleton] at member
    rw [member,isQuoted,ascii_toNat (unreserved_small unreserved),unreserved]
    rfl
  · simp only [List.mem_cons,List.not_mem_nil,or_false] at member
    rcases member with rfl | rfl | rfl
    · rfl
    · exact upperHexDigit_quoted (by omega)
    · exact upperHexDigit_quoted (by omega)

theorem quote_quoted (bytes : Utf8.Bytes) : ∀ c ∈ quote bytes, isQuoted c = true := by
  intro c member
  obtain ⟨b,_,inside⟩ := List.mem_flatMap.mp member
  exact quoteByte_quoted b c inside

theorem quoteByte_begins {a b : UInt8} {xs ys : List Char} (same : quoteByte a ++ xs = quoteByte b ++ ys) : a = b ∧ xs = ys := by
  have percent {n : Nat} (unreserved : isUnreserved n = true) : Char.ofNat n ≠ '%' := by
    intro mark
    have code := ascii_toNat (unreserved_small unreserved)
    rw [mark] at code
    subst code
    exact absurd unreserved (by decide)
  have bound : a.toNat < 256 := a.toNat_lt
  have bound' : b.toNat < 256 := b.toNat_lt
  unfold quoteByte at same
  split at same
  · rename_i first
    split at same
    · rename_i second
      obtain ⟨char,rest⟩ := List.cons.inj same
      have codes := congrArg Char.toNat char
      rw [ascii_toNat (unreserved_small first),ascii_toNat (unreserved_small second)] at codes
      exact ⟨UInt8.toNat_inj.mp codes,rest⟩
    · exact absurd (List.cons.inj same).1 (percent first)
  · split at same
    · rename_i second
      exact absurd (List.cons.inj same).1.symm (percent second)
    · simp only [List.cons_append,List.nil_append,List.cons.injEq,true_and] at same
      obtain ⟨high,low,rest⟩ := same
      have tens := upperHexDigit_injective (by omega) (by omega) high
      have ones := upperHexDigit_injective (by omega) (by omega) low
      exact ⟨UInt8.toNat_inj.mp (by omega),rest⟩

theorem quote_injective {xs ys : Utf8.Bytes} (same : quote xs = quote ys) : xs = ys := by
  induction xs generalizing ys with
  | nil =>
    cases ys with
    | nil => rfl
    | cons b ys =>
      simp only [quote,List.flatMap_nil,List.flatMap_cons] at same
      unfold quoteByte at same
      split at same <;> cases same
  | cons a xs ih =>
    cases ys with
    | nil =>
      simp only [quote,List.flatMap_nil,List.flatMap_cons] at same
      unfold quoteByte at same
      split at same <;> cases same
    | cons b ys =>
      obtain ⟨rfl,later⟩ := quoteByte_begins same
      rw [ih later]

end ByteText
