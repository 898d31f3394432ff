import IntentEngineering.Library.Utf8

-- The alphabet of file names and addresses, without the padding.
namespace Base64

def digit (n : Nat) : Char :=
  if n < 26 then Char.ofNat (65 + n)
  else if n < 52 then Char.ofNat (97 + (n - 26))
  else if n < 62 then Char.ofNat (48 + (n - 52))
  else if n = 62 then '-'
  else '_'

-- Three bytes make four digits; one byte left makes two and two make three.
def encode : Utf8.Bytes → List Char
  | [] => []
  | [a] => [digit (a.toNat / 4),digit (a.toNat % 4 * 16)]
  | [a,b] => [digit (a.toNat / 4),digit (a.toNat % 4 * 16 + b.toNat / 16),digit (b.toNat % 16 * 4)]
  | a :: b :: c :: rest =>
    digit (a.toNat / 4) :: digit (a.toNat % 4 * 16 + b.toNat / 16) :: digit (b.toNat % 16 * 4 + c.toNat / 64) ::
      digit (c.toNat % 64) :: encode rest

theorem encode_drawn {P : Char → Prop} (each : ∀ n < 64, P (digit n)) (bytes : Utf8.Bytes) : ∀ c ∈ encode bytes, P c := by
  have small (b : UInt8) : b.toNat < 256 := b.toNat_lt
  induction bytes using encode.induct with
  | case1 => simp [encode]
  | case2 a =>
    have first := small a
    simp only [encode,List.mem_cons,List.not_mem_nil,or_false,forall_eq_or_imp,forall_eq]
    exact ⟨each _ (by omega),each _ (by omega)⟩
  | case3 a b =>
    have first := small a
    have second := small b
    simp only [encode,List.mem_cons,List.not_mem_nil,or_false,forall_eq_or_imp,forall_eq]
    exact ⟨each _ (by omega),each _ (by omega),each _ (by omega)⟩
  | case4 a b c rest ih =>
    have first := small a
    have second := small b
    have third := small c
    simp only [encode,List.mem_cons,forall_eq_or_imp]
    exact ⟨each _ (by omega),each _ (by omega),each _ (by omega),each _ (by omega),ih⟩

theorem encode_length (bytes : Utf8.Bytes) : bytes.length ≤ (encode bytes).length ∧ (encode bytes).length ≤ 2 * bytes.length := by
  induction bytes using encode.induct with
  | case1 => simp [encode]
  | case2 a => simp [encode]
  | case3 a b => simp [encode]
  | case4 a b c rest ih =>
    simp only [encode,List.length_cons]
    omega

end Base64
