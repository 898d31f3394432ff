import IntentEngineering.Library.Sha256

-- The digest over plain numbers, which a checker computes much faster.
namespace Sha256.Numbers

structure Digest where
  a : Nat
  b : Nat
  c : Nat
  d : Nat
  e : Nat
  f : Nat
  g : Nat
  h : Nat

def view (s : Sha256.Digest) : Digest := ⟨s.a.toNat,s.b.toNat,s.c.toNat,s.d.toNat,s.e.toNat,s.f.toNat,s.g.toNat,s.h.toNat⟩

def rotate (x n : Nat) : Nat := x >>> n ||| x <<< (32 - n) % 4294967296

def words : Utf8.Bytes → List Nat
  | p :: q :: r :: s :: rest =>
    (p.toNat <<< 24 % 4294967296 ||| q.toNat <<< 16 % 4294967296 ||| r.toNat <<< 8 % 4294967296 ||| s.toNat) :: words rest
  | _ => []

def extend : Nat → List Nat → List Nat
  | 0, schedule => schedule
  | n + 1, schedule =>
    let w2 := schedule.getD 1 0
    let w15 := schedule.getD 14 0
    let s0 := rotate w15 7 ^^^ rotate w15 18 ^^^ w15 >>> 3
    let s1 := rotate w2 17 ^^^ rotate w2 19 ^^^ w2 >>> 10
    extend n ((schedule.getD 15 0 + s0 + schedule.getD 6 0 + s1) % 4294967296 :: schedule)

def schedule (block : List Nat) : List Nat := (extend 48 block.reverse).reverse

def round (s : Digest) (k w : Nat) : Digest :=
  let s1 := rotate s.e 6 ^^^ rotate s.e 11 ^^^ rotate s.e 25
  let choice := (s.e &&& s.f) ^^^ ((4294967295 - s.e) &&& s.g)
  let t1 := s.h + s1 + choice + k + w
  let s0 := rotate s.a 2 ^^^ rotate s.a 13 ^^^ rotate s.a 22
  let majority := (s.a &&& s.b) ^^^ (s.a &&& s.c) ^^^ (s.b &&& s.c)
  ⟨(t1 + (s0 + majority)) % 4294967296,s.a,s.b,s.c,(s.d + t1) % 4294967296,s.e,s.f,s.g⟩

def roundConstants : List Nat := Sha256.roundConstants.map UInt32.toNat

def compress (s : Digest) (block : List Nat) : Digest :=
  let t := (roundConstants.zip (schedule block)).foldl (fun t kw => round t kw.1 kw.2) s
  ⟨(s.a + t.a) % 4294967296,(s.b + t.b) % 4294967296,(s.c + t.c) % 4294967296,(s.d + t.d) % 4294967296,
    (s.e + t.e) % 4294967296,(s.f + t.f) % 4294967296,(s.g + t.g) % 4294967296,(s.h + t.h) % 4294967296⟩

def blocks : Nat → List Nat → List (List Nat)
  | 0, _ => []
  | n + 1, ws => ws.take 16 :: blocks n (ws.drop 16)

def hexWord (w : Nat) : List Char := (List.range 8).map fun i => hexDigit (w / 16 ^ (7 - i) % 16)

def digest (message : Utf8.Bytes) : Digest :=
  let ws := words (padMessage message)
  (blocks (ws.length / 16) ws).foldl compress (view initial)

def hexdigest (message : Utf8.Bytes) : String :=
  let s := digest message
  String.ofList ([s.a,s.b,s.c,s.d,s.e,s.f,s.g,s.h].flatMap hexWord)

theorem rotate_view (x n : UInt32) (inside : 0 < n.toNat ∧ n.toNat < 32) : (Sha256.rotate x n).toNat = rotate x.toNat n.toNat := by
  have back : (32 - n).toNat = 32 - n.toNat := UInt32.toNat_sub_of_le 32 n (UInt32.le_iff_toNat_le.mpr (le_of_lt inside.2))
  have first : n.toNat % 32 = n.toNat := Nat.mod_eq_of_lt inside.2
  have second : (32 - n.toNat) % 32 = 32 - n.toNat := Nat.mod_eq_of_lt (by omega)
  simp only [Sha256.rotate,rotate,UInt32.toNat_or,UInt32.toNat_shiftRight,UInt32.toNat_shiftLeft,back,first,second]

theorem words_view (bytes : Utf8.Bytes) : words bytes = (Sha256.words bytes).map UInt32.toNat := by
  induction bytes using Sha256.words.induct with
  | case1 p q r s rest ih =>
    simp only [words,Sha256.words,List.map_cons,ih]
    simp
  | case2 bytes short =>
    rcases bytes with _ | ⟨p,_ | ⟨q,_ | ⟨r,_ | ⟨s,rest⟩⟩⟩⟩
    · rfl
    · rfl
    · rfl
    · rfl
    · exact absurd rfl (short p q r s rest)

theorem getD_view (ws : List UInt32) (i : Nat) : (ws.map UInt32.toNat).getD i 0 = (ws.getD i 0).toNat := by
  simp [List.getD_eq_getElem?_getD]
  cases ws[i]? <;> rfl

theorem extend_view (n : Nat) (ws : List UInt32) : extend n (ws.map UInt32.toNat) = (Sha256.extend n ws).map UInt32.toNat := by
  induction n generalizing ws with
  | zero => rfl
  | succ n ih =>
    rw [extend,Sha256.extend,←ih,List.map_cons]
    simp only [getD_view,UInt32.toNat_add,UInt32.toNat_xor,UInt32.toNat_shiftRight,
      rotate_view _ 7 (by decide),rotate_view _ 18 (by decide),rotate_view _ 17 (by decide),rotate_view _ 19 (by decide)]
    congr 2
    simp [Nat.add_mod]

theorem round_view (s : Sha256.Digest) (k w : UInt32) : view (Sha256.round s k w) = round (view s) k.toNat w.toNat := by
  simp only [view,Sha256.round,round,UInt32.toNat_add,UInt32.toNat_xor,UInt32.toNat_and,UInt32.toNat_not,
    rotate_view _ 6 (by decide),rotate_view _ 11 (by decide),rotate_view _ 25 (by decide),
    rotate_view _ 2 (by decide),rotate_view _ 13 (by decide),rotate_view _ 22 (by decide)]
  simp [UInt32.size]

theorem rounds_view (s : Sha256.Digest) (kws : List (UInt32 × UInt32)) :
    view (kws.foldl (fun t kw => Sha256.round t kw.1 kw.2) s) =
      (kws.map fun kw => (kw.1.toNat,kw.2.toNat)).foldl (fun t kw => round t kw.1 kw.2) (view s) := by
  induction kws generalizing s with
  | nil => rfl
  | cons kw kws ih => rw [List.foldl_cons,ih,List.map_cons,List.foldl_cons,round_view]

theorem schedule_view (block : List UInt32) : schedule (block.map UInt32.toNat) = (Sha256.schedule block).map UInt32.toNat := by
  rw [schedule,Sha256.schedule,←List.map_reverse,extend_view,List.map_reverse]

theorem compress_view (s : Sha256.Digest) (block : List UInt32) :
    view (Sha256.compress s block) = compress (view s) (block.map UInt32.toNat) := by
  have pairs : (roundConstants.zip (schedule (block.map UInt32.toNat))) =
      (Sha256.roundConstants.zip (Sha256.schedule block)).map fun kw => (kw.1.toNat,kw.2.toNat) := by
    rw [roundConstants,schedule_view,List.zip_map]
    rfl
  simp only [Sha256.compress,compress,pairs,←rounds_view]
  simp [view]

theorem blocks_view (n : Nat) (ws : List UInt32) :
    blocks n (ws.map UInt32.toNat) = (Sha256.blocks n ws).map (List.map UInt32.toNat) := by
  induction n generalizing ws with
  | zero => rfl
  | succ n ih => simp only [blocks,Sha256.blocks,List.map_cons,List.map_take,List.map_drop,←ih]

theorem compressed_view (s : Sha256.Digest) (parts : List (List UInt32)) :
    view (parts.foldl Sha256.compress s) = (parts.map (List.map UInt32.toNat)).foldl compress (view s) := by
  induction parts generalizing s with
  | nil => rfl
  | cons block parts ih => rw [List.foldl_cons,ih,List.map_cons,List.foldl_cons,compress_view]

theorem digest_view (message : Utf8.Bytes) : digest message = view (Sha256.digest message) := by
  simp only [digest,Sha256.digest,words_view,List.length_map,blocks_view,compressed_view]

theorem hexdigest_numbers (message : Utf8.Bytes) : Sha256.hexdigest message = hexdigest message := by
  simp only [hexdigest,digest_view]
  rfl

end Sha256.Numbers
