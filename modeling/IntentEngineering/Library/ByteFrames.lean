import IntentEngineering.Library.JsonLines
import IntentEngineering.Library.Schema

open Json JsonLines LineText Schema

-- A ledger whose lines are split before they are decoded, and in which every
-- line must be, byte for byte, what the writer makes of the record on it.
namespace ByteFrames

-- `bytes.splitlines`: no boundary but the line feed and the carriage return.
def byteRule : LineText.Rule UInt8 where
  cr := 13
  lf := 10
  other _ := false
  distinct := by decide

-- What `bytes.strip` removes.
def isSpaceByte (b : UInt8) : Bool := b == 32 || (9 ≤ b && b ≤ 13)

variable {ρ σ : Type} (codec : Codec ρ)

def serialize (r : ρ) : Utf8.Bytes := Utf8.encode (frame (codec.dump r))

def readFrame (line : Line UInt8) : Option ρ :=
  if line.text.getLast? ≠ some 10 ∨ line.text.all isSpaceByte = true then none
  else (Utf8.decode line.text.dropLast).bind fun cs =>
    (loads strictDialect cs).bind fun
      | .obj ms =>
        if Utf8.encode (frame (.obj ms)) ≠ line.text then none
        else ((loads plainDialect cs).bind codec.load).bind fun r =>
          if serialize codec r ≠ line.text then none else some r
      | _ => none

-- One line after the other, each with its number.
def readLines (step : σ → Nat → ρ → Option σ) : Nat → σ → List (Line UInt8) → Option σ
  | _, s, [] => some s
  | n, s, line :: rest => (readFrame codec line).bind fun r => (step s n r).bind fun s' => readLines step (n + 1) s' rest

def read (step : σ → Nat → ρ → Option σ) (start : σ) (content : Utf8.Bytes) : Option σ :=
  if content ≠ [] ∧ content.getLast? ≠ some 10 then none
  else readLines codec step 0 start (lines byteRule content)

-- The same over the records themselves.
def replay (step : σ → Nat → ρ → Option σ) : Nat → σ → List ρ → Option σ
  | _, s, [] => some s
  | n, s, r :: rest => (step s n r).bind fun s' => replay step (n + 1) s' rest

def contentOf (rs : List ρ) : Utf8.Bytes := rs.flatMap (serialize codec)

theorem extendLast_text {α : Type} (c : α) (xs : List (Line α)) (some : xs ≠ []) :
    (extendLast c xs).flatMap Line.text = xs.flatMap Line.text ++ [c] := by
  induction xs with
  | nil => exact absurd rfl some
  | cons x xs ih =>
    cases xs with
    | nil => simp [extendLast,Line.text]
    | cons y ys =>
      have rest := ih (by simp)
      simp only [extendLast,List.flatMap_cons,rest,List.append_assoc]

-- Splitting into lines loses nothing.
theorem scan_join {α : Type} [DecidableEq α] (rule : Rule α) (cs : List α) :
    (scan rule cs).complete.flatMap Line.text ++ (scan rule cs).pending = cs ∧
      ((scan rule cs).afterCr = true → (scan rule cs).complete ≠ [] ∧ (scan rule cs).pending = []) := by
  induction cs using List.reverseRecOn with
  | nil => simp [scan,scanFrom]
  | append_singleton cs c ih =>
    obtain ⟨joined,waiting⟩ := ih
    rw [scan_append]
    simp only [scanFrom,List.foldl_cons,List.foldl_nil,step]
    split
    · rename_i both
      obtain ⟨some,settled⟩ := waiting both.1
      rw [settled,List.append_nil] at joined
      simp [extendLast_text c _ some,joined,settled]
    · split
      · simp only [List.flatMap_append,List.flatMap_cons,List.flatMap_nil,Line.text,List.append_nil]
        refine ⟨by rw [←List.append_assoc,joined],by simp⟩
      · simp only [←List.append_assoc,joined]
        simp

theorem lines_join {α : Type} [DecidableEq α] (rule : Rule α) (cs : List α) : (lines rule cs).flatMap Line.text = cs := by
  have joined := (scan_join rule cs).1
  rw [lines_split]
  split
  · rename_i settled
    simpa [settled] using joined
  · simpa [Line.text] using joined

theorem encode_low (member : b ∈ Utf8.encode cs) (low : b.toNat < 128) : ∃ c ∈ cs, c.toNat = b.toNat := by
  obtain ⟨c,inside,encoded⟩ := List.mem_flatMap.mp member
  refine ⟨c,inside,?_⟩
  have size : c.val.toNat < 1114112 := by
    have valid := c.valid
    simp only [UInt32.isValidChar,Nat.isValidChar] at valid
    omega
  change c.val.toNat = b.toNat
  simp only [String.utf8EncodeChar] at encoded
  split at encoded
  · rw [List.mem_singleton.mp encoded,UInt8.toNat_ofNat']
    omega
  · exfalso
    split at encoded
    · simp only [List.mem_cons,List.not_mem_nil,or_false] at encoded
      rcases encoded with rfl | rfl <;> rw [UInt8.toNat_ofNat'] at low <;> omega
    · split at encoded
      · simp only [List.mem_cons,List.not_mem_nil,or_false] at encoded
        rcases encoded with rfl | rfl | rfl <;> rw [UInt8.toNat_ofNat'] at low <;> omega
      · simp only [List.mem_cons,List.not_mem_nil,or_false] at encoded
        rcases encoded with rfl | rfl | rfl | rfl <;> rw [UInt8.toNat_ofNat'] at low <;> omega

-- The writer escapes both boundaries.
theorem plain_bytes (v : Json) : Plain byteRule (Utf8.encode (text v)) := by
  intro b member
  by_contra boundary
  have known : b = 13 ∨ b = 10 := by
    simp only [Rule.isBreak,byteRule,Bool.or_false,Bool.not_eq_false,Bool.or_eq_true] at boundary
    exact boundary.imp of_decide_eq_true of_decide_eq_true
  have low : b.toNat < 32 := by rcases known with rfl | rfl <;> decide
  obtain ⟨c,inside,same⟩ := encode_low member (by omega)
  have clear := (text_avoids (fun c => decide (c.toNat < 32)) (by simp_all) v).mpr
    (by intro s _ c _ control; simpa using control) c inside
  simp only [decide_eq_false_iff_not] at clear
  omega

theorem frame_bytes (v : Json) : Utf8.encode (frame v) = Utf8.encode (text v) ++ [10] := by
  rw [frame,Utf8.encode_append]
  rfl

variable {codec}

theorem encode_injective (same : Utf8.encode xs = Utf8.encode ys) : xs = ys := by
  have read := Utf8.decode_encode xs
  rw [same,Utf8.decode_encode] at read
  exact (Option.some.inj read).symm

theorem text_injective (left : WellFormed v) (right : WellFormed w) (same : text v = text w) : v = w := by
  have read := loads_text plainDialect left (.inl rfl) (w := []) blank_nil
  rw [same,loads_text plainDialect right (.inl rfl) blank_nil] at read
  exact (Option.some.inj read).symm

theorem serialize_injective (same : serialize codec a = serialize codec b) : a = b := by
  have texts := encode_injective same
  simp only [frame,List.append_cancel_right_eq] at texts
  have dumps := text_injective (codec.formed a) (codec.formed b) texts
  have read := codec.exact a
  rw [dumps,codec.exact] at read
  exact (Option.some.inj read).symm

-- A line is read as a record exactly when it is what the writer makes of it.
theorem readFrame_iff (objects : ∀ r, ∃ ms, codec.dump r = .obj ms) (line : Line UInt8) (r : ρ) :
    readFrame codec line = some r ↔ line.text = serialize codec r ∧ allFinite (codec.dump r) = true := by
  constructor
  · intro got
    unfold readFrame at got
    split at got
    · cases got
    · obtain ⟨cs,decoded,got⟩ := Option.bind_eq_some_iff.mp got
      obtain ⟨v,loaded,got⟩ := Option.bind_eq_some_iff.mp got
      split at got
      · rename_i ms
        split at got
        · cases got
        · rename_i canonical
          obtain ⟨r',parsed,got⟩ := Option.bind_eq_some_iff.mp got
          split at got
          · cases got
          · rename_i written
            cases got
            have spelled := (not_not.mp written).symm
            refine ⟨spelled,?_⟩
            have texts := encode_injective ((not_not.mp canonical).trans spelled)
            simp only [frame,List.append_cancel_right_eq] at texts
            have bytes := Utf8.decode_sound decoded
            rw [spelled,serialize,frame_bytes,List.dropLast_concat] at bytes
            rw [←encode_injective bytes] at loaded
            by_contra infinite
            have refused := loads_infinite (codec.formed r) (by simpa using infinite) blank_nil (w := []) []
            rw [List.nil_append,List.append_nil,loaded] at refused
            cases refused
      · cases got
  · rintro ⟨spelled,finite⟩
    obtain ⟨ms,shape⟩ := objects r
    have formed := codec.formed r
    rw [shape] at formed finite
    have written : line.text = Utf8.encode (text (.obj ms)) ++ [10] := by rw [spelled,serialize,shape,frame_bytes]
    have strict := loads_text strictDialect formed (.inr finite) (w := []) blank_nil
    have plain := loads_text plainDialect formed (.inl rfl) (w := []) blank_nil
    rw [List.nil_append] at strict plain
    have solid : line.text.all isSpaceByte = false := by
      obtain ⟨more,head⟩ := text_obj ms
      rw [written,head]
      rfl
    have ended : line.text.getLast? = some 10 := by simp [written]
    have body : Utf8.decode line.text.dropLast = some (text (.obj ms)) := by
      rw [written,List.dropLast_concat,Utf8.decode_encode]
    have canonical : Utf8.encode (frame (.obj ms)) = line.text := by rw [written,frame_bytes]
    have read := codec.exact r
    rw [shape] at read
    simp [readFrame,ended,solid,body,strict,plain,canonical,read,spelled.symm]

-- What the writer made splits back into its frames.
theorem lines_content (rs : List ρ) :
    lines byteRule (contentOf codec rs) = rs.map fun r => ⟨Utf8.encode (text (codec.dump r)),[10]⟩ := by
  induction rs with
  | nil => rfl
  | cons r rs ih =>
    have split : contentOf codec (r :: rs) = [] ++ Utf8.encode (text (codec.dump r)) ++ 10 :: contentOf codec rs := by
      simp [contentOf,serialize,frame_bytes]
    have some : Utf8.encode (text (codec.dump r)) ≠ [] := by
      intro none
      have empty : text (codec.dump r) = [] := encode_injective none
      exact (text_starts (codec.dump r)).elim fun _ found => by simp_all
    obtain ⟨c,body,shape⟩ := List.exists_cons_of_ne_nil some
    have plain := plain_bytes (codec.dump r)
    rw [shape] at plain
    rw [split,shape,lines_piece [] _ plain (by decide) (by decide),ih,List.map_cons,shape]
    rfl

theorem lines_count (rs : List ρ) : (lines byteRule (contentOf codec rs)).length = rs.length := by
  simp [lines_content]

theorem readLines_iff (objects : ∀ r, ∃ ms, codec.dump r = .obj ms) (step : σ → Nat → ρ → Option σ) (n : Nat) (s s' : σ)
    (ls : List (Line UInt8)) : readLines codec step n s ls = some s' ↔
      ∃ rs : List ρ, ls.map Line.text = rs.map (serialize codec) ∧ (∀ r ∈ rs, allFinite (codec.dump r) = true) ∧
        replay step n s rs = some s' := by
  induction ls generalizing n s with
  | nil =>
    constructor
    · intro same
      exact ⟨[],rfl,by simp,same⟩
    · rintro ⟨rs,texts,_,ran⟩
      cases rs with
      | nil => exact ran
      | cons r rs => cases texts
  | cons line ls ih =>
    simp only [readLines,Option.bind_eq_some_iff]
    constructor
    · rintro ⟨r,framed,middle,stepped,rest⟩
      obtain ⟨spelled,finite⟩ := (readFrame_iff objects line r).mp framed
      obtain ⟨rs,texts,all,ran⟩ := (ih _ _).mp rest
      refine ⟨r :: rs,by simp [spelled,texts],?_,by simp [replay,stepped,ran]⟩
      simpa [finite] using all
    · rintro ⟨rs,texts,all,ran⟩
      cases rs with
      | nil => cases texts
      | cons r rs =>
        simp only [List.map_cons,List.cons.injEq] at texts
        obtain ⟨middle,stepped,ran⟩ := Option.bind_eq_some_iff.mp ran
        have framed := (readFrame_iff objects line r).mpr ⟨texts.1,all r (by simp)⟩
        exact ⟨r,framed,middle,stepped,(ih _ _).mpr ⟨rs,texts.2,fun r member => all r (by simp [member]),ran⟩⟩

-- A content is accepted exactly when it is the writing of records that replay.
theorem lines_texts (content : Utf8.Bytes) (rs : List ρ) :
    (lines byteRule content).map Line.text = rs.map (serialize codec) ↔ content = contentOf codec rs := by
  constructor
  · intro texts
    rw [←lines_join byteRule content,List.flatMap_def,texts,contentOf,List.flatMap_def]
  · intro same
    subst same
    simp [lines_content,Line.text,serialize,frame_bytes]

theorem read_iff (objects : ∀ r, ∃ ms, codec.dump r = .obj ms) (step : σ → Nat → ρ → Option σ) (start s : σ) (content : Utf8.Bytes) :
    read codec step start content = some s ↔ ∃ rs : List ρ, content = contentOf codec rs ∧
      (∀ r ∈ rs, allFinite (codec.dump r) = true) ∧ replay step 0 start rs = some s := by
  have closed : ∀ rs : List ρ, content = contentOf codec rs → ¬ (content ≠ [] ∧ content.getLast? ≠ some 10) := by
    rintro rs rfl ⟨some,last⟩
    cases rs using List.reverseRecOn with
    | nil => exact some rfl
    | append_singleton rs r => simp [contentOf,serialize,frame_bytes] at last
  unfold read
  split
  · rename_i broken
    constructor
    · intro none
      cases none
    · rintro ⟨rs,same,_⟩
      exact absurd broken (closed rs same)
  · rw [readLines_iff objects]
    simp only [lines_texts]

theorem replay_append (step : σ → Nat → ρ → Option σ) (n : Nat) (s : σ) (xs ys : List ρ) :
    replay step n s (xs ++ ys) = (replay step n s xs).bind fun s' => replay step (n + xs.length) s' ys := by
  induction xs generalizing n s with
  | nil => rfl
  | cons x xs ih =>
    simp only [List.cons_append,replay,List.length_cons,Option.bind_assoc]
    congr 1
    funext s'
    rw [ih,Nat.add_assoc,Nat.add_comm 1]

theorem replay_last (step : σ → Nat → ρ → Option σ) (s : σ) (rs : List ρ) (r : ρ) :
    replay step 0 s (rs ++ [r]) = (replay step 0 s rs).bind fun s' => step s' rs.length r := by
  rw [replay_append]
  congr 1
  funext s'
  simp [replay]

theorem contentOf_injective (same : contentOf codec xs = contentOf codec ys) : xs = ys := by
  have texts := congrArg (fun content => (lines byteRule content).map Line.text) same
  simp only [lines_content,List.map_map] at texts
  have each : ∀ rs : List ρ, rs.map (Line.text ∘ fun r => ⟨Utf8.encode (text (codec.dump r)),[10]⟩) = rs.map (serialize codec) := by
    intro rs
    simp [Line.text,serialize,frame_bytes]
  rw [each,each] at texts
  exact List.map_injective_iff.mpr (fun _ _ => serialize_injective) texts

end ByteFrames
