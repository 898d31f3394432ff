import IntentEngineering.Stores.ReceiptStore

open Schema ByteFrames

namespace ReceiptLedger
variable {lax : Coercions} {sha256 : Utf8.Bytes → String}

-- One claim and one receipt for a pair at the most, and a receipt only by the
-- actor who claimed it.
structure Sound (s : ReceiptLedger lax sha256) : Prop where
  claims : (s.claims.map ExecutionClaim.key).Nodup
  receipts : (s.receipts.map fun r => r.1.key).Nodup
  claimed : ∀ r ∈ s.receipts, ∃ c ∈ s.claims, c.key = r.1.key ∧ c.actor = r.1.executedBy

theorem empty_sound : Sound (⟨[],[]⟩ : ReceiptLedger lax sha256) :=
  ⟨List.nodup_nil,List.nodup_nil,fun _ member => absurd member List.not_mem_nil⟩

theorem claim_some {s : ReceiptLedger lax sha256} (found : s.claim key = some c) : c ∈ s.claims ∧ c.key = key :=
  ⟨List.mem_of_find?_eq_some found,by simpa using List.find?_some found⟩

theorem claim_none {s : ReceiptLedger lax sha256} : s.claim key = none ↔ ∀ c ∈ s.claims, c.key ≠ key := by
  simp [ReceiptLedger.claim]

theorem receipt_some {s : ReceiptLedger lax sha256} (found : s.receipt key = some r) : r ∈ s.receipts ∧ r.1.key = key :=
  ⟨List.mem_of_find?_eq_some found,by simpa using List.find?_some found⟩

theorem receipt_none {s : ReceiptLedger lax sha256} : s.receipt key = none ↔ ∀ r ∈ s.receipts, r.1.key ≠ key := by
  simp [ReceiptLedger.receipt]

end ReceiptLedger

namespace ReceiptStore
open ReceiptLedger

section
variable {lax : Coercions} {sha256 : Utf8.Bytes → String}

-- What one line adds to the ledger.
def grown (s : Ledger lax sha256) : Record lax sha256 → Ledger lax sha256
  | .inl claim => { s with claims := s.claims ++ [claim] }
  | .inr receipt => { s with receipts := s.receipts ++ [receipt] }

theorem record_claim (s : Ledger lax sha256) (claim : ExecutionClaim) : record s (.inl claim) = some s' ↔
    s.claim claim.key = none ∧ s.receipt claim.key = none ∧ s' = grown s (.inl claim) := by
  simp only [record]
  split
  · rename_i present
    simp only [reduceCtorEq,false_iff,not_and]
    intro noClaim noReceipt
    simp [noClaim,noReceipt] at present
  · rename_i absent
    simp only [Bool.or_eq_true,not_or,Option.not_isSome_iff_eq_none] at absent
    simp [absent,grown,eq_comm]

theorem record_receipt (s : Ledger lax sha256) (receipt : ExecutionReceipt lax sha256) : record s (.inr receipt) = some s' ↔
    (∃ claim, s.claim receipt.1.key = some claim ∧ claim.actor = receipt.1.executedBy) ∧ s.receipt receipt.1.key = none ∧
      s' = grown s (.inr receipt) := by
  simp only [record]
  cases claimed : s.claim receipt.1.key with
  | none => simp
  | some claim =>
    dsimp only
    split
    · rename_i refused
      simp only [Bool.or_eq_true,bne_iff_ne] at refused
      simp only [reduceCtorEq,false_iff,not_and]
      rintro ⟨found,same,actor⟩ absent
      cases same
      rcases refused with present | other
      · simp [absent] at present
      · exact absurd actor other
    · rename_i admitted
      simp only [Bool.or_eq_true,bne_iff_ne,not_or,Option.not_isSome_iff_eq_none,ne_eq,Decidable.not_not] at admitted
      simp [admitted,grown,eq_comm]

theorem nodup_snoc {β : Type} {x : β} {xs : List β} (unique : xs.Nodup) (absent : x ∉ xs) : (xs ++ [x]).Nodup :=
  List.nodup_append.mpr ⟨unique,List.nodup_singleton x,fun a member b last => by
    rw [List.mem_singleton.mp last]
    rintro rfl
    exact absent member⟩

theorem record_sound {s s' : Ledger lax sha256} {r : Record lax sha256} (sound : Sound s) (taken : record s r = some s') : Sound s' := by
  cases r with
  | inl claim =>
    obtain ⟨absent,_,rfl⟩ := (record_claim s claim).mp taken
    refine ⟨?_,sound.receipts,?_⟩
    · rw [grown,List.map_append,List.map_singleton]
      apply nodup_snoc sound.claims
      intro present
      obtain ⟨c,member,same⟩ := List.mem_map.mp present
      exact claim_none.mp absent c member same
    · intro r member
      obtain ⟨c,there,same⟩ := sound.claimed r member
      exact ⟨c,List.mem_append_left _ there,same⟩
  | inr receipt =>
    obtain ⟨⟨claim,found,actor⟩,absent,rfl⟩ := (record_receipt s receipt).mp taken
    obtain ⟨member,key⟩ := claim_some found
    refine ⟨sound.claims,?_,?_⟩
    · rw [grown,List.map_append,List.map_singleton]
      apply nodup_snoc sound.receipts
      intro present
      obtain ⟨r,there,same⟩ := List.mem_map.mp present
      exact receipt_none.mp absent r there same
    · intro r later
      rcases List.mem_append.mp later with old | new
      · exact sound.claimed r old
      · rw [List.mem_singleton.mp new]
        exact ⟨claim,member,key,actor⟩

theorem record_grown {s s' : Ledger lax sha256} {r : Record lax sha256} (taken : record s r = some s') : s' = grown s r := by
  cases r with
  | inl claim => exact ((record_claim s claim).mp taken).2.2
  | inr receipt => exact ((record_receipt s receipt).mp taken).2.2

end

variable (lax : Coercions) (sha256 : Utf8.Bytes → String)

abbrev frames (rs : List (Record lax sha256)) : Utf8.Bytes := contentOf (receiptCodec lax sha256) rs

def replayed (rs : List (Record lax sha256)) : Option (Ledger lax sha256) := replay (fun s _ r => record s r) 0 ⟨[],[]⟩ rs

-- A content holds a ledger when it is the frames of its lines, with the first
-- part of a frame that was cut off behind them or nothing.
def Holds (content : Option Utf8.Bytes) (s : Ledger lax sha256) : Prop :=
  ∃ rs torn, content.getD [] = frames lax sha256 rs ++ torn ∧ replayed lax sha256 rs = some s ∧ torn.getLast? ≠ some 10

variable {lax sha256}

theorem replayed_snoc (rs : List (Record lax sha256)) (r : Record lax sha256) :
    replayed lax sha256 (rs ++ [r]) = (replayed lax sha256 rs).bind fun s => record s r :=
  replay_last _ _ rs r

theorem replayed_sound {rs : List (Record lax sha256)} {s : Ledger lax sha256} (held : replayed lax sha256 rs = some s) : Sound s := by
  induction rs using List.reverseRecOn generalizing s with
  | nil =>
    cases held
    exact empty_sound
  | append_singleton rs r ih =>
    rw [replayed_snoc] at held
    obtain ⟨before,earlier,taken⟩ := Option.bind_eq_some_iff.mp held
    exact record_sound (ih earlier) taken

theorem holds_sound {s : Ledger lax sha256} (holds : Holds lax sha256 content s) : Sound s := by
  obtain ⟨_,_,_,held,_⟩ := holds
  exact replayed_sound held

theorem decode_iff (content : Option Utf8.Bytes) (s : Ledger lax sha256) :
    decode lax sha256 content = some s ↔ ∃ rs, content.getD [] = frames lax sha256 rs ∧ replayed lax sha256 rs = some s := by
  cases content with
  | none =>
    constructor
    · intro read
      exact ⟨[],rfl,read⟩
    · rintro ⟨rs,empty,held⟩
      have same : frames lax sha256 rs = frames lax sha256 [] := empty.symm
      have none : rs = [] := contentOf_injective same
      subst none
      exact held
  | some bytes =>
    rw [decode,readLines_iff (receipt_object lax sha256)]
    simp only [lines_texts,Option.getD_some]
    constructor
    · rintro ⟨rs,same,_,held⟩
      exact ⟨rs,same,held⟩
    · rintro ⟨rs,same,held⟩
      exact ⟨rs,same,fun r _ => Codec.Finite.finite (c := receiptCodec lax sha256) r,held⟩

theorem frames_last (rs : List (Record lax sha256)) (torn : Utf8.Bytes) (cut : torn.getLast? ≠ some 10)
    (whole : frames lax sha256 rs ++ torn = frames lax sha256 rs') : torn = [] := by
  cases torn using List.reverseRecOn with
  | nil => rfl
  | append_singleton front b =>
    have last : (frames lax sha256 rs').getLast? = some b := by
      rw [←whole,←List.append_assoc,List.getLast?_concat]
    cases rs' using List.reverseRecOn with
    | nil => cases last
    | append_singleton rs'' r =>
      simp only [frames,contentOf,List.flatMap_append,List.flatMap_singleton,serialize,frame_bytes,←List.append_assoc,
        List.getLast?_concat,Option.some.injEq] at last
      subst last
      simp at cut

-- What still decodes has nothing cut off behind it.
theorem holds_decoded {s s' : Ledger lax sha256} (holds : Holds lax sha256 content s) (read : decode lax sha256 content = some s') :
    s' = s ∧ ∃ rs, content.getD [] = frames lax sha256 rs ∧ replayed lax sha256 rs = some s := by
  obtain ⟨rs,torn,shape,held,cut⟩ := holds
  obtain ⟨rs',whole,held'⟩ := (decode_iff content s').mp read
  have empty := frames_last rs torn cut (shape.symm.trans whole)
  subst empty
  rw [List.append_nil] at shape
  have same : rs = rs' := contentOf_injective (shape.symm.trans whole)
  subst same
  rw [held] at held'
  exact ⟨(Option.some.inj held').symm,rs,shape,held⟩

-- A frame is appended in full or in part.
theorem holds_extended {content : Option Utf8.Bytes} {part : Utf8.Bytes} {s s' : Ledger lax sha256} {r : Record lax sha256} (whole : content.getD [] = frames lax sha256 rs)
    (held : replayed lax sha256 rs = some s) (taken : record s r = some s') (first : part <+: serialize (receiptCodec lax sha256) r) :
    (part = serialize (receiptCodec lax sha256) r ∧ Holds lax sha256 (some (content.getD [] ++ part)) s') ∨
      (part ≠ serialize (receiptCodec lax sha256) r ∧ Holds lax sha256 (some (content.getD [] ++ part)) s) := by
  by_cases full : part = serialize (receiptCodec lax sha256) r
  · refine .inl ⟨full,rs ++ [r],[],?_,?_,by simp⟩
    · simp [whole,full,frames,contentOf]
    · rw [replayed_snoc,held,Option.bind_some,taken]
  · refine .inr ⟨full,rs,part,by rw [Option.getD_some,whole],held,?_⟩
    obtain ⟨rest,split⟩ := first
    rw [serialize,frame_bytes] at split full
    have inside : part <+: Utf8.encode (Json.text ((receiptCodec lax sha256).dump r)) := by
      cases rest using List.reverseRecOn with
      | nil => exact absurd (by simpa using split) full
      | append_singleton front b =>
        rw [←List.append_assoc] at split
        exact ⟨front,(List.append_inj' split rfl).1⟩
    intro last
    have member := inside.subset (List.mem_of_getLast? last)
    have plain := plain_bytes ((receiptCodec lax sha256).dump r) 10 member
    cases plain

-- What a completion appends the ledger takes.
theorem completion_taken {content : Option Utf8.Bytes} {s : Ledger lax sha256} {receipt : ExecutionReceipt lax sha256}
    (read : decode lax sha256 content = some s) (valid : validateReceiptCompletion lax sha256 content receipt = .ok serialized)
    (fresh : serialized ≠ []) :
    record s (.inr receipt) = some (grown s (.inr receipt)) ∧ serialized = serialize (receiptCodec lax sha256) (.inr receipt) := by
  simp only [validateReceiptCompletion,read] at valid
  cases found : s.claim receipt.1.key with
  | none => simp [found] at valid
  | some claim =>
    simp only [found] at valid
    split at valid
    · cases valid
    · rename_i same
      cases known : s.receipt receipt.1.key with
      | none =>
        simp only [known,Except.ok.injEq] at valid
        exact ⟨(record_receipt s receipt).mpr ⟨⟨claim,found,not_not.mp same⟩,known,rfl⟩,valid.symm⟩
      | some existing =>
        simp only [known] at valid
        split at valid
        · cases valid
          exact absurd rfl fresh
        · cases valid

end ReceiptStore
