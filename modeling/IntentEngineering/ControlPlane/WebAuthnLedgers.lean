import IntentEngineering.Capture.EvidenceIdentity
import IntentEngineering.ControlPlane.WebAuthnStore

open Schema Json JsonLines ByteFrames

namespace ControlPlane

section
variable {ρ σ : Type} {codec : Codec ρ}

-- Three readers agree on a line exactly when it is what the writer makes of
-- one record.
theorem readRecord_iff [codec.Finite] (objects : ∀ r, ∃ ms, codec.dump r = .obj ms) (line : LineText.Line UInt8) (r : ρ) :
    readRecord codec line = some r ↔ line.text = serialize codec r := by
  constructor
  · intro got
    unfold readRecord at got
    split at got
    · cases got
    · obtain ⟨cs,_,got⟩ := Option.bind_eq_some_iff.mp got
      obtain ⟨payload,_,got⟩ := Option.bind_eq_some_iff.mp got
      split at got
      · obtain ⟨r',_,got⟩ := Option.bind_eq_some_iff.mp got
        split at got
        · cases got
        · rename_i written
          obtain ⟨again,_,got⟩ := Option.bind_eq_some_iff.mp got
          split at got
          · cases got
            exact (not_not.mp written).symm
          · cases got
      · cases got
  · intro spelled
    obtain ⟨ms,shape⟩ := objects r
    have finite : allFinite (codec.dump r) = true := Codec.Finite.finite r
    have formed := codec.formed r
    rw [shape] at formed finite
    have written : line.text = Utf8.encode (text (.obj ms)) ++ [10] := by rw [spelled,serialize,shape,frame_bytes]
    have strict := loads_text strictDialect formed (.inr finite) (w := []) blank_nil
    have plain := loads_text plainDialect formed (.inl rfl) (w := []) blank_nil
    have whole : loads plainDialect ([] ++ (text (.obj ms) ++ ['\n'])) = some (.obj ms) :=
      loads_framed plainDialect formed (.inl rfl) blank_nil (by decide)
    rw [List.nil_append] at strict plain whole
    have ended : line.text.getLast? = some 10 := by simp [written]
    have solid : line.text ≠ [10] := by
      intro empty
      have bare : Utf8.encode (text (.obj ms)) = [] := by simpa [written] using empty
      obtain ⟨more,head⟩ := text_obj ms
      have none : text (.obj ms) = [] := encode_injective (bare.trans rfl)
      cases head.symm.trans none
    have body : Utf8.decode line.text.dropLast = some (text (.obj ms)) := by
      rw [written,List.dropLast_concat,Utf8.decode_encode]
    have read := codec.exact r
    have again : loads plainDialect (frame (codec.dump r)) = some (.obj ms) := by
      rw [shape]
      exact whole
    rw [shape] at read
    simp [readRecord,ended,solid,body,strict,plain,read,spelled.symm,again,equal_self _ finite]

theorem readRecord_frame [codec.Finite] (objects : ∀ r, ∃ ms, codec.dump r = .obj ms) (line : LineText.Line UInt8) :
    readRecord codec line = readFrame codec line := by
  apply Option.ext
  intro r
  rw [readRecord_iff objects,readFrame_iff objects]
  exact (and_iff_left (Codec.Finite.finite r)).symm

theorem readRecords_lines [codec.Finite] (objects : ∀ r, ∃ ms, codec.dump r = .obj ms) (step : σ → ρ → Option σ) (n : Nat) (s : σ)
    (ls : List (LineText.Line UInt8)) : readRecords codec step s ls = readLines codec (fun s _ r => step s r) n s ls := by
  induction ls generalizing n s with
  | nil => rfl
  | cons line ls ih =>
    simp only [readRecords,readLines,readRecord_frame objects]
    congr 1
    funext r
    congr 1
    funext s'
    exact ih (n + 1) s'

-- What the two stores read is a ledger of canonical frames.
theorem recordsUnlocked_ledger [codec.Finite] (objects : ∀ r, ∃ ms, codec.dump r = .obj ms) (step : σ → ρ → Option σ) (start : σ)
    (content : Option Utf8.Bytes) : recordsUnlocked codec step start content = FrameLedger.decode codec step start content := by
  cases content with
  | none => rfl
  | some bytes => exact readRecords_lines objects step 0 start _

end

namespace ChallengeFrame

theorem cases (f : ChallengeFrame) : (∃ record, f = issued record) ∨ ∃ record now, f = consumed record now := by
  obtain ⟨record,kind,consumedAt,transition⟩ := f
  cases kind with
  | issue =>
    cases consumedAt with
    | none => exact .inl ⟨record,rfl⟩
    | some now => cases transition
  | consume =>
    cases consumedAt with
    | none => cases transition
    | some now => exact .inr ⟨record,now,rfl⟩

end ChallengeFrame

namespace ChallengeLedger

-- No identifier is issued twice or consumed twice, and only what was issued is
-- consumed.
structure Sound (s : ChallengeLedger) : Prop where
  issued : (s.issued.map fun c : ChallengeRecord => c.1.id).Nodup
  consumed : s.consumed.Nodup
  known : ∀ id ∈ s.consumed, ∃ c ∈ s.issued, c.1.id = id

def issuing (s : ChallengeLedger) (record : ChallengeRecord) : ChallengeLedger := { s with issued := s.issued ++ [record] }

def consuming (s : ChallengeLedger) (id : String) : ChallengeLedger := { s with consumed := s.consumed ++ [id] }

variable {s s' : ChallengeLedger} {record : ChallengeRecord}

theorem take_issued : s.take (.issued record) = some s' ↔ s.find record.1.id = none ∧ s' = s.issuing record := by
  change (if (s.find record.1.id).isSome then none else some (s.issuing record)) = some s' ↔ _
  cases s.find record.1.id with
  | none => simp [eq_comm]
  | some c => simp

theorem take_consumed : s.take (.consumed record now) = some s' ↔
    s.find record.1.id = some record ∧ record.1.id ∉ s.consumed ∧ openAt record.1.issuedAt record.1.expiresAt now = true ∧
      s' = s.consuming record.1.id := by
  change (if s.find record.1.id ≠ some record ∨ record.1.id ∈ s.consumed ∨ openAt record.1.issuedAt record.1.expiresAt now = false then none
    else some (s.consuming record.1.id)) = some s' ↔ _
  split
  · rename_i refused
    simp only [reduceCtorEq,false_iff]
    rintro ⟨found,fresh,timely,_⟩
    simp [found,fresh,timely] at refused
  · rename_i admitted
    simp only [not_or,ne_eq,not_not,Bool.not_eq_false] at admitted
    simp [admitted,eq_comm]

theorem find_some {id : String} (found : s.find id = some record) : record ∈ s.issued ∧ record.1.id = id := Keyed.find_key found

theorem nodup_snoc {α : Type} {x : α} {xs : List α} (unique : xs.Nodup) (absent : x ∉ xs) : (xs ++ [x]).Nodup := by
  rw [List.nodup_append]
  refine ⟨unique,List.nodup_singleton x,?_⟩
  intro a member b last
  rw [List.mem_singleton.mp last]
  exact fun same => absent (same ▸ member)

theorem take_sound {f : ChallengeFrame} (sound : s.Sound) (taken : s.take f = some s') : s'.Sound := by
  rcases f.cases with ⟨record,rfl⟩ | ⟨record,now,rfl⟩
  · obtain ⟨absent,rfl⟩ := take_issued.mp taken
    refine ⟨?_,sound.consumed,?_⟩
    · rw [issuing,List.map_append,List.map_singleton]
      apply nodup_snoc sound.issued
      exact Keyed.find_none.mp absent
    · intro id member
      obtain ⟨c,inside,named⟩ := sound.known id member
      exact ⟨c,List.mem_append_left _ inside,named⟩
  · obtain ⟨found,fresh,_,rfl⟩ := take_consumed.mp taken
    refine ⟨sound.issued,?_,?_⟩
    · exact nodup_snoc sound.consumed fresh
    · intro id member
      rcases List.mem_append.mp member with old | new
      · exact sound.known id old
      · rw [List.mem_singleton.mp new]
        exact ⟨record,(find_some found).1,rfl⟩

theorem empty_sound : Sound ⟨[],[]⟩ := by
  refine ⟨List.nodup_nil,List.nodup_nil,?_⟩
  intro id member
  cases member

end ChallengeLedger

namespace WebAuthnChallengeStore

theorem decode_ledger (content : Option Utf8.Bytes) :
    decode content = FrameLedger.decode ChallengeFrame.codec ChallengeLedger.take ⟨[],[]⟩ content :=
  recordsUnlocked_ledger frame_object _ _ content

theorem decode_extended {content : Option Utf8.Bytes} {s s' : ChallengeLedger} {f : ChallengeFrame} (read : decode content = some s)
    (taken : s.take f = some s') : decode (FrameLedger.extended content (serialize ChallengeFrame.codec f)) = some s' := by
  rw [decode_ledger] at read ⊢
  exact FrameLedger.decode_extended frame_object read taken

theorem decode_part {content : Option Utf8.Bytes} {part : Utf8.Bytes} {s s' : ChallengeLedger} {f : ChallengeFrame}
    (read : decode content = some s) (first : part <+: serialize ChallengeFrame.codec f)
    (later : decode (FrameLedger.extended content part) = some s') : s' = s ∨ s.take f = some s' := by
  rw [decode_ledger] at read later
  rcases FrameLedger.decode_part frame_object read first later with same | ⟨_,taken⟩
  · exact .inl same
  · exact .inr taken

theorem decode_sound {content : Option Utf8.Bytes} {s : ChallengeLedger} (read : decode content = some s) : s.Sound := by
  rw [decode_ledger] at read
  obtain ⟨rs,_,held⟩ := (FrameLedger.decode_iff frame_object content s).mp read
  exact FrameLedger.replayed_holds (P := fun _ s => s.Sound) ChallengeLedger.empty_sound
    (fun _ _ _ _ sound taken => ChallengeLedger.take_sound sound taken) held

-- A challenge is consumed once, while it is open, and the ledger has it then.
theorem consume_some {content : Option Utf8.Bytes} {id : String} {now : UtcTime} {record : ChallengeRecord} {bytes : Utf8.Bytes}
    (taken : consume id now content = some (record,bytes)) : ∃ s, decode content = some s ∧ s.find id = some record ∧
      id ∉ s.consumed ∧ openAt record.1.issuedAt record.1.expiresAt now = true ∧
      decode (FrameLedger.extended content bytes) = some (s.consuming id) := by
  obtain ⟨s,read,taken⟩ := Option.bind_eq_some_iff.mp taken
  obtain ⟨found,known,taken⟩ := Option.bind_eq_some_iff.mp taken
  split at taken
  · cases taken
  · rename_i admitted
    cases taken
    simp only [not_or,Bool.not_eq_false] at admitted
    have named := (ChallengeLedger.find_some known).2
    refine ⟨s,read,known,admitted.1,admitted.2,?_⟩
    apply decode_extended read
    apply ChallengeLedger.take_consumed.mpr
    rw [named]
    exact ⟨known,admitted.1,admitted.2,rfl⟩

theorem consume_open {content : Option Utf8.Bytes} {id : String} {now : UtcTime} {record : ChallengeRecord} {s : ChallengeLedger}
    (read : decode content = some s) (known : s.find id = some record) (fresh : id ∉ s.consumed)
    (timely : openAt record.1.issuedAt record.1.expiresAt now = true) :
    consume id now content = some (record,serialize ChallengeFrame.codec (.consumed record now)) := by
  simp [consume,read,known,fresh,timely]

end WebAuthnChallengeStore

namespace WebAuthnCredentialStore

theorem decode_ledger (content : Option Utf8.Bytes) :
    decode content = FrameLedger.decode CredentialRecord.codec take [] content :=
  recordsUnlocked_ledger credential_object _ _ content

theorem take_some {records records' : List CredentialRecord} {record : CredentialRecord} :
    take records record = some records' ↔ find records record.1.id = none ∧ records' = records ++ [record] := by
  unfold take
  cases find records record.1.id with
  | none => simp [eq_comm]
  | some c => simp

-- A put that adds a record; the ledger has it behind the others then.
theorem put_added {content : Option Utf8.Bytes} {record : CredentialRecord} {bytes : Utf8.Bytes} {records : List CredentialRecord}
    (read : decode content = some records) (added : put record content = some (true,some bytes)) :
    find records record.1.id = none ∧ decode (FrameLedger.extended content bytes) = some (records ++ [record]) := by
  simp only [put,read,Option.bind_some] at added
  cases known : find records record.1.id with
  | some existing =>
    simp only [known] at added
    split at added <;> cases added
  | none =>
    simp only [known,Option.some.injEq,Prod.mk.injEq,true_and] at added
    refine ⟨rfl,?_⟩
    rw [←added,decode_ledger]
    rw [decode_ledger] at read
    exact FrameLedger.decode_extended credential_object read (take_some.mpr ⟨known,rfl⟩)

theorem put_fresh (record : CredentialRecord) {content : Option Utf8.Bytes} {records : List CredentialRecord}
    (read : decode content = some records) (absent : find records record.1.id = none) :
    put record content = some (true,some (serialize CredentialRecord.codec record)) := by
  simp [put,read,absent]

end WebAuthnCredentialStore

end ControlPlane
