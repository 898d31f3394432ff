import IntentEngineering.ControlPlane.Records
import IntentEngineering.Library.FrameLedger
import IntentEngineering.Library.Keyed
import IntentEngineering.Library.PyEqual

open Schema Json JsonLines ByteFrames

namespace ControlPlane

section
variable {ρ σ : Type} (codec : Codec ρ)

-- One line of a ledger, as the strict reader, the model and the plain reader
-- of its canonical bytes make it out.
def readRecord (line : LineText.Line UInt8) : Option ρ :=
  if line.text.getLast? ≠ some 10 ∨ line.text = [10] then none
  else (Utf8.decode line.text.dropLast).bind fun cs =>
    (loads strictDialect cs).bind fun
      | .obj ms =>
        ((loads plainDialect cs).bind codec.load).bind fun r =>
          if serialize codec r ≠ line.text then none
          else (loads plainDialect (frame (codec.dump r))).bind fun again => if equal again (.obj ms) then some r else none
      | _ => none

def readRecords (step : σ → ρ → Option σ) : σ → List (LineText.Line UInt8) → Option σ
  | s, [] => some s
  | s, line :: rest => (readRecord codec line).bind fun r => (step s r).bind fun s' => readRecords step s' rest

-- `_records_unlocked`
def recordsUnlocked (step : σ → ρ → Option σ) (start : σ) (content : Option Utf8.Bytes) : Option σ :=
  match content with
  | none => some start
  | some bytes => readRecords codec step start (LineText.lines byteRule bytes)

end

-- What the challenge ledger says: the challenges issued, by identifier, and the
-- identifiers of those consumed.
structure ChallengeLedger where
  issued : List ChallengeRecord
  consumed : List String

namespace ChallengeLedger

def find (s : ChallengeLedger) (id : String) : Option ChallengeRecord := Keyed.find (fun c : ChallengeRecord => c.1.id) s.issued id

def take (s : ChallengeLedger) (f : ChallengeFrame) : Option ChallengeLedger :=
  match f.kind, f.consumedAt with
  | .issue, _ => if (s.find f.record.1.id).isSome then none else some { s with issued := s.issued ++ [f.record] }
  | .consume, none => none
  | .consume, some at' =>
    if s.find f.record.1.id ≠ some f.record ∨ f.record.1.id ∈ s.consumed ∨ openAt f.record.1.issuedAt f.record.1.expiresAt at' = false then none
    else some { s with consumed := s.consumed ++ [f.record.1.id] }

end ChallengeLedger

namespace WebAuthnChallengeStore

def decode (content : Option Utf8.Bytes) : Option ChallengeLedger :=
  recordsUnlocked ChallengeFrame.codec ChallengeLedger.take ⟨[],[]⟩ content

-- What each call returns and the frame it appends; `none` where it raises.
def issue (record : ChallengeRecord) (content : Option Utf8.Bytes) : Option (Bool × Option Utf8.Bytes) :=
  (decode content).bind fun s =>
    match s.find record.1.id with
    | some existing => if existing ≠ record then none else some (false,none)
    | none => some (true,some (serialize ChallengeFrame.codec (.issued record)))

def consume (id : String) (now : UtcTime) (content : Option Utf8.Bytes) : Option (ChallengeRecord × Utf8.Bytes) :=
  (decode content).bind fun s =>
    (s.find id).bind fun record =>
      if id ∈ s.consumed ∨ openAt record.1.issuedAt record.1.expiresAt now = false then none
      else some (record,serialize ChallengeFrame.codec (.consumed record now))

end WebAuthnChallengeStore

namespace WebAuthnCredentialStore

abbrev find : List CredentialRecord → String → Option CredentialRecord := Keyed.find fun c : CredentialRecord => c.1.id

def take (records : List CredentialRecord) (record : CredentialRecord) : Option (List CredentialRecord) :=
  if (find records record.1.id).isSome then none else some (records ++ [record])

-- `list`
def decode (content : Option Utf8.Bytes) : Option (List CredentialRecord) := recordsUnlocked CredentialRecord.codec take [] content

def put (record : CredentialRecord) (content : Option Utf8.Bytes) : Option (Bool × Option Utf8.Bytes) :=
  (decode content).bind fun records =>
    match find records record.1.id with
    | some existing => if existing ≠ record then none else some (false,none)
    | none => some (true,some (serialize CredentialRecord.codec record))

end WebAuthnCredentialStore

end ControlPlane
