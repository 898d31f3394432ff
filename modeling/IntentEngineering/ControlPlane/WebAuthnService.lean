import IntentEngineering.ControlPlane.WebAuthnStore
import IntentEngineering.Library.Base64
import IntentEngineering.Library.Sha256

open Schema ByteFrames

namespace ControlPlane

def rpId : String := "localhost"

def challengeBytes : Nat := 32

structure RegistrationRequest where
  challenge : Utf8.Bytes
  rpId : String
  expectedOrigin : String
  projectId : String
  repositoryId : String
  actor : String

structure VerifiedRegistration where
  credentialId : Utf8.Bytes
  publicKey : Utf8.Bytes
  signCount : Int
  userVerified : Bool

structure AuthenticationRequest where
  challenge : Utf8.Bytes
  rpId : String
  expectedOrigin : String
  projectId : String
  repositoryId : String
  actor : String
  payloadBytes : Utf8.Bytes
  credentials : List CredentialRecord

structure VerifiedAuthentication where
  credentialId : Utf8.Bytes
  newSignCount : Int
  userVerified : Bool

structure VerifiedHumanDecision where
  payload : HumanDecisionPayload
  credential : CredentialRecord
  verifiedAt : UtcTime

-- The four operations of the platform and the challenge that a registration
-- response names; `none` where they raise.
structure WebAuthnVerifier where
  registrationOptions : RegistrationRequest → Option Utf8.Bytes
  verifyRegistration : Utf8.Bytes → RegistrationRequest → Option VerifiedRegistration
  authenticationOptions : AuthenticationRequest → Option Utf8.Bytes
  verifyAuthentication : Utf8.Bytes → AuthenticationRequest → Option VerifiedAuthentication
  clientChallenge : Utf8.Bytes → Option Utf8.Bytes

-- `_b64url`
def b64url (value : Utf8.Bytes) : String := String.ofList (Base64.encode value)

-- `hashlib.sha256(payload_bytes).digest()`
def sha256Digest (message : Utf8.Bytes) : Utf8.Bytes :=
  let s := Sha256.digest message
  [s.a,s.b,s.c,s.d,s.e,s.f,s.g,s.h].flatMap fun w => (List.range 4).map fun i => UInt8.ofNat (w.toNat / 256 ^ (3 - i))

-- `bytes.hex`
def hexText (value : Utf8.Bytes) : String :=
  String.ofList (value.flatMap fun b => [Sha256.hexDigit (b.toNat / 16),Sha256.hexDigit (b.toNat % 16)])

def payloadDigest (payloadBytes : Utf8.Bytes) : String := "sha256:" ++ Sha256.hexdigest payloadBytes

def counterRecordId (credentialId : Utf8.Bytes) (signCount : Nat) : String :=
  "credential:" ++ Sha256.hexdigest credentialId ++ ":" ++ toString signCount

-- The two ledgers of one repository.
structure Ledgers where
  credentials : Option Utf8.Bytes
  challenges : Option Utf8.Bytes

structure WebAuthnService where
  projectId : String
  repositoryId : String
  expectedOrigin : String
  configured : (identifier projectId && isRepositoryId repositoryId) = true

-- Options that were made, and the challenge to be issued with them.
structure Prepared where
  options : Utf8.Bytes
  record : ChallengeRecord

-- `_current_credentials` of one group, in the order of the ledger.
def latestCredential (records : List CredentialRecord) : Option CredentialRecord :=
  match records with
  | [] => none
  | first :: rest =>
    if rest.any fun r => r.1.invariant ≠ first.1.invariant then none
    else
      let maximum := (first :: rest).foldl (fun n r => max n r.1.signCount) 0
      match (first :: rest).filter fun r => r.1.signCount == maximum with
      | [latest] => some latest
      | _ => none

namespace WebAuthnService

variable (s : WebAuthnService) (v : WebAuthnVerifier)

def binds (c : CredentialRecord) : Bool := c.1.projectId == s.projectId && c.1.repositoryId == s.repositoryId

def currentCredentials (actor : String) (records : List CredentialRecord) : Option (List CredentialRecord) :=
  if records.any fun r => !s.binds r then none
  else
    let groups := (Keyed.fromKeys (records.map fun r => r.1.credentialId)).map fun id => records.filter fun r => r.1.credentialId == id
    (groups.mapM latestCredential).map fun latest =>
      Keyed.inOrder (fun r : CredentialRecord => r.1.credentialId) (latest.filter fun r => r.1.actor == actor)

-- `_valid_actor_call`, but for the time, which is one already.
def validActorCall (actor origin : String) : Bool := actor != "" && origin == s.expectedOrigin

def registrationRequest (challenge : Utf8.Bytes) (actor : String) : RegistrationRequest :=
  ⟨challenge,rpId,s.expectedOrigin,s.projectId,s.repositoryId,actor⟩

def authenticationRequest (payload : HumanDecisionPayload) (credentials : List CredentialRecord) : AuthenticationRequest :=
  ⟨sha256Digest payload.1.canonicalBytes,rpId,s.expectedOrigin,s.projectId,s.repositoryId,payload.1.actor,payload.1.canonicalBytes,
    credentials⟩

-- The challenge of either ceremony, for five minutes from now; `none` past the
-- last year or where the record is not valid.
def challengeRecord (id actor : String) (ceremony : Ceremony) (challenge : Utf8.Bytes) (digest : Option String) (now : UtcTime) :
    Option ChallengeRecord :=
  (now.later maxChallengeLifetime).bind fun expires =>
    ChallengeRecord.build ⟨id,s.projectId,s.repositoryId,actor,ceremony,b64url challenge,digest,now,expires⟩

-- `_registration_options` up to the issue, with what the challenge source gave.
def prepareRegistration (source : Option Utf8.Bytes) (actor origin : String) (now : UtcTime) : Option Prepared :=
  if s.validActorCall actor origin = false then none
  else source.bind fun challenge =>
    if challenge.length ≠ challengeBytes then none
    else (v.registrationOptions (s.registrationRequest challenge actor)).bind fun options =>
      if options = [] then none
      else (s.challengeRecord ("challenge:" ++ hexText challenge) actor .registration challenge none now).map fun record => ⟨options,record⟩

-- `_validate_decision_call`
def validDecisionCall (payload : HumanDecisionPayload) (origin : String) (now : UtcTime) : Bool :=
  origin == s.expectedOrigin && payload.1.projectId == s.projectId && payload.1.repositoryId == s.repositoryId &&
    openAt payload.1.issuedAt payload.1.expiresAt now

-- `_authentication_options` up to the issue.
def prepareAuthentication (payload : HumanDecisionPayload) (origin : String) (now : UtcTime) (credentials : Option Utf8.Bytes) :
    Option Prepared :=
  if s.validDecisionCall payload origin now = false then none
  else ((WebAuthnCredentialStore.decode credentials).bind (s.currentCredentials payload.1.actor)).bind fun current =>
    if current = [] then none
    else (v.authenticationOptions (s.authenticationRequest payload current)).bind fun options =>
      if options = [] then none
      else (s.challengeRecord payload.1.challenge payload.1.actor .authentication (sha256Digest payload.1.canonicalBytes)
        (some (payloadDigest payload.1.canonicalBytes)) now).map fun record => ⟨options,record⟩

-- The other half of either: the frame that is appended before the options are returned.
def issuePrepared (p : Prepared) (challenges : Option Utf8.Bytes) : Option Utf8.Bytes :=
  match WebAuthnChallengeStore.issue p.record challenges with
  | some (true,some frame) => some frame
  | _ => none

-- What the challenge of a registration must say.
def registrationBound (record : ChallengeRecord) (challenge : Utf8.Bytes) (actor : String) : Bool :=
  record.1.projectId == s.projectId && record.1.repositoryId == s.repositoryId && record.1.actor == actor &&
    record.1.ceremony == .registration && record.1.payloadDigest.isNone && record.1.challenge == b64url challenge

def admissible (verified : VerifiedRegistration) : Bool :=
  !verified.credentialId.isEmpty && !verified.publicKey.isEmpty && decide (0 ≤ verified.signCount ∧ verified.signCount ≤ 2 ^ 32 - 1) &&
    verified.userVerified

def enrolment (verified : VerifiedRegistration) (actor : String) (now : UtcTime) : CredentialDraft where
  id := counterRecordId verified.credentialId verified.signCount.toNat
  projectId := s.projectId
  repositoryId := s.repositoryId
  actor := actor
  credentialId := b64url verified.credentialId
  publicKey := b64url verified.publicKey
  signCount := verified.signCount.toNat
  createdAt := now
  localOnly := true
  githubAccountId := none
  githubLogin := none

-- `_register` inside its transaction; a call that raises leaves both ledgers as they were.
def register (response : Utf8.Bytes) (actor origin : String) (now : UtcTime) (l : Ledgers) : Option (CredentialRecord × Ledgers) :=
  if s.validActorCall actor origin = false then none
  else (v.clientChallenge response).bind fun challenge =>
    if challenge.length ≠ challengeBytes then none
    else (WebAuthnChallengeStore.consume ("challenge:" ++ hexText challenge) now l.challenges).bind fun (record,consumption) =>
      if s.registrationBound record challenge actor = false then none
      else (v.verifyRegistration response (s.registrationRequest challenge actor)).bind fun verified =>
        if admissible verified = false then none
        else (WebAuthnCredentialStore.decode l.credentials).bind fun records =>
          if records.any fun r => r.1.credentialId == b64url verified.credentialId then none
          else (CredentialRecord.build (s.enrolment verified actor now)).bind fun credential =>
            match WebAuthnCredentialStore.put credential l.credentials with
            | some (true,some frame) =>
              some (credential,⟨FrameLedger.extended l.credentials frame,FrameLedger.extended l.challenges consumption⟩)
            | _ => none

-- What the challenge of a decision must say.
def authenticationBound (record : ChallengeRecord) (payload : HumanDecisionPayload) : Bool :=
  record.1.projectId == s.projectId && record.1.repositoryId == s.repositoryId && record.1.actor == payload.1.actor &&
    record.1.ceremony == .authentication && record.1.payloadDigest == some (payloadDigest payload.1.canonicalBytes) &&
    record.1.challenge == b64url (sha256Digest payload.1.canonicalBytes)

-- `_verified_authentication`
def verifiedAuthentication (result : VerifiedAuthentication) : Bool :=
  !result.credentialId.isEmpty && decide (0 ≤ result.newSignCount ∧ result.newSignCount ≤ 2 ^ 32 - 1) && result.userVerified

def rolledBack (credential : CredentialRecord) (count : Nat) : Bool :=
  (credential.1.signCount,count) != (0,0) && decide (count ≤ credential.1.signCount)

-- `model_copy` under a new count.
def recounted (c : CredentialRecord) (credentialId : Utf8.Bytes) (count : Nat) : CredentialDraft :=
  { c.1 with id := counterRecordId credentialId count, signCount := count }

-- The credential at its new count, and the ledger that holds it.
def counted (credential : CredentialRecord) (credentialId : Utf8.Bytes) (count : Nat) (content : Option Utf8.Bytes) :
    Option (CredentialRecord × Option Utf8.Bytes) :=
  if count = credential.1.signCount then some (credential,content)
  else (CredentialRecord.build (recounted credential credentialId count)).bind fun next =>
    match WebAuthnCredentialStore.put next content with
    | some (true,some frame) => some (next,FrameLedger.extended content frame)
    | _ => none

-- `_verify` inside its transaction.
def verify (response : Utf8.Bytes) (payload : HumanDecisionPayload) (origin : String) (now : UtcTime) (l : Ledgers) :
    Option (VerifiedHumanDecision × Ledgers) :=
  if s.validDecisionCall payload origin now = false then none
  else (WebAuthnChallengeStore.consume payload.1.challenge now l.challenges).bind fun (record,consumption) =>
    if s.authenticationBound record payload = false then none
    else ((WebAuthnCredentialStore.decode l.credentials).bind (s.currentCredentials payload.1.actor)).bind fun current =>
      if current = [] then none
      else (v.verifyAuthentication response (s.authenticationRequest payload current)).bind fun result =>
        if verifiedAuthentication result = false then none
        else (current.find? fun r => r.1.credentialId == b64url result.credentialId).bind fun credential =>
          if rolledBack credential result.newSignCount.toNat then none
          else (counted credential result.credentialId result.newSignCount.toNat l.credentials).map fun (verified,credentials) =>
            (⟨payload,verified,now⟩,⟨credentials,FrameLedger.extended l.challenges consumption⟩)

end WebAuthnService

end ControlPlane
