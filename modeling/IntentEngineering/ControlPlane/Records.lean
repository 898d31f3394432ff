import IntentEngineering.Library.ByteFrames
import IntentEngineering.Library.TimeSpan
import IntentEngineering.Models.Tasks

open Schema

namespace ControlPlane

inductive DecisionAction where
  | confirmBaseline
  | answerClarification
  | confirmProposal
  | resolveConflict
  | publishState
  | approveExternalWrite
deriving DecidableEq

namespace DecisionAction

def spelling : DecisionAction → String
  | .confirmBaseline => "confirm_baseline"
  | .answerClarification => "answer_clarification"
  | .confirmProposal => "confirm_proposal"
  | .resolveConflict => "resolve_conflict"
  | .publishState => "publish_state"
  | .approveExternalWrite => "approve_external_write"

def all : List DecisionAction :=
  [.confirmBaseline,.answerClarification,.confirmProposal,.resolveConflict,.publishState,.approveExternalWrite]

def codec : Codec DecisionAction := .spelled spelling all (by intro a; cases a <;> decide)

-- The actions that name the nodes they are about.
def selects : DecisionAction → Bool
  | .confirmBaseline | .confirmProposal => true
  | _ => false

end DecisionAction

inductive Ceremony where
  | registration
  | authentication
deriving DecidableEq

namespace Ceremony

def spelling : Ceremony → String
  | .registration => "registration"
  | .authentication => "authentication"

def codec : Codec Ceremony := .spelled spelling [.registration,.authentication] (by intro a; cases a <;> decide)

end Ceremony

def maxIdentifierBytes : Nat := 512
def maxCredentialBytes : Nat := 4096
def maxSelectedNodeIds : Nat := 256
def maxPayloadBytes : Nat := 16 * 1024

-- Five minutes, in microseconds.
def maxChallengeLifetime : Nat := 5 * 60 * 1000000

-- `_exact_string`; as many characters take at least as many bytes, so the
-- limits on characters say nothing more.
def exactString (maximum : Nat) (s : String) : Bool := s != "" && decide (utf8Length s ≤ maximum)

def identifier : String → Bool := exactString maxIdentifierBytes

def isRepositoryId : String → Bool := isPrefixedHash "repo:sha256:"
def isChallengeId : String → Bool := isPrefixedHash "challenge:"

def isLower (c : Char) : Bool := decide (97 ≤ c.toNat ∧ c.toNat ≤ 122)
def isUpper (c : Char) : Bool := decide (65 ≤ c.toNat ∧ c.toNat ≤ 90)
def isDigit (c : Char) : Bool := decide (48 ≤ c.toNat ∧ c.toNat ≤ 57)

-- `_SUBJECT_KIND_PATTERN.fullmatch`
def isSubjectKind (s : String) : Bool :=
  match s.toList with
  | [] => false
  | c :: cs => isLower c && decide (cs.length ≤ 63) && cs.all fun d => isLower d || isDigit d || d == '_' || d == '-'

-- `_BASE64URL_PATTERN.fullmatch`
def isBase64Url (s : String) : Bool :=
  s != "" && s.toList.all fun c => isUpper c || isLower c || isDigit c || c == '_' || c == '-'

-- `_utc_timestamp` of a text: only the canonical one.
def utcTimestamp (s : String) : Option UtcTime :=
  (DateTime.read s.toList).bind fun t =>
    if utc : t.offset = some 0 then (if t.text = s.toList then some ⟨t,utc⟩ else none) else none

-- `_canonical_timestamp`
def canonicalTimestamp (t : UtcTime) : String := String.ofList t.1.text

theorem utcTimestamp_canonical (t : UtcTime) : utcTimestamp (canonicalTimestamp t) = some t := by
  have read := DateTime.read_text t.1
  simp only [utcTimestamp,canonicalTimestamp,String.toList_ofList,read,Option.bind_some,t.2,if_true,dite_true]

def timestampCodec : Codec UtcTime := Codec.string.convert utcTimestamp canonicalTimestamp utcTimestamp_canonical

instance : timestampCodec.Finite := inferInstanceAs (Codec.convert ..).Finite

-- The window of a challenge or of a decision.
def withinLifetime (issuedAt expiresAt : UtcTime) : Bool :=
  decide (issuedAt.1.instant ≤ expiresAt.1.instant) && decide (expiresAt.1.instant - issuedAt.1.instant ≤ maxChallengeLifetime)

-- `issued_at <= now < expires_at`
def openAt (issuedAt expiresAt now : UtcTime) : Bool :=
  decide (issuedAt.1.instant ≤ now.1.instant) && decide (now.1.instant < expiresAt.1.instant)

structure DecisionSubject where
  kind : String
  id : String
  valid : (identifier kind && identifier id && isSubjectKind kind && (kind ++ ":").toList.isPrefixOf id.toList) = true
deriving DecidableEq

namespace DecisionSubject

def build (kind id : String) : Option DecisionSubject :=
  if valid : (identifier kind && identifier id && isSubjectKind kind && (kind ++ ":").toList.isPrefixOf id.toList) = true then
    some ⟨kind,id,valid⟩
  else none

def fields := Fields.required "id" Codec.string <| Fields.required "kind" Codec.string Fields.nil (Fields.before_nil _)

def codec : Codec DecisionSubject :=
  (Codec.object fields).convert (fun (id,kind,_) => build kind id) (fun s => (s.id,s.kind,()))
    (fun s => dif_pos s.valid)

end DecisionSubject

structure HumanDecisionPayloadDraft where
  projectId : String
  repositoryId : String
  actor : String
  action : DecisionAction
  graphVersion : Nat
  parentBundleDigest : String
  subject : DecisionSubject
  subjectDigest : String
  selectedNodeIds : List String
  resultDigest : String
  challenge : String
  issuedAt : UtcTime
  expiresAt : UtcTime
deriving DecidableEq

namespace HumanDecisionPayloadDraft

def fields :=
  Fields.required "action" DecisionAction.codec <|
  Fields.required "actor" Codec.string <|
  Fields.required "challenge" Codec.string <|
  Fields.required "expires_at" timestampCodec <|
  Fields.required "graph_version" Codec.int.natural <|
  Fields.required "issued_at" timestampCodec <|
  Fields.required "parent_bundle_digest" Codec.string <|
  Fields.required "project_id" Codec.string <|
  Fields.required "repository_id" Codec.string <|
  Fields.required "result_digest" Codec.string <|
  Fields.defaulted "schema_version" (Codec.int.only 1) () <|
  Fields.defaulted "selected_node_ids" Codec.string.list [] <|
  Fields.required "subject" DecisionSubject.codec <|
  Fields.required "subject_digest" Codec.string Fields.nil (Fields.before_nil _)

def codec : Codec HumanDecisionPayloadDraft :=
  (Codec.object fields).convert
    (fun (action,actor,challenge,expiresAt,graphVersion,issuedAt,parentBundleDigest,projectId,repositoryId,resultDigest,_,
        selectedNodeIds,subject,subjectDigest,_) =>
      some ⟨projectId,repositoryId,actor,action,graphVersion,parentBundleDigest,subject,subjectDigest,selectedNodeIds,resultDigest,
        challenge,issuedAt,expiresAt⟩)
    (fun p => (p.action,p.actor,p.challenge,p.expiresAt,p.graphVersion,p.issuedAt,p.parentBundleDigest,p.projectId,p.repositoryId,
      p.resultDigest,(),p.selectedNodeIds,p.subject,p.subjectDigest,()))
    (fun _ => rfl)

variable (p : HumanDecisionPayloadDraft)

def canonicalBytes : Utf8.Bytes := ByteFrames.serialize codec p

-- `require_canonical_selected_nodes`
def selectionCanonical : Bool :=
  decide (p.selectedNodeIds.length ≤ maxSelectedNodeIds) && p.selectedNodeIds.all identifier &&
    decide (p.selectedNodeIds.Pairwise (· < ·))

-- The field validators and `validate_signed_binding`.
def valid : Bool :=
  identifier p.projectId && isRepositoryId p.repositoryId && identifier p.actor &&
    decide (p.graphVersion ≤ 2 ^ 63 - 1) && [p.parentBundleDigest,p.subjectDigest,p.resultDigest].all isHash &&
    isChallengeId p.challenge && p.selectionCanonical && withinLifetime p.issuedAt p.expiresAt &&
    p.action.selects == !p.selectedNodeIds.isEmpty && decide (p.canonicalBytes.length ≤ maxPayloadBytes)

end HumanDecisionPayloadDraft

abbrev HumanDecisionPayload := {p : HumanDecisionPayloadDraft // p.valid = true}

def HumanDecisionPayload.codec : Codec HumanDecisionPayload := HumanDecisionPayloadDraft.codec.checked HumanDecisionPayloadDraft.valid

structure CredentialDraft where
  id : String
  projectId : String
  repositoryId : String
  actor : String
  credentialId : String
  publicKey : String
  signCount : Nat
  createdAt : UtcTime
  localOnly : Bool
  githubAccountId : Option String
  githubLogin : Option String
deriving DecidableEq

namespace CredentialDraft

def fields :=
  Fields.required "actor" Codec.string <|
  Fields.required "created_at" timestampCodec <|
  Fields.required "credential_id" Codec.string <|
  Fields.defaulted "github_account_id" Codec.optionalString none <|
  Fields.defaulted "github_login" Codec.optionalString none <|
  Fields.required "id" Codec.string <|
  Fields.defaulted "local_only" Codec.bool true <|
  Fields.required "project_id" Codec.string <|
  Fields.required "public_key" Codec.string <|
  Fields.required "repository_id" Codec.string <|
  Fields.defaulted "schema_version" (Codec.int.only 1) () <|
  Fields.required "sign_count" Codec.int.natural Fields.nil (Fields.before_nil _)

def codec : Codec CredentialDraft :=
  (Codec.object fields).convert
    (fun (actor,createdAt,credentialId,githubAccountId,githubLogin,id,localOnly,projectId,publicKey,repositoryId,_,signCount,_) =>
      some ⟨id,projectId,repositoryId,actor,credentialId,publicKey,signCount,createdAt,localOnly,githubAccountId,githubLogin⟩)
    (fun c => (c.actor,c.createdAt,c.credentialId,c.githubAccountId,c.githubLogin,c.id,c.localOnly,c.projectId,c.publicKey,
      c.repositoryId,(),c.signCount,()))
    (fun _ => rfl)

variable (c : CredentialDraft)

-- A credential of this machine has no account behind it; any other names one.
def enrolled : Bool :=
  if c.localOnly then c.githubAccountId.isNone && c.githubLogin.isNone else c.githubAccountId.isSome && c.githubLogin.isSome

-- The field validators and `validate_credential`.
def valid : Bool :=
  identifier c.id && "credential:".toList.isPrefixOf c.id.toList && identifier c.projectId && isRepositoryId c.repositoryId &&
    identifier c.actor && [c.credentialId,c.publicKey].all (fun s => exactString maxCredentialBytes s && isBase64Url s) &&
    decide (c.signCount ≤ 2 ^ 32 - 1) && c.githubAccountId.all identifier && c.githubLogin.all identifier && c.enrolled

-- `model_dump(exclude={"id", "sign_count"})`
def invariant : CredentialDraft := { c with id := "", signCount := 0 }

end CredentialDraft

abbrev CredentialRecord := {c : CredentialDraft // c.valid = true}

namespace CredentialRecord

def codec : Codec CredentialRecord := CredentialDraft.codec.checked CredentialDraft.valid

def build (c : CredentialDraft) : Option CredentialRecord := if valid : c.valid = true then some ⟨c,valid⟩ else none

end CredentialRecord

structure ChallengeDraft where
  id : String
  projectId : String
  repositoryId : String
  actor : String
  ceremony : Ceremony
  challenge : String
  payloadDigest : Option String
  issuedAt : UtcTime
  expiresAt : UtcTime
deriving DecidableEq

namespace ChallengeDraft

variable (c : ChallengeDraft)

-- Only an authentication is bound to a decision.
def bound : Bool := (c.ceremony == .authentication) == c.payloadDigest.isSome

-- The field validators and `validate_challenge`.
def valid : Bool :=
  isChallengeId c.id && identifier c.projectId && isRepositoryId c.repositoryId && identifier c.actor &&
    exactString maxCredentialBytes c.challenge && isBase64Url c.challenge && c.payloadDigest.all isHash && c.bound &&
    withinLifetime c.issuedAt c.expiresAt

end ChallengeDraft

abbrev ChallengeRecord := {c : ChallengeDraft // c.valid = true}

def ChallengeRecord.build (c : ChallengeDraft) : Option ChallengeRecord := if valid : c.valid = true then some ⟨c,valid⟩ else none

inductive TransitionKind where
  | issue
  | consume
deriving DecidableEq

namespace TransitionKind

def spelling : TransitionKind → String
  | .issue => "issue"
  | .consume => "consume"

def codec : Codec TransitionKind := .spelled spelling [.issue,.consume] (by intro a; cases a <;> decide)

end TransitionKind

-- `_ChallengeFrame`: a challenge is issued without a time of consumption and
-- consumed with one.
structure ChallengeFrame where
  record : ChallengeRecord
  kind : TransitionKind
  consumedAt : Option UtcTime
  transition : (kind == .issue) = consumedAt.isNone

namespace ChallengeFrame

def optionalTimestamp : Codec (Option UtcTime) := timestampCodec.nullable nofun

def fields :=
  Fields.required "actor" Codec.string <|
  Fields.required "ceremony" Ceremony.codec <|
  Fields.required "challenge" Codec.string <|
  Fields.defaulted "consumed_at" optionalTimestamp none <|
  Fields.required "expires_at" timestampCodec <|
  Fields.required "id" Codec.string <|
  Fields.required "issued_at" timestampCodec <|
  Fields.required "kind" TransitionKind.codec <|
  Fields.defaulted "payload_digest" Codec.optionalString none <|
  Fields.required "project_id" Codec.string <|
  Fields.required "repository_id" Codec.string <|
  Fields.defaulted "schema_version" (Codec.int.only 1) () Fields.nil (Fields.before_nil _)

def build (record : ChallengeDraft) (kind : TransitionKind) (consumedAt : Option UtcTime) : Option ChallengeFrame :=
  (ChallengeRecord.build record).bind fun record =>
    if transition : (kind == .issue) = consumedAt.isNone then some ⟨record,kind,consumedAt,transition⟩ else none

theorem build_whole (f : ChallengeFrame) : build f.record.1 f.kind f.consumedAt = some f := by
  simp only [build,ChallengeRecord.build,f.record.2,dite_true,Option.bind_some,f.transition]

def codec : Codec ChallengeFrame :=
  (Codec.object fields).convert
    (fun (actor,ceremony,challenge,consumedAt,expiresAt,id,issuedAt,kind,payloadDigest,projectId,repositoryId,_) =>
      build ⟨id,projectId,repositoryId,actor,ceremony,challenge,payloadDigest,issuedAt,expiresAt⟩ kind consumedAt)
    (fun f => (f.record.1.actor,f.record.1.ceremony,f.record.1.challenge,f.consumedAt,f.record.1.expiresAt,f.record.1.id,
      f.record.1.issuedAt,f.kind,f.record.1.payloadDigest,f.record.1.projectId,f.record.1.repositoryId,(),()))
    build_whole

def issued (record : ChallengeRecord) : ChallengeFrame := ⟨record,.issue,none,rfl⟩

def consumed (record : ChallengeRecord) (now : UtcTime) : ChallengeFrame := ⟨record,.consume,some now,rfl⟩

end ChallengeFrame

section
instance : DecisionAction.codec.Finite := inferInstanceAs (Codec.spelled ..).Finite
instance : Ceremony.codec.Finite := inferInstanceAs (Codec.spelled ..).Finite
instance : TransitionKind.codec.Finite := inferInstanceAs (Codec.spelled ..).Finite
instance : ChallengeFrame.optionalTimestamp.Finite := inferInstanceAs (Codec.nullable ..).Finite
instance : CredentialDraft.fields.Finite := by unfold CredentialDraft.fields; infer_instance
instance : CredentialDraft.codec.Finite := inferInstanceAs (Codec.convert ..).Finite
instance : CredentialRecord.codec.Finite := inferInstanceAs (Codec.checked ..).Finite
instance : ChallengeFrame.fields.Finite := by unfold ChallengeFrame.fields; infer_instance
instance : ChallengeFrame.codec.Finite := inferInstanceAs (Codec.convert ..).Finite
end

theorem credential_object (c : CredentialRecord) : ∃ ms, CredentialRecord.codec.dump c = .obj ms := ⟨_,rfl⟩

theorem frame_object (f : ChallengeFrame) : ∃ ms, ChallengeFrame.codec.dump f = .obj ms := ⟨_,rfl⟩

end ControlPlane
