import IntentEngineering.ControlPlane.HumanAuthority
import Mathlib.Data.Nat.Digits.Defs

open Schema ByteFrames

namespace ControlPlane

theorem base64_digit : ∀ n < 64, (isUpper (Base64.digit n) || isLower (Base64.digit n) || isDigit (Base64.digit n) ||
    Base64.digit n == '_' || Base64.digit n == '-') = true := by
  decide +kernel

theorem b64url_drawn {bytes : Utf8.Bytes} (some : bytes ≠ []) : isBase64Url (b64url bytes) = true := by
  obtain ⟨low,_⟩ := Base64.encode_length bytes
  have positive := List.length_pos_iff.mpr some
  simp only [isBase64Url,Bool.and_eq_true,bne_iff_ne,List.all_eq_true]
  constructor
  · intro empty
    have none := congrArg String.toList empty
    rw [b64url,String.toList_ofList] at none
    have zero : (Base64.encode bytes).length = 0 := by simp [none]
    omega
  · rw [b64url,String.toList_ofList]
    exact Base64.encode_drawn base64_digit bytes

-- A few hundred bytes are short enough once they are encoded.
theorem b64url_short {bytes : Utf8.Bytes} (some : bytes ≠ []) (short : bytes.length ≤ 512) :
    exactString maxCredentialBytes (b64url bytes) = true := by
  obtain ⟨_,high⟩ := Base64.encode_length bytes
  have drawn := b64url_drawn some
  simp only [isBase64Url,Bool.and_eq_true] at drawn
  have size := utf8Length_le (b64url bytes)
  rw [b64url,String.toList_ofList] at size
  simp only [exactString,Bool.and_eq_true,decide_eq_true_eq]
  refine ⟨drawn.1,?_⟩
  change utf8Length (String.ofList (Base64.encode bytes)) ≤ 4096
  omega

theorem challengeId_hex {challenge : Utf8.Bytes} (sized : challenge.length = challengeBytes) :
    isChallengeId ("challenge:" ++ hexText challenge) = true := by
  have length : (challenge.flatMap fun b => [Sha256.hexDigit (b.toNat / 16),Sha256.hexDigit (b.toNat % 16)]).length = 64 := by
    rw [List.length_flatMap]
    simp only [List.length_cons,List.length_nil,List.map_const',List.sum_replicate,sized,challengeBytes]
    rfl
  have digits : ∀ c ∈ challenge.flatMap fun b => [Sha256.hexDigit (b.toNat / 16),Sha256.hexDigit (b.toNat % 16)], PyText.isHex c = true := by
    intro c member
    obtain ⟨b,_,inside⟩ := List.mem_flatMap.mp member
    have small := b.toNat_lt
    simp only [List.mem_cons,List.not_mem_nil,or_false] at inside
    rcases inside with rfl | rfl
    · exact hexDigit_hex (by omega)
    · exact hexDigit_hex (by omega)
  simp only [isChallengeId,isPrefixedHash,hexText,String.toList_append,String.toList_ofList,List.drop_left,PyText.isHexDigest,length,
    beq_self_eq_true,Bool.true_and,Bool.and_eq_true]
  exact ⟨List.isPrefixOf_iff_prefix.mpr (List.prefix_append _ _),List.all_eq_true.mpr digits⟩

theorem sha256Digest_length (message : Utf8.Bytes) : (sha256Digest message).length = 32 := by
  simp [sha256Digest]

theorem counter_valid (credentialId : Utf8.Bytes) {count : Nat} (bounded : count ≤ 2 ^ 32 - 1) :
    identifier (counterRecordId credentialId count) = true ∧
      "credential:".toList.isPrefixOf (counterRecordId credentialId count).toList = true := by
  have digits : (toString count).toList.length ≤ 10 := by
    rw [String.length_toList]
    exact Nat.repr_length count 10 (by omega) (by omega)
  have hex := Sha256.hexdigest_length credentialId
  have size := utf8Length_le (counterRecordId credentialId count)
  constructor
  · simp only [identifier,exactString,Bool.and_eq_true,bne_iff_ne,decide_eq_true_eq]
    constructor
    · intro empty
      have none := congrArg String.toList empty
      simp [counterRecordId] at none
    · simp only [counterRecordId,String.toList_append,List.length_append,hex] at size
      have head : "credential:".toList.length = 11 := by decide
      have mark : ":".toList.length = 1 := by decide
      have most : maxIdentifierBytes = 512 := rfl
      unfold counterRecordId
      omega
  · simp [counterRecordId]

theorem credential_counted_valid {c : CredentialRecord} (credentialId : Utf8.Bytes) {count : Nat} (bounded : count ≤ 2 ^ 32 - 1) :
    (WebAuthnService.recounted c credentialId count).valid = true := by
  obtain ⟨c,valid⟩ := c
  obtain ⟨named,started⟩ := counter_valid credentialId bounded
  simp only [WebAuthnService.recounted,CredentialDraft.valid,Bool.and_eq_true,CredentialDraft.enrolled] at valid ⊢
  obtain ⟨⟨⟨⟨⟨⟨⟨⟨⟨_,_⟩,project⟩,repository⟩,actor⟩,material⟩,_⟩,account⟩,login⟩,enrolled⟩ := valid
  exact ⟨⟨⟨⟨⟨⟨⟨⟨⟨named,started⟩,project⟩,repository⟩,actor⟩,material⟩,decide_eq_true bounded⟩,account⟩,login⟩,enrolled⟩

namespace WebAuthnService
variable {s : WebAuthnService} {v : WebAuthnVerifier}

-- Records that are one or are told apart by their counts.
def Apart (a b : CredentialRecord) : Prop := a = b ∨ (a.1.credentialId = b.1.credentialId → a.1.signCount ≠ b.1.signCount)

instance : Std.Symm Apart where
  symm a b either := by
    rcases either with equal | differ
    · exact .inl equal.symm
    · exact .inr fun alike level => differ alike.symm level.symm

theorem latest_unique {records : List CredentialRecord} (counted : Counted records) {a b : CredentialRecord} (left : a ∈ records)
    (right : b ∈ records) (same : a.1.credentialId = b.1.credentialId) (level : a.1.signCount = b.1.signCount) : a = b := by
  have apart : records.Pairwise Apart := by
    apply counted.imp
    intro x y follows
    refine .inr fun alike level => ?_
    have rising := (follows alike).2
    omega
  rcases apart.forall_of_forall (fun x _ => .inl rfl) left right with equal | differ
  · exact equal
  · exact absurd level (differ same)

-- Whoever holds the highest record of a credential is offered it.
theorem currentCredentials_member {records current : List CredentialRecord} {c : CredentialRecord} {actor : String}
    (found : s.currentCredentials actor records = some current) (counted : Counted records) (member : c ∈ records)
    (acting : c.1.actor = actor) (highest : ∀ r ∈ records, r.1.credentialId = c.1.credentialId → r.1.signCount ≤ c.1.signCount) :
    c ∈ current := by
  unfold currentCredentials at found
  split at found
  · cases found
  · obtain ⟨latest,made,rfl⟩ := Option.map_eq_some_iff.mp found
    apply Keyed.inOrder_member.mpr
    refine List.mem_filter.mpr ⟨?_,beq_iff_eq.mpr acting⟩
    have listed : (records.filter fun r => r.1.credentialId == c.1.credentialId) ∈
        (Keyed.fromKeys (records.map fun r => r.1.credentialId)).map fun id => records.filter fun r => r.1.credentialId == id := by
      apply List.mem_map.mpr
      exact ⟨c.1.credentialId,Keyed.mem_fromKeys.mpr (List.mem_map_of_mem member),rfl⟩
    obtain ⟨d,inside,chosen⟩ := mapM_listed made listed
    obtain ⟨here,above⟩ := latestCredential_some chosen
    obtain ⟨there,named⟩ := List.mem_filter.mp here
    have mine : c ∈ records.filter fun r => r.1.credentialId == c.1.credentialId := List.mem_filter.mpr ⟨member,beq_iff_eq.mpr rfl⟩
    have same := beq_iff_eq.mp named
    have level : d.1.signCount = c.1.signCount := Nat.le_antisymm (highest d there same) (above c mine).2
    rw [←latest_unique counted there member same level]
    exact inside

theorem challengeRecord_valid {id actor : String} {ceremony : Ceremony} {challenge : Utf8.Bytes} {digest : Option String} {now expires : UtcTime}
    (named : isChallengeId id = true) (acting : identifier actor = true) (material : challenge ≠ []) (short : challenge.length ≤ 512)
    (hashed : digest.all isHash = true) (bound : ((ceremony == .authentication) == digest.isSome) = true)
    (later : now.later maxChallengeLifetime = some expires) :
    ∃ record, s.challengeRecord id actor ceremony challenge digest now = some record := by
  have sized := b64url_short material short
  have drawn := b64url_drawn material
  have configured := s.configured
  simp only [Bool.and_eq_true] at configured
  have moved := UtcTime.later_instant later
  have valid : ChallengeDraft.valid ⟨id,s.projectId,s.repositoryId,actor,ceremony,b64url challenge,digest,now,expires⟩ = true := by
    simp only [ChallengeDraft.valid,ChallengeDraft.bound,withinLifetime,Bool.and_eq_true,decide_eq_true_eq]
    exact ⟨⟨⟨⟨⟨⟨⟨⟨named,configured.1⟩,configured.2⟩,acting⟩,sized⟩,drawn⟩,hashed⟩,bound⟩,by omega,by omega⟩
  exact ⟨⟨_,valid⟩,by simp [challengeRecord,later,ChallengeRecord.build,valid]⟩

theorem prepareAuthentication_made {payload : HumanDecisionPayload} {origin : String} {now : UtcTime} {credentials : Option Utf8.Bytes}
    {records current : List CredentialRecord} {options : Utf8.Bytes} (allowed : s.validDecisionCall payload origin now = true)
    (read : WebAuthnCredentialStore.decode credentials = some records) (found : s.currentCredentials payload.1.actor records = some current)
    (held : current ≠ []) (offered : v.authenticationOptions (s.authenticationRequest payload current) = some options) (shown : options ≠ [])
    {expires : UtcTime} (later : now.later maxChallengeLifetime = some expires) :
    ∃ p, s.prepareAuthentication v payload origin now credentials = some p := by
  have valid := payload.2
  simp only [HumanDecisionPayloadDraft.valid,Bool.and_eq_true] at valid
  obtain ⟨⟨⟨⟨⟨⟨⟨⟨⟨_,_⟩,acting⟩,_⟩,_⟩,named⟩,_⟩,_⟩,_⟩,_⟩ := valid
  have length := sha256Digest_length payload.1.canonicalBytes
  have material : sha256Digest payload.1.canonicalBytes ≠ [] := by
    intro empty
    rw [empty] at length
    cases length
  have hashed : (some (payloadDigest payload.1.canonicalBytes)).all isHash = true := isPrefixedHash_hexdigest "sha256:" _
  have made : ∃ record, s.challengeRecord payload.1.challenge payload.1.actor .authentication (sha256Digest payload.1.canonicalBytes)
      (some (payloadDigest payload.1.canonicalBytes)) now = some record :=
    challengeRecord_valid named acting material (by omega) hashed rfl later
  obtain ⟨record,made⟩ := made
  exact ⟨⟨options,record⟩,by simp [prepareAuthentication,allowed,read,found,held,offered,shown,made]⟩

theorem enrolment_valid {verified : VerifiedRegistration} {actor : String} (now : UtcTime) (acting : identifier actor = true)
    (admitted : admissible verified = true)
    (short : exactString maxCredentialBytes (b64url verified.credentialId) = true ∧ exactString maxCredentialBytes (b64url verified.publicKey) = true) :
    (s.enrolment verified actor now).valid = true := by
  simp only [admissible,Bool.and_eq_true,decide_eq_true_eq,Bool.not_eq_true',List.isEmpty_eq_false_iff] at admitted
  obtain ⟨⟨⟨identified,keyed⟩,_,bounded⟩,_⟩ := admitted
  have level : verified.signCount.toNat ≤ 2 ^ 32 - 1 := by omega
  obtain ⟨named,started⟩ := counter_valid verified.credentialId level
  have configured := s.configured
  simp only [Bool.and_eq_true] at configured
  have material : ([b64url verified.credentialId,b64url verified.publicKey].all
      fun s => exactString maxCredentialBytes s && isBase64Url s) = true := by
    simp [short.1,short.2,b64url_drawn identified,b64url_drawn keyed]
  simp only [enrolment,CredentialDraft.valid,CredentialDraft.enrolled,Bool.and_eq_true]
  exact ⟨⟨⟨⟨⟨⟨⟨⟨⟨named,started⟩,configured.1⟩,configured.2⟩,acting⟩,material⟩,decide_eq_true level⟩,rfl⟩,rfl⟩,rfl⟩

theorem prepareRegistration_made {challenge : Utf8.Bytes} {actor origin : String} {now expires : UtcTime} {options : Utf8.Bytes}
    (allowed : s.validActorCall actor origin = true) (acting : identifier actor = true) (sized : challenge.length = challengeBytes)
    (offered : v.registrationOptions (s.registrationRequest challenge actor) = some options) (shown : options ≠ [])
    (later : now.later maxChallengeLifetime = some expires) :
    ∃ p, s.prepareRegistration v (some challenge) actor origin now = some p ∧
      s.challengeRecord ("challenge:" ++ hexText challenge) actor .registration challenge none now = some p.record := by
  have material : challenge ≠ [] := by
    intro empty
    rw [empty] at sized
    cases sized
  have short : challenge.length ≤ 512 := by
    rw [sized]
    decide
  have made : ∃ record, s.challengeRecord ("challenge:" ++ hexText challenge) actor .registration challenge none now = some record :=
    challengeRecord_valid (challengeId_hex sized) acting material short rfl rfl later
  obtain ⟨record,made⟩ := made
  exact ⟨⟨options,record⟩,by simp [prepareRegistration,allowed,sized,offered,shown,made],made⟩

theorem register_made {response : Utf8.Bytes} {actor origin : String} {now : UtcTime} {l : Ledgers} {challenge : Utf8.Bytes}
    {ledger : ChallengeLedger} {record : ChallengeRecord} {records : List CredentialRecord} {verified : VerifiedRegistration}
    (allowed : s.validActorCall actor origin = true) (answered : v.clientChallenge response = some challenge)
    (sized : challenge.length = challengeBytes) (open' : WebAuthnChallengeStore.decode l.challenges = some ledger)
    (issued : ledger.find ("challenge:" ++ hexText challenge) = some record) (unspent : "challenge:" ++ hexText challenge ∉ ledger.consumed)
    (timely : openAt record.1.issuedAt record.1.expiresAt now = true) (bound : s.registrationBound record challenge actor = true)
    (confirmed : v.verifyRegistration response (s.registrationRequest challenge actor) = some verified)
    (admitted : admissible verified = true) (read : WebAuthnCredentialStore.decode l.credentials = some records)
    (fresh : ∀ r ∈ records, r.1.credentialId ≠ b64url verified.credentialId)
    (valid : (s.enrolment verified actor now).valid = true)
    (absent : WebAuthnCredentialStore.find records (counterRecordId verified.credentialId verified.signCount.toNat) = none) :
    ∃ l', s.register v response actor origin now l = some (⟨s.enrolment verified actor now,valid⟩,l') := by
  have spent := WebAuthnChallengeStore.consume_open open' issued unspent timely
  have added := WebAuthnCredentialStore.put_fresh ⟨s.enrolment verified actor now,valid⟩ read absent
  have new : (records.any fun r => r.1.credentialId == b64url verified.credentialId) = false := by
    apply List.any_eq_false.mpr
    intro r member
    simp [fresh r member]
  refine ⟨⟨FrameLedger.extended l.credentials (serialize CredentialRecord.codec ⟨s.enrolment verified actor now,valid⟩),
    FrameLedger.extended l.challenges (serialize ChallengeFrame.codec (.consumed record now))⟩,?_⟩
  simp only [register,allowed,Bool.true_eq_false,if_false,answered,Option.bind_some,sized,ne_eq,not_true_eq_false,spent,bound,confirmed,
    admitted,read,new,Bool.false_eq_true,CredentialRecord.build,valid,dite_true,added]

theorem issuePrepared_made {p : Prepared} {challenges : Option Utf8.Bytes} {ledger : ChallengeLedger}
    (read : WebAuthnChallengeStore.decode challenges = some ledger) (absent : ledger.find p.record.1.id = none) :
    issuePrepared p challenges = some (serialize ChallengeFrame.codec (.issued p.record)) := by
  simp [issuePrepared,WebAuthnChallengeStore.issue,read,absent]

theorem counted_made {c : CredentialRecord} {credentialId : Utf8.Bytes} {count : Nat} {content : Option Utf8.Bytes}
    {records : List CredentialRecord} (read : WebAuthnCredentialStore.decode content = some records) (up : c.1.signCount < count)
    (bounded : count ≤ 2 ^ 32 - 1) (absent : WebAuthnCredentialStore.find records (counterRecordId credentialId count) = none) :
    ∃ next content', counted c credentialId count content = some (next,content') ∧
      next.1 = recounted c credentialId count := by
  have valid := credential_counted_valid (c := c) credentialId bounded
  have added := WebAuthnCredentialStore.put_fresh ⟨_,valid⟩ read absent
  refine ⟨⟨recounted c credentialId count,valid⟩,
    FrameLedger.extended content (serialize CredentialRecord.codec ⟨recounted c credentialId count,valid⟩),?_,rfl⟩
  simp only [counted,CredentialRecord.build,valid,dite_true,Option.bind_some,added,if_neg up.ne']

theorem verify_made {response : Utf8.Bytes} {payload : HumanDecisionPayload} {origin : String} {now : UtcTime} {l : Ledgers}
    {ledger : ChallengeLedger} {record : ChallengeRecord} {records current : List CredentialRecord} {c : CredentialRecord}
    {credentialId : Utf8.Bytes} {count : Nat} (allowed : s.validDecisionCall payload origin now = true)
    (open' : WebAuthnChallengeStore.decode l.challenges = some ledger) (issued : ledger.find payload.1.challenge = some record)
    (unspent : payload.1.challenge ∉ ledger.consumed) (timely : openAt record.1.issuedAt record.1.expiresAt now = true)
    (bound : s.authenticationBound record payload = true) (read : WebAuthnCredentialStore.decode l.credentials = some records)
    (found : s.currentCredentials payload.1.actor records = some current)
    (chosen : current.find? (fun r => r.1.credentialId == b64url credentialId) = some c) (named : credentialId ≠ [])
    (confirmed : v.verifyAuthentication response (s.authenticationRequest payload current) = some ⟨credentialId,count,true⟩)
    (up : c.1.signCount < count) (bounded : count ≤ 2 ^ 32 - 1)
    (absent : WebAuthnCredentialStore.find records (counterRecordId credentialId count) = none) :
    ∃ d l', s.verify v response payload origin now l = some (d,l') ∧ d.payload = payload ∧
      d.credential.1 = recounted c credentialId count := by
  have spent := WebAuthnChallengeStore.consume_open open' issued unspent timely
  obtain ⟨next,content,made,shape⟩ := counted_made read up bounded absent
  have held : current ≠ [] := List.ne_nil_of_mem (List.mem_of_find?_eq_some chosen)
  have whole : verifiedAuthentication ⟨credentialId,count,true⟩ = true := by
    simp only [verifiedAuthentication,Bool.and_eq_true,decide_eq_true_eq,Bool.not_eq_true',List.isEmpty_eq_false_iff]
    exact ⟨⟨named,by omega⟩,trivial⟩
  have forward : rolledBack c count = false := by
    simp only [rolledBack,Bool.and_eq_false_iff,decide_eq_false_iff_not]
    exact .inr (by omega)
  refine ⟨⟨payload,next,now⟩,
    ⟨content,FrameLedger.extended l.challenges (serialize ChallengeFrame.codec (.consumed record now))⟩,?_,rfl,shape⟩
  simp only [verify,allowed,Bool.true_eq_false,if_false,spent,Option.bind_some,bound,read,found,if_neg held,confirmed,whole,chosen,
    Int.toNat_natCast,forward,Bool.false_eq_true,made,Option.map_some]

end WebAuthnService

-- One decision of an actor: what is signed, when it is asked and answered, and
-- the count that the authenticator answers with.
structure Attempt where
  payload : HumanDecisionPayload
  verifier : WebAuthnVerifier
  response : Utf8.Bytes
  asked : UtcTime
  answered : UtcTime
  count : Nat

-- An attempt that keeps to what the service asks of a holder of the credential.
structure Attempt.Honest (a : Attempt) (s : WebAuthnService) (actor : String) (credentialId : Utf8.Bytes) : Prop where
  acting : a.payload.1.actor = actor
  project : a.payload.1.projectId = s.projectId
  repository : a.payload.1.repositoryId = s.repositoryId
  asks : openAt a.payload.1.issuedAt a.payload.1.expiresAt a.asked = true
  answers : openAt a.payload.1.issuedAt a.payload.1.expiresAt a.answered = true
  prompt : ∃ expires, a.asked.later maxChallengeLifetime = some expires ∧ openAt a.asked expires a.answered = true
  offers : ∀ request, ∃ options, a.verifier.authenticationOptions request = some options ∧ options ≠ []
  confirms : ∀ request, a.verifier.verifyAuthentication a.response request = some ⟨credentialId,a.count,true⟩
  bounded : a.count ≤ 2 ^ 32 - 1

-- The ledgers as the next decision with a credential finds them.
structure World.Ready (w : World) (s : WebAuthnService) (ledger : ChallengeLedger) (records : List CredentialRecord) (c : CredentialRecord)
    (credentialId : Utf8.Bytes) : Prop where
  challenges : WebAuthnChallengeStore.decode w.ledgers.challenges = some ledger
  credentials : WebAuthnCredentialStore.decode w.ledgers.credentials = some records
  counted : Counted records
  binds : ∀ r ∈ records, s.binds r = true
  known : c ∈ records
  named : c.1.credentialId = b64url credentialId
  some : credentialId ≠ []
  highest : ∀ r ∈ records, r.1.credentialId = c.1.credentialId → r.1.signCount ≤ c.1.signCount

namespace World

-- An honest attempt with a fresh challenge and a higher count is decided, and
-- leaves the ledgers ready for the next.
theorem attempt_decided {w : World} {s : WebAuthnService} {ledger : ChallengeLedger} {records : List CredentialRecord} {c : CredentialRecord}
    {credentialId : Utf8.Bytes} (ready : w.Ready s ledger records c credentialId) {a : Attempt}
    (honest : a.Honest s c.1.actor credentialId) (up : c.1.signCount < a.count) (fresh : ledger.find a.payload.1.challenge = none)
    (sound : ledger.Sound)
    (absent : WebAuthnCredentialStore.find records (counterRecordId credentialId a.count) = none) :
    ∃ w' d record, Runs w w' ∧ w'.decisions = w.decisions ++ [d] ∧ d.payload = a.payload ∧
      d.credential.1 = WebAuthnService.recounted c credentialId a.count ∧
      record.1.id = a.payload.1.challenge ∧
      w'.Ready s ((ledger.issuing record).consuming a.payload.1.challenge) (records ++ [d.credential]) d.credential credentialId := by
  obtain ⟨expires,later,window⟩ := honest.prompt
  have asks : s.validDecisionCall a.payload s.expectedOrigin a.asked = true := by
    simp [WebAuthnService.validDecisionCall,honest.project,honest.repository,honest.asks]
  have answers : s.validDecisionCall a.payload s.expectedOrigin a.answered = true := by
    simp [WebAuthnService.validDecisionCall,honest.project,honest.repository,honest.answers]
  obtain ⟨current,found⟩ := WebAuthnService.currentCredentials_counted (s := s) a.payload.1.actor ready.binds ready.counted
  have offered := WebAuthnService.currentCredentials_member found ready.counted ready.known honest.acting.symm ready.highest
  obtain ⟨options,shown,nonempty⟩ := honest.offers (s.authenticationRequest a.payload current)
  obtain ⟨p,prepared⟩ := WebAuthnService.prepareAuthentication_made asks ready.credentials found (List.ne_nil_of_mem offered) shown nonempty later
  obtain ⟨_,made⟩ := WebAuthnService.prepareAuthentication_some prepared
  obtain ⟨expires',later',shape⟩ := WebAuthnService.challengeRecord_some made
  cases later.symm.trans later'
  have identity : p.record.1.id = a.payload.1.challenge := by rw [shape]
  have issue := WebAuthnService.issuePrepared_made ready.challenges (by rw [identity]; exact fresh)
  have admitted : ledger.take (.issued p.record) = some (ledger.issuing p.record) :=
    ChallengeLedger.take_issued.mpr ⟨by rw [identity]; exact fresh,rfl⟩
  have opened := WebAuthnChallengeStore.decode_extended ready.challenges admitted
  have issued : (ledger.issuing p.record).find a.payload.1.challenge = some p.record := by
    rw [←identity]
    apply Keyed.find_member (ChallengeLedger.take_sound sound admitted).issued
    exact List.mem_append_right _ (List.mem_singleton_self _)
  have unspent : a.payload.1.challenge ∉ (ledger.issuing p.record).consumed := by
    intro spent
    obtain ⟨r,member,same⟩ := sound.known _ spent
    exact Keyed.find_none.mp fresh (List.mem_map.mpr ⟨r,member,same⟩)
  have timely : openAt p.record.1.issuedAt p.record.1.expiresAt a.answered = true := by
    rw [shape]
    exact window
  have bound : s.authenticationBound p.record a.payload = true := by
    simp [WebAuthnService.authenticationBound,shape]
  have chosen : current.find? (fun r => r.1.credentialId == b64url credentialId) = some c := by
    cases picked : current.find? (fun r => r.1.credentialId == b64url credentialId) with
    | none =>
      have missed := List.find?_eq_none.mp picked c offered
      simp [ready.named] at missed
    | some d =>
      obtain ⟨there,_,above⟩ := WebAuthnService.currentCredentials_some found d (List.mem_of_find?_eq_some picked)
      have test := List.find?_some picked
      have same : d.1.credentialId = c.1.credentialId := (beq_iff_eq.mp test).trans ready.named.symm
      have level := Nat.le_antisymm (ready.highest d there same) (above c ready.known same.symm).2
      rw [WebAuthnService.latest_unique ready.counted there ready.known same level]
  obtain ⟨d,l,done,payload,credential⟩ := WebAuthnService.verify_made
    (l := ⟨w.ledgers.credentials,FrameLedger.extended w.ledgers.challenges (serialize ChallengeFrame.codec (.issued p.record))⟩)
    answers opened issued unspent timely bound ready.credentials found chosen ready.some (honest.confirms _) up honest.bounded absent
  obtain ⟨ledger',record,records',c',verified⟩ := WebAuthnService.verify_some done
  cases opened.symm.trans verified.challenges
  cases ready.credentials.symm.trans verified.credentials
  have first : Step w ⟨w.ledgers,w.pending ++ [⟨p,some a.payload⟩],w.trace⟩ := .prepareAuthentication prepared
  have second : Step ⟨w.ledgers,w.pending ++ [⟨p,some a.payload⟩],w.trace⟩
      ⟨⟨w.ledgers.credentials,FrameLedger.extended w.ledgers.challenges (serialize ChallengeFrame.codec (.issued p.record))⟩,
        w.pending ++ [],w.trace ++ [.offered ⟨p,some a.payload⟩ true]⟩ := .issue rfl issue
  have third : Step
      ⟨⟨w.ledgers.credentials,FrameLedger.extended w.ledgers.challenges (serialize ChallengeFrame.codec (.issued p.record))⟩,
        w.pending ++ [],w.trace ++ [.offered ⟨p,some a.payload⟩ true]⟩
      ⟨l,w.pending ++ [],(w.trace ++ [.offered ⟨p,some a.payload⟩ true]) ++ [.decided d]⟩ := .verify done
  refine ⟨_,d,p.record,.tail (.tail (.single first) second) third,?_,payload,credential,identity,?_⟩
  · change ((w.trace ++ [Event.offered ⟨p,some a.payload⟩ true]) ++ [Event.decided d]).filterMap Event.decision = _
    rw [decisions_snoc,decisions_snoc,List.append_assoc]
    rfl
  · have named : d.credential.1.credentialId = c.1.credentialId := by
      rw [credential]
      rfl
    have count : d.credential.1.signCount = a.count := by
      rw [credential]
      rfl
    have stored : WebAuthnCredentialStore.decode l.credentials = some (records ++ [d.credential]) := by
      rcases verified.counts with ⟨_,zero,_⟩ | ⟨_,stored⟩
      · omega
      · exact stored
    refine ⟨?_,stored,?_,?_,List.mem_append_right _ (List.mem_singleton_self _),named.trans ready.named,ready.some,?_⟩
    · rw [←payload]
      exact verified.spent
    · apply List.pairwise_append.mpr
      refine ⟨ready.counted,List.pairwise_singleton _ _,?_⟩
      intro r member e last equal
      rw [List.mem_singleton.mp last] at equal ⊢
      have alike := equal.trans named
      have below := ready.highest r member alike
      have invariant := (verified.latest r member (equal.trans (invariant_credential verified.same))).1
      exact ⟨invariant.trans verified.same.symm,by omega⟩
    · intro r member
      rcases List.mem_append.mp member with old | new
      · exact ready.binds r old
      · rw [List.mem_singleton.mp new]
        have mine := ready.binds c ready.known
        simpa only [WebAuthnService.binds,credential,WebAuthnService.recounted] using mine
    · intro r member same
      rcases List.mem_append.mp member with old | new
      · have below := ready.highest r old (same.trans named)
        omega
      · rw [List.mem_singleton.mp new]

end World

-- An enrolment that keeps to what the service asks of a new credential.
structure Enrolment where
  verifier : WebAuthnVerifier
  response : Utf8.Bytes
  actor : String
  challenge : Utf8.Bytes
  asked : UtcTime
  answered : UtcTime
  credential : VerifiedRegistration

structure Enrolment.Honest (e : Enrolment) (s : WebAuthnService) : Prop where
  acting : identifier e.actor = true
  sized : e.challenge.length = challengeBytes
  prompt : ∃ expires, e.asked.later maxChallengeLifetime = some expires ∧ openAt e.asked expires e.answered = true
  offers : ∃ options, e.verifier.registrationOptions (s.registrationRequest e.challenge e.actor) = some options ∧ options ≠ []
  client : e.verifier.clientChallenge e.response = some e.challenge
  confirms : e.verifier.verifyRegistration e.response (s.registrationRequest e.challenge e.actor) = some e.credential
  admitted : WebAuthnService.admissible e.credential = true
  short : exactString maxCredentialBytes (b64url e.credential.credentialId) = true ∧
    exactString maxCredentialBytes (b64url e.credential.publicKey) = true

def Enrolment.count (e : Enrolment) : Nat := e.credential.signCount.toNat

-- Nothing in the ledgers is about the challenge or the credential.
structure Enrolment.Fresh (e : Enrolment) (ledger : ChallengeLedger) (records : List CredentialRecord) : Prop where
  challenge : ledger.find ("challenge:" ++ hexText e.challenge) = none
  credential : ∀ r ∈ records, r.1.credentialId ≠ b64url e.credential.credentialId
  absent : WebAuthnCredentialStore.find records (counterRecordId e.credential.credentialId e.count) = none

namespace World

theorem enrolment_made {w : World} {s : WebAuthnService} {ledger : ChallengeLedger} {records : List CredentialRecord} {e : Enrolment}
    (challenges : WebAuthnChallengeStore.decode w.ledgers.challenges = some ledger)
    (credentials : WebAuthnCredentialStore.decode w.ledgers.credentials = some records) (counted : Counted records)
    (binds : ∀ r ∈ records, s.binds r = true) (honest : e.Honest s) (fresh : e.Fresh ledger records) :
    ∃ w' record c, Runs w w' ∧ w'.decisions = w.decisions ∧ c.1 = s.enrolment e.credential e.actor e.answered ∧
      record.1.id = "challenge:" ++ hexText e.challenge ∧
      w'.Ready s ((ledger.issuing record).consuming ("challenge:" ++ hexText e.challenge)) (records ++ [c]) c e.credential.credentialId := by
  obtain ⟨expires,later,window⟩ := honest.prompt
  obtain ⟨options,offered,shown⟩ := honest.offers
  have sound := WebAuthnChallengeStore.decode_sound challenges
  have allowed : s.validActorCall e.actor s.expectedOrigin = true := by
    have acting := honest.acting
    simp only [identifier,exactString,Bool.and_eq_true] at acting
    simp only [WebAuthnService.validActorCall,acting.1,beq_self_eq_true,Bool.and_self]
  obtain ⟨p,prepared,made⟩ := WebAuthnService.prepareRegistration_made allowed honest.acting honest.sized offered shown later
  obtain ⟨expires',later',shape⟩ := WebAuthnService.challengeRecord_some made
  cases later.symm.trans later'
  have identity : p.record.1.id = "challenge:" ++ hexText e.challenge := by rw [shape]
  have issue := WebAuthnService.issuePrepared_made challenges (by rw [identity]; exact fresh.challenge)
  have admitted : ledger.take (.issued p.record) = some (ledger.issuing p.record) :=
    ChallengeLedger.take_issued.mpr ⟨by rw [identity]; exact fresh.challenge,rfl⟩
  have opened := WebAuthnChallengeStore.decode_extended challenges admitted
  have issued : (ledger.issuing p.record).find ("challenge:" ++ hexText e.challenge) = some p.record := by
    rw [←identity]
    apply Keyed.find_member (ChallengeLedger.take_sound sound admitted).issued
    exact List.mem_append_right _ (List.mem_singleton_self _)
  have unspent : "challenge:" ++ hexText e.challenge ∉ (ledger.issuing p.record).consumed := by
    intro spent
    obtain ⟨r,member,same⟩ := sound.known _ spent
    exact Keyed.find_none.mp fresh.challenge (List.mem_map.mpr ⟨r,member,same⟩)
  have timely : openAt p.record.1.issuedAt p.record.1.expiresAt e.answered = true := by
    rw [shape]
    exact window
  have bound : s.registrationBound p.record e.challenge e.actor = true := by
    simp [WebAuthnService.registrationBound,shape]
  have valid := s.enrolment_valid e.answered honest.acting honest.admitted honest.short
  obtain ⟨l,done⟩ := WebAuthnService.register_made
    (l := ⟨w.ledgers.credentials,FrameLedger.extended w.ledgers.challenges (serialize ChallengeFrame.codec (.issued p.record))⟩)
    allowed honest.client honest.sized opened issued unspent timely bound honest.confirms honest.admitted credentials fresh.credential
    valid fresh.absent
  obtain ⟨⟨ledger',challenge,client,read,spent⟩,records',known,_,stored⟩ := WebAuthnService.register_some done
  cases honest.client.symm.trans client
  cases opened.symm.trans read
  cases credentials.symm.trans known
  have first : Step w ⟨w.ledgers,w.pending ++ [⟨p,none⟩],w.trace⟩ := .prepareRegistration prepared
  have second : Step ⟨w.ledgers,w.pending ++ [⟨p,none⟩],w.trace⟩
      ⟨⟨w.ledgers.credentials,FrameLedger.extended w.ledgers.challenges (serialize ChallengeFrame.codec (.issued p.record))⟩,
        w.pending ++ [],w.trace ++ [.offered ⟨p,none⟩ true]⟩ := .issue rfl issue
  have third := Step.register (w := ⟨⟨w.ledgers.credentials,
    FrameLedger.extended w.ledgers.challenges (serialize ChallengeFrame.codec (.issued p.record))⟩,w.pending ++ [],
      w.trace ++ [.offered ⟨p,none⟩ true]⟩) done
  refine ⟨_,p.record,⟨s.enrolment e.credential e.actor e.answered,valid⟩,.tail (.tail (.single first) second) third,?_,rfl,identity,?_⟩
  · change ((w.trace ++ [Event.offered ⟨p,none⟩ true]) ++ [Event.enrolled _]).filterMap Event.decision = _
    rw [decisions_snoc,decisions_snoc,List.append_assoc]
    exact List.append_nil _
  · have named := honest.admitted
    simp only [WebAuthnService.admissible,Bool.and_eq_true,Bool.not_eq_true',List.isEmpty_eq_false_iff] at named
    refine ⟨spent,stored,?_,?_,List.mem_append_right _ (List.mem_singleton_self _),rfl,named.1.1.1,?_⟩
    · apply List.pairwise_append.mpr
      refine ⟨counted,List.pairwise_singleton _ _,?_⟩
      intro r member c last equal
      rw [List.mem_singleton.mp last] at equal
      exact absurd equal (fresh.credential r member)
    · intro r member
      rcases List.mem_append.mp member with old | new
      · exact binds r old
      · rw [List.mem_singleton.mp new]
        simp [WebAuthnService.binds,WebAuthnService.enrolment]
    · intro r member same
      rcases List.mem_append.mp member with old | new
      · exact absurd same (fresh.credential r old)
      · rw [List.mem_singleton.mp new]

end World

end ControlPlane
