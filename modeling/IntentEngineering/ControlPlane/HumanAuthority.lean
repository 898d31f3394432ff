import IntentEngineering.ControlPlane.WebAuthnCalls

open Schema ByteFrames

namespace ControlPlane

-- Options made for a registration or for a decision, on their way to the ledger.
structure Offer where
  prepared : Prepared
  payload : Option HumanDecisionPayload

-- An offer whose frame was appended, whole or perhaps not; a credential that
-- was added; a decision that was returned.
inductive Event where
  | offered (offer : Offer) (whole : Bool)
  | enrolled (credential : CredentialRecord)
  | decided (decision : VerifiedHumanDecision)

def Event.decision : Event → Option VerifiedHumanDecision
  | .decided d => some d
  | _ => none

-- The ledgers of a repository, the calls for options that stand between their
-- two turns, and what has happened so far.
structure World where
  ledgers : Ledgers
  pending : List Offer
  trace : List Event

namespace World

def initial : World := ⟨⟨none,none⟩,[],[]⟩

def decisions (w : World) : List VerifiedHumanDecision := w.trace.filterMap Event.decision

def without (w : World) (before after : List Offer) (trace : List Event) (challenges : Option Utf8.Bytes) : World :=
  ⟨{ w.ledgers with challenges },before ++ after,trace⟩

-- Any service over the ledgers, any verifier, any time. A call that raises
-- changes nothing but for an append outside of a transaction, which may be cut
-- off; a transaction may also be lost after its commit.
inductive Step : World → World → Prop where
  | prepareRegistration (made : WebAuthnService.prepareRegistration s v source actor origin now = some p) :
      Step w { w with pending := w.pending ++ [⟨p,none⟩] }
  | prepareAuthentication (made : WebAuthnService.prepareAuthentication s v payload origin now w.ledgers.credentials = some p) :
      Step w { w with pending := w.pending ++ [⟨p,some payload⟩] }
  | issue (waiting : w.pending = before ++ o :: after) (issued : WebAuthnService.issuePrepared o.prepared w.ledgers.challenges = some frame) :
      Step w (w.without before after (w.trace ++ [.offered o true]) (FrameLedger.extended w.ledgers.challenges frame))
  | cut (waiting : w.pending = before ++ o :: after) (issued : WebAuthnService.issuePrepared o.prepared w.ledgers.challenges = some frame)
      (part : bytes <+: frame) :
      Step w (w.without before after (w.trace ++ [.offered o false]) (FrameLedger.extended w.ledgers.challenges bytes))
  | abandon (waiting : w.pending = before ++ o :: after) : Step w (w.without before after w.trace w.ledgers.challenges)
  | register (done : WebAuthnService.register s v response actor origin now w.ledgers = some (credential,l)) :
      Step w { w with ledgers := l, trace := w.trace ++ [.enrolled credential] }
  | verify (done : WebAuthnService.verify s v response payload origin now w.ledgers = some (d,l)) :
      Step w { w with ledgers := l, trace := w.trace ++ [.decided d] }
  | lose (done : WebAuthnService.verify s v response payload origin now w.ledgers = some (d,l)) : Step w { w with ledgers := l }

def Runs : World → World → Prop := Relation.ReflTransGen Step

theorem decisions_snoc (trace : List Event) (e : Event) :
    (trace ++ [e]).filterMap Event.decision = trace.filterMap Event.decision ++ e.decision.toList := by
  rw [List.filterMap_append]
  cases e <;> rfl

-- What every decision of a trace has before it.
def Preceded (P : List Event → VerifiedHumanDecision → Prop) (trace : List Event) : Prop :=
  ∀ before d after, trace = before ++ .decided d :: after → P before d

theorem preceded_snoc {P : List Event → VerifiedHumanDecision → Prop} {trace : List Event} {e : Event} (earlier : Preceded P trace)
    (last : ∀ d, e = .decided d → P trace d) : Preceded P (trace ++ [e]) := by
  intro before d after split
  cases after using List.reverseRecOn with
  | nil =>
    obtain ⟨rfl,same⟩ := List.append_inj' split rfl
    exact last d (List.singleton_inj.mp same)
  | append_singleton after f =>
    rw [←List.cons_append,←List.append_assoc] at split
    exact earlier before d after (List.append_inj' split rfl).1

end World

-- The challenge of an offer says what the offer is for.
def Offer.Fits (o : Offer) : Prop :=
  match o.payload with
  | none => o.prepared.record.1.ceremony = .registration
  | some payload => o.prepared.record.1.id = payload.1.challenge ∧ o.prepared.record.1.actor = payload.1.actor ∧
      o.prepared.record.1.projectId = payload.1.projectId ∧ o.prepared.record.1.repositoryId = payload.1.repositoryId ∧
      o.prepared.record.1.payloadDigest = some (payloadDigest payload.1.canonicalBytes) ∧
      o.prepared.record.1.expiresAt.1.instant = o.prepared.record.1.issuedAt.1.instant + maxChallengeLifetime

-- A decision answers an offer that was made for the same actor and, unless two
-- payloads share a digest, for the same payload; it does so within five minutes.
def Answers (before : List Event) (d : VerifiedHumanDecision) : Prop :=
  ∃ o whole payload, Event.offered o whole ∈ before ∧ o.payload = some payload ∧
    payload.1.challenge = d.payload.1.challenge ∧ payload.1.actor = d.payload.1.actor ∧
    payload.1.projectId = d.payload.1.projectId ∧ payload.1.repositoryId = d.payload.1.repositoryId ∧
    payloadDigest payload.1.canonicalBytes = payloadDigest d.payload.1.canonicalBytes ∧
    (CollisionFree payload.1.canonicalBytes d.payload.1.canonicalBytes → payload = d.payload) ∧
    o.prepared.record.1.issuedAt.1.instant ≤ d.verifiedAt.1.instant ∧
    d.verifiedAt.1.instant < o.prepared.record.1.issuedAt.1.instant + maxChallengeLifetime ∧
    openAt d.payload.1.issuedAt d.payload.1.expiresAt d.verifiedAt = true

-- A decision is made with a credential that was enrolled for its actor.
def Enrolled (before : List Event) (d : VerifiedHumanDecision) : Prop :=
  ∃ c, Event.enrolled c ∈ before ∧ c.1.invariant = d.credential.1.invariant ∧ c.1.actor = d.payload.1.actor ∧
    c.1.signCount ≤ d.credential.1.signCount

-- Of two decisions with one credential the later has the higher count, unless
-- the credential does not count at all.
def Rises (d e : VerifiedHumanDecision) : Prop :=
  d.credential.1.credentialId = e.credential.1.credentialId →
    d.credential.1.signCount < e.credential.1.signCount ∨ (d.credential.1.signCount = 0 ∧ e.credential.1.signCount = 0)

theorem canonicalBytes_injective {p q : HumanDecisionPayload} (same : p.1.canonicalBytes = q.1.canonicalBytes) : p = q :=
  Subtype.ext (serialize_injective same)

theorem payloadDigest_inj {a b : Utf8.Bytes} (same : payloadDigest a = payloadDigest b) : Sha256.hexdigest a = Sha256.hexdigest b := by
  have lists := congrArg String.toList same
  simp only [payloadDigest,String.toList_append] at lists
  exact String.toList_injective (List.append_cancel_left lists)

namespace World

-- What holds of the challenges in every world that is reached.
structure ChallengesKept (w : World) : Prop where
  pending : ∀ o ∈ w.pending, o.Fits
  offered : ∀ o whole, Event.offered o whole ∈ w.trace → o.Fits
  issued : ∀ ledger, WebAuthnChallengeStore.decode w.ledgers.challenges = some ledger → ∀ r ∈ ledger.issued,
    ∃ o whole, Event.offered o whole ∈ w.trace ∧ o.prepared.record = r
  spent : ∀ ledger, WebAuthnChallengeStore.decode w.ledgers.challenges = some ledger → ∀ d ∈ w.decisions,
    d.payload.1.challenge ∈ ledger.consumed
  once : (w.decisions.map fun d => d.payload.1.challenge).Nodup
  answered : Preceded Answers w.trace

-- And of the credentials.
structure CredentialsKept (w : World) (records : List CredentialRecord) : Prop where
  read : WebAuthnCredentialStore.decode w.ledgers.credentials = some records
  counted : Counted records
  sourced : ∀ r ∈ records, ∃ c, Event.enrolled c ∈ w.trace ∧ c.1.invariant = r.1.invariant ∧ c.1.signCount ≤ r.1.signCount
  used : ∀ d ∈ w.decisions, d.credential ∈ records
  rising : w.decisions.Pairwise Rises
  enrolled : Preceded Enrolled w.trace

theorem initial_challenges : ChallengesKept initial where
  pending o member := by cases member
  offered o whole member := by cases member
  issued ledger read r member := by
    cases read
    cases member
  spent ledger read d member := by cases member
  once := List.nodup_nil
  answered before d after split := by simp [initial] at split

theorem initial_credentials : CredentialsKept initial [] where
  read := rfl
  counted := List.Pairwise.nil
  sourced r member := by cases member
  used d member := by cases member
  rising := List.Pairwise.nil
  enrolled before d after split := by simp [initial] at split

theorem fits_authentication {s : WebAuthnService} {v : WebAuthnVerifier} {payload : HumanDecisionPayload} {origin : String} {now : UtcTime}
    {credentials : Option Utf8.Bytes} {p : Prepared} (made : s.prepareAuthentication v payload origin now credentials = some p) :
    Offer.Fits ⟨p,some payload⟩ := by
  obtain ⟨allowed,made⟩ := WebAuthnService.prepareAuthentication_some made
  obtain ⟨expires,later,shape⟩ := WebAuthnService.challengeRecord_some made
  simp only [WebAuthnService.validDecisionCall,Bool.and_eq_true,beq_iff_eq] at allowed
  obtain ⟨⟨⟨_,project⟩,repository⟩,_⟩ := allowed
  simp only [Offer.Fits,shape]
  exact ⟨trivial,trivial,project.symm,repository.symm,trivial,UtcTime.later_instant later⟩

-- A decision against the ledger answers an offer of the trace.
theorem verified_answers {w : World} {s : WebAuthnService} {l : Ledgers} {d : VerifiedHumanDecision} {ledger : ChallengeLedger}
    {record : ChallengeRecord} {records : List CredentialRecord} {credential : CredentialRecord} (kept : ChallengesKept w)
    (verified : WebAuthnService.Verified s w.ledgers l d ledger record records credential) : Answers w.trace d := by
  obtain ⟨member,named⟩ := ChallengeLedger.find_some verified.issued
  obtain ⟨o,whole,happened,same⟩ := kept.issued ledger verified.challenges record member
  have fits := kept.offered o whole happened
  have bound := verified.bound
  simp only [WebAuthnService.authenticationBound,Bool.and_eq_true,beq_iff_eq] at bound
  obtain ⟨⟨⟨⟨⟨project,repository⟩,actor⟩,ceremony⟩,digest⟩,_⟩ := bound
  have timely := verified.timely
  simp only [openAt,Bool.and_eq_true,decide_eq_true_eq] at timely
  unfold Offer.Fits at fits
  split at fits
  · rw [same,ceremony] at fits
    cases fits
  · rename_i payload wanted
    rw [same] at fits
    obtain ⟨id,actor',project',repository',digest',lifetime⟩ := fits
    have equal : payloadDigest payload.1.canonicalBytes = payloadDigest d.payload.1.canonicalBytes :=
      Option.some.inj (digest'.symm.trans digest)
    have call := verified.lasting
    refine ⟨o,whole,payload,happened,wanted,id.symm.trans named,actor'.symm.trans actor,?_,?_,equal,?_,?_,?_,call⟩
    · exact project'.symm.trans (project.trans verified.binds.1.symm)
    · exact repository'.symm.trans (repository.trans verified.binds.2.symm)
    · intro free
      exact canonicalBytes_injective (free (payloadDigest_inj equal))
    · rw [same]
      exact timely.1
    · rw [same,←lifetime]
      exact timely.2

-- An offer that reaches the ledger, whole or in part.
theorem offer_challenges {w : World} {before after : List Offer} {o : Offer} {frame bytes : Utf8.Bytes} (kept : ChallengesKept w)
    (waiting : w.pending = before ++ o :: after) (issued : WebAuthnService.issuePrepared o.prepared w.ledgers.challenges = some frame)
    (part : bytes <+: frame) (whole : Bool) :
    ChallengesKept (w.without before after (w.trace ++ [.offered o whole]) (FrameLedger.extended w.ledgers.challenges bytes)) := by
  obtain ⟨ledger,read,absent,rfl⟩ := WebAuthnService.issuePrepared_some issued
  have mine : o.Fits := kept.pending o (by rw [waiting]; simp)
  have either : ∀ ledger', WebAuthnChallengeStore.decode (FrameLedger.extended w.ledgers.challenges bytes) = some ledger' →
      ledger' = ledger ∨ ledger' = ledger.issuing o.prepared.record := by
    intro ledger' read'
    rcases WebAuthnChallengeStore.decode_part read part read' with same | taken
    · exact .inl same
    · exact .inr (ChallengeLedger.take_issued.mp taken).2
  have same : (w.without before after (w.trace ++ [.offered o whole]) (FrameLedger.extended w.ledgers.challenges bytes)).decisions =
      w.decisions := by
    change (w.trace ++ [Event.offered o whole]).filterMap Event.decision = w.decisions
    rw [decisions_snoc]
    exact List.append_nil _
  refine ⟨?_,?_,?_,?_,?_,?_⟩
  · intro p member
    apply kept.pending
    rw [waiting]
    rcases List.mem_append.mp member with left | right
    · exact List.mem_append_left _ left
    · exact List.mem_append_right _ (List.mem_cons_of_mem _ right)
  · intro p whole' member
    rcases List.mem_append.mp member with old | new
    · exact kept.offered p whole' old
    · cases List.mem_singleton.mp new
      exact mine
  · intro ledger' read' r member
    have known : r ∈ ledger.issued → ∃ p whole', Event.offered p whole' ∈ w.trace ++ [.offered o whole] ∧ p.prepared.record = r := by
      intro old
      obtain ⟨p,whole',happened,named⟩ := kept.issued ledger read r old
      exact ⟨p,whole',List.mem_append_left _ happened,named⟩
    rcases either ledger' read' with rfl | rfl
    · exact known member
    · rcases List.mem_append.mp member with old | new
      · exact known old
      · rw [List.mem_singleton.mp new]
        exact ⟨o,whole,List.mem_append_right _ (List.mem_singleton_self _),rfl⟩
  · intro ledger' read' d member
    rw [same] at member
    have there := kept.spent ledger read d member
    rcases either ledger' read' with rfl | rfl
    · exact there
    · exact there
  · rw [same]
    exact kept.once
  · apply preceded_snoc kept.answered
    intro d other
    cases other

-- A transaction that spends a challenge.
theorem spend_challenges {w : World} {l : Ledgers} {ledger : ChallengeLedger} {id : String} (kept : ChallengesKept w)
    (read : WebAuthnChallengeStore.decode w.ledgers.challenges = some ledger)
    (spent : WebAuthnChallengeStore.decode l.challenges = some (ledger.consuming id)) : ChallengesKept { w with ledgers := l } := by
  refine ⟨kept.pending,kept.offered,?_,?_,kept.once,kept.answered⟩
  · intro ledger' read' r member
    cases spent.symm.trans read'
    exact kept.issued ledger read r member
  · intro ledger' read' d member
    cases spent.symm.trans read'
    exact List.mem_append_left _ (kept.spent ledger read d member)

theorem enrolled_challenges {w : World} (kept : ChallengesKept w) (credential : CredentialRecord) :
    ChallengesKept { w with trace := w.trace ++ [.enrolled credential] } := by
  have same : ({ w with trace := w.trace ++ [.enrolled credential] } : World).decisions = w.decisions := by
    change (w.trace ++ [Event.enrolled credential]).filterMap Event.decision = w.decisions
    rw [decisions_snoc]
    exact List.append_nil _
  have happened : ∀ {o whole}, Event.offered o whole ∈ w.trace ++ [.enrolled credential] → Event.offered o whole ∈ w.trace := by
    intro o whole member
    rcases List.mem_append.mp member with old | new
    · exact old
    · cases List.mem_singleton.mp new
  refine ⟨kept.pending,fun o whole member => kept.offered o whole (happened member),?_,?_,?_,?_⟩
  · intro ledger read r member
    obtain ⟨o,whole,old,named⟩ := kept.issued ledger read r member
    exact ⟨o,whole,List.mem_append_left _ old,named⟩
  · rw [same]
    exact kept.spent
  · rw [same]
    exact kept.once
  · apply preceded_snoc kept.answered
    intro d other
    cases other

theorem decided_challenges {w : World} {d : VerifiedHumanDecision} (kept : ChallengesKept w)
    (spent : ∀ ledger, WebAuthnChallengeStore.decode w.ledgers.challenges = some ledger → d.payload.1.challenge ∈ ledger.consumed)
    (fresh : d.payload.1.challenge ∉ w.decisions.map fun d => d.payload.1.challenge) (answers : Answers w.trace d) :
    ChallengesKept { w with trace := w.trace ++ [.decided d] } := by
  have more : ({ w with trace := w.trace ++ [.decided d] } : World).decisions = w.decisions ++ [d] := decisions_snoc _ _
  refine ⟨kept.pending,?_,?_,?_,?_,?_⟩
  · intro o whole member
    rcases List.mem_append.mp member with old | new
    · exact kept.offered o whole old
    · cases List.mem_singleton.mp new
  · intro ledger read r member
    obtain ⟨o,whole,old,named⟩ := kept.issued ledger read r member
    exact ⟨o,whole,List.mem_append_left _ old,named⟩
  · intro ledger read e member
    rw [more] at member
    rcases List.mem_append.mp member with old | new
    · exact kept.spent ledger read e old
    · rw [List.mem_singleton.mp new]
      exact spent ledger read
  · rw [more,List.map_append,List.map_singleton]
    exact ChallengeLedger.nodup_snoc kept.once fresh
  · apply preceded_snoc kept.answered
    intro e same
    cases same
    exact answers

theorem step_challenges {w w' : World} (step : Step w w') (kept : ChallengesKept w) : ChallengesKept w' := by
  cases step with
  | prepareRegistration made =>
    refine ⟨?_,kept.offered,kept.issued,kept.spent,kept.once,kept.answered⟩
    intro o member
    rcases List.mem_append.mp member with old | new
    · exact kept.pending o old
    · rw [List.mem_singleton.mp new]
      exact WebAuthnService.prepareRegistration_some made
  | prepareAuthentication made =>
    refine ⟨?_,kept.offered,kept.issued,kept.spent,kept.once,kept.answered⟩
    intro o member
    rcases List.mem_append.mp member with old | new
    · exact kept.pending o old
    · rw [List.mem_singleton.mp new]
      exact fits_authentication made
  | issue waiting issued => exact offer_challenges kept waiting issued (List.prefix_refl _) true
  | cut waiting issued part => exact offer_challenges kept waiting issued part false
  | abandon waiting =>
    refine ⟨?_,kept.offered,kept.issued,kept.spent,kept.once,kept.answered⟩
    intro o member
    apply kept.pending
    rw [waiting]
    rcases List.mem_append.mp member with left | right
    · exact List.mem_append_left _ left
    · exact List.mem_append_right _ (List.mem_cons_of_mem _ right)
  | register done =>
    obtain ⟨⟨ledger,_,_,read,spent⟩,_⟩ := WebAuthnService.register_some done
    exact enrolled_challenges (spend_challenges kept read spent) _
  | verify done =>
    obtain ⟨ledger,record,records,credential,verified⟩ := WebAuthnService.verify_some done
    have answers := verified_answers kept verified
    apply decided_challenges (spend_challenges kept verified.challenges verified.spent)
    · intro ledger' read
      cases verified.spent.symm.trans read
      exact List.mem_append_right _ (List.mem_singleton_self _)
    · intro again
      obtain ⟨e,earlier,same⟩ := List.mem_map.mp again
      apply verified.unspent
      rw [←same]
      exact kept.spent ledger verified.challenges e earlier
    · exact answers
  | lose done =>
    obtain ⟨ledger,record,records,credential,verified⟩ := WebAuthnService.verify_some done
    exact spend_challenges kept verified.challenges verified.spent

-- Events that are about no credential.
theorem other_credentials {w w' : World} {records : List CredentialRecord} (kept : CredentialsKept w records)
    (same : w'.ledgers.credentials = w.ledgers.credentials)
    (grown : w'.trace = w.trace ∨ ∃ o whole, w'.trace = w.trace ++ [.offered o whole]) : CredentialsKept w' records := by
  have decided : w'.decisions = w.decisions := by
    rcases grown with still | ⟨o,whole,more⟩
    · rw [decisions,still,decisions]
    · rw [decisions,more,decisions_snoc]
      exact List.append_nil _
  refine ⟨by rw [same]; exact kept.read,kept.counted,?_,by rw [decided]; exact kept.used,by rw [decided]; exact kept.rising,?_⟩
  · intro r member
    obtain ⟨c,happened,alike⟩ := kept.sourced r member
    refine ⟨c,?_,alike⟩
    rcases grown with still | ⟨o,whole,more⟩
    · rw [still]
      exact happened
    · rw [more]
      exact List.mem_append_left _ happened
  · rcases grown with still | ⟨o,whole,more⟩
    · rw [still]
      exact kept.enrolled
    · rw [more]
      apply preceded_snoc kept.enrolled
      intro d other
      cases other

theorem enrolled_credentials {w : World} {l : Ledgers} {records : List CredentialRecord} {credential : CredentialRecord}
    (kept : CredentialsKept w records) (fresh : ∀ r ∈ records, r.1.credentialId ≠ credential.1.credentialId)
    (stored : WebAuthnCredentialStore.decode l.credentials = some (records ++ [credential])) :
    CredentialsKept { w with ledgers := l, trace := w.trace ++ [.enrolled credential] } (records ++ [credential]) := by
  have same : ({ w with ledgers := l, trace := w.trace ++ [.enrolled credential] } : World).decisions = w.decisions := by
    change (w.trace ++ [Event.enrolled credential]).filterMap Event.decision = w.decisions
    rw [decisions_snoc]
    exact List.append_nil _
  refine ⟨stored,?_,?_,?_,by rw [same]; exact kept.rising,?_⟩
  · apply List.pairwise_append.mpr
    refine ⟨kept.counted,List.pairwise_singleton _ _,?_⟩
    intro r member c last equal
    rw [List.mem_singleton.mp last] at equal
    exact absurd equal (fresh r member)
  · intro r member
    rcases List.mem_append.mp member with old | new
    · obtain ⟨c,happened,alike⟩ := kept.sourced r old
      exact ⟨c,List.mem_append_left _ happened,alike⟩
    · rw [List.mem_singleton.mp new]
      exact ⟨credential,List.mem_append_right _ (List.mem_singleton_self _),rfl,le_refl _⟩
  · rw [same]
    intro d member
    exact List.mem_append_left _ (kept.used d member)
  · apply preceded_snoc kept.enrolled
    intro d other
    cases other

-- What a verification leaves of the credentials, whether its answer arrives or not.
theorem verified_credentials {w : World} {s : WebAuthnService} {l : Ledgers} {d : VerifiedHumanDecision} {ledger : ChallengeLedger}
    {record : ChallengeRecord} {records : List CredentialRecord} {credential : CredentialRecord} (kept : CredentialsKept w records)
    (verified : WebAuthnService.Verified s w.ledgers l d ledger record records credential) :
    ∃ records', CredentialsKept { w with ledgers := l } records' ∧ (∀ r ∈ records, r ∈ records') ∧ d.credential ∈ records' := by
  rcases verified.counts with ⟨still,_,read⟩ | ⟨up,read⟩
  · refine ⟨records,⟨read,kept.counted,kept.sourced,kept.used,kept.rising,kept.enrolled⟩,fun _ member => member,?_⟩
    rw [still]
    exact verified.known
  · refine ⟨records ++ [d.credential],⟨read,?_,?_,?_,kept.rising,kept.enrolled⟩,fun _ member => List.mem_append_left _ member,
      List.mem_append_right _ (List.mem_singleton_self _)⟩
    · apply List.pairwise_append.mpr
      refine ⟨kept.counted,List.pairwise_singleton _ _,?_⟩
      intro r member c last equal
      rw [List.mem_singleton.mp last] at equal ⊢
      obtain ⟨alike,below⟩ := verified.latest r member (equal.trans (invariant_credential verified.same))
      exact ⟨alike.trans verified.same.symm,by omega⟩
    · intro r member
      rcases List.mem_append.mp member with old | new
      · exact kept.sourced r old
      · obtain ⟨c,happened,alike,below⟩ := kept.sourced credential verified.known
        rw [List.mem_singleton.mp new]
        exact ⟨c,happened,alike.trans verified.same.symm,by omega⟩
    · intro e member
      exact List.mem_append_left _ (kept.used e member)

theorem verified_rises {w : World} {s : WebAuthnService} {l : Ledgers} {d : VerifiedHumanDecision} {ledger : ChallengeLedger}
    {record : ChallengeRecord} {records : List CredentialRecord} {credential : CredentialRecord} (kept : CredentialsKept w records)
    (verified : WebAuthnService.Verified s w.ledgers l d ledger record records credential) : ∀ e ∈ w.decisions, Rises e d := by
  intro e earlier equal
  have alike := equal.trans (invariant_credential verified.same)
  obtain ⟨_,below⟩ := verified.latest e.credential (kept.used e earlier) alike
  rcases verified.counts with ⟨still,zero,_⟩ | ⟨up,_⟩
  · rw [←still] at below
    exact .inr ⟨by omega,zero⟩
  · exact .inl (by omega)

theorem verified_enrolled {w : World} {s : WebAuthnService} {l : Ledgers} {d : VerifiedHumanDecision} {ledger : ChallengeLedger}
    {record : ChallengeRecord} {records : List CredentialRecord} {credential : CredentialRecord} (kept : CredentialsKept w records)
    (verified : WebAuthnService.Verified s w.ledgers l d ledger record records credential) : Enrolled w.trace d := by
  obtain ⟨c,happened,alike,below⟩ := kept.sourced credential verified.known
  refine ⟨c,happened,alike.trans verified.same.symm,?_,?_⟩
  · have actors : c.1.invariant.actor = credential.1.invariant.actor := congrArg CredentialDraft.actor alike
    exact Eq.trans actors verified.acting
  · rcases verified.counts with ⟨still,_,_⟩ | ⟨up,_⟩
    · rw [still]
      exact below
    · omega

theorem step_credentials {w w' : World} {records : List CredentialRecord} (step : Step w w') (kept : CredentialsKept w records) :
    ∃ records', CredentialsKept w' records' := by
  cases step with
  | prepareRegistration made => exact ⟨records,other_credentials kept rfl (.inl rfl)⟩
  | prepareAuthentication made => exact ⟨records,other_credentials kept rfl (.inl rfl)⟩
  | issue waiting issued => exact ⟨records,other_credentials kept rfl (.inr ⟨_,_,rfl⟩)⟩
  | cut waiting issued part => exact ⟨records,other_credentials kept rfl (.inr ⟨_,_,rfl⟩)⟩
  | abandon waiting => exact ⟨records,other_credentials kept rfl (.inl rfl)⟩
  | register done =>
    obtain ⟨_,records',read,fresh,stored⟩ := WebAuthnService.register_some done
    cases kept.read.symm.trans read
    exact ⟨_,enrolled_credentials kept fresh stored⟩
  | verify done =>
    obtain ⟨ledger,record,records',credential,verified⟩ := WebAuthnService.verify_some done
    cases kept.read.symm.trans verified.credentials
    obtain ⟨later,grown,_,there⟩ := verified_credentials kept verified
    refine ⟨later,grown.read,grown.counted,?_,?_,?_,?_⟩
    · intro r member
      obtain ⟨c,happened,alike⟩ := grown.sourced r member
      exact ⟨c,List.mem_append_left _ happened,alike⟩
    · intro e member
      rw [decisions,decisions_snoc] at member
      rcases List.mem_append.mp member with old | new
      · exact grown.used e old
      · rw [List.mem_singleton.mp new]
        exact there
    · rw [decisions,decisions_snoc]
      apply List.pairwise_append.mpr
      refine ⟨kept.rising,List.pairwise_singleton _ _,?_⟩
      intro e earlier f last
      rw [List.mem_singleton.mp last]
      exact verified_rises kept verified e earlier
    · apply preceded_snoc kept.enrolled
      intro e same
      cases same
      exact verified_enrolled kept verified
  | lose done =>
    obtain ⟨ledger,record,records',credential,verified⟩ := WebAuthnService.verify_some done
    cases kept.read.symm.trans verified.credentials
    obtain ⟨later,grown,_⟩ := verified_credentials kept verified
    exact ⟨later,grown⟩

theorem runs_kept {w : World} (run : Runs initial w) : ChallengesKept w ∧ ∃ records, CredentialsKept w records := by
  induction run with
  | refl => exact ⟨initial_challenges,[],initial_credentials⟩
  | tail _ step ih =>
    obtain ⟨challenges,records,credentials⟩ := ih
    exact ⟨step_challenges step challenges,step_credentials step credentials⟩

end World

end ControlPlane
