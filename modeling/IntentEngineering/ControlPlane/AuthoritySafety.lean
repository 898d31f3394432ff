import IntentEngineering.ControlPlane.HonestCeremonies

open Schema ByteFrames

namespace ControlPlane

namespace World

-- A ledger of challenges that does not decode was cut off in an append.
theorem step_whole {w w' : World} (step : Step w w')
    (earlier : WebAuthnChallengeStore.decode w.ledgers.challenges = none → ∃ o, Event.offered o false ∈ w.trace) :
    WebAuthnChallengeStore.decode w'.ledgers.challenges = none → ∃ o, Event.offered o false ∈ w'.trace := by
  intro broken
  cases step with
  | prepareRegistration made => exact earlier broken
  | prepareAuthentication made => exact earlier broken
  | issue waiting issued =>
    obtain ⟨ledger,read,absent,rfl⟩ := WebAuthnService.issuePrepared_some issued
    have later := WebAuthnChallengeStore.decode_extended read (ChallengeLedger.take_issued.mpr ⟨absent,rfl⟩)
    cases later.symm.trans broken
  | cut waiting issued part => exact ⟨_,List.mem_append_right _ (List.mem_singleton_self _)⟩
  | abandon waiting => exact earlier broken
  | register done =>
    obtain ⟨⟨ledger,_,_,_,spent⟩,_⟩ := WebAuthnService.register_some done
    cases spent.symm.trans broken
  | verify done =>
    obtain ⟨_,_,_,_,verified⟩ := WebAuthnService.verify_some done
    cases verified.spent.symm.trans broken
  | lose done =>
    obtain ⟨_,_,_,_,verified⟩ := WebAuthnService.verify_some done
    cases verified.spent.symm.trans broken

-- And stays as it is, with everything that was decided.
theorem step_frozen {w w' : World} (step : Step w w') (broken : WebAuthnChallengeStore.decode w.ledgers.challenges = none) :
    w'.ledgers = w.ledgers ∧ w'.decisions = w.decisions := by
  cases step with
  | prepareRegistration made => exact ⟨rfl,rfl⟩
  | prepareAuthentication made => exact ⟨rfl,rfl⟩
  | issue waiting issued =>
    obtain ⟨ledger,read,_⟩ := WebAuthnService.issuePrepared_some issued
    cases broken.symm.trans read
  | cut waiting issued part =>
    obtain ⟨ledger,read,_⟩ := WebAuthnService.issuePrepared_some issued
    cases broken.symm.trans read
  | abandon waiting => exact ⟨rfl,rfl⟩
  | register done =>
    obtain ⟨⟨ledger,_,_,read,_⟩,_⟩ := WebAuthnService.register_some done
    cases broken.symm.trans read
  | verify done =>
    obtain ⟨_,_,_,_,verified⟩ := WebAuthnService.verify_some done
    cases broken.symm.trans verified.challenges
  | lose done =>
    obtain ⟨_,_,_,_,verified⟩ := WebAuthnService.verify_some done
    cases broken.symm.trans verified.challenges

theorem runs_frozen {w w' : World} (run : Runs w w') (broken : WebAuthnChallengeStore.decode w.ledgers.challenges = none) :
    w'.ledgers = w.ledgers ∧ w'.decisions = w.decisions := by
  induction run with
  | refl => exact ⟨rfl,rfl⟩
  | tail _ step ih =>
    obtain ⟨ledgers,decided⟩ := ih
    obtain ⟨ledgers',decided'⟩ := step_frozen step (by rw [ledgers]; exact broken)
    exact ⟨ledgers'.trans ledgers,decided'.trans decided⟩

theorem runs_whole {w : World} (run : Runs initial w) :
    WebAuthnChallengeStore.decode w.ledgers.challenges = none → ∃ o, Event.offered o false ∈ w.trace := by
  induction run with
  | refl =>
    intro broken
    cases broken
  | tail _ step ih => exact step_whole step ih

end World

section
variable {s : WebAuthnService} {v : WebAuthnVerifier}

theorem find_other {ledger : ChallengeLedger} {record : ChallengeRecord} {id : String} (absent : ledger.find id = none)
    (other : record.1.id ≠ id) : ((ledger.issuing record).consuming spent).find id = none := by
  apply Keyed.find_none.mpr
  change id ∉ (ledger.issued ++ [record]).map fun c : ChallengeRecord => c.1.id
  rw [List.map_append,List.mem_append,not_or]
  refine ⟨Keyed.find_none.mp absent,?_⟩
  intro member
  exact other (List.mem_singleton.mp member).symm

theorem counterRecordId_count {credentialId : Utf8.Bytes} {m n : Nat} (same : counterRecordId credentialId m = counterRecordId credentialId n) :
    m = n := by
  have lists := congrArg String.toList same
  simp only [counterRecordId,String.toList_append,List.append_cancel_left_eq] at lists
  exact Nat.repr_inj.mp (String.toList_injective lists)

-- From a ready world every attempt of a list is decided, one after the other.
theorem World.attempts_decided {attempts : List Attempt} {w : World} {ledger : ChallengeLedger} {records : List CredentialRecord}
    {c : CredentialRecord} {credentialId : Utf8.Bytes} (ready : w.Ready s ledger records c credentialId) (sound : ledger.Sound)
    (honest : ∀ a ∈ attempts, a.Honest s c.1.actor credentialId) (rising : (c.1.signCount :: attempts.map Attempt.count).Pairwise (· < ·))
    (fresh : ∀ a ∈ attempts, ledger.find a.payload.1.challenge = none)
    (distinct : (attempts.map fun a => a.payload.1.challenge).Nodup)
    (absent : ∀ a ∈ attempts, WebAuthnCredentialStore.find records (counterRecordId credentialId a.count) = none) :
    ∃ w', World.Runs w w' ∧ w'.decisions.map VerifiedHumanDecision.payload =
      w.decisions.map VerifiedHumanDecision.payload ++ attempts.map Attempt.payload := by
  induction attempts generalizing w ledger records c with
  | nil => exact ⟨w,.refl,(List.append_nil _).symm⟩
  | cons a rest ih =>
    obtain ⟨above,later⟩ := List.pairwise_cons.mp rising
    obtain ⟨apart,distinct⟩ := List.nodup_cons.mp distinct
    obtain ⟨w',d,record,run,decided,payload,credential,identity,ready'⟩ := World.attempt_decided ready (honest a List.mem_cons_self)
      (above a.count List.mem_cons_self) (fresh a List.mem_cons_self) sound (absent a List.mem_cons_self)
    have sound' := WebAuthnChallengeStore.decode_sound ready'.challenges
    have count : d.credential.1.signCount = a.count := by
      rw [credential]
      rfl
    have actor : d.credential.1.actor = c.1.actor := by
      rw [credential]
      rfl
    have name : d.credential.1.id = counterRecordId credentialId a.count := by
      rw [credential]
      rfl
    obtain ⟨w'',run',decided'⟩ := ih ready' sound'
      (by
        intro b member
        rw [actor]
        exact honest b (List.mem_cons_of_mem _ member))
      (by
        rw [count]
        exact later)
      (by
        intro b member
        apply find_other (fresh b (List.mem_cons_of_mem _ member))
        rw [identity]
        intro same
        exact apart (List.mem_map.mpr ⟨b,member,same.symm⟩))
      distinct
      (by
        intro b member
        apply Keyed.find_none.mpr
        rw [List.map_append,List.mem_append,not_or]
        refine ⟨Keyed.find_none.mp (absent b (List.mem_cons_of_mem _ member)),?_⟩
        intro inside
        rw [List.map_singleton,name] at inside
        have level := counterRecordId_count (List.mem_singleton.mp inside)
        have higher := (List.pairwise_cons.mp later).1 b.count (List.mem_map_of_mem member)
        omega)
    refine ⟨w'',run.trans run',?_⟩
    rw [decided',decided,List.map_append,List.append_assoc,List.map_singleton,payload]
    rfl

-- An enrolment, and after it every attempt of a list, from any world that decodes.
theorem World.enrolled_decided {w : World} {ledger : ChallengeLedger} {records : List CredentialRecord}
    (challenges : WebAuthnChallengeStore.decode w.ledgers.challenges = some ledger)
    (credentials : WebAuthnCredentialStore.decode w.ledgers.credentials = some records) (counted : Counted records)
    (binds : ∀ r ∈ records, s.binds r = true) {e : Enrolment} (honest : e.Honest s) (fresh : e.Fresh ledger records)
    {attempts : List Attempt} (each : ∀ a ∈ attempts, a.Honest s e.actor e.credential.credentialId)
    (rising : (e.count :: attempts.map Attempt.count).Pairwise (· < ·))
    (asked : ∀ a ∈ attempts, ledger.find a.payload.1.challenge = none ∧ a.payload.1.challenge ≠ "challenge:" ++ hexText e.challenge)
    (distinct : (attempts.map fun a => a.payload.1.challenge).Nodup)
    (absent : ∀ a ∈ attempts, WebAuthnCredentialStore.find records (counterRecordId e.credential.credentialId a.count) = none) :
    ∃ w', World.Runs w w' ∧ w'.decisions.map VerifiedHumanDecision.payload =
      w.decisions.map VerifiedHumanDecision.payload ++ attempts.map Attempt.payload := by
  obtain ⟨w',record,c,run,same,shape,identity,ready⟩ := World.enrolment_made challenges credentials counted binds honest fresh
  have actor : c.1.actor = e.actor := by
    rw [shape]
    rfl
  have count : c.1.signCount = e.count := by
    rw [shape]
    rfl
  have name : c.1.id = counterRecordId e.credential.credentialId e.count := by
    rw [shape]
    rfl
  obtain ⟨w'',run',decided⟩ := World.attempts_decided ready (WebAuthnChallengeStore.decode_sound ready.challenges)
    (by
      rw [actor]
      exact each)
    (by
      rw [count]
      exact rising)
    (by
      intro a member
      apply find_other (asked a member).1
      rw [identity]
      exact (asked a member).2.symm)
    distinct
    (by
      intro a member
      apply Keyed.find_none.mpr
      rw [List.map_append,List.mem_append,not_or]
      refine ⟨Keyed.find_none.mp (absent a member),?_⟩
      intro inside
      rw [List.map_singleton,name] at inside
      have level := counterRecordId_count (List.mem_singleton.mp inside)
      have higher := (List.pairwise_cons.mp rising).1 a.count (List.mem_map_of_mem member)
      omega)
  refine ⟨w'',run.trans run',?_⟩
  rw [decided,same]

end

-- Ann's repository, her authenticator, and the question that she answers.
def hexOf (kind : String) (digit : Char) : String := kind ++ String.ofList (List.replicate 64 digit)

theorem hexOf_list (kind : String) (digit : Char) : (hexOf kind digit).toList = kind.toList ++ List.replicate 64 digit := by
  rw [hexOf,String.toList_append,String.toList_ofList]

theorem hexOf_hash (kind : String) (hex : PyText.isHex digit = true) : isPrefixedHash kind (hexOf kind digit) = true := by
  simp [isPrefixedHash,hexOf_list,PyText.isHexDigest,hex]

def annService : WebAuthnService where
  projectId := "project"
  repositoryId := hexOf "repo:sha256:" '0'
  expectedOrigin := "http://localhost:8000"
  configured := Bool.and_eq_true_iff.mpr ⟨by decide +kernel,hexOf_hash _ (by decide)⟩

def annVerifier (count : Nat) : WebAuthnVerifier where
  registrationOptions _ := some [123,125]
  verifyRegistration _ _ := some ⟨[7],[9],0,true⟩
  authenticationOptions _ := some [123,125]
  verifyAuthentication _ _ := some ⟨[7],count,true⟩
  clientChallenge _ := some (List.replicate 32 0)

def noonAt (minute : Fin 60) : UtcTime :=
  ⟨⟨2026,1,6,12,minute,0,0,some 0,⟨by decide,by decide,by decide,⟨by decide,minute.isLt,by decide,by decide⟩,by decide⟩⟩,rfl⟩

def annDraft : HumanDecisionPayloadDraft where
  projectId := "project"
  repositoryId := hexOf "repo:sha256:" '0'
  actor := "ann"
  action := .answerClarification
  graphVersion := 3
  parentBundleDigest := hexOf "sha256:" '0'
  subject := ⟨"case","case:1",by decide +kernel⟩
  subjectDigest := hexOf "sha256:" '0'
  selectedNodeIds := []
  resultDigest := hexOf "sha256:" '0'
  challenge := hexOf "challenge:" '1'
  issuedAt := noonAt 0
  expiresAt := noonAt 5

theorem annDraft_size : annDraft.canonicalBytes.length ≤ maxPayloadBytes := by
  have text : (Json.text (.obj [("action",.str "answer_clarification"),("actor",.str "ann"),("challenge",.str (hexOf "challenge:" '1')),
      ("expires_at",.str (canonicalTimestamp (noonAt 5))),("graph_version",.int 3),("issued_at",.str (canonicalTimestamp (noonAt 0))),
      ("parent_bundle_digest",.str (hexOf "sha256:" '0')),("project_id",.str "project"),("repository_id",.str (hexOf "repo:sha256:" '0')),
      ("result_digest",.str (hexOf "sha256:" '0')),("schema_version",.int 1),("selected_node_ids",.arr []),
      ("subject",.obj [("id",.str "case:1"),("kind",.str "case")]),("subject_digest",.str (hexOf "sha256:" '0'))])).length ≤ 4000 := by
    simp only [Json.text,Json.membersText,Json.stringText,Json.stringBody,hexOf_list,canonicalTimestamp,String.toList_ofList]
    decide +kernel
  have bytes := utf8Length_le (String.ofList (Json.text (HumanDecisionPayloadDraft.codec.dump annDraft)))
  rw [utf8Length,String.toList_ofList] at bytes
  rw [HumanDecisionPayloadDraft.canonicalBytes,serialize,frame_bytes,List.length_append,List.length_singleton]
  have small : (Json.text (HumanDecisionPayloadDraft.codec.dump annDraft)).length ≤ 4000 := text
  have most : maxPayloadBytes = 16384 := rfl
  omega

theorem annDraft_valid : annDraft.valid = true := by
  have hashed : isHash (hexOf "sha256:" '0') = true := hexOf_hash _ (by decide)
  have digests : [annDraft.parentBundleDigest,annDraft.subjectDigest,annDraft.resultDigest].all isHash = true := by
    simp [annDraft,hashed]
  simp only [HumanDecisionPayloadDraft.valid,Bool.and_eq_true,decide_eq_true_eq]
  exact ⟨⟨⟨⟨⟨⟨⟨⟨⟨by decide +kernel,hexOf_hash _ (by decide)⟩,by decide +kernel⟩,by decide⟩,digests⟩,hexOf_hash _ (by decide)⟩,by decide⟩,
    by decide⟩,rfl⟩,annDraft_size⟩

def annAnswer : HumanDecisionPayload := ⟨annDraft,annDraft_valid⟩

def annEnrolment : Enrolment := ⟨annVerifier 0,[],"ann",List.replicate 32 0,noonAt 0,noonAt 1,⟨[7],[9],0,true⟩⟩

def annAttempts : List Attempt := [⟨annAnswer,annVerifier 1,[],noonAt 1,noonAt 2,1⟩]

theorem ann_enrols : annEnrolment.Honest annService where
  acting := by decide +kernel
  sized := rfl
  prompt := ⟨noonAt 5,by decide +kernel,by decide +kernel⟩
  offers := ⟨[123,125],rfl,by decide⟩
  client := rfl
  confirms := rfl
  admitted := by decide +kernel
  short := by decide +kernel

theorem ann_fresh : annEnrolment.Fresh ⟨[],[]⟩ [] where
  challenge := rfl
  credential r member := by cases member
  absent := rfl

theorem ann_answers : ∀ a ∈ annAttempts, a.Honest annService "ann" [7] := by
  intro a member
  rw [List.mem_singleton.mp member]
  exact ⟨rfl,rfl,rfl,by decide +kernel,by decide +kernel,⟨noonAt 6,by decide +kernel,by decide +kernel⟩,
    fun _ => ⟨[123,125],rfl,by decide⟩,fun _ => rfl,by decide⟩

theorem ann_asked : ∀ a ∈ annAttempts, a.payload.1.challenge ≠ "challenge:" ++ hexText annEnrolment.challenge := by
  intro a member
  rw [List.mem_singleton.mp member]
  decide +kernel

theorem ann_rises : (annEnrolment.count :: annAttempts.map Attempt.count).Pairwise (· < ·) := by
  change [0,1].Pairwise (· < ·)
  decide

theorem ann_distinct : (annAttempts.map fun a => a.payload.1.challenge).Nodup := List.nodup_singleton _

theorem ann_decides : ∃ w, World.Runs World.initial w ∧
    w.decisions.map VerifiedHumanDecision.payload = [annAnswer] :=
  World.enrolled_decided (w := World.initial) (e := annEnrolment) rfl rfl List.Pairwise.nil nofun ann_enrols ann_fresh ann_answers ann_rises
    (fun a member => ⟨rfl,ann_asked a member⟩) ann_distinct fun _ _ => rfl

namespace World

-- No challenge lets two decisions through, and every decision answers an offer
-- of the same service that was made for it less than five minutes before.
theorem decided_once {w : World} (run : Runs initial w) :
    (w.decisions.map fun d => d.payload.1.challenge).Nodup ∧ Preceded Answers w.trace := by
  have kept := (runs_kept run).1
  exact ⟨kept.once,kept.answered⟩

theorem ann_decided_once : ∃ w : World, w.decisions.map VerifiedHumanDecision.payload = [annAnswer] ∧
    (w.decisions.map fun d => d.payload.1.challenge).Nodup ∧ Preceded Answers w.trace := by
  obtain ⟨w,run,decided⟩ := ann_decides
  exact ⟨w,decided,decided_once run⟩

-- Every decision is made with a credential that was enrolled for its actor, and
-- the counts of one credential rise from decision to decision.
theorem counts_rise {w : World} (run : Runs initial w) : w.decisions.Pairwise Rises ∧ Preceded Enrolled w.trace := by
  obtain ⟨_,records,kept⟩ := runs_kept run
  exact ⟨kept.rising,kept.enrolled⟩

theorem ann_counts_rise : ∃ w : World, w.decisions.map VerifiedHumanDecision.payload = [annAnswer] ∧
    w.decisions.Pairwise Rises ∧ Preceded Enrolled w.trace := by
  obtain ⟨w,run,decided⟩ := ann_decides
  exact ⟨w,decided,counts_rise run⟩

-- The credentials always decode and are never ambiguous to a service that all
-- of them are bound to. Only an append of a challenge that was cut off leaves a
-- ledger that does not decode, and from then on nothing is decided or written.
theorem authority_fails_closed {w : World} (run : Runs initial w) :
    (∃ records, WebAuthnCredentialStore.decode w.ledgers.credentials = some records ∧ ∀ (s : WebAuthnService) (actor : String),
      (∀ r ∈ records, s.binds r = true) → ∃ current, s.currentCredentials actor records = some current) ∧
    (WebAuthnChallengeStore.decode w.ledgers.challenges = none → (∃ o, Event.offered o false ∈ w.trace) ∧
      ∀ w', Runs w w' → w'.ledgers = w.ledgers ∧ w'.decisions = w.decisions) := by
  obtain ⟨_,records,kept⟩ := runs_kept run
  refine ⟨⟨records,kept.read,?_⟩,?_⟩
  · intro s actor bound
    exact WebAuthnService.currentCredentials_counted actor bound kept.counted
  · intro broken
    exact ⟨runs_whole run broken,fun w' later => runs_frozen later broken⟩

theorem ann_fails_closed : ∃ w : World, w.decisions.map VerifiedHumanDecision.payload = [annAnswer] ∧
    (∃ records, WebAuthnCredentialStore.decode w.ledgers.credentials = some records ∧ ∀ (s : WebAuthnService) (actor : String),
      (∀ r ∈ records, s.binds r = true) → ∃ current, s.currentCredentials actor records = some current) ∧
    (WebAuthnChallengeStore.decode w.ledgers.challenges = none → (∃ o, Event.offered o false ∈ w.trace) ∧
      ∀ w', Runs w w' → w'.ledgers = w.ledgers ∧ w'.decisions = w.decisions) := by
  obtain ⟨w,run,decided⟩ := ann_decides
  exact ⟨w,decided,authority_fails_closed run⟩

end World

end ControlPlane
