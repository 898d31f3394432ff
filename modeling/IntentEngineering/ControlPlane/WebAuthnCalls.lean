import IntentEngineering.ControlPlane.WebAuthnLedgers
import IntentEngineering.ControlPlane.WebAuthnService

open Schema ByteFrames

namespace ControlPlane

theorem mapM_member {α β : Type} {f : α → Option β} {xs : List α} {ys : List β} {y : β} (made : xs.mapM f = some ys) (member : y ∈ ys) :
    ∃ x ∈ xs, f x = some y := by
  induction xs generalizing ys with
  | nil =>
    cases made
    cases member
  | cons x xs ih =>
    rw [List.mapM_cons] at made
    obtain ⟨z,head,made⟩ := Option.bind_eq_some_iff.mp made
    obtain ⟨zs,tail,made⟩ := Option.bind_eq_some_iff.mp made
    cases made
    rcases List.mem_cons.mp member with rfl | later
    · exact ⟨x,List.mem_cons_self,head⟩
    · obtain ⟨w,inside,made⟩ := ih tail later
      exact ⟨w,List.mem_cons_of_mem _ inside,made⟩

theorem mapM_listed {α β : Type} {f : α → Option β} {xs : List α} {ys : List β} {x : α} (made : xs.mapM f = some ys) (member : x ∈ xs) :
    ∃ y ∈ ys, f x = some y := by
  induction xs generalizing ys with
  | nil => cases member
  | cons z xs ih =>
    rw [List.mapM_cons] at made
    obtain ⟨y,head,made⟩ := Option.bind_eq_some_iff.mp made
    obtain ⟨zs,tail,made⟩ := Option.bind_eq_some_iff.mp made
    cases made
    rcases List.mem_cons.mp member with rfl | later
    · exact ⟨y,List.mem_cons_self,head⟩
    · obtain ⟨w,inside,here⟩ := ih tail later
      exact ⟨w,List.mem_cons_of_mem _ inside,here⟩

theorem mapM_total {α β : Type} {f : α → Option β} {xs : List α} (each : ∀ x ∈ xs, ∃ y, f x = some y) : ∃ ys, xs.mapM f = some ys := by
  induction xs with
  | nil => exact ⟨[],rfl⟩
  | cons x xs ih =>
    obtain ⟨y,head⟩ := each x List.mem_cons_self
    obtain ⟨ys,tail⟩ := ih fun z member => each z (List.mem_cons_of_mem _ member)
    refine ⟨y :: ys,?_⟩
    rw [List.mapM_cons,head,tail]
    rfl

-- The greatest count of a list.
def highest (records : List CredentialRecord) (n : Nat) : Nat := records.foldl (fun n r => max n r.1.signCount) n

theorem highest_bounds (records : List CredentialRecord) (n : Nat) :
    n ≤ highest records n ∧ ∀ r ∈ records, r.1.signCount ≤ highest records n := by
  induction records generalizing n with
  | nil => simp [highest]
  | cons r rs ih =>
    obtain ⟨low,rest⟩ := ih (max n r.1.signCount)
    have first : highest (r :: rs) n = highest rs (max n r.1.signCount) := rfl
    rw [first]
    refine ⟨by omega,?_⟩
    intro q member
    rcases List.mem_cons.mp member with rfl | later
    · omega
    · exact rest q later

theorem highest_attained (records : List CredentialRecord) (n : Nat) :
    highest records n = n ∨ ∃ r ∈ records, r.1.signCount = highest records n := by
  induction records generalizing n with
  | nil => exact .inl rfl
  | cons r rs ih =>
    have first : highest (r :: rs) n = highest rs (max n r.1.signCount) := rfl
    rw [first]
    rcases ih (max n r.1.signCount) with same | ⟨q,inside,reached⟩
    · rcases Nat.le_total r.1.signCount n with below | above
      · left
        omega
      · right
        exact ⟨r,List.mem_cons_self,by omega⟩
    · exact .inr ⟨q,List.mem_cons_of_mem _ inside,reached⟩

-- Records of one credential agree on all but their count, and each counts
-- higher than the ones before it.
def Follows (a b : CredentialRecord) : Prop :=
  a.1.credentialId = b.1.credentialId → a.1.invariant = b.1.invariant ∧ a.1.signCount < b.1.signCount

def Counted (records : List CredentialRecord) : Prop := records.Pairwise Follows

theorem invariant_credential {a b : CredentialDraft} (same : a.invariant = b.invariant) : a.credentialId = b.credentialId := by
  have fields := congrArg CredentialDraft.credentialId same
  exact fields

theorem latestCredential_some {records : List CredentialRecord} (found : latestCredential records = some c) :
    c ∈ records ∧ ∀ r ∈ records, r.1.invariant = c.1.invariant ∧ r.1.signCount ≤ c.1.signCount := by
  unfold latestCredential at found
  split at found
  · cases found
  · rename_i first rest
    split at found
    · cases found
    · rename_i alike
      dsimp only at found
      split at found
      · rename_i latest single
        cases found
        have inside : c ∈ (first :: rest).filter fun r => r.1.signCount == highest (first :: rest) 0 := by
          rw [highest,single]
          exact List.mem_singleton_self c
        obtain ⟨member,top⟩ := List.mem_filter.mp inside
        have one : ∀ r ∈ first :: rest, r.1.invariant = first.1.invariant := by
          intro r here
          rcases List.mem_cons.mp here with rfl | later
          · rfl
          · by_contra other
            apply alike
            apply List.any_eq_true.mpr
            exact ⟨r,later,decide_eq_true other⟩
        refine ⟨member,?_⟩
        intro r here
        refine ⟨(one r here).trans (one c member).symm,?_⟩
        rw [beq_iff_eq.mp top]
        exact (highest_bounds (first :: rest) 0).2 r here
      · cases found

-- A history that only counts up is not ambiguous.
theorem latestCredential_counted {records : List CredentialRecord} (nonempty : records ≠ [])
    (rising : records.Pairwise fun a b => a.1.invariant = b.1.invariant ∧ a.1.signCount < b.1.signCount) :
    ∃ c, latestCredential records = some c := by
  cases records with
  | nil => exact absurd rfl nonempty
  | cons first rest =>
    obtain ⟨above,later⟩ := List.pairwise_cons.mp rising
    have alike : (rest.any fun r => r.1.invariant ≠ first.1.invariant) = false := by
      apply List.any_eq_false.mpr
      intro r member
      simp [(above r member).1]
    have some : ∃ r ∈ first :: rest, r.1.signCount = highest (first :: rest) 0 := by
      rcases highest_attained (first :: rest) 0 with zero | reached
      · have bound := (highest_bounds (first :: rest) 0).2 first List.mem_cons_self
        exact ⟨first,List.mem_cons_self,by omega⟩
      · exact reached
    have few : ((first :: rest).filter fun r => r.1.signCount == highest (first :: rest) 0).Pairwise fun _ _ => False := by
      apply List.Pairwise.imp_of_mem _ (rising.sublist List.filter_sublist)
      intro a b left right order
      have top := beq_iff_eq.mp (List.mem_filter.mp left).2
      have top' := beq_iff_eq.mp (List.mem_filter.mp right).2
      omega
    obtain ⟨r,member,reached⟩ := some
    have inside : r ∈ (first :: rest).filter fun r => r.1.signCount == highest (first :: rest) 0 :=
      List.mem_filter.mpr ⟨member,beq_iff_eq.mpr reached⟩
    have single : ∃ a, (first :: rest).filter (fun r => r.1.signCount == highest (first :: rest) 0) = [a] := by
      generalize (first :: rest).filter (fun r => r.1.signCount == highest (first :: rest) 0) = top at few inside
      cases top with
      | nil => cases inside
      | cons a more =>
        cases more with
        | nil => exact ⟨a,rfl⟩
        | cons b more => exact ((List.pairwise_cons.mp few).1 b List.mem_cons_self).elim
    obtain ⟨a,alone⟩ := single
    refine ⟨a,?_⟩
    have shown : (first :: rest).filter (fun r => r.1.signCount == (first :: rest).foldl (fun n r => max n r.1.signCount) 0) = [a] := alone
    simp only [latestCredential,alike,Bool.false_eq_true,if_false,shown]

namespace WebAuthnService
variable {s : WebAuthnService} {v : WebAuthnVerifier}

theorem currentCredentials_some {actor : String} {records current : List CredentialRecord}
    (found : s.currentCredentials actor records = some current) : ∀ c ∈ current, c ∈ records ∧ c.1.actor = actor ∧
      ∀ r ∈ records, r.1.credentialId = c.1.credentialId → r.1.invariant = c.1.invariant ∧ r.1.signCount ≤ c.1.signCount := by
  unfold currentCredentials at found
  split at found
  · cases found
  · obtain ⟨latest,made,rfl⟩ := Option.map_eq_some_iff.mp found
    intro c member
    obtain ⟨inside,acting⟩ := List.mem_filter.mp (Keyed.inOrder_member.mp member)
    obtain ⟨group,listed,chosen⟩ := mapM_member made inside
    obtain ⟨id,_,rfl⟩ := List.mem_map.mp listed
    obtain ⟨here,all⟩ := latestCredential_some chosen
    obtain ⟨there,named⟩ := List.mem_filter.mp here
    refine ⟨there,beq_iff_eq.mp acting,?_⟩
    intro r known same
    apply all
    exact List.mem_filter.mpr ⟨known,by rw [beq_iff_eq.mp named] at same; exact beq_iff_eq.mpr same⟩

theorem currentCredentials_counted {records : List CredentialRecord} (actor : String) (bound : ∀ r ∈ records, s.binds r = true)
    (counted : Counted records) : ∃ current, s.currentCredentials actor records = some current := by
  have mine : (records.any fun r => !s.binds r) = false := by
    apply List.any_eq_false.mpr
    intro r member
    simp [bound r member]
  have groups : ∃ latest, ((Keyed.fromKeys (records.map fun r => r.1.credentialId)).map
      fun id => records.filter fun r => r.1.credentialId == id).mapM latestCredential = some latest := by
    apply mapM_total
    intro group listed
    obtain ⟨id,named,rfl⟩ := List.mem_map.mp listed
    obtain ⟨r,member,same⟩ := List.mem_map.mp (Keyed.mem_fromKeys.mp named)
    apply latestCredential_counted
    · intro empty
      have here : r ∈ records.filter fun r => r.1.credentialId == id := List.mem_filter.mpr ⟨member,beq_iff_eq.mpr same⟩
      rw [empty] at here
      cases here
    · apply List.Pairwise.imp_of_mem _ (counted.sublist List.filter_sublist)
      intro a b left right follows
      have one := beq_iff_eq.mp (List.mem_filter.mp left).2
      have two := beq_iff_eq.mp (List.mem_filter.mp right).2
      exact follows (one.trans two.symm)
  obtain ⟨latest,made⟩ := groups
  refine ⟨Keyed.inOrder (fun r : CredentialRecord => r.1.credentialId) (latest.filter fun r => r.1.actor == actor),?_⟩
  unfold currentCredentials
  rw [mine,if_neg Bool.false_ne_true]
  exact congrArg (Option.map _) made

theorem challengeRecord_some {ceremony : Ceremony} {challenge : Utf8.Bytes} {digest : Option String} {now : UtcTime} {record : ChallengeRecord}
    {id : String} {actor : String} (made : s.challengeRecord id actor ceremony challenge digest now = some record) :
    ∃ expires, now.later maxChallengeLifetime = some expires ∧
      record.1 = ⟨id,s.projectId,s.repositoryId,actor,ceremony,b64url challenge,digest,now,expires⟩ := by
  obtain ⟨expires,later,made⟩ := Option.bind_eq_some_iff.mp made
  refine ⟨expires,later,?_⟩
  unfold ChallengeRecord.build at made
  split at made
  · cases made
    rfl
  · cases made

theorem prepareRegistration_some {source : Option Utf8.Bytes} {actor origin : String} {now : UtcTime} {p : Prepared}
    (made : s.prepareRegistration v source actor origin now = some p) : p.record.1.ceremony = .registration := by
  unfold prepareRegistration at made
  split at made
  · cases made
  · obtain ⟨challenge,_,made⟩ := Option.bind_eq_some_iff.mp made
    split at made
    · cases made
    · obtain ⟨options,_,made⟩ := Option.bind_eq_some_iff.mp made
      split at made
      · cases made
      · obtain ⟨record,built,rfl⟩ := Option.map_eq_some_iff.mp made
        obtain ⟨_,_,shape⟩ := challengeRecord_some built
        rw [shape]

theorem prepareAuthentication_some {payload : HumanDecisionPayload} {origin : String} {now : UtcTime} {credentials : Option Utf8.Bytes}
    {p : Prepared} (made : s.prepareAuthentication v payload origin now credentials = some p) :
    s.validDecisionCall payload origin now = true ∧
      s.challengeRecord payload.1.challenge payload.1.actor .authentication (sha256Digest payload.1.canonicalBytes)
        (some (payloadDigest payload.1.canonicalBytes)) now = some p.record := by
  unfold prepareAuthentication at made
  split at made
  · cases made
  · rename_i allowed
    obtain ⟨current,_,made⟩ := Option.bind_eq_some_iff.mp made
    split at made
    · cases made
    · obtain ⟨options,_,made⟩ := Option.bind_eq_some_iff.mp made
      split at made
      · cases made
      · obtain ⟨record,built,rfl⟩ := Option.map_eq_some_iff.mp made
        exact ⟨by simpa using allowed,built⟩

theorem issuePrepared_some {p : Prepared} {challenges : Option Utf8.Bytes} {bytes : Utf8.Bytes}
    (issued : issuePrepared p challenges = some bytes) : ∃ ledger, WebAuthnChallengeStore.decode challenges = some ledger ∧
      ledger.find p.record.1.id = none ∧ bytes = serialize ChallengeFrame.codec (.issued p.record) := by
  unfold issuePrepared at issued
  split at issued
  · rename_i bytes' added
    cases issued
    obtain ⟨ledger,read,added⟩ := Option.bind_eq_some_iff.mp added
    cases known : ledger.find p.record.1.id with
    | some existing =>
      simp only [known] at added
      split at added <;> cases added
    | none =>
      simp only [known,Option.some.injEq,Prod.mk.injEq,true_and] at added
      exact ⟨ledger,read,known,added.symm⟩
  · cases issued

theorem build_draft {draft : CredentialDraft} {credential : CredentialRecord} (built : CredentialRecord.build draft = some credential) :
    credential.1 = draft := by
  unfold CredentialRecord.build at built
  split at built
  · cases built
    rfl
  · cases built

-- A registration that succeeds spends its challenge and adds one credential
-- that no record of the ledger was about.
theorem register_some {response : Utf8.Bytes} {actor origin : String} {now : UtcTime} {l l' : Ledgers} {credential : CredentialRecord}
    (done : s.register v response actor origin now l = some (credential,l')) :
    (∃ ledger challenge, v.clientChallenge response = some challenge ∧ WebAuthnChallengeStore.decode l.challenges = some ledger ∧
      WebAuthnChallengeStore.decode l'.challenges = some (ledger.consuming ("challenge:" ++ hexText challenge))) ∧
    ∃ records, WebAuthnCredentialStore.decode l.credentials = some records ∧
      (∀ r ∈ records, r.1.credentialId ≠ credential.1.credentialId) ∧
      WebAuthnCredentialStore.decode l'.credentials = some (records ++ [credential]) := by
  unfold register at done
  split at done
  · cases done
  · obtain ⟨challenge,client,done⟩ := Option.bind_eq_some_iff.mp done
    split at done
    · cases done
    · obtain ⟨⟨record,consumption⟩,taken,done⟩ := Option.bind_eq_some_iff.mp done
      dsimp only at done
      split at done
      · cases done
      · obtain ⟨verified,_,done⟩ := Option.bind_eq_some_iff.mp done
        split at done
        · cases done
        · obtain ⟨records,read,done⟩ := Option.bind_eq_some_iff.mp done
          split at done
          · cases done
          · rename_i fresh
            obtain ⟨built,shape,done⟩ := Option.bind_eq_some_iff.mp done
            split at done
            · rename_i frame added
              cases done
              obtain ⟨ledger,open',_,_,_,spent⟩ := WebAuthnChallengeStore.consume_some taken
              obtain ⟨_,stored⟩ := WebAuthnCredentialStore.put_added read added
              refine ⟨⟨ledger,challenge,client,open',spent⟩,records,read,?_,stored⟩
              intro r member same
              apply fresh
              apply List.any_eq_true.mpr
              refine ⟨r,member,beq_iff_eq.mpr ?_⟩
              rw [same,build_draft shape]
              rfl
            · cases done

-- How a credential is counted: not at all where both counts are zero, else up.
theorem counted_some {credential verified : CredentialRecord} {credentialId : Utf8.Bytes} {count : Nat} {content content' : Option Utf8.Bytes}
    {records : List CredentialRecord} (read : WebAuthnCredentialStore.decode content = some records)
    (forward : rolledBack credential count = false) (made : counted credential credentialId count content = some (verified,content')) :
    verified.1.invariant = credential.1.invariant ∧
      ((verified = credential ∧ verified.1.signCount = 0 ∧ content' = content) ∨
        (credential.1.signCount < verified.1.signCount ∧ WebAuthnCredentialStore.decode content' = some (records ++ [verified]))) := by
  unfold counted at made
  split at made
  · rename_i same
    cases made
    refine ⟨rfl,.inl ⟨rfl,?_,rfl⟩⟩
    simp only [rolledBack,Bool.and_eq_false_iff,bne_eq_false_iff_eq,Prod.mk.injEq,decide_eq_false_iff_not] at forward
    rcases forward with zero | above
    · exact zero.1
    · omega
  · rename_i other
    obtain ⟨next,built,made⟩ := Option.bind_eq_some_iff.mp made
    have shape := build_draft built
    split at made
    · rename_i frame added
      cases made
      have count' : verified.1.signCount = count := by
        rw [shape]
        rfl
      refine ⟨by rw [shape]; rfl,.inr ⟨?_,(WebAuthnCredentialStore.put_added read added).2⟩⟩
      simp only [rolledBack,Bool.and_eq_false_iff,bne_eq_false_iff_eq,Prod.mk.injEq,decide_eq_false_iff_not] at forward
      rcases forward with zero | above
      · omega
      · omega
    · cases made

-- A verification that succeeds spends the challenge of its own decision and
-- counts the credential it was made with.
structure Verified (s : WebAuthnService) (l l' : Ledgers) (d : VerifiedHumanDecision) (ledger : ChallengeLedger) (record : ChallengeRecord)
    (records : List CredentialRecord) (credential : CredentialRecord) : Prop where
  challenges : WebAuthnChallengeStore.decode l.challenges = some ledger
  issued : ledger.find d.payload.1.challenge = some record
  unspent : d.payload.1.challenge ∉ ledger.consumed
  timely : openAt record.1.issuedAt record.1.expiresAt d.verifiedAt = true
  bound : s.authenticationBound record d.payload = true
  binds : d.payload.1.projectId = s.projectId ∧ d.payload.1.repositoryId = s.repositoryId
  lasting : openAt d.payload.1.issuedAt d.payload.1.expiresAt d.verifiedAt = true
  spent : WebAuthnChallengeStore.decode l'.challenges = some (ledger.consuming d.payload.1.challenge)
  credentials : WebAuthnCredentialStore.decode l.credentials = some records
  known : credential ∈ records
  acting : credential.1.actor = d.payload.1.actor
  latest : ∀ r ∈ records, r.1.credentialId = credential.1.credentialId →
    r.1.invariant = credential.1.invariant ∧ r.1.signCount ≤ credential.1.signCount
  same : d.credential.1.invariant = credential.1.invariant
  counts : (d.credential = credential ∧ d.credential.1.signCount = 0 ∧ WebAuthnCredentialStore.decode l'.credentials = some records) ∨
    (credential.1.signCount < d.credential.1.signCount ∧
      WebAuthnCredentialStore.decode l'.credentials = some (records ++ [d.credential]))

theorem verify_some {response : Utf8.Bytes} {payload : HumanDecisionPayload} {origin : String} {now : UtcTime} {l l' : Ledgers}
    {d : VerifiedHumanDecision} (done : s.verify v response payload origin now l = some (d,l')) :
    ∃ ledger record records credential, Verified s l l' d ledger record records credential := by
  unfold verify at done
  split at done
  · cases done
  · rename_i allowed
    obtain ⟨⟨record,consumption⟩,taken,done⟩ := Option.bind_eq_some_iff.mp done
    dsimp only at done
    split at done
    · cases done
    · rename_i bound
      obtain ⟨current,found,done⟩ := Option.bind_eq_some_iff.mp done
      obtain ⟨records,read,found⟩ := Option.bind_eq_some_iff.mp found
      split at done
      · cases done
      · obtain ⟨result,_,done⟩ := Option.bind_eq_some_iff.mp done
        split at done
        · cases done
        · obtain ⟨credential,chosen,done⟩ := Option.bind_eq_some_iff.mp done
          split at done
          · cases done
          · rename_i forward
            obtain ⟨⟨verified,content⟩,made,done⟩ := Option.map_eq_some_iff.mp done
            cases done
            obtain ⟨ledger,open',issued,unspent,timely,spent⟩ := WebAuthnChallengeStore.consume_some taken
            obtain ⟨known,acting,latest⟩ := currentCredentials_some found credential (List.mem_of_find?_eq_some chosen)
            obtain ⟨same,counts⟩ := counted_some read (by simpa using forward) made
            simp only [validDecisionCall,Bool.not_eq_false,Bool.and_eq_true,beq_iff_eq] at allowed
            obtain ⟨⟨⟨_,project⟩,repository⟩,lasting⟩ := allowed
            refine ⟨ledger,record,records,credential,open',issued,unspent,timely,by simpa using bound,⟨project,repository⟩,lasting,spent,
              read,known,acting,latest,same,?_⟩
            rcases counts with ⟨still,zero,rfl⟩ | counts
            · exact .inl ⟨still,zero,read⟩
            · exact .inr counts

end WebAuthnService

end ControlPlane
