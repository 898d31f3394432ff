import IntentEngineering.Mutations.ExecutorRuns

open Schema LocalTransaction Interrupt ReceiptStore ReceiptLedger

namespace WriteExecutor

section Standing

variable (env : WriteEnv) (c : Coordinator)

-- The workspace recovers to this ledger.
def Keeps (disk : Disk) (s : ReceiptLedger env.lax env.sha256) : Prop :=
  ∃ contents, effective c disk = some contents ∧ Holds env.lax env.sha256 (contents "receipts") s

-- Nothing the workspace recovers to is a ledger.
def Shut (disk : Disk) : Prop :=
  ∀ contents, effective c disk = some contents → decode env.lax env.sha256 (contents "receipts") = none

def Standing (disk : Disk) (s : ReceiptLedger env.lax env.sha256) : Prop := Keeps env c disk s ∨ (Shut env c disk ∧ s = ⟨[],[]⟩)

-- A receipt that can be read on the disk.
def Recorded (disk : Disk) (r : env.Receipt) : Prop :=
  ∃ contents s, effective c disk = some contents ∧ decode env.lax env.sha256 (contents "receipts") = some s ∧ r ∈ s.receipts

-- An operation that reads the ledger and appends lines the ledger takes.
structure Appends {α : Type} (op : Operation α) (line : Record env.lax env.sha256 → Prop) : Prop where
  receipts : op.target = "receipts"
  coordinated : op.coordinated = true
  turns : ∀ content value frame, op.turn content = some (value,frame) → ∃ s, decode env.lax env.sha256 content = some s ∧
    ∀ bytes, frame = some bytes → ∃ r s', line r ∧ record s r = some s' ∧ bytes = ByteFrames.serialize (receiptCodec env.lax env.sha256) r

end Standing

variable {env : WriteEnv} {c : Coordinator} {s : ReceiptLedger env.lax env.sha256}

theorem standing_exists (disk : Disk) : ∃ s, Standing env c disk s ∧ ∀ r ∈ s.receipts, Recorded env c disk r := by
  by_cases shut : Shut env c disk
  · exact ⟨⟨[],[]⟩,.inr ⟨shut,rfl⟩,fun _ member => by cases member⟩
  · simp only [Shut,not_forall] at shut
    obtain ⟨contents,settled,legible⟩ := shut
    obtain ⟨s,read⟩ := Option.ne_none_iff_exists'.mp legible
    obtain ⟨rs,whole,held⟩ := (decode_iff _ s).mp read
    refine ⟨s,.inl ⟨contents,settled,rs,[],by rw [List.append_nil,whole],held,by simp⟩,?_⟩
    intro r member
    exact ⟨contents,s,settled,read,member⟩

theorem standing_decoded (standing : Standing env c disk s) (settled : effective c disk = some contents)
    (read : decode env.lax env.sha256 (contents "receipts") = some s') : s' = s := by
  rcases standing with ⟨contents',settled',holds⟩ | ⟨shut,_⟩
  · rw [settled] at settled'
    cases settled'
    exact (holds_decoded holds read).1
  · rw [shut contents settled] at read
    cases read

section Operations

variable {α : Type} {op : Operation α} {line : Record env.lax env.sha256 → Prop}

theorem act_standing (appends : Appends env op line) (standing : Standing env c disk s)
    (ran : op.act c ⟨disk,schedule⟩ = (result,after)) :
    ∃ s', Standing env c after.state s' ∧ (s' = s ∨ ∃ r, line r ∧ record s r = some s') ∧
      ∀ value, result = .ok value → ∃ content frame, decode env.lax env.sha256 content = some s ∧
        op.turn content = some (value,frame) ∧ (frame = none → s' = s) ∧
        (frame ≠ none → ∃ r, line r ∧ record s r = some s') := by
  have target := appends.receipts
  rcases standing with ⟨contents,settled,holds⟩ | ⟨shut,rfl⟩
  · obtain ⟨left,there,leaves⟩ := act_effective appends.coordinated settled ran
    cases result with
    | ok value =>
      obtain ⟨frame,turned,rfl⟩ := leaves
      obtain ⟨found,read,takes⟩ := appends.turns _ _ _ turned
      rw [target] at read there
      obtain ⟨rfl,rs,whole,held⟩ := holds_decoded holds read
      cases frame with
      | none =>
        refine ⟨found,.inl ⟨contents,there,holds⟩,.inl rfl,?_⟩
        rintro _ ⟨rfl⟩
        exact ⟨_,_,target ▸ read,turned,fun _ => rfl,fun some => absurd rfl some⟩
      | some bytes =>
        obtain ⟨r,s',ours,taken,rfl⟩ := takes _ rfl
        rcases holds_extended whole held taken List.prefix_rfl with ⟨_,grown⟩ | ⟨cut,_⟩
        · refine ⟨s',.inl ⟨_,there,?_⟩,.inr ⟨r,ours,taken⟩,?_⟩
          · simpa [Operation.extended] using grown
          · rintro _ ⟨rfl⟩
            exact ⟨_,_,target ▸ read,turned,fun none => (by cases none),fun _ => ⟨r,ours,taken⟩⟩
        · exact absurd rfl cut
    | error halt =>
      rcases leaves with rfl | ⟨value,frame,part,turned,first,rfl⟩
      · exact ⟨s,.inl ⟨_,there,holds⟩,.inl rfl,fun _ impossible => by cases impossible⟩
      · obtain ⟨found,read,takes⟩ := appends.turns _ _ _ turned
        rw [target] at read there
        obtain ⟨rfl,rs,whole,held⟩ := holds_decoded holds read
        obtain ⟨r,s',ours,taken,rfl⟩ := takes _ rfl
        rcases holds_extended whole held taken first with ⟨_,grown⟩ | ⟨_,same⟩
        · refine ⟨s',.inl ⟨_,there,?_⟩,.inr ⟨r,ours,taken⟩,fun _ impossible => by cases impossible⟩
          simpa [Operation.extended] using grown
        · refine ⟨found,.inl ⟨_,there,?_⟩,.inl rfl,fun _ impossible => by cases impossible⟩
          simpa [Operation.extended] using same
  · -- nothing is read, so nothing is appended
    have unread (contents : Contents) (settled : effective c disk = some contents) : op.turn (contents op.target) = none := by
      rw [Option.eq_none_iff_forall_not_mem]
      rintro ⟨value,frame⟩ turned
      obtain ⟨_,read,_⟩ := appends.turns _ _ _ turned
      rw [target,shut contents settled] at read
      cases read
    refine ⟨⟨[],[]⟩,.inr ⟨?_,rfl⟩,.inl rfl,?_⟩
    · intro contents' settled'
      cases before : effective c disk with
      | none =>
        rw [(act_refused appends.coordinated before ran).2] at settled'
        cases settled'
      | some contents =>
        obtain ⟨left,there,leaves⟩ := act_effective appends.coordinated before ran
        rw [there] at settled'
        cases settled'
        cases result with
        | ok value =>
          obtain ⟨frame,turned,_⟩ := leaves
          rw [unread contents before] at turned
          cases turned
        | error halt =>
          rcases leaves with rfl | ⟨value,frame,part,turned,_⟩
          · exact shut _ before
          · rw [unread contents before] at turned
            cases turned
    · rintro value rfl
      cases before : effective c disk with
      | none =>
        obtain ⟨_,impossible⟩ := (act_refused appends.coordinated before ran).1
        cases impossible
      | some contents =>
        obtain ⟨left,there,frame,turned,_⟩ := act_effective appends.coordinated before ran
        rw [unread contents before] at turned
        cases turned

end Operations

namespace Job

variable {job : Job env}

theorem lookup_appends : Appends env job.lookup (fun _ => False) where
  receipts := rfl
  coordinated := rfl
  turns := by
    intro content value frame turned
    simp only [Job.lookup,getFor] at turned
    cases read : decode env.lax env.sha256 content with
    | none => simp [read] at turned
    | some s =>
      simp only [read,Option.some.injEq,Prod.mk.injEq] at turned
      obtain ⟨rfl,rfl⟩ := turned
      exact ⟨s,rfl,fun _ impossible => by cases impossible⟩

theorem claim_turn {content : Option Utf8.Bytes} (read : decode env.lax env.sha256 content = some s) (turned : job.claim.turn content = some (added,frame)) :
    ∃ claim, claim.key = job.key ∧ claim.actor = job.actor ∧
      ((added = false ∧ frame = none) ∨ (added = true ∧
        frame = some (ByteFrames.serialize (receiptCodec env.lax env.sha256) (.inl claim)) ∧ record s (.inl claim) = some (grown s (.inl claim)))) := by
  by_cases valid : (isPlanId job.plan.1.id && isApprovalId job.approval.1.id && mutationText job.actor) = true
  · refine ⟨⟨job.plan.1.id,job.approval.1.id,job.actor,job.now,valid⟩,rfl,rfl,?_⟩
    simp only [Job.claim,ReceiptStore.claim,ExecutionClaim.build,dif_pos valid,read] at turned
    split at turned
    · cases turned
    · rename_i got
      cases turned
      split at got
      · cases got
        exact .inl ⟨rfl,rfl⟩
      · rename_i absent
        cases got
        rw [Bool.not_eq_true,Option.isSome_eq_false_iff,Option.isNone_iff_eq_none] at absent
        refine .inr ⟨rfl,rfl,(record_claim s _).mpr ⟨absent,?_,rfl⟩⟩
        -- a receipt would have a claim before it
        rw [receipt_none]
        intro r member same
        obtain ⟨rs,_,held⟩ := (decode_iff content s).mp read
        obtain ⟨c,there,key,_⟩ := (replayed_sound held).claimed r member
        exact claim_none.mp absent c there (key.trans same)
  · simp [Job.claim,ReceiptStore.claim,ExecutionClaim.build,valid] at turned

theorem claim_appends : Appends env job.claim (fun r => ∃ claim, r = .inl claim ∧ claim.key = job.key ∧ claim.actor = job.actor) where
  receipts := rfl
  coordinated := rfl
  turns := by
    intro content added frame turned
    cases read : decode env.lax env.sha256 content with
    | none =>
      simp only [Job.claim,ReceiptStore.claim,read] at turned
      split at turned
      · cases turned
      · rename_i got
        split at got <;> cases got
    | some s =>
      obtain ⟨claim,key,actor,⟨_,rfl⟩ | ⟨_,rfl,taken⟩⟩ := claim_turn read turned
      · exact ⟨s,rfl,fun _ impossible => by cases impossible⟩
      · exact ⟨s,rfl,fun _ same => ⟨_,_,⟨claim,rfl,key,actor⟩,taken,(Option.some.inj same).symm⟩⟩

end Job

theorem complete_appends (receipt : env.Receipt) : Appends env (complete env receipt) (· = .inr receipt) where
  receipts := rfl
  coordinated := rfl
  turns := by
    intro content added frame turned
    simp only [complete,ReceiptStore.complete] at turned
    cases valid : validateReceiptCompletion env.lax env.sha256 content receipt with
    | error e => simp [valid] at turned
    | ok serialized =>
      have opened : ∃ s, decode env.lax env.sha256 content = some s := by
        cases read : decode env.lax env.sha256 content with
        | none => simp [validateReceiptCompletion,read] at valid
        | some s => exact ⟨s,rfl⟩
      obtain ⟨s,read⟩ := opened
      refine ⟨s,read,?_⟩
      rintro bytes rfl
      rw [valid] at turned
      cases serialized with
      | nil => cases turned
      | cons b bs =>
        cases turned
        obtain ⟨taken,same⟩ := completion_taken read valid (by simp)
        exact ⟨_,_,rfl,taken,same⟩

-- What a commit leaves of the ledger.
theorem commit_standing {committer : LocalWriteCommitter} {request : LocalWriteCommitter.Request env} (standing : Standing env c disk s)
    (ran : committer.commitSuccess env request c transactionId ⟨disk,schedule⟩ = (result,after)) :
    ∃ s', Standing env c after.state s' ∧ (s' = s ∨ record s (.inr request.receipt) = some s') := by
  rcases standing with ⟨contents,settled,holds⟩ | ⟨shut,rfl⟩
  · obtain ⟨left,there,⟨_,rfl⟩ | ⟨evidence,commit,decides,mixed,_⟩⟩ := LocalWriteCommitter.commit_pointwise settled ran
    · exact ⟨s,.inl ⟨left,there,holds⟩,.inl rfl⟩
    · rcases mixed "receipts" with same | same
      · exact ⟨s,.inl ⟨left,there,same ▸ holds⟩,.inl rfl⟩
      · obtain ⟨_,_,_,_,_,_,_,completed,fresh⟩ := scope_commit decides.scope
        have valid := toOption_some completed
        cases read : decode env.lax env.sha256 (contents "receipts") with
        | none => simp [validateReceiptCompletion,read] at valid
        | some found =>
          obtain ⟨taken,frame⟩ := completion_taken read valid fresh
          obtain ⟨rfl,rs,whole,held⟩ := holds_decoded holds read
          rcases holds_extended whole held taken List.prefix_rfl with ⟨_,grown⟩ | ⟨cut,_⟩
          · refine ⟨_,.inl ⟨left,there,?_⟩,.inr taken⟩
            rw [same]
            simpa [LocalWriteCommitter.written,Script.put,frame] using grown
          · exact absurd rfl cut
  · refine ⟨_,.inr ⟨?_,rfl⟩,.inl rfl⟩
    intro contents' settled'
    cases before : effective c disk with
    | none =>
      rw [(LocalWriteCommitter.commit_refused before ran).2] at settled'
      cases settled'
    | some contents =>
      obtain ⟨left,there,⟨_,rfl⟩ | ⟨evidence,commit,decides,_⟩⟩ := LocalWriteCommitter.commit_pointwise before ran
      · rw [there] at settled'
        cases settled'
        exact shut _ before
      · obtain ⟨_,_,_,_,_,_,_,completed,_⟩ := scope_commit decides.scope
        have valid := toOption_some completed
        simp [validateReceiptCompletion,shut contents before] at valid

end WriteExecutor
