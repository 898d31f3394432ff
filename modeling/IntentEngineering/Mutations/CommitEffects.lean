import IntentEngineering.Storage.ReplayAgreement

open Schema LocalTransaction Interrupt

theorem toOption_some {ε α : Type} {result : Except ε α} {a : α} (got : result.toOption = some a) : result = .ok a := by
  cases result with
  | error e => cases got
  | ok b => simpa [Except.toOption] using got

namespace LocalWriteCommitter

variable {env : WriteEnv} {committer : LocalWriteCommitter} {request : Request env} {c : Coordinator}

-- What a commit that gets past its checks makes of its transaction.
theorem commit_opened {evidence : EvidenceRecord} (admitted : committer.admits env request = true)
    (built : committer.evidence env request = some evidence)
    (ran : committer.commitSuccess env request c transactionId start = (result,after)) :
    ∃ ended, transaction c false transactionId (script env request evidence).body start = (ended,after) ∧
      (ended ≠ .ok () → result = ended) ∧
      (ended = .ok () → ∃ preimages inside, openTransaction c start = (.ok preimages,inside) ∧
        result = if decided env request evidence inside.state.targets then .ok () else .error .exception) := by
  unfold commitSuccess at ran
  rw [run_bind] at ran
  have shape : committer.commit env request c transactionId =
      handleException (transact env request c transactionId evidence) (return false) := by
    simp only [commit,admitted,built]
    rfl
  rw [shape,run_handleException] at ran
  cases first : transact env request c transactionId evidence start with
  | mk outcome last =>
    rw [first] at ran
    obtain ⟨halt,rfl,ended⟩ | ⟨preimages,inside,opened,rfl,ended⟩ := run_transact first
    · have done : result = .error halt ∧ after = last := by cases halt <;> cases ran <;> exact ⟨rfl,rfl⟩
      obtain ⟨rfl,rfl⟩ := done
      exact ⟨.error halt,ended,fun _ => rfl,fun impossible => by cases impossible⟩
    · have done : after = last ∧ result = if decided env request evidence inside.state.targets then .ok () else .error .exception := by
        cases wrote : decided env request evidence inside.state.targets <;> rw [wrote] at ran <;> cases ran <;> exact ⟨rfl,rfl⟩
      obtain ⟨rfl,shaped⟩ := done
      exact ⟨.ok (),ended,fun other => absurd rfl other,fun _ => ⟨preimages,inside,opened,shaped⟩⟩

-- A commit is refused before it starts, or it is its transaction: it returns only
-- where the transaction does and its scope has decided to write.
theorem commit_ran (ran : committer.commitSuccess env request c transactionId start = (result,after)) :
    (result = .error .exception ∧ after = start) ∨
      ∃ evidence ended, committer.admits env request = true ∧ committer.evidence env request = some evidence ∧
        transaction c false transactionId (script env request evidence).body start = (ended,after) ∧
        (ended ≠ .ok () → result = ended) ∧
        (ended = .ok () → ∃ preimages inside, openTransaction c start = (.ok preimages,inside) ∧
          result = if decided env request evidence inside.state.targets then .ok () else .error .exception) := by
  have refused (same : committer.commit env request c transactionId start = ((.ok false,start) : Except Halt Bool × World Disk)) :
      result = .error .exception ∧ after = start := by
    rw [commitSuccess,run_bind,same] at ran
    cases ran
    exact ⟨rfl,rfl⟩
  by_cases admitted : committer.admits env request = true
  · cases built : committer.evidence env request with
    | none =>
      apply Or.inl
      apply refused
      simp only [commit,admitted,built]
      rfl
    | some evidence =>
      obtain ⟨ended,transacted,outcome⟩ := commit_opened admitted built ran
      exact .inr ⟨evidence,ended,admitted,rfl,transacted,outcome⟩
  · apply Or.inl
    apply refused
    rw [Bool.not_eq_true] at admitted
    simp only [commit,admitted]
    rfl

-- The five targets after a commit, and every other as it was.
def written (env : WriteEnv) (contents : Contents) (commit : Commit) : Contents :=
  Script.put "receipts" ((contents "receipts").getD [] ++ commit.receiptAppend) <|
  Script.put "cases" ((contents "cases").getD [] ++ commit.caseAppend) <|
  Script.put "evidence" ((contents "evidence").getD [] ++ commit.evidenceAppend) <|
  Script.put "history" ((contents "history").getD [] ++ env.historyFrame commit.changeset) <|
  Script.put "graph" (GraphStore.serializeGraph env.lax env.yaml commit.graph) contents

theorem write_written {commit : Commit} {contents ends : Contents} (performed : (write env commit).perform c contents = some ends) :
    ends = written env contents commit := by
  simp only [write,Script.perform,Option.bind_eq_some_iff,Option.ite_none_right_eq_some,Option.some.injEq] at performed
  obtain ⟨_,⟨_,rfl⟩,_,⟨_,rfl⟩,_,⟨_,rfl⟩,_,⟨_,rfl⟩,_,rfl⟩ := performed
  simp [written,Script.put]

-- What a scope has found when it writes.
structure Decides (env : WriteEnv) (committer : LocalWriteCommitter) (request : Request env) (contents : Contents)
    (evidence : EvidenceRecord) (commit : Commit) : Prop where
  admitted : committer.admits env request = true
  built : committer.evidence env request = some evidence
  scope : scope env request evidence (contents "graph") (contents "evidence") (contents "cases") (contents "receipts") = some (some commit)

-- A commit that returns has decided to write.
theorem returned_decided {evidence : EvidenceRecord} {result ended : Except Halt Unit} (settled : effective c disk = some contents)
    (stopped : ended ≠ .ok () → result = ended)
    (returned : ended = .ok () → ∃ preimages inside, openTransaction c ⟨disk,schedule⟩ = (.ok preimages,inside) ∧
      result = if decided env request evidence inside.state.targets then .ok () else .error .exception)
    (ok : result = .ok ()) : ended = .ok () ∧ decided env request evidence contents = true := by
  by_cases same : ended = .ok ()
  · obtain ⟨preimages,inside,opened,shaped⟩ := returned same
    rw [open_found settled opened] at shaped
    refine ⟨same,?_⟩
    by_contra undecided
    rw [if_neg undecided,ok] at shaped
    cases shaped
  · rw [stopped same] at ok
    exact absurd ok same

-- However it is interrupted, each target ends as it was or as the commit writes
-- it, and nothing is written where the scope does not decide to.
theorem commit_pointwise (settled : effective c disk = some contents)
    (ran : committer.commitSuccess env request c transactionId ⟨disk,schedule⟩ = (result,after)) :
    ∃ left, effective c after.state = some left ∧
      ((result ≠ .ok () ∧ left = contents) ∨ ∃ evidence commit, Decides env committer request contents evidence commit ∧
        Mixed contents (written env contents commit) left ∧ (result = .ok () → left = written env contents commit)) := by
  rcases commit_ran ran with ⟨rfl,rfl⟩ | ⟨evidence,ended,admitted,built,transacted,stopped,returned⟩
  · exact ⟨contents,settled,.inl ⟨by simp,rfl⟩⟩
  rcases transaction_pointwise settled transacted with ⟨failed,still⟩ | ⟨ends,left,performed,there,mixed,whole⟩
  · exact ⟨contents,still,.inl ⟨by rw [stopped failed]; exact failed,rfl⟩⟩
  refine ⟨left,there,?_⟩
  have outcome := returned_decided settled stopped returned
  rcases script_performed performed with ⟨early,rfl⟩ | ⟨commit,_,found,wrote⟩
  · refine .inl ⟨?_,?_⟩
    · intro ok
      have decided := (outcome ok).2
      rw [early] at decided
      cases decided
    · funext name
      rcases mixed name with base | ends
      · exact base
      · exact ends
  · have shape := write_written wrote
    subst shape
    exact .inr ⟨evidence,commit,⟨admitted,built,found⟩,mixed,fun ok => whole (outcome ok).1⟩

-- What every rollback behind the commit marker needs.
def RestoresWhole (env : WriteEnv) (c : Coordinator) (committer : LocalWriteCommitter) (request : Request env) (transactionId : String)
    (w : World Disk) : Prop :=
  ∀ evidence, committer.evidence env request = some evidence →
    LateRollbackUndisturbed c false transactionId (script env request evidence).body w

-- With those, the commit has written everything or nothing.
theorem commit_settles (settled : effective c disk = some contents)
    (whole : RestoresWhole env c committer request transactionId ⟨disk,schedule⟩)
    (ran : committer.commitSuccess env request c transactionId ⟨disk,schedule⟩ = (result,after)) :
    ∃ left, effective c after.state = some left ∧
      ((result ≠ .ok () ∧ left = contents) ∨ ∃ evidence commit, Decides env committer request contents evidence commit ∧
        left = written env contents commit) := by
  rcases commit_ran ran with ⟨rfl,rfl⟩ | ⟨evidence,ended,admitted,built,transacted,stopped,returned⟩
  · exact ⟨contents,settled,.inl ⟨by simp,rfl⟩⟩
  rcases transaction_settles settled (whole evidence built) transacted with ⟨failed,still⟩ | ⟨_,ends,performed,there⟩
  · exact ⟨contents,still,.inl ⟨by rw [stopped failed]; exact failed,rfl⟩⟩
  refine ⟨ends,there,?_⟩
  rcases script_performed performed with ⟨early,rfl⟩ | ⟨commit,_,found,wrote⟩
  · refine .inl ⟨?_,rfl⟩
    intro ok
    have decided := (returned_decided settled stopped returned ok).2
    rw [early] at decided
    cases decided
  · exact .inr ⟨evidence,commit,⟨admitted,built,found⟩,write_written wrote⟩

theorem commit_refused (shut : effective c disk = none)
    (ran : committer.commitSuccess env request c transactionId ⟨disk,schedule⟩ = (result,after)) :
    result ≠ .ok () ∧ effective c after.state = none := by
  rcases commit_ran ran with ⟨rfl,rfl⟩ | ⟨evidence,ended,_,_,transacted,stopped,_⟩
  · exact ⟨by simp,shut⟩
  · have refused := transaction_refused shut transacted
    rw [stopped refused.1]
    exact refused

end LocalWriteCommitter
