import IntentEngineering.Mutations.ExecutorSafety
import IntentEngineering.Mutations.PlanAgreement

open Schema LocalTransaction Interrupt

-- All names of one person, local and at the provider.
def personAliases (binding : ProviderBinding) (identityAliases : IdentityAliases) (name : String) : List String :=
  name :: ((identityAliases.get name).getD [] ++ (binding.actorPrincipals.get name).getD [])

-- An approver who is neither the plan's creator nor one of its conflicting
-- authors, under any of their names.
structure Independent (plan : WritePlanDraft) (binding : ProviderBinding) (authorizedApprovers : List String)
    (identityAliases : IdentityAliases) (actor : String) : Prop where
  approver : actor ∈ authorizedApprovers
  creator : ∀ name ∈ personAliases binding identityAliases actor, name ∉ personAliases binding identityAliases plan.createdBy
  authors : ∀ author ∈ plan.conflictingAuthors, ∀ name ∈ personAliases binding identityAliases actor,
    name ∉ personAliases binding identityAliases author

-- Whatever the approver shares with a conflicting author, he is also known
-- under the very name the author has in the plan.
def Acknowledged (plan : WritePlanDraft) (binding : ProviderBinding) (identityAliases : IdentityAliases) (actor : String) : Prop :=
  ∀ author ∈ plan.conflictingAuthors,
    (∃ name ∈ personAliases binding identityAliases actor, name ∈ personAliases binding identityAliases author) →
      author ∈ personAliases binding identityAliases actor

section
variable {binding : ProviderBinding} {identityAliases : IdentityAliases}

theorem aliasesUnder_person (under : aliasesUnder binding identityAliases actor aliases) :
    name ∈ personAliases binding identityAliases actor ↔ name ∈ aliases := by
  obtain ⟨principals,bound,_,resolved⟩ := under
  unfold identityAliasesFor at resolved
  cases known : identityAliases.get actor with
  | none => simp [known] at resolved
  | some listed =>
    simp only [known] at resolved
    split at resolved
    · rename_i complete
      cases resolved
      simp only [Bool.and_eq_true,List.contains_iff_mem,List.all_eq_true] at complete
      obtain ⟨⟨_,own⟩,principal⟩ := complete
      simp only [personAliases,known,bound,Option.getD_some,List.mem_cons,List.mem_append]
      constructor
      · rintro (rfl | listed | provided)
        · exact own
        · exact listed
        · exact principal name provided
      · intro member
        exact .inr (.inl member)
    · cases resolved

theorem authenticated_independent {sha256 : Utf8.Bytes → String} {plan : WritePlanDraft} {policy : WritePolicy}
    (authenticated : Authenticated sha256 plan binding actor policy aliases) :
    Independent plan binding policy.authorizedApprovers policy.identityAliases actor ↔
      Acknowledged plan binding policy.identityAliases actor := by
  have own (name : String) : name ∈ personAliases binding policy.identityAliases actor ↔ name ∈ aliases :=
    aliasesUnder_person authenticated.person
  have creators (name : String) : name ∈ personAliases binding policy.identityAliases plan.createdBy ↔ name ∈ plan.createdByAliases :=
    aliasesUnder_person authenticated.creator
  constructor
  · rintro independent author member ⟨name,mine,shared⟩
    exact absurd shared (independent.authors author member name mine)
  · intro acknowledged
    refine ⟨authenticated.approver,?_,?_⟩
    · intro name mine created
      exact authenticated.apart name ((own name).mp mine) ((creators name).mp created)
    · intro author member name mine shared
      exact authenticated.clear author ((own author).mp (acknowledged author member ⟨name,mine,shared⟩)) member

end

section
variable {env : WriteEnv}

theorem validated_authenticated {conforms : Json → Json.Members → Bool} {job : WriteExecutor.Job env} (validated : WriteExecutor.Validated conforms job) :
    Authenticated env.sha256 job.plan.1 job.executor.binding job.approval.1.actor job.executor.policy job.approval.1.actorAliases := by
  unfold WriteExecutor.Validated WriteExecutor.validates at validated
  rw [Bool.and_eq_true] at validated
  have contract := validated.2
  split at contract
  · cases contract
  · simp only [Bool.and_eq_true,beq_iff_eq] at contract
    exact (authenticated_iff _ _ _ _ _ _).mp contract.1.2

theorem admits_authenticated {committer : LocalWriteCommitter} {request : LocalWriteCommitter.Request env}
    (admitted : committer.admits env request = true) :
    Authenticated env.sha256 request.plan.1 committer.binding request.approval.1.actor committer.policy request.approval.1.actorAliases := by
  simp only [LocalWriteCommitter.admits,Bool.and_eq_true,beq_iff_eq] at admitted
  exact (authenticated_iff _ _ _ _ _ _).mp (by tauto)

-- An alias map in which carol writes under bob's name at the tracker.
def sharedIdentities : IdentityAliases :=
  ⟨[("alice",["alice","alice@tracker"]),("bob",["bob","bob@tracker"]),("carol",["bob@tracker","carol"])],by decide⟩

end
