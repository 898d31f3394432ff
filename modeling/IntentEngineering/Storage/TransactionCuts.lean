import IntentEngineering.Storage.TransactionCalm

-- Where a schedule can cut a transaction: between the commit marker and the end
-- of its rollback.
namespace Interrupt

variable {σ α β : Type}

-- Some number of undisturbed steps takes the act from one state to the other.
def Passes (act : Act σ α) (s : σ) (value : α) (s' : σ) : Prop :=
  ∃ n, ∀ rest, act ⟨s,List.replicate n none ++ rest⟩ = (.ok value,⟨s',rest⟩)

theorem passes_bind {act : Act σ α} {next : α → Act σ β} (first : Passes act s value s') (second : Passes (next value) s' result s'') :
    Passes (act >>= next) s result s'' := by
  obtain ⟨n,first⟩ := first
  obtain ⟨k,second⟩ := second
  refine ⟨n + k,fun rest => ?_⟩
  rw [List.replicate_add,List.append_assoc,run_bind,first]
  exact second rest

theorem passes_still {act : Act σ α} (still : ∀ rest, act ⟨s,rest⟩ = (.ok value,⟨s',rest⟩)) : Passes act s value s' := ⟨0,still⟩

theorem passes_observe (view : σ → β) : Passes (observe view) s (view s) s := ⟨1,fun _ => rfl⟩

theorem passes_catch {act : Act σ α} {handler : Halt → Act σ α} (first : Passes act s value s') :
    Passes (tryCatch act handler) s value s' := by
  obtain ⟨n,first⟩ := first
  exact ⟨n,fun rest => by rw [run_catch,first]⟩

end Interrupt

namespace LocalTransaction
open Interrupt

variable {c : Coordinator}

theorem passes_target (known : name ∈ c.targets) : Passes (target c name) disk () disk :=
  passes_still fun rest => target_calm known ⟨disk,rest⟩

theorem passes_body (script : Script) (disk : Disk) (performed : script.perform c disk.targets = some ends) :
    Passes (runBody c script.body) disk () {disk with targets := ends} := by
  induction script generalizing disk ends with
  | done =>
    cases performed
    exact passes_still fun _ => rfl
  | leave => cases performed
  | read name next ih =>
    simp only [Script.perform] at performed
    split at performed
    · rename_i known
      exact passes_bind (passes_target known) (passes_bind (passes_observe _) (ih _ disk performed))
    · cases performed
  | write name content =>
    simp only [Script.perform] at performed
    split at performed
    · rename_i known
      cases performed
      exact passes_bind (passes_target known) (passes_bind ⟨1,fun _ => rfl⟩ ⟨1,fun _ => rfl⟩)
    · cases performed
  | append name content =>
    simp only [Script.perform] at performed
    split at performed
    · rename_i known
      cases performed
      exact passes_bind (passes_target known) (passes_bind ⟨1,fun _ => rfl⟩ ⟨1,fun _ => rfl⟩)
    · cases performed
  | both first second ihFirst ihSecond =>
    obtain ⟨middle,began,ended⟩ := Option.bind_eq_some_iff.mp performed
    exact passes_bind (ihFirst disk began) (ihSecond {disk with targets := middle} ended)
  | nested script ih => exact passes_catch (ih disk performed)

theorem passes_snapshot (c : Coordinator) (disk : Disk) : Passes (snapshot c) disk (preimagesOf c disk.targets) disk := by
  unfold snapshot preimagesOf
  induction c.targets with
  | nil => exact passes_still fun _ => rfl
  | cons name rest ih =>
    rw [List.mapM_cons]
    refine passes_bind (passes_bind (passes_observe _) (passes_still fun _ => rfl)) (passes_bind ih (passes_still fun _ => rfl))

theorem passes_open (c : Coordinator) (found : Contents) (poisoned : Bool) :
    Passes (openTransaction c) ⟨none,found,poisoned⟩ (preimagesOf c found) ⟨none,found,poisoned⟩ := by
  have recovered : Passes (recoverUnlocked c) ⟨none,found,poisoned⟩ false ⟨none,found,poisoned⟩ := ⟨1,fun _ => rfl⟩
  exact passes_bind recovered (passes_snapshot c _)

-- The targets put back so far.
def restoredTo (base : Contents) (done : List String) (disk : Disk) : Disk :=
  {disk with targets := fun name => if name ∈ done then base name else disk.targets name}

theorem restoredTo_cons (base : Contents) (name : String) (done : List String) (disk : Disk) :
    restoredTo base done (setTarget name (base name) disk) = restoredTo base (name :: done) disk := by
  simp only [restoredTo,setTarget]
  congr 1
  funext other
  by_cases same : other = name
  · simp [same]
  · simp [same]

theorem restore_cut (base : Contents) (name : String) (rest : List String) (done : List String) (disk : Disk) :
    ((done ++ name :: rest).map fun name => (⟨name,base name⟩ : Preimage)).forM restoreTarget
        ⟨disk,List.replicate done.length none ++ [some ⟨.died,0⟩]⟩ = (.error .died,⟨restoredTo base done disk,[]⟩) := by
  have unfolded (first : String) (others : List String) : ((first :: others).map fun name => (⟨name,base name⟩ : Preimage)).forM restoreTarget =
      restoreTarget ⟨first,base first⟩ >>= fun _ => (others.map fun name => (⟨name,base name⟩ : Preimage)).forM restoreTarget := rfl
  induction done generalizing disk with
  | nil =>
    rw [List.nil_append,unfolded,run_bind,restoreTarget_exact]
    simp [atomically,durable,restoredTo]
  | cons first done ih =>
    rw [List.cons_append,unfolded,run_bind,restoreTarget_exact,List.length_cons,List.replicate_succ,List.cons_append]
    refine (ih (setTarget first (base first) disk)).trans ?_
    rw [restoredTo_cons]

theorem passes_prepare (preimages : List Preimage) (transactionId : String) (found : Contents) (poisoned : Bool) :
    Passes (prepare preimages transactionId) ⟨none,found,poisoned⟩ ()
      ⟨some (.journal (journalFor preimages .prepared transactionId)),found,false⟩ := ⟨1,fun _ => rfl⟩

-- The stage behind the commit marker raises.
theorem guarded_raises {script : Script} (performed : script.perform c base = some ends) (preimages : List Preimage) (transactionId : String) :
    ∃ n, ∀ rest, guarded c transactionId script.body preimages
        ⟨⟨some (.journal (journalFor preimages .prepared transactionId)),base,false⟩,List.replicate n none ++ some ⟨.exception,0⟩ :: rest⟩ =
      (.error .exception,⟨⟨some (.journal (journalFor preimages .committed transactionId)),ends,false⟩,rest⟩) := by
  have entered : Passes (enter c script.body) ⟨some (.journal (journalFor preimages .prepared transactionId)),base,false⟩ ()
      ⟨some (.journal (journalFor preimages .prepared transactionId)),ends,false⟩ :=
    passes_bind ⟨1,fun _ => rfl⟩ (passes_body script _ performed)
  obtain ⟨n,entered⟩ := entered
  refine ⟨n + 1,fun rest => ?_⟩
  rw [List.replicate_add,List.append_assoc,guarded,run_bind,entered]
  rfl

-- Then the rollback puts some of the targets back, and the process dies at the
-- next one.
theorem cut_rollback {script : Script} {base ends : Contents} (performed : script.perform c base = some ends)
    (split : c.targets = done ++ name :: rest) (poisoned : Bool) (transactionId : String) :
    ∃ schedule after, transaction c false transactionId script.body ⟨⟨none,base,poisoned⟩,schedule⟩ = (.error .died,after) ∧
      effective c after.state = some fun name => if name ∈ done then base name else ends name := by
  obtain ⟨k,opened⟩ := passes_open c base poisoned
  obtain ⟨l,prepared⟩ := passes_prepare (preimagesOf c base) transactionId base poisoned
  obtain ⟨n,raised⟩ := guarded_raises performed (preimagesOf c base) transactionId
  have sorted : (preimagesOf c base).insertionSort (fun left right => left.target ≤ right.target) = preimagesOf c base := by
    have ascending : (preimagesOf c base).Pairwise fun left right => left.target ≤ right.target := by
      rw [preimagesOf,List.pairwise_map]
      exact c.sorted.imp fun less => le_of_lt less
    exact ascending.insertionSort_eq
  have cut := restore_cut base name rest done ⟨some (.journal (journalFor (preimagesOf c base) .committed transactionId)),ends,false⟩
  rw [←split] at cut
  refine ⟨List.replicate k none ++ (List.replicate l none ++ (List.replicate n none ++
    some ⟨.exception,0⟩ :: (List.replicate done.length none ++ [some ⟨.died,0⟩]))),
    ⟨restoredTo base done ⟨some (.journal (journalFor (preimagesOf c base) .committed transactionId)),ends,false⟩,[]⟩,?_,?_⟩
  · have undone : undo (preimagesOf c base) ⟨⟨some (.journal (journalFor (preimagesOf c base) .committed transactionId)),ends,false⟩,
        List.replicate done.length none ++ [some ⟨.died,0⟩]⟩ = (.error .died,
          ⟨restoredTo base done ⟨some (.journal (journalFor (preimagesOf c base) .committed transactionId)),ends,false⟩,[]⟩) := by
      rw [undo,run_bind,restore,sorted]
      simp only [preimagesOf] at cut ⊢
      rw [cut]
    rw [transaction,run_bind,opened]
    dsimp only
    rw [closeTransaction,run_bind,prepared]
    dsimp only
    rw [run_catch,raised]
    dsimp only
    have back : rollsBack false .exception = true := rfl
    rw [rollback,if_pos back,run_bind,undone]
  · exact finished_effective ⟨rfl,.inl rfl⟩

end LocalTransaction
