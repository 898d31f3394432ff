import IntentEngineering.Reconcile.LocalResolution
import IntentEngineering.Storage.ReplayAgreement
import IntentEngineering.Stores.CaseLifecycle
import IntentEngineering.Stores.YamlFolding

open Schema LocalTransaction Interrupt

namespace CaseStore

-- The index finds a case under its own identifier.
def Keyed (s : CaseIndex) : Prop := ∀ id case, s.latestById.lookup id = some case → case.id = id

theorem lookup_store (s : CaseIndex) (case : ReconciliationCase) (id : String) :
    (s.store case).latestById.lookup id = if id = case.id then some case else s.latestById.lookup id := by
  simp only [CaseIndex.store,assign,List.lookup_cons]
  by_cases same : id = case.id
  · simp [same]
  · have other : (id == case.id) = false := by simp [same]
    simp [same,other]

theorem keyed_store (keyed : Keyed s) : Keyed (s.store case) := by
  intro id found there
  rw [lookup_store] at there
  split at there
  · rename_i same
    cases there
    exact same.symm
  · exact keyed id found there

theorem recordVersion_keyed {lax : Coercions} (keyed : Keyed s) (taken : recordVersion lax exactIsNoop s case = .ok (s',added)) : Keyed s' := by
  cases added with
  | true =>
    rw [(recordVersion_spec taken).1]
    exact keyed_store keyed
  | false =>
    unfold recordVersion at taken
    split at taken
    · cases taken
    · split at taken
      · cases taken
      · split at taken
        · cases taken
        · split at taken
          · split at taken
            · cases taken
              exact keyed
            · cases taken
          · split at taken
            · cases taken
            · split at taken <;> cases taken

theorem record_keyed {lax : Coercions} {s s' : CaseLedger} (keyed : Keyed s.index) (taken : (reader lax).record s n shown v = .ok s') : Keyed s'.index := by
  simp only [reader,record] at taken
  split at taken
  · split at taken
    · cases taken
    · split at taken
      · cases taken
      · rename_i recorded
        cases taken
        exact recordVersion_keyed keyed recorded
  · cases taken

theorem parsed_keyed {lax : Coercions} (parsed : parseVersions lax content = .ok s) : Keyed s.index := by
  have first : Keyed (reader lax).start.index := fun id case impossible => by cases impossible
  have each : ∀ s n shown v s', Keyed s.index → (reader lax).record s n shown v = .ok s' → Keyed s'.index :=
    fun _ _ _ _ _ keyed taken => record_keyed keyed taken
  exact (reader lax).read_keeps each first parsed

-- A case has moved on, or is still the one it was.
def Later (earlier later : ReconciliationCase) : Prop := later = earlier ∨ earlier.history.length < later.history.length

theorem Later.trans (first : Later a b) (second : Later b d) : Later a d := by
  rcases first with rfl | first
  · exact second
  · rcases second with rfl | second
    · exact .inr first
    · exact .inr (Nat.lt_trans first second)

theorem equalLists_length {equal : ClassificationEvent → ClassificationEvent → Bool} (xs : List ClassificationEvent) :
    ∀ ys, equalLists equal xs ys = true → xs.length = ys.length := by
  induction xs with
  | nil =>
    intro ys same
    cases ys with
    | nil => rfl
    | cons y ys => cases same
  | cons x xs ih =>
    intro ys same
    cases ys with
    | nil => cases same
    | cons y ys =>
      simp only [equalLists,Bool.and_eq_true] at same
      simp only [List.length_cons,ih ys same.2]

section Appends
variable {lax : Coercions}

theorem extends_longer {earlier later : ReconciliationCase} (grown : Extends lax earlier later) :
    later.history.length = earlier.history.length + 1 := by
  obtain ⟨past,event,shape,same,_,_⟩ := grown.history
  rw [shape,List.length_append,equalLists_length past _ same]
  rfl

theorem extends_live {earlier later : ReconciliationCase} (grown : Extends lax earlier later) :
    earlier.status.allowedTransitions ≠ [] := by
  intro ended
  have allowed := grown.allowed
  rw [ended] at allowed
  cases allowed

-- What the cases of one append do to the index.
structure Appended (cases : List ReconciliationCase) (s last : CaseIndex) : Prop where
  later : ∀ id earlier, s.latestById.lookup id = some earlier → ∃ later, last.latestById.lookup id = some later ∧ Later earlier later
  live : ∀ case ∈ cases, ∀ earlier, s.latestById.lookup case.id = some earlier →
    earlier.status.allowedTransitions ≠ [] ∧ earlier.history.length < case.history.length
  others : ∀ id, id ∉ cases.map ReconciliationCase.id → last.latestById.lookup id = s.latestById.lookup id
  newest : ∀ case, cases.getLast? = some case → last.latestById.lookup case.id = some case

theorem validated_index (cases : List ReconciliationCase) : ∀ {s last : CaseIndex}, validateAll lax s cases = .ok last →
    Appended cases s last := by
  induction cases with
  | nil =>
    intro s last valid
    cases valid
    refine ⟨fun id earlier there => ⟨earlier,there,.inl rfl⟩,?_,fun _ _ => rfl,?_⟩
    · intro case member
      cases member
    · intro case impossible
      cases impossible
  | cons case rest ih =>
    intro s last valid
    simp only [validateAll] at valid
    cases taken : recordVersion lax false s case with
    | error e => simp [taken] at valid
    | ok found =>
      obtain ⟨index,added⟩ := found
      simp only [taken] at valid
      cases recordVersion_added taken (.inl rfl)
      obtain ⟨rfl,_,grows⟩ := recordVersion_spec taken
      obtain ⟨later,live,others,newest⟩ := ih valid
      have first (earlier : ReconciliationCase) (there : s.latestById.lookup case.id = some earlier) :
          earlier.status.allowedTransitions ≠ [] ∧ earlier.history.length < case.history.length := by
        have grown := grows earlier there
        have longer := extends_longer grown
        exact ⟨extends_live grown,by omega⟩
      have mine : (s.store case).latestById.lookup case.id = some case := by simp [lookup_store]
      have same (id : String) (other : id ≠ case.id) : (s.store case).latestById.lookup id = s.latestById.lookup id := by
        simp [lookup_store,other]
      refine ⟨?_,?_,?_,?_⟩
      · intro id earlier there
        by_cases equal : id = case.id
        · subst equal
          obtain ⟨next,found,after⟩ := later case.id case mine
          exact ⟨next,found,Later.trans (.inr (first earlier there).2) after⟩
        · exact later id earlier ((same id equal).trans there)
      · intro other member earlier there
        rcases List.mem_cons.mp member with rfl | member
        · exact first earlier there
        · by_cases equal : other.id = case.id
          · rw [equal] at there
            have longer := (live other member case (by rw [equal,mine])).2
            have before := first earlier there
            exact ⟨before.1,by omega⟩
          · exact live other member earlier ((same other.id equal).trans there)
      · intro id absent
        simp only [List.map_cons,List.mem_cons,not_or] at absent
        rw [others id absent.2,same id absent.1]
      · intro other final
        cases rest with
        | nil =>
          cases final
          cases valid
          exact mine
        | cons next rest => exact newest other (by simpa using final)

-- A content that reads behind an append of valid cases reads with their index.
theorem appended_index (cases : List ReconciliationCase) : ∀ {content s last s'}, parseVersions lax content = .ok s →
    validateAll lax s.index cases = .ok last →
      parseVersions lax (LedgerReader.appendAll content (cases.map (ReconciliationCase.codec lax).dump)) = .ok s' → s'.index = last := by
  induction cases with
  | nil =>
    intro content s last s' read valid got
    cases valid
    rw [List.map_nil,parseVersions,LedgerReader.read_appendAll_nil] at got
    rw [parseVersions] at read
    cases read.symm.trans got
    rfl
  | cons case rest ih =>
    intro content s last s' read valid got
    simp only [validateAll] at valid
    cases taken : recordVersion lax false s.index case with
    | error e => simp [taken] at valid
    | ok found =>
      obtain ⟨index,added⟩ := found
      simp only [taken] at valid
      have object := (dump_case lax case).imp fun _ found => found.1
      have formed := (ReconciliationCase.codec lax).formed case
      rw [List.map_cons] at got
      by_cases good : Json.Blank (LedgerReader.pending content) ∧ (reader lax).Legible ((ReconciliationCase.codec lax).dump case)
      · obtain ⟨n,shown,grown⟩ := (reader lax).read_append read object formed good.1 good.2
        have next := grown.trans (record_case lax s (recordVersion_strict lax taken) n)
        rw [LedgerReader.appendAll_cons] at got
        exact ih next valid got
      · obtain ⟨n,refused⟩ := (reader lax).read_append_torn read object formed good
          ((rest.map (ReconciliationCase.codec lax).dump).flatMap JsonLines.frame)
        rw [parseVersions,LedgerReader.appendAll,List.flatMap_cons,refused] at got
        cases got

end Appends

end CaseStore

namespace LocalResolutionService

-- Where a call stands: it has read the case, then the graph, then decided.
inductive Stage where
  | idle
  | looking (service : LocalResolutionService) (call : Call) (case : ReconciliationCase)
  | weighing (service : LocalResolutionService) (call : Call) (case : ReconciliationCase) (version : Nat)
  | acting (service : LocalResolutionService) (call : Call) (effect : Effect)

inductive Move where
  | resolve (service : LocalResolutionService) (call : Call)
  | proceed (transactionId : String)

inductive Ended where
  | returned (service : LocalResolutionService) (call : Call) (resolution : Resolution)
  | raised (service : LocalResolutionService) (call : Call)

structure Machine where
  disk : Disk
  stages : Nat → Stage
  log : List Ended

section
variable (env : WriteEnv) (c : Coordinator)

-- A step is one store operation under its locks, uninterrupted.
def advance (disk : Disk) : Stage → Move → Stage × Disk × Option Ended
  | .idle, .resolve service call =>
    match latestCase env (disk.targets "cases") call.caseId with
    | none => (.idle,disk,some (.raised service call))
    | some case => (.looking service call case,disk,none)
  | .looking service call case, .proceed _ =>
    match (disk.targets "graph").bind (GraphStore.parseGraph env.lax env.yaml) with
    | none => (.idle,disk,some (.raised service call))
    | some graph => (.weighing service call case graph.1.version,disk,none)
  | .weighing service call case version, .proceed _ =>
    if referencesAllowed env (disk.targets "evidence") case.allEvidenceRefs service.principals then
      match decide env service call case version with
      | none => (.idle,disk,some (.raised service call))
      | some effect => (.acting service call effect,disk,none)
    else (.idle,disk,some (.raised service call))
  | .acting service call effect, .proceed transactionId =>
    match effect.run env c transactionId ⟨disk,[]⟩ with
    | (.ok _,after) => (.idle,after.state,some (.returned service call effect.resolution))
    | (.error _,after) => (.idle,after.state,some (.raised service call))
  | stage, _ => (stage,disk,none)

def Machine.step (m : Machine) (thread : Nat) (move : Move) : Machine :=
  let next := advance env c m.disk (m.stages thread) move
  ⟨next.2.1,fun other => if other = thread then next.1 else m.stages other,m.log ++ next.2.2.toList⟩

-- Any number of calls in any order of their steps.
inductive Reached (start : Disk) : Machine → Prop where
  | start : Reached start ⟨start,fun _ => .idle,[]⟩
  | step {m : Machine} (earlier : Reached start m) (thread : Nat) (move : Move) : Reached start (m.step env c thread move)

end

section Effects
variable {env : WriteEnv} {c : Coordinator}

-- The case ledger behind an append of valid cases.
def Wrote (env : WriteEnv) (contents ends : Contents) (cases : List ReconciliationCase) : Prop :=
  ∃ s last, CaseStore.parseVersions env.lax (contents "cases") = .ok s ∧ CaseStore.validateAll env.lax s.index cases = .ok last ∧
    ends "cases" = LedgerReader.appendAll (contents "cases") (cases.map (ReconciliationCase.codec env.lax).dump)

theorem validated_wrote {contents ends : Contents}
    (valid : CaseStore.validateCaseAppends env.lax (contents "cases") cases = .ok bytes)
    (grown : ends "cases" = some ((contents "cases").getD [] ++ bytes)) : Wrote env contents ends cases := by
  unfold CaseStore.validateCaseAppends at valid
  split at valid
  · cases valid
  · rename_i s parsed
    split at valid
    · cases valid
    · rename_i last validated
      cases valid
      exact ⟨s,last,parsed,validated,grown⟩

theorem validated_solid (some' : cases ≠ []) (valid : CaseStore.validateCaseAppends env.lax content cases = .ok bytes) : bytes ≠ [] := by
  intro empty
  unfold CaseStore.validateCaseAppends at valid
  split at valid
  · cases valid
  · split at valid
    · cases valid
    · cases valid
      have texts := Utf8.decode_encode ((cases.map (ReconciliationCase.codec env.lax).dump).flatMap JsonLines.frame)
      rw [empty] at texts
      cases cases with
      | nil => exact some' rfl
      | cons case rest => simp [Utf8.decode,JsonLines.frame] at texts

theorem append_wrote {contents ends : Contents} (performed : (appendScript env cases).perform c contents = some ends) :
    Wrote env contents ends cases ∧ ends "graph" = contents "graph" := by
  simp only [appendScript,Script.perform] at performed
  split at performed
  · rename_i known
    split at performed
    · cases performed
    · rename_i bytes valid
      simp only [Script.perform,if_pos known] at performed
      cases performed
      exact ⟨validated_wrote valid rfl,rfl⟩
  · cases performed

theorem writeEffects_cases {contents ends : Contents} {request : ChangeRequest} (solid : caseBytes ≠ [])
    (performed : (LocalChangeSetExecutor.writeEffects env request next caseBytes).perform c contents = some ends) :
    ends "cases" = some ((contents "cases").getD [] ++ caseBytes) := by
  unfold LocalChangeSetExecutor.writeEffects at performed
  obtain ⟨proposed,first,rest⟩ := Option.bind_eq_some_iff.mp performed
  obtain ⟨witnessed,second,rest⟩ := Option.bind_eq_some_iff.mp rest
  obtain ⟨checked,third,rest⟩ := Option.bind_eq_some_iff.mp rest
  obtain ⟨written,fourth,last⟩ := Option.bind_eq_some_iff.mp rest
  have sameWitnessed := bound_performed second
  have sameChecked := bound_performed third
  subst sameWitnessed sameChecked
  have spared : (LocalChangeSetExecutor.writeGraph env request.changeset next).Spares "cases" := by
    have graph : "graph" ≠ "cases" := by decide
    have history : "history" ≠ "cases" := by decide
    exact ⟨graph,history⟩
  have before := Script.perform_spared spared fourth
  rw [Script.perform_spared (proposalEffect_spares request.binding (by decide)) first] at before
  simp only [LocalChangeSetExecutor.writeCases,if_neg solid,Script.perform] at last
  split at last
  · cases last
    rw [←before]
    rfl
  · cases last

theorem apply_wrote {contents ends : Contents} {request : ChangeRequest} (some' : effects ≠ [])
    (performed : (LocalChangeSetExecutor.script env request effects).perform c contents = some ends) :
    Wrote env contents ends effects := by
  unfold LocalChangeSetExecutor.script at performed
  split at performed
  · cases performed
  · obtain ⟨bound,first,rest⟩ := Option.bind_eq_some_iff.mp performed
    have same := bound_performed first
    subst same
    simp only [Script.perform] at rest
    split at rest
    · obtain ⟨graph,next,parsed,applied,later⟩ := applyTo_performed rest
      unfold LocalChangeSetExecutor.applyEffects at later
      split at later
      · cases later
      · simp only [Script.perform] at later
        split at later
        · split at later
          · cases later
          · rename_i bytes valid
            exact validated_wrote valid (writeEffects_cases (validated_solid some' valid) later)
        · cases later
    · cases rest

-- What an effect does when it returns.
def Writes (env : WriteEnv) (contents ends : Contents) : Effect → Prop
  | .append cases _ => Wrote env contents ends cases ∧ ends "graph" = contents "graph"
  | .apply changeset resolved => Wrote env contents ends [resolved] ∧ Commits env changeset contents ends

-- An effect is done, or it raises and the targets are as they were.
theorem run_effect (closed : disk.journal = none) (effect : Effect) (transactionId : String) :
    ∃ result after, effect.run env c transactionId ⟨disk,[]⟩ = (result,⟨after,[]⟩) ∧ after.journal = none ∧
      ((result = .ok () ∧ Writes env disk.targets after.targets effect) ∨
        (result = .error .exception ∧ after.targets = disk.targets)) := by
  cases effect with
  | append cases resolution =>
    obtain ⟨result,after,ran,left,outcome⟩ := transaction_silent (c := c) closed (appendScript env cases) transactionId
    refine ⟨result,after,ran,left,?_⟩
    split at outcome
    · rename_i ends performed
      obtain ⟨done,rfl⟩ := outcome
      exact .inl ⟨done,append_wrote performed⟩
    · exact .inr outcome
  | apply changeset resolved =>
    have bound : LocalChangeSetExecutor.bindable c .unbound = true := rfl
    cases ordered : LocalChangeSetExecutor.orderedEffects changeset [] [resolved] with
    | none =>
      refine ⟨.error .exception,disk,?_,closed,.inr ⟨rfl,rfl⟩⟩
      simp only [Effect.run,LocalChangeSetExecutor.apply,bound,ordered]
      rfl
    | some effects =>
      have shape : effects = [resolved] := by
        unfold LocalChangeSetExecutor.orderedEffects at ordered
        dsimp only at ordered
        split at ordered
        · cases ordered
        · split at ordered
          · cases ordered
          · split at ordered
            · cases ordered
            · cases ordered
              rfl
      subst shape
      obtain ⟨result,after,ran,left,outcome⟩ := transaction_silent (c := c) closed
        (LocalChangeSetExecutor.script env ⟨changeset,[],[resolved],.unbound⟩ [resolved]) transactionId
      refine ⟨result,after,?_,left,?_⟩
      · simp only [Effect.run,LocalChangeSetExecutor.apply,bound,ordered]
        change LocalChangeSetExecutor.guardCancellation c false (transaction c false transactionId _) ⟨disk,[]⟩ = _
        unfold LocalChangeSetExecutor.guardCancellation
        rw [run_catch,ran]
        cases result with
        | ok done => rfl
        | error halt =>
          have passed : ¬(halt = .baseException ∧ false = true) := by simp
          dsimp only
          rw [if_neg passed]
          rfl
      · split at outcome
        · rename_i ends performed
          obtain ⟨done,rfl⟩ := outcome
          exact .inl ⟨done,apply_wrote (by simp) performed,apply_commits performed⟩
        · exact .inr outcome

end Effects

-- What a call can have decided.
inductive Decided (env : WriteEnv) (service : LocalResolutionService) (call : Call) (case : ReconciliationCase) (version : Nat) :
    Effect → Prop where
  | dismissed (target : ReconciliationStatus) (updated : ReconciliationCase) (named : updated.id = case.id)
      (reached : updated.status = target) (unresolved : target ≠ .resolved) :
      Decided env service call case version (.append [updated] ⟨updated,none,none⟩)
  | previewed (proposed reviewed : ReconciliationCase) (changeset : ChangeSet) (approval : String) (named : reviewed.id = case.id)
      (reached : reviewed.status = .needsHuman) :
      Decided env service call case version (.append [proposed,reviewed] ⟨reviewed,some changeset,some approval⟩)
  | approved (changeset : ChangeSet) (resolved : ReconciliationCase) (named : resolved.id = case.id)
      (reached : resolved.status = .resolved) (longer : resolved.history.length = case.history.length + 1)
      (built : canonicalChangeset env service.actor case version call.action = some changeset)
      (approves : call.approve = some (approvalHash env case version call.action changeset)) :
      Decided env service call case version (.apply changeset resolved)

section Decisions
variable {env : WriteEnv} {service : LocalResolutionService} {call : Call} {case : ReconciliationCase}

theorem withLifecycle_history {next : ReconciliationCase} {action : Option ResolutionAction} {reached : ReconciliationStatus}
    {events : List ClassificationEvent} (built : case.withLifecycle reached action changesetId events = some next) :
    next.history = events := by
  unfold ReconciliationCase.withLifecycle at built
  split at built
  · cases built
    rfl
  · cases built

theorem transition_longer {next : ReconciliationCase} {action : Option ResolutionAction} {target : ReconciliationStatus}
    {actor : String} (moved : case.transition target actor at' action changesetId = some next) : next.history.length = case.history.length + 1 := by
  unfold ReconciliationCase.transition at moved
  split at moved
  · cases moved
  · split at moved
    · cases moved
    · split at moved
      · rw [withLifecycle_history moved]
        simp
      · cases moved

theorem decide_decided (decides : decide env service call case version = some effect) : Decided env service call case version effect := by
  unfold decide at decides
  split at decides
  · rename_i target opened dismissed
    obtain ⟨updated,moved,rfl⟩ := Option.map_eq_some_iff.mp decides
    obtain ⟨named,_,_,_,reached⟩ := ReconciliationCase.transition_kept moved
    refine .dismissed target updated named reached ?_
    rintro rfl
    unfold dismissal at dismissed
    split at dismissed <;> cases dismissed
  · obtain ⟨proposed,first,rest⟩ := Option.bind_eq_some_iff.mp decides
    obtain ⟨reviewed,second,rest⟩ := Option.bind_eq_some_iff.mp rest
    obtain ⟨changeset,_,rest⟩ := Option.bind_eq_some_iff.mp rest
    cases rest
    have firstKept := ReconciliationCase.transition_kept first
    have secondKept := ReconciliationCase.transition_kept second
    exact .previewed proposed reviewed changeset _ (secondKept.1.trans firstKept.1) secondKept.2.2.2.2
  · obtain ⟨changeset,built,rest⟩ := Option.bind_eq_some_iff.mp decides
    split at rest
    · cases rest
    · rename_i approves
      obtain ⟨resolved,moved,last⟩ := Option.bind_eq_some_iff.mp rest
      cases last
      obtain ⟨named,_,_,_,reached⟩ := ReconciliationCase.transition_kept moved
      exact .approved changeset resolved named reached (transition_longer moved) built (by simpa using approves)
  · cases decides

end Decisions

-- The case a call has read is the newest one, or a newer one has come.
def Current (env : WriteEnv) (content : Option Utf8.Bytes) (id : String) (case : ReconciliationCase) : Prop :=
  case.id = id ∧ ∀ s, CaseStore.parseVersions env.lax content = .ok s →
    ∃ latest, s.index.latestById.lookup id = some latest ∧ CaseStore.Later case latest

-- The newest version of the case allows no further transition.
def Settled (env : WriteEnv) (content : Option Utf8.Bytes) (id : String) : Prop :=
  ∀ s, CaseStore.parseVersions env.lax content = .ok s →
    ∃ case, s.index.latestById.lookup id = some case ∧ case.status.allowedTransitions = []

section Ledger
variable {env : WriteEnv} {contents ends : Contents} {cases : List ReconciliationCase} {id : String}

theorem wrote_index (wrote : Wrote env contents ends cases) :
    ∃ s last, CaseStore.parseVersions env.lax (contents "cases") = .ok s ∧ CaseStore.Appended cases s.index last ∧
      ∀ s', CaseStore.parseVersions env.lax (ends "cases") = .ok s' → s'.index = last := by
  obtain ⟨s,last,parsed,valid,grown⟩ := wrote
  refine ⟨s,last,parsed,CaseStore.validated_index cases valid,?_⟩
  intro s' got
  rw [grown] at got
  exact CaseStore.appended_index cases parsed valid got

theorem current_wrote (wrote : Wrote env contents ends cases) (current : Current env (contents "cases") id case) :
    Current env (ends "cases") id case := by
  obtain ⟨s,last,parsed,appended,reads⟩ := wrote_index wrote
  refine ⟨current.1,?_⟩
  intro s' got
  obtain ⟨latest,found,after⟩ := current.2 s parsed
  obtain ⟨next,there,later⟩ := appended.later id latest found
  refine ⟨next,?_,after.trans later⟩
  rw [reads s' got]
  exact there

theorem settled_wrote (wrote : Wrote env contents ends cases) (settled : Settled env (contents "cases") id) :
    Settled env (ends "cases") id ∧ ∀ case ∈ cases, case.id ≠ id := by
  obtain ⟨s,last,parsed,appended,reads⟩ := wrote_index wrote
  obtain ⟨case,found,ended⟩ := settled s parsed
  have absent : ∀ other ∈ cases, other.id ≠ id := by
    intro other member same
    exact (appended.live other member case (by rw [same,found])).1 ended
  refine ⟨?_,absent⟩
  intro s' got
  refine ⟨case,?_,ended⟩
  rw [reads s' got,appended.others id fun member => ?_]
  · exact found
  · obtain ⟨other,inside,same⟩ := List.mem_map.mp member
    exact absent other inside same

end Ledger

section Runs
variable (env : WriteEnv)

def stored (contents : Contents) : Option IntentGraph := (contents "graph").bind (GraphStore.parseGraph env.lax env.yaml)

-- The outcomes after which a case has no further status, by case.
def terminalOutcome : Ended → Option String
  | .returned _ _ resolution => if resolution.case.status.allowedTransitions = [] then some resolution.case.id else none
  | .raised .. => none

def isResolved : Ended → Bool
  | .returned _ _ resolution => resolution.case.status == .resolved
  | .raised .. => false

def Stage.Fits (content : Option Utf8.Bytes) : Stage → Prop
  | .idle => True
  | .looking _ call case => Current env content call.caseId case
  | .weighing _ call case _ => Current env content call.caseId case
  | .acting service call effect => ∃ case version, Current env content call.caseId case ∧ Decided env service call case version effect

-- The approval is that of the newest version of the case, the stored graph, the
-- action and the actor.
def Approved (contents : Contents) (service : LocalResolutionService) (call : Call) : Prop :=
  ∃ case graph changeset, latestCase env (contents "cases") call.caseId = some case ∧ stored env contents = some graph ∧
    canonicalChangeset env service.actor case graph.1.version call.action = some changeset ∧
    call.approve = some (approvalHash env case graph.1.version call.action changeset)

variable {env} {c : Coordinator}

-- What one step can do.
inductive Advanced (env : WriteEnv) (disk : Disk) : Stage → Move → Stage × Disk × Option Ended → Prop where
  | kept (stage next : Stage) (move : Move) (fits : stage.Fits env (disk.targets "cases") → next.Fits env (disk.targets "cases")) :
      Advanced env disk stage move (next,disk,none)
  | raised (stage : Stage) (move : Move) (service : LocalResolutionService) (call : Call) (after : Disk)
      (closed : after.journal = none) (same : after.targets = disk.targets) :
      Advanced env disk stage move (.idle,after,some (.raised service call))
  | returned (service : LocalResolutionService) (call : Call) (effect : Effect) (transactionId : String) (after : Disk)
      (closed : after.journal = none) (writes : Writes env disk.targets after.targets effect) :
      Advanced env disk (.acting service call effect) (.proceed transactionId)
        (.idle,after,some (.returned service call effect.resolution))

theorem advance_advanced (closed : disk.journal = none) (stage : Stage) (move : Move) :
    Advanced env disk stage move (advance env c disk stage move) := by
  cases stage with
  | idle =>
    cases move with
    | proceed transactionId => exact .kept _ _ _ fun fits => fits
    | resolve service call =>
      unfold advance
      dsimp only
      cases latest : latestCase env (disk.targets "cases") call.caseId with
      | none => exact .raised _ _ _ _ _ closed rfl
      | some case =>
        refine .kept _ _ _ fun _ => ?_
        unfold latestCase at latest
        split at latest
        · cases latest
        · rename_i s parsed
          refine ⟨CaseStore.parsed_keyed parsed _ _ latest,?_⟩
          intro s' got
          cases parsed.symm.trans got
          exact ⟨case,latest,.inl rfl⟩
  | looking service call case =>
    cases move with
    | resolve service call => exact .kept _ _ _ fun fits => fits
    | proceed transactionId =>
      unfold advance
      dsimp only
      split
      · exact .raised _ _ _ _ _ closed rfl
      · exact .kept _ _ _ fun fits => fits
  | weighing service call case version =>
    cases move with
    | resolve service call => exact .kept _ _ _ fun fits => fits
    | proceed transactionId =>
      unfold advance
      dsimp only
      split
      · split
        · exact .raised _ _ _ _ _ closed rfl
        · rename_i effect decides
          exact .kept _ _ _ fun fits => ⟨case,version,fits,decide_decided decides⟩
      · exact .raised _ _ _ _ _ closed rfl
  | acting service call effect =>
    cases move with
    | resolve service call => exact .kept _ _ _ fun fits => fits
    | proceed transactionId =>
      obtain ⟨result,after,ran,left,outcome⟩ := @run_effect env c disk closed effect transactionId
      unfold advance
      dsimp only
      rw [ran]
      rcases outcome with ⟨rfl,writes⟩ | ⟨rfl,same⟩
      · exact .returned service call effect transactionId after left writes
      · exact .raised _ _ _ _ _ left same

-- The case ledger is the same, or valid cases have been appended.
theorem fits_wrote {contents ends : Contents} {stage : Stage} (wrote : Wrote env contents ends cases)
    (fits : stage.Fits env (contents "cases")) : stage.Fits env (ends "cases") := by
  cases stage with
  | idle => trivial
  | looking service call case => exact current_wrote wrote fits
  | weighing service call case version => exact current_wrote wrote fits
  | acting service call effect =>
    obtain ⟨case,version,current,decided⟩ := fits
    exact ⟨case,version,current_wrote wrote current,decided⟩

-- The cases that an effect appends, the last of which it returns.
theorem writes_wrote {contents ends : Contents} {effect : Effect} (decided : Decided env service call case version effect)
    (writes : Writes env contents ends effect) :
    ∃ cases, Wrote env contents ends cases ∧ cases.getLast? = some effect.resolution.case ∧ effect.resolution.case.id = case.id := by
  cases decided with
  | dismissed target updated named => exact ⟨_,writes.1,rfl,named⟩
  | previewed proposed reviewed changeset approval named => exact ⟨_,writes.1,rfl,named⟩
  | approved changeset resolved named => exact ⟨_,writes.1,rfl,named⟩

-- A resolution is an approval of what is stored when it is written.
theorem writes_approved {contents ends : Contents} {effect : Effect} (current : Current env (contents "cases") call.caseId case)
    (decided : Decided env service call case version effect) (writes : Writes env contents ends effect)
    (resolved : effect.resolution.case.status = .resolved) : Approved env contents service call := by
  cases decided with
  | dismissed target updated named reached unresolved => exact absurd (reached.symm.trans resolved) unresolved
  | previewed proposed reviewed changeset approval named reached => cases reached.symm.trans resolved
  | approved changeset next named reached longer built approves =>
    obtain ⟨wrote,graph,after,parsed,applied,_⟩ := writes
    obtain ⟨s,last,read,appended,_⟩ := wrote_index wrote
    obtain ⟨latest,found,later⟩ := current.2 s read
    have shorter := (appended.live next (by simp) latest (by rw [named,current.1,found])).2
    have same : latest = case := by
      rcases later with same | further
      · exact same
      · omega
    subst same
    have baseline := (Applier.applied_version applied).1
    have version' : changeset.1.baselineGraphVersion = version := by
      obtain ⟨event,_,build⟩ := Option.bind_eq_some_iff.mp built
      dsimp only at build
      split at build
      · cases build
        rfl
      · cases build
    rw [version'] at baseline
    subst baseline
    refine ⟨latest,graph,changeset,?_,parsed,built,approves⟩
    simp only [latestCase,read]
    exact found

-- The graph moves on by one version with a resolution and by none otherwise.
theorem writes_version {contents ends : Contents} {effect : Effect} (folds : env.yaml.Folds)
    (decided : Decided env service call case version effect) (writes : Writes env contents ends effect)
    (reads : stored env ends = some graph) :
    ∃ before, stored env contents = some before ∧
      graph.1.version = before.1.version + if effect.resolution.case.status = .resolved then 1 else 0 := by
  cases decided with
  | dismissed target updated named reached unresolved =>
    have same : stored env ends = stored env contents := by rw [stored,stored,writes.2]
    have other : updated.status ≠ .resolved := fun resolved => unresolved (reached.symm.trans resolved)
    exact ⟨graph,same.symm.trans reads,by simp [Effect.resolution,other]⟩
  | previewed proposed reviewed changeset approval named reached =>
    have same : stored env ends = stored env contents := by rw [stored,stored,writes.2]
    exact ⟨graph,same.symm.trans reads,by simp [Effect.resolution,reached]⟩
  | approved changeset next named reached longer built approves =>
    obtain ⟨_,before,after,parsed,applied,written,_⟩ := writes
    refine ⟨before,parsed,?_⟩
    rw [stored,written] at reads
    have kept := GraphStore.folded_version folds reads
    have grown := (Applier.applied_version applied).2
    simp only [Effect.resolution,reached,if_true]
    omega

structure Sound (env : WriteEnv) (start : Contents) (m : Machine) : Prop where
  closed : m.disk.journal = none
  fits : ∀ thread, (m.stages thread).Fits env (m.disk.targets "cases")
  version : ∀ graph, stored env m.disk.targets = some graph →
    ∃ first, stored env start = some first ∧ graph.1.version = first.1.version + m.log.countP isResolved
  settled : ∀ id, Settled env (start "cases") id → Settled env (m.disk.targets "cases") id
  once : (m.log.filterMap terminalOutcome).Nodup
  ended : ∀ id ∈ m.log.filterMap terminalOutcome, Settled env (m.disk.targets "cases") id ∧ ¬Settled env (start "cases") id

-- A step that returns no outcome leaves the targets alone.
theorem unreturned_step {m : Machine} (closed : m.disk.journal = none) (thread : Nat) (move : Move) :
    (∃ service call effect transactionId, m.stages thread = .acting service call effect ∧ move = .proceed transactionId ∧
      (m.step env c thread move).log = m.log ++ [.returned service call effect.resolution] ∧
      Writes env m.disk.targets (m.step env c thread move).disk.targets effect) ∨
    ((m.step env c thread move).disk.targets = m.disk.targets ∧
      ((m.step env c thread move).log = m.log ∨ ∃ service call, (m.step env c thread move).log = m.log ++ [.raised service call])) := by
  have advanced := @advance_advanced env c m.disk closed (m.stages thread) move
  unfold Machine.step
  generalize advance env c m.disk (m.stages thread) move = next at advanced ⊢
  generalize m.stages thread = stage at advanced ⊢
  cases advanced with
  | kept => exact .inr ⟨rfl,.inl (List.append_nil _)⟩
  | raised _ _ service call after _ same => exact .inr ⟨same,.inr ⟨service,call,rfl⟩⟩
  | returned service call effect transactionId after _ writes =>
    exact .inl ⟨service,call,effect,transactionId,rfl,rfl,rfl,writes⟩

theorem sound_step {start : Contents} {m : Machine} (folds : env.yaml.Folds) (sound : Sound env start m) (thread : Nat) (move : Move) :
    Sound env start (m.step env c thread move) := by
  obtain ⟨closed,fits,version,settled,once,ended⟩ := sound
  have advanced := @advance_advanced env c m.disk closed (m.stages thread) move
  have mine := fits thread
  unfold Machine.step
  generalize advance env c m.disk (m.stages thread) move = next at advanced ⊢
  generalize m.stages thread = stage at advanced mine
  cases advanced with
  | kept _ next _ keeps =>
    refine ⟨closed,?_,?_,settled,?_,?_⟩
    · intro other
      dsimp only
      split
      · exact keeps mine
      · exact fits other
    · simpa using version
    · simpa using once
    · simpa using ended
  | raised _ _ service call after left same =>
    have silent : (m.log ++ [Ended.raised service call]).filterMap terminalOutcome = m.log.filterMap terminalOutcome := by
      simp [terminalOutcome]
    refine ⟨left,?_,?_,?_,?_,?_⟩
    · intro other
      dsimp only
      rw [same]
      split
      · trivial
      · exact fits other
    · intro graph reads
      dsimp only at reads
      rw [same] at reads
      obtain ⟨first,began,counted⟩ := version graph reads
      refine ⟨first,began,?_⟩
      simpa [isResolved] using counted
    · intro id began
      dsimp only
      rw [same]
      exact settled id began
    · dsimp only [Option.toList]
      rw [silent]
      exact once
    · dsimp only [Option.toList]
      rw [silent,same]
      exact ended
  | returned service call effect transactionId after left writes =>
    obtain ⟨case,graphVersion,current,decided⟩ := mine
    obtain ⟨cases,wrote,last,named⟩ := writes_wrote decided writes
    have member : effect.resolution.case ∈ cases := List.mem_of_getLast? last
    have fresh (id : String) (over' : Settled env (m.disk.targets "cases") id) : effect.resolution.case.id ≠ id :=
      (settled_wrote wrote over').2 _ member
    refine ⟨left,?_,?_,?_,?_,?_⟩
    · intro other
      dsimp only
      split
      · trivial
      · exact fits_wrote wrote (fits other)
    · intro graph reads
      obtain ⟨before,began,grown⟩ := writes_version folds decided writes reads
      obtain ⟨first,initial,counted⟩ := version before began
      refine ⟨first,initial,?_⟩
      simp only [Option.toList,List.countP_append,List.countP_singleton,isResolved,beq_iff_eq]
      omega
    · intro id began
      exact (settled_wrote wrote (settled id began)).1
    · dsimp only [Option.toList]
      rw [List.filterMap_append]
      by_cases terminal : effect.resolution.case.status.allowedTransitions = []
      · have one : [Ended.returned service call effect.resolution].filterMap terminalOutcome = [effect.resolution.case.id] := by
          simp [terminalOutcome,terminal]
        rw [one]
        refine List.nodup_append.mpr ⟨once,List.nodup_singleton _,?_⟩
        intro id old new found same
        rw [List.mem_singleton] at found
        subst found
        exact fresh id (ended id old).1 same.symm
      · have none' : [Ended.returned service call effect.resolution].filterMap terminalOutcome = [] := by
          simp [terminalOutcome,terminal]
        rw [none',List.append_nil]
        exact once
    · dsimp only [Option.toList]
      intro id found
      rw [List.filterMap_append] at found
      rcases List.mem_append.mp found with old | new
      · obtain ⟨over',began⟩ := ended id old
        exact ⟨(settled_wrote wrote over').1,began⟩
      · simp only [List.filterMap_cons,List.filterMap_nil,terminalOutcome] at new
        split at new
        · cases new
        · rename_i found
          split at found
          · rename_i terminal
            cases found
            rw [List.mem_singleton] at new
            subst new
            refine ⟨?_,fun began => fresh _ (settled _ began) rfl⟩
            obtain ⟨s,final,_,appended,reads⟩ := wrote_index wrote
            intro s' got
            refine ⟨effect.resolution.case,?_,terminal⟩
            rw [reads s' got]
            exact appended.newest _ last
          · cases found

theorem reached_sound {start : Disk} {m : Machine} (folds : env.yaml.Folds) (closed : start.journal = none)
    (reached : Reached env c start m) : Sound env start.targets m := by
  induction reached with
  | start =>
    refine ⟨closed,fun _ => trivial,?_,fun _ began => began,.nil,?_⟩
    · intro graph reads
      exact ⟨graph,reads,rfl⟩
    · intro id member
      cases member
  | step _ thread move ih => exact sound_step folds ih thread move

theorem returned_approved {start : Contents} {m : Machine} (sound : Sound env start m) {thread : Nat} {move : Move}
    {service : LocalResolutionService} {call : Call} {resolution : Resolution}
    (returned : (m.step env c thread move).log = m.log ++ [.returned service call resolution])
    (resolved : resolution.case.status = .resolved) : Approved env m.disk.targets service call ∧ resolution.case.id = call.caseId := by
  rcases @unreturned_step env c m sound.closed thread move with
    ⟨service',call',effect,transactionId,acting,rfl,logged,writes⟩ | ⟨_,silent | ⟨_,_,raised⟩⟩
  · rw [logged] at returned
    have same := List.singleton_inj.mp (List.append_cancel_left returned)
    cases same
    have fits := sound.fits thread
    rw [acting] at fits
    obtain ⟨case,version,current,decided⟩ := fits
    obtain ⟨_,_,_,named⟩ := writes_wrote decided writes
    exact ⟨writes_approved current decided writes resolved,named.trans current.1⟩
  · rw [silent] at returned
    have lengths := congrArg List.length returned
    simp at lengths
  · rw [raised] at returned
    cases List.singleton_inj.mp (List.append_cancel_left returned)

end Runs

section Main
variable (env : WriteEnv) (c : Coordinator)

end Main

section Sample

def reviewer : LocalResolutionService := ⟨"reviewer",["reviewer"],List.mem_singleton_self _,by simp⟩

def deferral : Call := ⟨"case:1",.defer,none,(signedBy "reviewer").1.timestamp⟩

def openedRun : Machine := (Machine.mk freshDisk (fun _ => .idle) []).step plainEnv runtimeCoordinator 0 (.resolve reviewer deferral)

end Sample

end LocalResolutionService
