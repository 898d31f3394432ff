import IntentEngineering.Stores.ApprovalStore
import IntentEngineering.Stores.CaseStore
import IntentEngineering.Stores.EvidenceStore
import IntentEngineering.Stores.HistoryStore

open Schema Json JsonLines LedgerReader

-- What each store's accepted calls leave behind and append.
def EvidenceStore.written (lax : Coercions) (content : Option Utf8.Bytes) (request : EvidenceStore.Request) :
    Except EvidenceStoreError (Option Utf8.Bytes × Option EvidenceEntry) :=
  (EvidenceStore.call lax content request).map fun out => (out.content,out.entry)

def CaseStore.written (lax : Coercions) (content : Option Utf8.Bytes) (case : ReconciliationCase) :
    Except CaseStoreError (Option Utf8.Bytes × Option ReconciliationCase) :=
  (CaseStore.put lax content case).map fun out => (out.1,if out.2 then some case else none)

def HistoryStore.written (lax : Coercions) (content : Option Utf8.Bytes) (changeset : ChangeSet) :
    Except HistoryStoreError (Option Utf8.Bytes × Option ChangeSet) :=
  (HistoryStore.append lax content changeset).map fun out => (out,some changeset)

def ImmutableStore.written (model : RecordModel ρ) (content : Option Utf8.Bytes) (fresh : ρ) :
    Except ImmutableStore.MutationStoreError (Option Utf8.Bytes × Option ρ) :=
  (ImmutableStore.put model content fresh).map fun out => (out.1,if out.2 then some fresh else none)

-- The index of a sequence of evidence entries.
def EvidenceIndex.ofEntries (entries : List EvidenceEntry) : EvidenceIndex := entries.foldl EvidenceIndex.add .empty

theorem except_map_ok {x : Except ε α} {f : α → β} (got : x.map f = .ok b) : ∃ a, x = .ok a ∧ f a = b := by
  cases x with
  | error e => cases got
  | ok a => exact ⟨a,rfl,Except.ok.inj got⟩

theorem except_map_iff {x : Except ε α} {f : α → β} : x.map f = .ok b ↔ ∃ a, x = .ok a ∧ f a = b := by
  constructor
  · exact except_map_ok
  · rintro ⟨a,rfl,rfl⟩
    rfl

theorem foldl_snoc (xs ys : List α) : ys.foldl (fun found x => found ++ [x]) xs = xs ++ ys := by
  induction ys generalizing xs with
  | nil => simp
  | cons y ys ih => simp [ih]

-- The ingestions of the index are the associations in the order they came.
theorem EvidenceIndex.ofEntries_ingestions (entries : List EvidenceEntry) :
    (EvidenceIndex.ofEntries entries).ingestions =
      entries.filterMap fun | .association ingestion => some ingestion | .legacy _ => none := by
  have each (entries : List EvidenceEntry) (s : EvidenceIndex) : (entries.foldl EvidenceIndex.add s).ingestions =
      s.ingestions ++ entries.filterMap fun | .association ingestion => some ingestion | .legacy _ => none := by
    induction entries generalizing s with
    | nil => simp
    | cons entry entries ih =>
      rw [List.foldl_cons,ih]
      cases entry <;> simp [EvidenceIndex.add]
  exact each entries .empty

section Appending

variable (lax : Coercions)

theorem evidence_appends : (EvidenceStore.reader lax).Appends (EvidenceEntry.dump lax) id EvidenceIndex.add
    (EvidenceStore.written lax) := by
  intro content request content' entry accepted
  obtain ⟨out,called,shape⟩ := except_map_ok accepted
  cases shape
  obtain ⟨s,read,⟨none,same⟩ | ⟨entry,some,grew,takes⟩⟩ := EvidenceStore.call_spec lax called
  · exact .inl ⟨none,same⟩
  · exact .inr ⟨entry,s,some,read,grew,fun n _ => ⟨_,takes n,rfl⟩⟩

theorem case_appends : (CaseStore.reader lax).Appends (ReconciliationCase.codec lax).dump CaseLedger.versions
    (fun found case => found ++ [case]) (CaseStore.written lax) := by
  intro content case content' entry accepted
  obtain ⟨⟨_,added⟩,called,shape⟩ := except_map_ok accepted
  cases shape
  obtain ⟨s,read,⟨rfl,same⟩ | ⟨rfl,grew,index,takes⟩⟩ := CaseStore.put_spec lax called
  · exact .inl ⟨rfl,same⟩
  · exact .inr ⟨case,s,rfl,read,grew,fun n _ => ⟨_,takes n,rfl⟩⟩

theorem history_appends : (HistoryStore.reader lax).Appends (ChangeSet.codec lax true).dump id
    (fun found changeset => found ++ [changeset]) (HistoryStore.written lax) := by
  intro content changeset content' entry accepted
  obtain ⟨out,called,shape⟩ := except_map_ok accepted
  cases shape
  simp only [HistoryStore.append] at called
  cases read : HistoryStore.rebuild lax content with
  | error e => simp [read] at called
  | ok s =>
    simp only [read,Except.ok.injEq] at called
    exact .inr ⟨changeset,s,rfl,read,called.symm,fun n _ => ⟨_,HistoryStore.record_changeset lax s n changeset,rfl⟩⟩

theorem immutable_appends (model : RecordModel ρ) : (ImmutableStore.reader model).Appends model.codec.dump
    (fun s => s.map StoredRecord.record) (fun found fresh => found ++ [fresh]) (ImmutableStore.written model) := by
  intro content fresh content' entry accepted
  obtain ⟨⟨_,added⟩,called,shape⟩ := except_map_ok accepted
  cases shape
  obtain ⟨s,read,⟨rfl,same⟩ | ⟨rfl,grew,takes⟩⟩ := ImmutableStore.put_spec model called
  · exact .inl ⟨rfl,same⟩
  · exact .inr ⟨fresh,s,rfl,read,grew,fun _ line => ⟨_,takes line,by simp⟩⟩

end Appending

section RoundTrip

variable (lax : Coercions)

theorem evidence_round_trip (ran : calls (EvidenceStore.written lax) none requests = .ok (content,entries)) :
    EvidenceStore.parseEvidenceLines lax content = .ok (EvidenceIndex.ofEntries entries) ↔
      ∀ e ∈ entries, Unbroken (e.dump lax) ∧ allFinite (e.dump lax) = true := by
  have read := (EvidenceStore.reader lax).calls_read (EvidenceEntry.dump lax) id EvidenceIndex.add (evidence_appends lax)
    (fun e => (EvidenceStore.dump_entry lax e).imp fun _ found => found.1) (EvidenceStore.formed_entry lax) ran
  simpa [LedgerReader.Legible,EvidenceStore.reader,strictDialect,EvidenceIndex.ofEntries,EvidenceStore.parseEvidenceLines] using read

theorem case_round_trip (ran : calls (CaseStore.written lax) none cases = .ok (content,stored)) :
    CaseStore.parseCaseVersions lax content = .ok stored ↔
      ∀ c ∈ stored, Unbroken ((ReconciliationCase.codec lax).dump c) := by
  have read := (CaseStore.reader lax).calls_read _ _ _ (case_appends lax) (fun _ => ⟨_,rfl⟩) (ReconciliationCase.codec lax).formed ran
  rw [foldl_snoc] at read
  rw [CaseStore.parseCaseVersions,except_map_iff]
  simpa [LedgerReader.Legible,CaseStore.reader,plainDialect,CaseStore.parseVersions] using read

theorem history_round_trip (ran : calls (HistoryStore.written lax) none changesets = .ok (content,appended)) :
    HistoryStore.rebuild lax content = .ok appended ↔ ∀ c ∈ appended, Unbroken ((ChangeSet.codec lax true).dump c) := by
  have read := (HistoryStore.reader lax).calls_read _ _ _ (history_appends lax) (fun _ => ⟨_,rfl⟩) (ChangeSet.codec lax true).formed ran
  rw [foldl_snoc] at read
  simpa [LedgerReader.Legible,HistoryStore.reader,plainDialect,HistoryStore.rebuild] using read

theorem immutable_round_trip (model : RecordModel ρ) (finite : ∀ r, allFinite (model.codec.dump r) = true)
    (ran : calls (ImmutableStore.written model) none records = .ok (content,stored)) :
    ImmutableStore.list model content = .ok stored ↔ ∀ r ∈ stored, Unbroken (model.codec.dump r) := by
  have read := (ImmutableStore.reader model).calls_read _ _ _ (immutable_appends model) model.objects model.codec.formed ran
  rw [foldl_snoc] at read
  rw [ImmutableStore.list,except_map_iff]
  simpa [LedgerReader.Legible,ImmutableStore.reader,finite,ImmutableStore.decode] using read

theorem plan_finite (plan : WritePlan lax sha256) : allFinite ((WritePlan.codec lax sha256).dump plan) = true := by
  have valid := plan.2
  simp only [WritePlanDraft.validatePlan,Bool.and_eq_true] at valid
  have objects : plan.1.finiteObjects = true := valid.1.1.1.1.1.1.1.1.1.2
  simp only [WritePlanDraft.finiteObjects,List.all_cons,List.all_nil,Bool.and_eq_true] at objects
  obtain ⟨before,after,arguments,_⟩ := objects
  change allFiniteMembers ((WritePlanDraft.fields lax).dump _) = true
  simp only [WritePlanDraft.fields,Fields.required,Fields.defaulted,push_finite,strings_finite,Bool.and_eq_true]
  refine ⟨after,arguments,before,?_⟩
  and_intros <;> trivial

theorem approval_finite (approval : ApprovalRecord lax sha256) :
    allFinite ((ApprovalRecord.codec lax sha256).dump approval) = true := by
  change allFiniteMembers ((ApprovalDraft.fields lax).dump _) = true
  simp only [ApprovalDraft.fields,Fields.required,Fields.defaulted,push_finite,strings_finite,Bool.and_eq_true]
  and_intros <;> trivial

-- Every ledger written by accepted calls from an absent file reads back as its
-- records in order exactly when none of them holds a separator in a string and,
-- for evidence, every number is finite.
theorem ledger_round_trip (sha256 : Utf8.Bytes → String) :
    (∀ requests content entries, calls (EvidenceStore.written lax) none requests = .ok (content,entries) →
      (EvidenceStore.parseEvidenceLines lax content = .ok (EvidenceIndex.ofEntries entries) ↔
        ∀ e ∈ entries, Unbroken (e.dump lax) ∧ allFinite (e.dump lax) = true)) ∧
    (∀ cases content stored, calls (CaseStore.written lax) none cases = .ok (content,stored) →
      (CaseStore.parseCaseVersions lax content = .ok stored ↔
        ∀ c ∈ stored, Unbroken ((ReconciliationCase.codec lax).dump c))) ∧
    (∀ changesets content appended, calls (HistoryStore.written lax) none changesets = .ok (content,appended) →
      (HistoryStore.rebuild lax content = .ok appended ↔ ∀ c ∈ appended, Unbroken ((ChangeSet.codec lax true).dump c))) ∧
    (∀ plans content stored, calls (ImmutableStore.written (writePlanModel lax sha256)) none plans = .ok (content,stored) →
      (ImmutableStore.list (writePlanModel lax sha256) content = .ok stored ↔
        ∀ p ∈ stored, Unbroken ((WritePlan.codec lax sha256).dump p))) ∧
    (∀ approvals content stored, calls (ImmutableStore.written (approvalModel lax sha256)) none approvals = .ok (content,stored) →
      (ImmutableStore.list (approvalModel lax sha256) content = .ok stored ↔
        ∀ a ∈ stored, Unbroken ((ApprovalRecord.codec lax sha256).dump a))) := by
  refine ⟨?_,?_,?_,?_,?_⟩
  · intro _ _ _ ran
    exact evidence_round_trip lax ran
  · intro _ _ _ ran
    exact case_round_trip lax ran
  · intro _ _ _ ran
    exact history_round_trip lax ran
  · intro _ _ _ ran
    exact immutable_round_trip (writePlanModel lax sha256) (plan_finite lax) ran
  · intro _ _ _ ran
    exact immutable_round_trip (approvalModel lax sha256) (approval_finite lax) ran

end RoundTrip

section Appending

variable (lax : Coercions)

theorem evidence_append {content : Option Utf8.Bytes} {request : EvidenceStore.Request} {out : EvidenceStore.Outcome}
    (accepted : EvidenceStore.parseEvidenceLines lax content = .ok s)
    (called : EvidenceStore.call lax content request = .ok out) (appended : out.entry = some entry) :
    EvidenceStore.parseEvidenceLines lax out.content = .ok (s.add entry) ↔
      Blank (pending content) ∧ Unbroken (entry.dump lax) ∧ allFinite (entry.dump lax) = true := by
  obtain ⟨s',read,⟨none,_⟩ | ⟨entry',some,grew,takes⟩⟩ := EvidenceStore.call_spec lax called
  · rw [none] at appended
    cases appended
  · rw [accepted] at read
    cases read
    rw [some] at appended
    cases appended
    have whole := (EvidenceStore.reader lax).read_append_iff accepted ((EvidenceStore.dump_entry lax entry).imp fun _ found => found.1)
      (EvidenceStore.formed_entry lax entry) id (s.add entry) (fun n _ => ⟨_,takes n,rfl⟩)
    rw [grew]
    simpa [LedgerReader.Legible,EvidenceStore.reader,strictDialect,EvidenceStore.parseEvidenceLines] using whole

-- A case ledger has no blank tail, so a clear one is empty.
theorem case_tail (accepted : CaseStore.parseVersions lax content = .ok s) : Blank (pending content) ↔ pending content = [] :=
  ⟨(CaseStore.reader lax).pending_nil rfl accepted,fun empty => by simp [empty,Blank]⟩

theorem case_read (content : Option Utf8.Bytes) (versions : List ReconciliationCase) :
    CaseStore.parseCaseVersions lax content = .ok versions ↔ ∃ s, CaseStore.parseVersions lax content = .ok s ∧ s.versions = versions :=
  except_map_iff

theorem case_legible (v : Json) : (CaseStore.reader lax).Legible v ↔ Unbroken v := by
  simp [LedgerReader.Legible,CaseStore.reader,plainDialect]

theorem case_append {content content' : Option Utf8.Bytes} (accepted : CaseStore.parseCaseVersions lax content = .ok versions)
    (called : CaseStore.put lax content case = .ok (content',true)) :
    CaseStore.parseCaseVersions lax content' = .ok (versions ++ [case]) ↔
      pending content = [] ∧ Unbroken ((ReconciliationCase.codec lax).dump case) := by
  obtain ⟨s,read,rfl⟩ := (case_read lax content versions).mp accepted
  obtain ⟨s',read',⟨impossible,_⟩ | ⟨_,grew,index,takes⟩⟩ := CaseStore.put_spec lax called
  · cases impossible
  · rw [read] at read'
    cases read'
    have whole := (CaseStore.reader lax).read_append_iff read ((CaseStore.dump_case lax case).imp fun _ found => found.1)
      ((ReconciliationCase.codec lax).formed case) CaseLedger.versions (s.versions ++ [case]) (fun n _ => ⟨_,takes n,rfl⟩)
    rw [case_read,grew,←case_tail lax read,←case_legible lax]
    exact whole

theorem cases_append (cases : List ReconciliationCase) : ∀ (content : Option Utf8.Bytes) (s : CaseLedger),
    CaseStore.parseVersions lax content = .ok s → CaseStore.validateAll lax s.index cases = .ok last →
    (CaseStore.parseCaseVersions lax (appendAll content (cases.map (ReconciliationCase.codec lax).dump)) = .ok (s.versions ++ cases) ↔
      cases = [] ∨ pending content = [] ∧ ∀ c ∈ cases, Unbroken ((ReconciliationCase.codec lax).dump c)) := by
  induction cases with
  | nil =>
    intro content s read _
    simp [case_read,CaseStore.parseVersions] at read ⊢
    exact ⟨s,read,rfl⟩
  | cons case rest ih =>
    intro content s read valid
    simp only [CaseStore.validateAll] at valid
    cases taken : CaseStore.recordVersion lax false s.index case with
    | error e => simp [taken] at valid
    | ok found =>
      obtain ⟨index,added⟩ := found
      simp only [taken] at valid
      have takes := CaseStore.record_case lax s (CaseStore.recordVersion_strict lax taken)
      have object := (CaseStore.dump_case lax case).imp fun _ found => found.1
      have formed := (ReconciliationCase.codec lax).formed case
      simp only [List.map_cons,appendAll_cons,List.mem_cons,forall_eq_or_imp]
      by_cases good : Blank (pending content) ∧ Unbroken ((ReconciliationCase.codec lax).dump case)
      · obtain ⟨n,shown,grown⟩ := (CaseStore.reader lax).read_append read object formed good.1 ⟨good.2,.inl rfl⟩
        have next : CaseStore.parseVersions lax (append content ((ReconciliationCase.codec lax).dump case)) =
            .ok ⟨s.versions ++ [case],index⟩ := grown.trans (takes n)
        have later := ih _ _ next valid
        have settled := (CaseStore.reader lax).pending_append read ((ReconciliationCase.codec lax).dump case)
        rw [settled,List.append_assoc,List.singleton_append] at later
        rw [later,(case_tail lax read).mp good.1]
        constructor
        · intro either
          refine .inr ⟨rfl,good.2,?_⟩
          rcases either with none | ⟨_,all⟩
          · simp [none]
          · exact all
        · rintro (impossible | ⟨_,_,all⟩)
          · cases impossible
          · exact .inr ⟨rfl,all⟩
      · constructor
        · intro decoded
          obtain ⟨s',read',_⟩ := (case_read lax _ _).mp decoded
          obtain ⟨n,refused⟩ := (CaseStore.reader lax).read_append_torn read object formed
            (fun both => good ⟨both.1,both.2.1⟩) ((rest.map (ReconciliationCase.codec lax).dump).flatMap frame)
          rw [←appendAll_cons] at read'
          simp only [CaseStore.parseVersions,appendAll,List.flatMap_cons] at read'
          rw [refused] at read'
          cases read'
        · rintro (impossible | ⟨empty,unbroken,_⟩)
          · cases impossible
          · exact absurd ⟨(case_tail lax read).mpr empty,unbroken⟩ good

-- Appended to an accepted content, a record that the store takes is read behind
-- the old ones exactly when the content has no unterminated record at its end
-- and the record is legible.
theorem append_preserves_acceptance :
    (∀ content s request out entry, EvidenceStore.parseEvidenceLines lax content = .ok s →
      EvidenceStore.call lax content request = .ok out → out.entry = some entry →
      (EvidenceStore.parseEvidenceLines lax out.content = .ok (s.add entry) ↔
        Blank (pending content) ∧ Unbroken (entry.dump lax) ∧ allFinite (entry.dump lax) = true)) ∧
    (∀ content versions case content', CaseStore.parseCaseVersions lax content = .ok versions →
      CaseStore.put lax content case = .ok (content',true) →
      (CaseStore.parseCaseVersions lax content' = .ok (versions ++ [case]) ↔
        pending content = [] ∧ Unbroken ((ReconciliationCase.codec lax).dump case))) ∧
    (∀ content versions cases bytes, CaseStore.parseCaseVersions lax content = .ok versions →
      CaseStore.validateCaseAppends lax content cases = .ok bytes →
      (CaseStore.parseCaseVersions lax (some (content.getD [] ++ bytes)) = .ok (versions ++ cases) ↔
        cases = [] ∨ pending content = [] ∧ ∀ c ∈ cases, Unbroken ((ReconciliationCase.codec lax).dump c))) := by
  refine ⟨?_,?_,?_⟩
  · intro _ _ _ _ _ accepted called appended
    exact evidence_append lax accepted called appended
  · intro _ _ _ _ accepted called
    exact case_append lax accepted called
  · intro content versions cases bytes accepted validated
    obtain ⟨s,read,rfl⟩ := (case_read lax content versions).mp accepted
    simp only [CaseStore.validateCaseAppends,read] at validated
    cases valid : CaseStore.validateAll lax s.index cases with
    | error e => simp [valid] at validated
    | ok last =>
      simp only [valid,Except.ok.injEq] at validated
      subst validated
      exact cases_append lax cases content s read valid

end Appending

def noon : DateTime := ⟨2026,1,2,12,0,0,0,some 0,by decide⟩

def note (id text : String) : EvidenceRecord :=
  ⟨id,"markdown","note.md","1",none,noon,"note.md","hash",⟨[("text",.str text)],by simp [WellFormed,WellFormedMembers]⟩,none,[]⟩

def plainNote : EvidenceRecord := note "evidence:1" "plain\ntext"

-- A note with a line separator in it, as an editor may save it.
def separatorNote : EvidenceRecord := note "evidence:2" (String.ofList ['a',Char.ofNat 0x2028,'b'])

theorem plainNote_legible : (EvidenceStore.reader canonicalOnly).Legible ((EvidenceEntry.legacy plainNote).dump canonicalOnly) := by
  decide

theorem plain_note_round_trip :
    ∃ content, calls (EvidenceStore.written canonicalOnly) none [.put plainNote] = .ok (content,[.legacy plainNote]) ∧
      EvidenceStore.parseEvidenceLines canonicalOnly content = .ok (EvidenceIndex.ofEntries [.legacy plainNote]) :=
  ⟨_,rfl,((ledger_round_trip canonicalOnly fun _ => "").1 [.put plainNote] _ _ rfl).mpr (by decide)⟩

theorem separatorNote_broken : ¬ Unbroken ((EvidenceEntry.legacy separatorNote).dump canonicalOnly) := by decide

-- The note is accepted, and the ledger no longer reads.
theorem separator_note_unreadable :
    ∃ content, calls (EvidenceStore.written canonicalOnly) none [.put separatorNote] = .ok (content,[.legacy separatorNote]) ∧
      ∃ e, EvidenceStore.parseEvidenceLines canonicalOnly content = .error e := by
  refine ⟨LedgerReader.append none ((EvidenceEntry.legacy separatorNote).dump canonicalOnly),rfl,?_⟩
  obtain ⟨n,refused⟩ := (EvidenceStore.reader canonicalOnly).read_append_torn (LedgerReader.read_none _)
    ((EvidenceStore.dump_entry canonicalOnly (.legacy separatorNote)).imp fun _ found => found.1)
    (EvidenceStore.formed_entry canonicalOnly (.legacy separatorNote)) (fun both => separatorNote_broken both.2.1) []
  rw [List.append_nil] at refused
  exact ⟨_,refused⟩

theorem plain_note_appended :
    ∃ out, EvidenceStore.call canonicalOnly none (.put plainNote) = .ok out ∧
      EvidenceStore.parseEvidenceLines canonicalOnly out.content = .ok (EvidenceIndex.empty.add (.legacy plainNote)) :=
  ⟨EvidenceStore.append canonicalOnly none (.legacy plainNote) true,rfl,
    ((append_preserves_acceptance canonicalOnly).1 none .empty (.put plainNote) _ _ rfl rfl rfl).mpr
      ⟨by decide,plainNote_legible.1,by decide⟩⟩

def secondNote : EvidenceRecord := note "evidence:3" "second"

-- A ledger of one note whose line feed is missing.
theorem unterminated_note_accepted : ∃ content, EvidenceStore.parseEvidenceLines canonicalOnly content =
      .ok ((EvidenceStore.reader canonicalOnly).start.add (.legacy plainNote)) ∧
    pending content = text ((EvidenceEntry.legacy plainNote).dump canonicalOnly) := by
  obtain ⟨tail,n,shown,read⟩ := (EvidenceStore.reader canonicalOnly).read_open (LedgerReader.read_none _)
    ((EvidenceStore.dump_entry canonicalOnly (.legacy plainNote)).imp fun _ found => found.1)
    (EvidenceStore.formed_entry canonicalOnly (.legacy plainNote)) rfl plainNote_legible
  rw [EvidenceStore.reader_record] at read
  have taken := EvidenceStore.record_entry canonicalOnly (EvidenceStore.reader canonicalOnly).start n (.legacy plainNote) rfl rfl
  exact ⟨_,read.trans taken,tail⟩

theorem plainNote_solid : ¬ Blank (text ((EvidenceEntry.legacy plainNote).dump canonicalOnly)) := by decide

-- The next note joins its last line, and the ledger no longer reads.
theorem unterminated_note_unreadable :
    ∃ content s out, EvidenceStore.parseEvidenceLines canonicalOnly content = .ok s ∧
      EvidenceStore.call canonicalOnly content (.put secondNote) = .ok out ∧ out.entry = some (.legacy secondNote) ∧
      ∃ e, EvidenceStore.parseEvidenceLines canonicalOnly out.content = .error e := by
  obtain ⟨content,stored,tail⟩ := unterminated_note_accepted
  have absent : ((EvidenceStore.reader canonicalOnly).start.add (.legacy plainNote)).find secondNote.id = none := by decide
  obtain ⟨m,refused⟩ := (EvidenceStore.reader canonicalOnly).read_append_torn stored
    ((EvidenceStore.dump_entry canonicalOnly (.legacy secondNote)).imp fun _ found => found.1)
    (EvidenceStore.formed_entry canonicalOnly (.legacy secondNote)) (fun both => plainNote_solid (tail ▸ both.1)) []
  rw [List.append_nil] at refused
  refine ⟨content,_,EvidenceStore.append canonicalOnly content (.legacy secondNote) true,stored,?_,rfl,_,refused⟩
  simp only [EvidenceStore.call,EvidenceStore.put,stored,absent]
