import IntentEngineering.Reconcile.AssuranceViews
import IntentEngineering.Reconcile.DetectionOrder
import IntentEngineering.Stores.CaseLifecycle

namespace Assurance
open EvidenceDetection

section Candidates
variable {v v' : View} {found found' : List DriftObservation} {o : DriftObservation}

theorem gaps_mem : o ∈ gaps v ↔ ∃ s ∈ v.seen, s.id ∉ v.obscured ∧
    o ∈ intentWithoutRequirement v s ++ requirementWithoutIntent v s ++ undocumentedCode v s := by
  simp only [gaps,List.mem_flatMap,Keyed.inOrder_member]
  refine exists_congr fun s => and_congr_right fun _ => ?_
  by_cases hidden : s.id ∈ v.obscured <;> simp [hidden]

theorem doubts_mem : o ∈ doubts v ↔ ∃ s ∈ v.seen, s.id ∉ v.obscured ∧ o ∈ relevantProvisionalIntent v s ++ staleSourceEvidence s := by
  simp only [doubts,List.mem_flatMap,Keyed.inOrder_member]
  refine exists_congr fun s => and_congr_right fun _ => ?_
  by_cases hidden : s.id ∈ v.obscured <;> simp [hidden]

-- The candidates by the passes that find them.
theorem candidates_mem (ran : candidates v = .ok found) : o ∈ found ↔ o ∈ gaps v ∨
    (∃ e ∈ v.activeEdges, ∃ more, edgeConflicts v e = .ok more ∧ o ∈ more) ∨
    (∃ s ∈ v.seen, (s.node.type = "REQUIREMENT" ∧ s.id ∉ v.obscured) ∧ ∃ more, testLag v s = .ok more ∧ o ∈ more) ∨ o ∈ doubts v := by
  unfold candidates at ran
  obtain ⟨first,edges,ran⟩ := except_bind_ok ran
  obtain ⟨second,requirements,rfl⟩ := except_map_ok ran
  have conflict := gathered_mem (b := o) edges
  have lag := gathered_mem (b := o) requirements
  simp only [Keyed.inOrder_member] at conflict lag
  simp only [List.mem_append,conflict,lag,List.mem_filter,Bool.and_eq_true,beq_iff_eq,Bool.not_eq_true',or_assoc,and_assoc]
  simp

theorem edgeConflicts_mem {e : Edge} (ran : edgeConflicts v e = .ok found) (inside : o ∈ found) :
    ∃ left right lags, v.find e.fromId = some left ∧ v.find e.toId = some right ∧ left.id ∉ v.obscured ∧ right.id ∉ v.obscured ∧
      codeLag e left right = .ok lags ∧ found = lags ++ conflictingSources e left right := by
  unfold edgeConflicts at ran
  split at ran
  · rename_i left right origin target
    split at ran
    · cases ran
      cases inside
    · rename_i clear
      obtain ⟨lags,lag,rfl⟩ := except_map_ok ran
      simp only [Bool.or_eq_true,List.contains_iff_mem,not_or] at clear
      exact ⟨left,right,lags,origin,target,clear.1,clear.2,lag,rfl⟩
  · cases ran
    cases inside

-- An intent is no implementation: the search starts where it cannot end.
theorem provisional_below {s : Seen} (below : Below v v') (here : v.find s.id = some s) (clear : Clear v s.id)
    (inside : o ∈ relevantProvisionalIntent v s) : o ∈ relevantProvisionalIntent v' s := by
  unfold relevantProvisionalIntent at inside ⊢
  split at inside
  · rename_i fits
    simp only [Bool.and_eq_true] at fits
    obtain ⟨⟨⟨kind,mode⟩,now⟩,reaches⟩ := fits
    have plain : v.typed implementationTypes s.id = false := by
      have apart : ∀ type ∈ intentTypes, implementationTypes.contains type = false := by decide
      rw [View.typed,here,Option.any_some]
      exact apart _ (List.contains_iff_mem.mp kind)
    rw [if_pos]
    · exact inside
    · simp only [Bool.and_eq_true]
      exact ⟨⟨⟨kind,mode⟩,now⟩,below.reaches plain clear.sees reaches⟩
  · cases inside

-- What is found in one view is found in every wider one.
theorem candidates_below (below : Below v v') (distinct : (v.seen.map Seen.id).Nodup) (first : candidates v = .ok found)
    (second : candidates v' = .ok found') (inside : o ∈ found) : o ∈ found' := by
  have kept {s : Seen} (member : s ∈ v.seen) (bare : s.id ∉ v.obscured) : Clear v s.id ∧ s ∈ v'.seen ∧ s.id ∉ v'.obscured := by
    have here : v.find s.id = some s := Keyed.find_member distinct member
    have clear : Clear v s.id := ⟨by simp [View.sees,here],bare⟩
    exact ⟨clear,(Keyed.find_key (below.found s.id s here)).1,(below.clear clear).bare⟩
  apply (candidates_mem second).mpr
  rcases (candidates_mem first).mp inside with gap | ⟨e,active,more,ran,inside⟩ | ⟨s,member,⟨requirement,bare⟩,more,ran,inside⟩ | doubt
  · obtain ⟨s,member,bare,missing⟩ := gaps_mem.mp gap
    obtain ⟨clear,there,bare'⟩ := kept member bare
    refine .inl (gaps_mem.mpr ⟨s,there,bare',?_⟩)
    simpa only [intentWithoutRequirement,requirementWithoutIntent,undocumentedCode,below.missing clear] using missing
  · obtain ⟨left,right,lags,origin,target,bare,bare',lag,rfl⟩ := edgeConflicts_mem ran inside
    obtain ⟨leftSeen,leftId⟩ := Keyed.find_key origin
    obtain ⟨rightSeen,rightId⟩ := Keyed.find_key target
    refine .inr (.inl ⟨e,below.active active,_,?_,inside⟩)
    unfold edgeConflicts
    simp [below.found _ _ origin,below.found _ _ target,(kept leftSeen bare).2.2,(kept rightSeen bare').2.2,lag,Except.map]
  · obtain ⟨clear,there,bare'⟩ := kept member bare
    refine .inr (.inr (.inl ⟨s,there,⟨requirement,bare'⟩,more,?_,inside⟩))
    rw [below.testLag clear]
    exact ran
  · obtain ⟨s,member,bare,doubtful⟩ := doubts_mem.mp doubt
    obtain ⟨clear,there,bare'⟩ := kept member bare
    refine .inr (.inr (.inr (doubts_mem.mpr ⟨s,there,bare',?_⟩)))
    rcases List.mem_append.mp doubtful with provisional | stale
    · exact List.mem_append_left _ (provisional_below below (Keyed.find_member distinct member) clear provisional)
    · exact List.mem_append_right _ stale

-- A candidate is an observation of seen nodes.
def Observed (v : View) (o : DriftObservation) : Prop :=
  ∃ s caseType detectorId others, s ∈ v.seen ∧ (∀ q ∈ others, q ∈ v.seen) ∧ o = observation s caseType detectorId others

theorem alone_observed {s : Seen} {caseType : ReconciliationCaseType} {detectorId : String} (member : s ∈ v.seen)
    (inside : o ∈ [observation s caseType detectorId []]) : Observed v o := by
  rw [List.mem_singleton.mp inside]
  exact ⟨s,_,_,[],member,by simp,rfl⟩

theorem pair_observed {left right : Seen} {caseType : ReconciliationCaseType} {detectorId : String} (first : left ∈ v.seen)
    (second : right ∈ v.seen) (inside : o ∈ [observation left caseType detectorId [right]]) : Observed v o := by
  rw [List.mem_singleton.mp inside]
  exact ⟨left,_,_,[right],first,by simpa using second,rfl⟩

theorem missing_observed (member : s ∈ v.seen) (inside : o ∈ missing v types among caseType detectorId s) : Observed v o := by
  unfold missing at inside
  split at inside
  · exact alone_observed member inside
  · cases inside

theorem gaps_observed (inside : o ∈ gaps v) : Observed v o := by
  obtain ⟨s,member,_,missing⟩ := gaps_mem.mp inside
  rcases List.mem_append.mp missing with earlier | third
  · rcases List.mem_append.mp earlier with first | second
    · exact missing_observed member first
    · exact missing_observed member second
  · exact missing_observed member third

theorem codeLag_observed {e : Edge} {left right : Seen} {lags : List DriftObservation} (first : left ∈ v.seen) (second : right ∈ v.seen)
    (ran : codeLag e left right = .ok lags) (inside : o ∈ lags) : Observed v o := by
  unfold codeLag at ran
  split at ran
  · obtain ⟨later,_,rfl⟩ := except_map_ok ran
    split at inside
    · exact pair_observed first second inside
    · cases inside
  · cases ran
    cases inside

theorem edgeConflicts_observed {e : Edge} (ran : edgeConflicts v e = .ok found) (inside : o ∈ found) : Observed v o := by
  obtain ⟨left,right,lags,origin,target,_,_,lag,rfl⟩ := edgeConflicts_mem ran inside
  have leftSeen := (Keyed.find_key origin).1
  have rightSeen := (Keyed.find_key target).1
  rcases List.mem_append.mp inside with first | second
  · exact codeLag_observed leftSeen rightSeen lag first
  · unfold conflictingSources at second
    split at second
    · exact pair_observed leftSeen rightSeen second
    · cases second

theorem targets_seen {id : String} {relation : RelationType} {types : List String} {q : Seen} (inside : q ∈ v.targets id relation types) :
    q ∈ v.seen := by
  obtain ⟨e,_,found⟩ := List.mem_filterMap.mp inside
  split at found
  · obtain ⟨found,_⟩ := Option.filter_eq_some_iff.mp found
    exact (Keyed.find_key found).1
  · cases found

theorem testLag_observed {s : Seen} (member : s ∈ v.seen) (ran : testLag v s = .ok found) (inside : o ∈ found) : Observed v o := by
  unfold testLag at ran
  dsimp only at ran
  split at ran
  · cases ran
    cases inside
  · obtain ⟨implemented,_,ran⟩ := except_bind_ok ran
    obtain ⟨tested,_,ran⟩ := except_bind_ok ran
    split at ran
    · obtain ⟨later,_,rfl⟩ := except_map_ok ran
      split at inside
      · rw [List.mem_singleton.mp inside]
        refine ⟨s,_,_,_,member,?_,rfl⟩
        intro q member
        rcases List.mem_append.mp member with first | second
        · exact targets_seen first
        · exact targets_seen second
      · cases inside
    · cases ran
      cases inside

theorem doubts_observed (inside : o ∈ doubts v) : Observed v o := by
  obtain ⟨s,member,_,doubtful⟩ := doubts_mem.mp inside
  rcases List.mem_append.mp doubtful with provisional | stale
  · unfold relevantProvisionalIntent at provisional
    split at provisional
    · exact alone_observed member provisional
    · cases provisional
  · unfold staleSourceEvidence at stale
    split at stale
    · cases stale
    · exact alone_observed member stale

theorem candidates_observed (ran : candidates v = .ok found) (inside : o ∈ found) : Observed v o := by
  rcases (candidates_mem ran).mp inside with gap | ⟨e,_,more,ran,inside⟩ | ⟨s,member,_,more,ran,inside⟩ | doubt
  · exact gaps_observed gap
  · exact edgeConflicts_observed ran inside
  · exact testLag_observed member ran inside
  · exact doubts_observed doubt

end Candidates

section Reports
variable {actor : String} {graph : IntentGraph} {records : List EvidenceRecord} {ingestions : List EvidenceIngestion}
  {existingCases : List ReconciliationCase} {reasoner : Option AssuranceReasoner} {xs : List DriftObservation} {o : DriftObservation}

theorem defaults_mem {os selected : List DriftObservation} (member : o ∈ os.foldl DriftObservation.setDefault selected) :
    o ∈ selected ∨ o ∈ os := by
  induction os generalizing selected with
  | nil => exact .inl member
  | cons next os ih =>
    rcases ih member with there | later
    · unfold DriftObservation.setDefault at there
      split at there
      · exact .inl there
      · rcases List.mem_append.mp there with before | last
        · exact .inl before
        · exact .inr (List.mem_singleton.mp last ▸ List.mem_cons_self)
    · exact .inr (List.mem_cons_of_mem _ later)

theorem selected_mem {found : List DriftObservation} (inside : o ∈ DriftObservation.selectDriftObservations found) : o ∈ found := by
  have sorted := (List.mergeSort_perm _ _).mem_iff.mp inside
  have member := (defaults_mem sorted).resolve_left List.not_mem_nil
  exact (List.mergeSort_perm _ _).mem_iff.mp member

theorem report_mem {found : List DriftObservation} : o ∈ report existingCases found ↔ o ∈ DriftObservation.selectDriftObservations found ∧
    (∀ case ∈ existingCases, case.fingerprint ≠ o.fingerprint) ∧ ∀ case ∈ existingCases, case.subjectRef ≠ o.subjectRef := by
  simp [report]

-- A report that is not empty comes from a view and its candidates.
structure Reported (actor : String) (graph : IntentGraph) (records : List EvidenceRecord) (ingestions : List EvidenceIngestion)
    (existingCases : List ReconciliationCase) (reasoner : Option AssuranceReasoner) (v : View) (found more xs : List DriftObservation) :
    Prop where
  shows : Shows actor graph records ingestions v
  candidates : candidates v = .ok found
  reasoned : reasoned actor graph records ingestions existingCases reasoner v = .ok more
  report : xs = report existingCases (found ++ more)

def Numbered (records : List EvidenceRecord) (ingestions : List EvidenceIngestion) : Prop :=
  (records.map EvidenceRecord.id).Nodup ∧ (ingestions.map fun item => (item.connectorId,item.sequence)).Nodup

theorem detect_ok (ran : detect actor graph records ingestions existingCases reasoner = .ok xs) :
    (¬Numbered records ingestions ∧ xs = []) ∨ Numbered records ingestions ∧
      ∃ v found more, Reported actor graph records ingestions existingCases reasoner v found more xs := by
  unfold detect at ran
  split at ran
  · rename_i repeated
    cases ran
    rw [←not_and_or] at repeated
    exact .inl ⟨repeated,rfl⟩
  · rename_i numbered
    rw [←not_and_or,not_not] at numbered
    refine .inr ⟨numbered,?_⟩
    obtain ⟨v,shown,ran⟩ := except_bind_ok ran
    obtain ⟨found,first,ran⟩ := except_bind_ok ran
    obtain ⟨more,second,rfl⟩ := except_map_ok ran
    exact ⟨v,found,more,view_shows (except_mapError_ok shown),except_mapError_ok first,second,rfl⟩

end Reports

section Survey

theorem survey_time : DateTime.Valid 2026 3 4 12 0 0 0 (some 0) := by decide
def surveyed : DateTime := ⟨2026,3,4,12,0,0,0,some 0,survey_time⟩

theorem nothing_formed : (Json.obj []).WellFormed := by decide

-- A note that anyone may read, and a file that only bob may.
def wish : EvidenceRecord :=
  ⟨"evidence:wish","markdown","wish.md","1",some "carol",surveyed,"wish.md","sha256:1",⟨[],nothing_formed⟩,none,[]⟩
def code : EvidenceRecord :=
  ⟨"evidence:code","git","main.py","1",some "dan",surveyed,"main.py","sha256:2",⟨[],nothing_formed⟩,none,["bob"]⟩

theorem markdown_known : connectorText "markdown" = true := by decide
theorem git_known : connectorText "git" = true := by decide
theorem first_one : 1 ≤ 1 := Nat.le_refl 1

def wishItem : EvidenceIngestion := ⟨"markdown",1,none,wish,markdown_known,first_one⟩

def surveyItems : List EvidenceIngestion := [wishItem,⟨"git",1,none,code,git_known,first_one⟩]

def wished : Node :=
  ⟨"need:1","NEED","read later","active","ada",surveyed,"ada",surveyed,some .inferred,some certain,some "the note",some surveyed,none,
    ["evidence:wish"]⟩
def coded : Node :=
  ⟨"module:1","MODULE","main","active","ada",surveyed,"ada",surveyed,some .explicit,some certain,some "the file",some surveyed,none,
    ["evidence:code"]⟩

def surveyDraft : GraphDraft := ⟨"graph:survey",0,"0.1.0",none,none,none,none,[wished,coded],[],TypeRegistry.empty⟩

theorem survey_sound : surveyDraft.assertInvariants = true := by decide +kernel
def surveyGraph : IntentGraph := ⟨surveyDraft,survey_sound⟩

theorem wish_referenced : namedAll ["evidence:wish"] = true := by decide
theorem wish_authored : namedAll ["carol"] = true := by decide
def wishSide : EvidenceSide := ⟨"NEED","read later",["evidence:wish"],surveyed,["carol"],certain,.inferred,true,wish_referenced,wish_authored⟩

theorem ada_view : view "ada" surveyGraph [wish,code] surveyItems = .ok ⟨[⟨wished,wishSide⟩],[]⟩ := by rfl

theorem code_referenced : namedAll ["evidence:code"] = true := by decide
theorem code_authored : namedAll ["dan"] = true := by decide
def codeSide : EvidenceSide := ⟨"MODULE","main",["evidence:code"],surveyed,["dan"],certain,.explicit,true,code_referenced,code_authored⟩

theorem bob_view : view "bob" surveyGraph [wish,code] surveyItems = .ok ⟨[⟨wished,wishSide⟩,⟨coded,codeSide⟩],[]⟩ := by rfl

def wishFinding : DriftObservation := observation ⟨wished,wishSide⟩ .intentLag "intent_without_requirement" []

theorem ada_candidates : candidates ⟨[⟨wished,wishSide⟩],[]⟩ = .ok [wishFinding] := by rfl
theorem bob_candidates : ∃ found, candidates ⟨[⟨wished,wishSide⟩,⟨coded,codeSide⟩],[]⟩ = .ok found := ⟨_,rfl⟩

theorem wish_reported : report [] [wishFinding] = [wishFinding] := by
  simp [report,DriftObservation.selectDriftObservations,DriftObservation.setDefault]

theorem survey_numbered : Numbered [wish,code] surveyItems := by
  unfold Numbered
  decide

theorem detect_runs {v : View} {found : List DriftObservation}
    (shown : view actor surveyGraph [wish,code] surveyItems = .ok v) (ran : candidates v = .ok found) :
    detect actor surveyGraph [wish,code] surveyItems [] none = .ok (report [] found) := by
  have numbered := survey_numbered
  unfold detect
  rw [if_neg (by simpa [Numbered,not_or] using numbered),shown]
  simp [Except.mapError,Except.bind,ran,reasoned,Except.map]

end Survey

section Grounds
variable {actor : String} {graph : IntentGraph} {records : List EvidenceRecord} {ingestions : List EvidenceIngestion}
  {existingCases : List ReconciliationCase} {reasoner : Option AssuranceReasoner} {xs : List DriftObservation} {o : DriftObservation}

-- Evidence that the actor may read together with every other version of its object.
def Open (actor : String) (records : List EvidenceRecord) (r : EvidenceRecord) : Prop :=
  r ∈ records ∧ ∀ q ∈ records, sameObject r q = true → evidenceAllowed actor q = true

theorem seen_open {v : View} {s : Seen} {ref : String} (shows : Shows actor graph records ingestions v) (member : s ∈ v.seen)
    (cited : ref ∈ s.side.evidenceRefs) : ∃ r, Open actor records r ∧ r.id = ref := by
  obtain ⟨_,given⟩ := (shows.seen s).mp member
  obtain ⟨sourceMode,confidence,resolved,_,_,_,found,allowed,made⟩ := side_some given
  rw [(sideFrom_some made).2.1,List.mem_insertionSort] at cited
  obtain ⟨members,each⟩ := lookups_mem found
  obtain ⟨r,gave⟩ := each ref cited
  obtain ⟨present,named⟩ := Keyed.latest_key gave
  have inside : r ∈ resolved := (members r).mpr ⟨ref,cited,gave⟩
  exact ⟨r,⟨present,(readable_iff present).mp (List.all_eq_true.mp allowed r inside)⟩,named⟩

-- What a detector says is about its input.
structure About (item : DetectionInput) (o : DriftObservation) : Prop where
  subject : o.subjectRef = item.subjectRef
  affected : ∀ ref ∈ o.affectedRefs, ref ∈ item.affectedRefs
  sides : ∀ side ∈ o.evidenceSides, side ∈ sidesOf item

theorem observation_about {item : DetectionInput} {sides : List (Option EvidenceSide)}
    (inside : ∀ side, some side ∈ sides → side ∈ sidesOf item)
    (made : Detectors.observation item caseType detectorId sides = .ok (some o)) : About item o := by
  unfold Detectors.observation at made
  dsimp only at made
  split at made
  · cases made
    refine ⟨rfl,?_,?_⟩
    · intro ref member
      simpa [Detectors.canonicalAffectedRefs] using member
    · intro side member
      exact inside side (List.reduceOption_mem_iff.mp member)
  · cases made

theorem after_about {item : DetectionInput} {known : Except DetectionError EvidenceOrder}
    {next : Except DetectionError (Option DriftObservation)} (rest : next = .ok (some o) → About item o)
    (made : Detectors.whenAfter known next = .ok (some o)) : About item o := by
  unfold Detectors.whenAfter at made
  obtain ⟨order,_,made⟩ := except_bind_ok made
  split at made
  · exact rest made
  · cases made

theorem sidesOf_mem {item : DetectionInput} {side : EvidenceSide} : side ∈ sidesOf item ↔
    item.requirement = some side ∨ item.implementation = some side ∨ item.test = some side ∨ item.decision = some side := by
  simp [sidesOf,List.reduceOption_mem_iff,eq_comm]

theorem ranked_sides {item : DetectionInput} {side : EvidenceSide}
    (member : side ∈ [item.requirement,item.decision,item.implementation,item.test].reduceOption) : side ∈ sidesOf item := by
  have listed := List.reduceOption_mem_iff.mp member
  simp only [List.mem_cons,List.not_mem_nil,or_false] at listed
  rw [sidesOf_mem]
  rcases listed with one | two | three | four
  · exact .inl one.symm
  · exact .inr (.inr (.inr two.symm))
  · exact .inr (.inl three.symm)
  · exact .inr (.inr (.inl four.symm))

theorem detector_about {item : DetectionInput} {detector : DetectionInput → Except DetectionError (Option DriftObservation)}
    (listed : detector ∈ Detectors.detectors) (made : detector item = .ok (some o)) : About item o := by
  simp only [Detectors.detectors,List.mem_cons,List.not_mem_nil,or_false] at listed
  rcases listed with rfl | rfl | rfl | rfl | rfl | rfl
  · unfold Detectors.detectConflictingSources at made
    dsimp only at made
    split at made
    · cases made
    · refine observation_about ?_ made
      intro side member
      obtain ⟨given,inside,same⟩ := List.mem_map.mp member
      cases same
      exact ranked_sides (List.mem_filter.mp inside).1
  · unfold Detectors.detectRequirementLag at made
    split at made
    · rename_i requirement implementation test decision one two three four
      split at made
      · cases made
      · refine after_about (after_about (after_about (observation_about ?_))) made
        intro side member
        simp only [List.mem_cons,Option.some.injEq,List.not_mem_nil,or_false] at member
        rw [sidesOf_mem]
        rcases member with rfl | rfl | rfl | rfl
        · exact .inl one
        · exact .inr (.inr (.inr four))
        · exact .inr (.inl two)
        · exact .inr (.inr (.inl three))
    · cases made
  · unfold Detectors.detectCodeLag at made
    split at made
    · rename_i requirement implementation one two
      split at made
      · cases made
      · refine after_about (observation_about ?_) made
        intro side member
        simp only [List.mem_cons,Option.some.injEq,List.not_mem_nil,or_false] at member
        rw [sidesOf_mem]
        rcases member with rfl | rfl | three
        · exact .inl one
        · exact .inr (.inl two)
        · exact .inr (.inr (.inl three.symm))
    · cases made
  · unfold Detectors.detectTestLag at made
    split at made
    · rename_i requirement implementation test one two three
      split at made
      · cases made
      · refine after_about (observation_about ?_) made
        intro side member
        simp only [List.mem_cons,Option.some.injEq,List.not_mem_nil,or_false] at member
        rw [sidesOf_mem]
        rcases member with rfl | rfl | rfl
        · exact .inl one
        · exact .inr (.inl two)
        · exact .inr (.inr (.inl three))
    · cases made
  · unfold Detectors.detectUndocumentedCode at made
    split at made
    · cases made
    · refine observation_about ?_ made
      intro side member
      rw [sidesOf_mem]
      exact .inr (.inl (List.mem_singleton.mp member).symm)
  · unfold Detectors.detectAmbiguousDivergence at made
    dsimp only at made
    split at made
    · cases made
    · refine observation_about ?_ made
      intro side member
      obtain ⟨given,inside,same⟩ := List.mem_map.mp member
      cases same
      exact ranked_sides inside

theorem drift_about {item : DetectionInput} {found : List DriftObservation} (ran : Detectors.detectDrift item = .ok found)
    (inside : o ∈ found) : About item o := by
  unfold Detectors.detectDrift at ran
  obtain ⟨made,outcomes,rfl⟩ := except_map_ok ran
  have sorted := (List.mergeSort_perm _ _).mem_iff.mp inside
  have member := List.reduceOption_mem_iff.mp ((defaults_mem sorted).resolve_left List.not_mem_nil)
  obtain ⟨detector,listed,gave⟩ := (runs_mem outcomes).mp member
  exact detector_about listed gave

-- What any observation of a report is about: nodes that the actor sees, and
-- sides with the evidence of such nodes.
structure Grounded (v : View) (o : DriftObservation) : Prop where
  named : ∀ id, id = o.subjectRef ∨ id ∈ o.affectedRefs → v.sees id = true
  sides : ∀ side ∈ o.evidenceSides, ∃ s ∈ v.seen, s.side.evidenceRefs = side.evidenceRefs

theorem observed_grounded {v : View} (observed : Observed v o) : Grounded v o := by
  obtain ⟨s,caseType,detectorId,others,member,within,rfl⟩ := observed
  have seen : ∀ q ∈ s :: others, q ∈ v.seen := by
    intro q inside
    rcases List.mem_cons.mp inside with rfl | other
    · exact member
    · exact within q other
  have shown (q : Seen) (inside : q ∈ s :: others) : v.sees q.id = true := Keyed.find_isSome.mpr (List.mem_map_of_mem (seen q inside))
  constructor
  · intro id named
    rcases named with rfl | affected
    · exact shown s List.mem_cons_self
    · have listed : id ∈ (s :: others).map Seen.id := by simpa [observation,affectedRefs] using affected
      obtain ⟨q,inside,rfl⟩ := List.mem_map.mp listed
      exact shown q inside
  · intro side inside
    obtain ⟨q,listed,rfl⟩ := List.mem_map.mp (show side ∈ (s :: others).map Seen.side from inside)
    exact ⟨q,seen q listed,rfl⟩

theorem reasoning_grounded {v : View} {item : DetectionInput} (grounded : groundedReasoning v item = true) (about : About item o) :
    Grounded v o := by
  simp only [groundedReasoning,Bool.and_eq_true,List.all_eq_true,List.contains_iff_mem] at grounded
  obtain ⟨⟨⟨⟨subject,affected⟩,_⟩,_⟩,sides⟩ := grounded
  have shown (id : String) (inside : id ∈ (groundedNodes v).map Seen.id) : v.sees id = true := by
    obtain ⟨s,member,rfl⟩ := List.mem_map.mp inside
    exact Keyed.find_isSome.mpr (List.mem_map_of_mem (List.mem_filter.mp member).1)
  constructor
  · intro id named
    rcases named with rfl | listed
    · rw [about.subject]
      exact shown _ subject
    · exact shown id (affected id (about.affected id listed))
  · intro side inside
    obtain ⟨held,_⟩ := sides side (about.sides side inside)
    obtain ⟨s,member,same⟩ := List.any_eq_true.mp held
    simp only [EvidenceSide.equal,Bool.and_eq_true,beq_iff_eq] at same
    exact ⟨s,(List.mem_filter.mp member).1,same.1.1.1.1.1.2⟩

theorem reasoned_grounded {v : View} {more : List DriftObservation}
    (ran : reasoned actor graph records ingestions existingCases reasoner v = .ok more) (inside : o ∈ more) : Grounded v o := by
  unfold reasoned at ran
  split at ran
  · cases ran
    cases inside
  · split at ran
    · cases ran
    · split at ran
      · cases ran
      · obtain ⟨item,_,found,drift,member⟩ := (gathered_mem ran).mp inside
        split at drift
        · rename_i grounded
          exact reasoning_grounded grounded (drift_about (except_mapError_ok drift) member)
        · cases drift

-- Whatever the reasoner answers: a report has one observation for a subject that
-- no case is about, it names active nodes only, and all evidence of what it names
-- and cites can be read by the actor, in every version.
theorem report_readable (ran : detect actor graph records ingestions existingCases reasoner = .ok xs) :
    (xs.map DriftObservation.subjectRef).Nodup ∧ ∀ o ∈ xs,
      (∀ case ∈ existingCases, case.fingerprint ≠ o.fingerprint ∧ case.subjectRef ≠ o.subjectRef) ∧
      (∀ id, id = o.subjectRef ∨ id ∈ o.affectedRefs →
        ∃ n ∈ allNodes graph, n.id = id ∧ ∀ ref ∈ n.evidenceRefs, ∃ r, Open actor records r ∧ r.id = ref) ∧
      ∀ side ∈ o.evidenceSides, ∀ ref ∈ side.evidenceRefs, ∃ r, Open actor records r ∧ r.id = ref := by
  rcases detect_ok ran with ⟨_,rfl⟩ | ⟨_,v,found,more,shows,candidates,reasoned,rfl⟩
  · exact ⟨List.nodup_nil,by simp⟩
  refine ⟨(selected_once _).sublist (List.filter_sublist.map _),?_⟩
  intro o inside
  obtain ⟨selected,fresh,apart⟩ := report_mem.mp inside
  have grounded : Grounded v o := by
    rcases List.mem_append.mp (selected_mem selected) with first | second
    · exact observed_grounded (candidates_observed candidates first)
    · exact reasoned_grounded reasoned second
  refine ⟨fun case member => ⟨fresh case member,apart case member⟩,?_,?_⟩
  · intro id named
    obtain ⟨s,shown⟩ := Option.isSome_iff_exists.mp (grounded.named id named)
    obtain ⟨member,here⟩ := shows.find.mp shown
    obtain ⟨active,given⟩ := (shows.seen s).mp member
    refine ⟨s.node,active,here,?_⟩
    intro ref cited
    apply seen_open shows member
    obtain ⟨_,_,_,_,_,_,_,_,made⟩ := side_some given
    rw [(sideFrom_some made).2.1]
    exact (List.mem_insertionSort _).mpr cited
  · intro side listed ref cited
    obtain ⟨s,member,same⟩ := grounded.sides side listed
    exact seen_open shows member (same ▸ cited)

end Grounds

theorem survey_readable : ∃ xs, detect "ada" surveyGraph [wish,code] surveyItems [] none = .ok xs ∧ xs ≠ [] ∧
    ∀ o ∈ xs, ∀ side ∈ o.evidenceSides, ∀ ref ∈ side.evidenceRefs, ∃ r, Open "ada" [wish,code] r ∧ r.id = ref := by
  have ran := detect_runs ada_view ada_candidates
  refine ⟨_,ran,?_,fun o member => ((report_readable ran).2 o member).2.2⟩
  rw [wish_reported]
  exact List.cons_ne_nil _ _

end Assurance
