import IntentEngineering.Context.Provider

open Keyed

namespace Workspace

section
variable (w : Workspace) (audience : Audience)

-- Every reference has a record that the audience reads.
def sees (references : List String) : Bool := ContextProvider.refsAllowed w none audience references

def shownRecord (id : String) : Bool := (latest EvidenceRecord.id w.evidence id).any audience.reads

def shownCase (id : String) : Bool := (latest ReconciliationCase.id w.cases id).any fun case => sees w audience case.allEvidenceRefs

-- A node of the graph that the audience does not see.
def hidden (id : String) : Bool := w.graph.1.nodes.any fun n => n.id == id && !sees w audience n.evidenceRefs

def visibleDraft : GraphDraft :=
  { w.graph.1 with
    nodes := w.graph.1.nodes.filter fun n => sees w audience n.evidenceRefs
    edges := w.graph.1.edges.filter fun e => !hidden w audience e.fromId && !hidden w audience e.toId }

theorem kept_node {id : String} (there : id ∈ w.graph.1.nodeIds) (shown : hidden w audience id = false) :
    id ∈ (visibleDraft w audience).nodeIds := by
  obtain ⟨n,member,rfl⟩ := List.mem_map.mp there
  have seen : sees w audience n.evidenceRefs = true := by
    by_contra unseen
    have concealed : hidden w audience n.id = true := List.any_eq_true.mpr ⟨n,member,by simp [unseen]⟩
    rw [concealed] at shown
    cases shown
  exact List.mem_map_of_mem (List.mem_filter.mpr ⟨member,seen⟩)

-- What is left of a graph is a graph.
theorem visible_invariants : (visibleDraft w audience).assertInvariants = true := by
  have valid := w.graph.2
  simp only [GraphDraft.assertInvariants,Bool.and_eq_true,decide_eq_true_eq,List.all_eq_true] at valid ⊢
  obtain ⟨⟨⟨nodesDistinct,edgesDistinct⟩,nodesFit⟩,edgesFit⟩ := valid
  refine ⟨⟨⟨?_,?_⟩,?_⟩,?_⟩
  · exact nodesDistinct.sublist (List.filter_sublist.map Node.id)
  · exact edgesDistinct.sublist (List.filter_sublist.map Edge.id)
  · intro n member
    exact nodesFit n (List.mem_filter.mp member).1
  · intro e member
    obtain ⟨there,shown⟩ := List.mem_filter.mp member
    simp only [Bool.and_eq_true,Bool.not_eq_true'] at shown
    obtain ⟨origin,reaches⟩ := edgesFit e there
    refine ⟨by simpa using kept_node w audience (by simpa using origin) shown.1,?_⟩
    simp only [Bool.or_eq_true] at reaches ⊢
    rcases reaches with external | target
    · exact .inl external
    · exact .inr (by simpa using kept_node w audience (by simpa using target) shown.2)

-- The workspace without what rests on evidence that the audience does not read,
-- and without the edges of the nodes that go.
def visibleTo : Workspace where
  graph := ⟨visibleDraft w audience,visible_invariants w audience⟩
  cases := w.cases.filter fun case => shownCase w audience case.id
  evidence := w.evidence.filter fun record => shownRecord w audience record.id

end

section Projections
variable {w : Workspace} {audience : Audience} {repositoryScope : Option String}

theorem visible_record (reference : String) : ContextProvider.record (w.visibleTo audience) reference =
    if shownRecord w audience reference then ContextProvider.record w reference else none :=
  latest_filter (shownRecord w audience) w.evidence reference

theorem allowed_read {record : EvidenceRecord} (allowed : ContextProvider.evidenceAllowed repositoryScope audience record = true) :
    audience.reads record = true := by
  rw [ContextProvider.evidenceAllowed,Bool.and_eq_true] at allowed
  exact allowed.1

-- A scope only narrows what the audience reads.
theorem allowed_sees {references : List String} (allowed : ContextProvider.refsAllowed w repositoryScope audience references = true) :
    sees w audience references = true := by
  simp only [sees,ContextProvider.refsAllowed,List.all_eq_true,Option.any_eq_true] at allowed ⊢
  intro reference member
  obtain ⟨record,found,reads⟩ := allowed reference member
  refine ⟨record,found,?_⟩
  simp [ContextProvider.evidenceAllowed,allowed_read reads]

theorem visible_refs (references : List String) :
    ContextProvider.refsAllowed (w.visibleTo audience) repositoryScope audience references =
      ContextProvider.refsAllowed w repositoryScope audience references := by
  refine List.all_congr rfl fun reference => ?_
  rw [visible_record]
  split
  · rfl
  · rename_i unread
    cases found : ContextProvider.record w reference with
    | none => rfl
    | some record =>
      have concealed : audience.reads record = false := by
        rw [shownRecord] at unread
        unfold ContextProvider.record at found
        rw [found] at unread
        simpa using unread
      simp [ContextProvider.evidenceAllowed,concealed]

theorem visible_active : ContextProvider.activeNodes (w.visibleTo audience) repositoryScope audience =
    ContextProvider.activeNodes w repositoryScope audience := by
  simp only [ContextProvider.activeNodes,visible_refs]
  change List.filter _ (List.filter _ w.graph.1.nodes) = _
  rw [List.filter_filter]
  apply List.filter_congr
  intro n _
  cases allowed : ContextProvider.refsAllowed w repositoryScope audience n.evidenceRefs with
  | false => simp
  | true => simp [allowed_sees allowed]

-- An active node is not hidden: the nodes of a graph have distinct identifiers.
theorem active_shown {id : String} (active : ContextProvider.isActive (ContextProvider.activeNodes w repositoryScope audience) id = true) :
    hidden w audience id = false := by
  simp only [ContextProvider.isActive,List.contains_iff_mem,List.mem_map] at active
  obtain ⟨n,member,rfl⟩ := active
  obtain ⟨there,allowed⟩ := List.mem_filter.mp member
  rw [Bool.and_eq_true] at allowed
  by_contra concealed
  obtain ⟨other,inside,unseen⟩ := List.any_eq_true.mp (Bool.eq_true_of_not_eq_false concealed)
  simp only [Bool.and_eq_true,beq_iff_eq,Bool.not_eq_true'] at unseen
  have same : other = n := List.inj_on_of_nodup_map w.graph.nodes_distinct inside there unseen.1
  subst same
  rw [allowed_sees allowed.2] at unseen
  cases unseen.2

theorem visible_edges (active : List Node)
    (shown : ∀ id, ContextProvider.isActive active id = true → hidden w audience id = false) :
    ContextProvider.activeEdges active (w.visibleTo audience).graph.1.edges =
      ContextProvider.activeEdges active w.graph.1.edges := by
  change List.filter _ (List.filter _ w.graph.1.edges) = _
  rw [List.filter_filter]
  apply List.filter_congr
  intro e _
  cases ends : ContextProvider.isActive active e.fromId && ContextProvider.isActive active e.toId with
  | false => simp
  | true =>
    rw [Bool.and_eq_true] at ends
    simp [shown _ ends.1,shown _ ends.2]

theorem visible_latest (id : String) : latest ReconciliationCase.id (w.visibleTo audience).cases id =
    if shownCase w audience id then latest ReconciliationCase.id w.cases id else none :=
  latest_filter (shownCase w audience) w.cases id

-- What keeps its place among the sorted names when others go.
theorem ordered_filter (keep : String → Bool) (names : List String) :
    (names.filter keep).dedup.insertionSort (· ≤ ·) = (names.dedup.insertionSort (· ≤ ·)).filter keep := by
  have distinct : (names.dedup.insertionSort (· ≤ ·)).Nodup := (List.perm_insertionSort _ _).nodup_iff.mpr (List.nodup_dedup _)
  have same : ((names.filter keep).dedup.insertionSort (· ≤ ·)).Perm ((names.dedup.insertionSort (· ≤ ·)).filter keep) := by
    refine (List.perm_insertionSort _ _).trans ((List.perm_ext_iff_of_nodup (List.nodup_dedup _) (distinct.filter _)).mpr fun name => ?_)
    simp only [List.mem_dedup,List.mem_filter,List.mem_insertionSort]
  exact same.eq_of_pairwise' (List.pairwise_insertionSort _ _) ((List.pairwise_insertionSort _ _).filter _)

theorem visible_ids : (w.visibleTo audience).cases.map ReconciliationCase.id =
    (w.cases.map ReconciliationCase.id).filter (shownCase w audience) := by
  rw [List.filter_map]
  rfl

-- The cases that pass are the last ones under their identifiers.
theorem passed_cases (passes : ReconciliationCase → Bool)
    (seen : ∀ case, passes case = true → sees w audience case.allEvidenceRefs = true) (ids : List String) :
    ((ids.filter (shownCase w audience)).filterMap (latest ReconciliationCase.id (w.visibleTo audience).cases)).filter passes =
      (ids.filterMap (latest ReconciliationCase.id w.cases)).filter passes := by
  induction ids with
  | nil => rfl
  | cons id rest ih =>
    cases shown : shownCase w audience id with
    | true =>
      have found := @visible_latest w audience id
      rw [shown,if_pos rfl] at found
      rw [List.filter_cons_of_pos shown,List.filterMap_cons,List.filterMap_cons,found]
      cases latest ReconciliationCase.id w.cases id with
      | none => exact ih
      | some case =>
        simp only [List.filter_cons]
        split
        · rw [ih]
        · exact ih
    | false =>
      rw [List.filter_cons_of_neg (by simp [shown]),ih,List.filterMap_cons]
      cases found : latest ReconciliationCase.id w.cases id with
      | none => rfl
      | some case =>
        have fails : ¬passes case = true := by
          intro passed
          have visible : shownCase w audience id = true := by simp [shownCase,found,seen case passed]
          rw [visible] at shown
          cases shown
        exact (List.filter_cons_of_neg fails).symm

theorem visible_cases (selected : List String) : ContextProvider.selectedCases (w.visibleTo audience) repositoryScope audience selected =
    ContextProvider.selectedCases w repositoryScope audience selected := by
  simp only [ContextProvider.selectedCases,visible_refs,ContextProvider.latestCases,visible_ids,ordered_filter]
  apply passed_cases
  intro case passes
  rw [Bool.and_eq_true] at passes
  exact allowed_sees passes.2

theorem visible_build (alphabet : Alphabet) (limits : ContextLimits) (query : String) (seed : Option String) (seeds : Option (List String))
    (fixedCaps : Bool) :
    ContextProvider.build alphabet limits (w.visibleTo audience) ⟨query,repositoryScope,audience,seed,seeds,fixedCaps⟩ =
      ContextProvider.build alphabet limits w ⟨query,repositoryScope,audience,seed,seeds,fixedCaps⟩ := by
  have edges := @visible_edges w audience (ContextProvider.activeNodes w repositoryScope audience) fun _ active => active_shown active
  have cases' : ContextProvider.selectedCases (w.visibleTo audience) repositoryScope audience =
      ContextProvider.selectedCases w repositoryScope audience := funext visible_cases
  simp only [ContextProvider.build,visible_active,edges,cases']

end Projections

-- Every question is answered as over the workspace that the audience sees.
theorem answer_visible (alphabet : Alphabet) (limits : ContextLimits) (question : ContextProvider.Question) (audience : Audience)
    (w : Workspace) :
    ContextProvider.answer alphabet limits w question audience =
        ContextProvider.answer alphabet limits (w.visibleTo audience) question audience ∧
      ∀ other : Workspace, w.visibleTo audience = other.visibleTo audience →
        ContextProvider.answer alphabet limits w question audience = ContextProvider.answer alphabet limits other question audience := by
  have shown (w : Workspace) : ContextProvider.answer alphabet limits (w.visibleTo audience) question audience =
      ContextProvider.answer alphabet limits w question audience := by
    cases question with
    | task task repositoryScope => simp only [ContextProvider.answer,ContextProvider.forTask,visible_build]
    | symbol symbolRef => simp only [ContextProvider.answer,ContextProvider.forSymbol,visible_build]
    | refs nodeIds =>
      cases audience with
      | anyone => simp only [ContextProvider.answer,ContextProvider.forRefs,ContextProvider.refPrincipals,Option.bind_none]
      | actor name => simp only [ContextProvider.answer,ContextProvider.forRefs,ContextProvider.refPrincipals,Option.bind_some,visible_build]
      | principals names =>
        simp only [ContextProvider.answer,ContextProvider.forRefs,ContextProvider.refPrincipals]
        by_cases invalid : names = [] ∨ "" ∈ names
        · simp only [if_pos invalid,Option.bind_none]
        · simp only [if_neg invalid,Option.bind_some,visible_build]
  refine ⟨(shown w).symm,?_⟩
  intro other same
  rw [←shown w,same,shown other]

section Sample

def emptyGraph : IntentGraph := ⟨⟨"graph:empty",0,"0.1.0",none,none,none,none,[],[],TypeRegistry.empty⟩,rfl⟩

theorem meeting_day_valid : DateTime.Valid 2026 1 7 9 0 0 0 (some 0) := by decide

theorem minutes_formed : (Json.obj []).WellFormed := ⟨.nil,trivial⟩

def minutes : EvidenceRecord :=
  ⟨"evidence:minutes","markdown","minutes.md","1",some "bob",⟨2026,1,7,9,0,0,0,some 0,meeting_day_valid⟩,"minutes.md","sha256:minutes",
    ⟨[],minutes_formed⟩,none,["bob"]⟩

def ascii : Alphabet := ⟨fun s => String.ofList (s.toList.map Char.toLower),fun c => c.isAlphanum || c == '_'⟩

-- Minutes that only bob reads.
theorem minutes_unseen :
    ContextProvider.answer ascii .defaults ⟨emptyGraph,[],[]⟩ (.task "tidy the imports" none) (.actor "alice") =
      ContextProvider.answer ascii .defaults ⟨emptyGraph,[],[minutes]⟩ (.task "tidy the imports" none) (.actor "alice") :=
  (answer_visible ascii .defaults (.task "tidy the imports" none) (.actor "alice") ⟨emptyGraph,[],[]⟩).2 ⟨emptyGraph,[],[minutes]⟩ rfl

end Sample

end Workspace
