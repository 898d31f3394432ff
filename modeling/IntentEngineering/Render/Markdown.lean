import IntentEngineering.Context.Provider
import IntentEngineering.Library.CharText
import IntentEngineering.Library.LineLayout
import IntentEngineering.Models.Graph
import IntentEngineering.Reconcile.Transitions

open LineText PyText LineLayout CharText

-- The Markdown view of a graph and its open cases.
namespace MarkdownView

variable (table : Categories)

def semanticGroups : List (String × List String) :=
  [("Intent",["CONTEXT","NEED","PRODUCT_INTENT","DESIRED_OUTCOME"]),
    ("Requirements",["REQUIREMENT","CAPABILITY"]),
    ("Decisions",["DECISION","ARCHITECTURE","INTERFACE","DATA_CONTRACT"]),
    ("Constraints",["CONSTRAINT","POLICY"]),
    ("Acceptance criteria",["ACCEPTANCE_CRITERION"]),
    ("Code references",["REPOSITORY","MODULE","FILE","SYMBOL","ENDPOINT","SCHEMA"]),
    ("Test references",["TEST"])]

-- The characters of the literal in `_escape_markdown`.
def marked (c : Char) : Bool := decide (c ∈ ['\\',backtick,'*','_','\x7b','\x7d','[',']','<','>','#','|','"'])

def escapeMarkdown (value : String) : List Char := backslashed marked (table.flatten value.toList)

def nodeLines (node : Node) : List Layout :=
  [.text ['-',' '],.code (escapeMarkdown table node.id),.text [' ','—',' '],.text (escapeMarkdown table node.label)] ::
    if node.evidenceRefs = [] then []
    else [.text "  - Evidence: ".toList :: codes ((node.evidenceRefs.insertionSort (· ≤ ·)).map (escapeMarkdown table))]

def selectedNodes (types : List String) (nodes : List Node) : List Node := Keyed.inOrder Node.id (nodes.filter fun node => types.contains node.type)

def renderNodeGroup (group : String × List String) (nodes : List Node) : List Layout :=
  match selectedNodes group.2 nodes with
  | [] => []
  | selected => [.text ('#' :: '#' :: ' ' :: group.1.toList)] :: selected.flatMap (nodeLines table)

def caseLines (case : ReconciliationCase) : List Layout :=
  [[.text ['-',' '],.code (escapeMarkdown table case.id),.text [' ','—',' '],.text (escapeMarkdown table case.caseType.spelling),
      .text [':',' '],.text (escapeMarkdown table case.subjectRef)],
    .text "  - Evidence: ".toList :: codes (case.allEvidenceRefs.map (escapeMarkdown table))]

def openCases (cases : List ReconciliationCase) : List ReconciliationCase :=
  Keyed.inOrder ReconciliationCase.id (cases.filter fun case => ContextProvider.isNonterminal case.status)

def renderCases (cases : List ReconciliationCase) : List Layout :=
  match openCases cases with
  | [] => []
  | selected => [.text "## Open reconciliation cases".toList] :: selected.flatMap (caseLines table)

-- `graph.name or graph.id`
def title (graph : IntentGraph) : String :=
  match graph.1.name with
  | none => graph.1.id
  | some name => if name = "" then graph.1.id else name

def sections (graph : IntentGraph) (cases : List ReconciliationCase) : List (List Layout) :=
  [[.text ['#',' '],.text (escapeMarkdown table (title graph))]] ::
    [[.text (escapeMarkdown table (graph.1.purpose.getD ""))]] ::
    (semanticGroups.map (renderNodeGroup table · graph.1.nodes) ++ [renderCases table cases])

def renderMarkdown (graph : IntentGraph) (cases : List ReconciliationCase) : List Char := document (sections table graph cases)

-- What there is to show: whether there is a purpose, the nodes of each group
-- with or without evidence, and the open cases.
structure Presence where
  purpose : Bool
  groups : List (List Bool)
  cases : Nat

def presence (graph : IntentGraph) (cases : List ReconciliationCase) : Presence where
  purpose := graph.1.purpose.any (· ≠ "")
  groups := semanticGroups.map fun group => (selectedNodes group.2 graph.1.nodes).map fun node => decide (node.evidenceRefs ≠ [])
  cases := (openCases cases).length

def nodeShape (evidence : Bool) : List Opening :=
  .opens ['-',' ',backtick] :: if evidence then [.opens "  - Evidence: ".toList] else []

def groupShape (title : String) (nodes : List Bool) : List Opening :=
  if nodes = [] then [] else .opens ('#' :: '#' :: ' ' :: title.toList) :: nodes.flatMap nodeShape

def casesShape (cases : Nat) : List Opening :=
  if cases = 0 then []
  else .opens "## Open reconciliation cases".toList ::
    (List.replicate cases [.opens ['-',' ',backtick],.opens "  - Evidence: ".toList]).flatten

def shapes (present : Presence) : List (List Opening) :=
  [.opens ['#',' ']] :: (if present.purpose then [.opens []] else []) ::
    (List.zipWith (fun group nodes => groupShape group.1 nodes) semanticGroups present.groups ++ [casesShape present.cases])

section Lines
variable {table : Categories}

theorem escape_plain (value : String) : Plain lineRule (escapeMarkdown table value) := backslashed_plain (flatten_plain _ _)

theorem escape_empty {value : String} : escapeMarkdown table value = [] ↔ value = "" := by
  rw [escapeMarkdown,backslashed_empty,flatten_empty,String.toList_eq_nil_iff]

theorem escape_backtick {value : String} : backtick ∈ escapeMarkdown table value ↔ backtick ∈ value.toList := by
  rw [escapeMarkdown,mem_backslashed (by decide),mem_flatten (by decide) (by decide)]

theorem group_plain : ∀ group ∈ semanticGroups, Plain lineRule ('#' :: '#' :: ' ' :: group.1.toList) := by decide

theorem nodeLines_shaped (node : Node) :
    List.Forall₂ (fun opening (line : Layout) => opening.Fits line.chars) (nodeShape (decide (node.evidenceRefs ≠ []))) (nodeLines table node) := by
  refine .cons ?_ ?_
  · exact List.prefix_iff_eq_append.mpr rfl
  · by_cases cited : node.evidenceRefs = []
    · simp [cited]
    · simp only [cited,ne_eq,not_false_eq_true,decide_true,if_true,if_false]
      exact .cons fits_text .nil

theorem flatMap_fits {xs : List α} {relation : β → γ → Prop} {f : α → List β} {g : α → List γ} (each : ∀ x ∈ xs, List.Forall₂ relation (f x) (g x)) :
    List.Forall₂ relation (xs.flatMap f) (xs.flatMap g) := by
  induction xs with
  | nil => exact .nil
  | cons x xs ih =>
    exact forall₂_append (each x List.mem_cons_self) (ih fun y member => each y (List.mem_cons_of_mem _ member))

theorem group_shaped (group : String × List String) (nodes : List Node) :
    Shaped (groupShape group.1 ((selectedNodes group.2 nodes).map fun node => decide (node.evidenceRefs ≠ [])))
      (renderNodeGroup table group nodes) := by
  unfold renderNodeGroup groupShape
  cases selectedNodes group.2 nodes with
  | nil => exact shaped_nothing
  | cons first rest =>
    rw [if_neg (by simp),List.flatMap_map]
    apply shaped_opened
    · exact fits_text
    · simp
    · exact flatMap_fits fun node _ => nodeLines_shaped node

theorem cases_shaped (cases : List ReconciliationCase) : Shaped (casesShape (openCases cases).length) (renderCases table cases) := by
  have each (selected : List ReconciliationCase) :
      (List.replicate selected.length [Opening.opens ['-',' ',backtick],.opens "  - Evidence: ".toList]).flatten
        = selected.flatMap fun _ => [.opens ['-',' ',backtick],.opens "  - Evidence: ".toList] := by
    rw [List.flatMap_def,List.map_const']
  unfold renderCases casesShape
  cases openCases cases with
  | nil => exact shaped_nothing
  | cons first rest =>
    rw [if_neg (by simp),each]
    apply shaped_opened
    · exact fits_text
    · decide
    · apply flatMap_fits
      intro case _
      exact .cons (List.prefix_iff_eq_append.mpr rfl) (.cons fits_text .nil)

theorem purpose_shaped (purpose : Option String) :
    Shaped (if purpose.any (· ≠ "") then [.opens []] else []) [[.text (escapeMarkdown table (purpose.getD ""))]] := by
  have seen : paragraph [[.text (escapeMarkdown table (purpose.getD ""))]] = escapeMarkdown table (purpose.getD "") := by
    simp [paragraph,join,Layout.chars,Segment.chars]
  constructor
  · rw [seen,escape_empty]
    cases purpose with
    | none => simp
    | some text => by_cases empty : text = "" <;> simp [empty]
  · intro present
    split
    · exact .cons (fits_any _) .nil
    · rename_i absent
      rw [if_neg absent] at present
      exact absurd rfl present

theorem sections_shaped (graph : IntentGraph) (cases : List ReconciliationCase) :
    List.Forall₂ Shaped (shapes (presence graph cases)) (sections table graph cases) := by
  refine .cons ?_ (.cons (purpose_shaped _) (forall₂_append ?_ (.cons (cases_shaped cases) .nil)))
  · exact shaped_opened fits_text (by simp) .nil
  · simp only [presence,List.zipWith_map_right,List.zipWith_self]
    apply List.forall₂_map_left_iff.mpr
    apply List.forall₂_map_right_iff.mpr
    apply List.forall₂_same.mpr
    intro group _
    exact group_shaped group _

-- What stands in the segments of a node's lines, and of a case's.
theorem node_segment {node : Node} {line : Layout} {segment : Segment} (member : line ∈ nodeLines table node) (inside : segment ∈ line) :
    segment = .code (escapeMarkdown table node.id) ∨ (∃ ref ∈ node.evidenceRefs, segment = .code (escapeMarkdown table ref)) ∨
      ∃ shown, segment = .text shown ∧ Plain lineRule shown := by
  rcases List.mem_cons.mp member with rfl | evidence
  · simp only [List.mem_cons,List.not_mem_nil,or_false] at inside
    rcases inside with rfl | rfl | rfl | rfl
    · exact .inr (.inr ⟨_,rfl,by decide⟩)
    · exact .inl rfl
    · exact .inr (.inr ⟨_,rfl,by decide⟩)
    · exact .inr (.inr ⟨_,rfl,escape_plain _⟩)
  · split at evidence
    · cases evidence
    · rw [List.mem_singleton.mp evidence] at inside
      rcases List.mem_cons.mp inside with rfl | span
      · exact .inr (.inr ⟨_,rfl,by decide⟩)
      · rcases mem_codes span with ⟨part,found,rfl⟩ | rfl
        · obtain ⟨ref,cited,rfl⟩ := List.mem_map.mp found
          exact .inr (.inl ⟨ref,(List.perm_insertionSort _ _).mem_iff.mp cited,rfl⟩)
        · exact .inr (.inr ⟨_,rfl,by decide⟩)

theorem case_segment {case : ReconciliationCase} {line : Layout} {segment : Segment} (member : line ∈ caseLines table case) (inside : segment ∈ line) :
    segment = .code (escapeMarkdown table case.id) ∨ (∃ ref ∈ case.allEvidenceRefs, segment = .code (escapeMarkdown table ref)) ∨
      ∃ shown, segment = .text shown ∧ Plain lineRule shown := by
  simp only [caseLines,List.mem_cons,List.not_mem_nil,or_false] at member
  rcases member with rfl | rfl
  · simp only [List.mem_cons,List.not_mem_nil,or_false] at inside
    rcases inside with rfl | rfl | rfl | rfl | rfl | rfl
    · exact .inr (.inr ⟨_,rfl,by decide⟩)
    · exact .inl rfl
    · exact .inr (.inr ⟨_,rfl,by decide⟩)
    · exact .inr (.inr ⟨_,rfl,escape_plain _⟩)
    · exact .inr (.inr ⟨_,rfl,by decide⟩)
    · exact .inr (.inr ⟨_,rfl,escape_plain _⟩)
  · rcases List.mem_cons.mp inside with rfl | span
    · exact .inr (.inr ⟨_,rfl,by decide⟩)
    · rcases mem_codes span with ⟨part,found,rfl⟩ | rfl
      · obtain ⟨ref,cited,rfl⟩ := List.mem_map.mp found
        exact .inr (.inl ⟨ref,cited,rfl⟩)
      · exact .inr (.inr ⟨_,rfl,by decide⟩)

-- A line of the view belongs to a node, to a case or to nothing that is cited.
theorem view_line {graph : IntentGraph} {cases : List ReconciliationCase} {line : Layout}
    (member : section' ∈ sections table graph cases) (inside : line ∈ section') :
    (∃ group ∈ semanticGroups, ∃ node ∈ selectedNodes group.2 graph.1.nodes, line ∈ nodeLines table node) ∨
      (∃ case ∈ openCases cases, line ∈ caseLines table case) ∨ ∀ segment ∈ line, ∃ shown, segment = .text shown ∧ Plain lineRule shown := by
  simp only [sections,List.mem_cons,List.mem_append,List.mem_map,List.not_mem_nil,or_false] at member
  rcases member with rfl | rfl | ⟨group,known,rfl⟩ | rfl
  · rw [List.mem_singleton.mp inside]
    refine .inr (.inr ?_)
    intro segment found
    simp only [List.mem_cons,List.not_mem_nil,or_false] at found
    rcases found with rfl | rfl
    · exact ⟨_,rfl,by decide⟩
    · exact ⟨_,rfl,escape_plain _⟩
  · rw [List.mem_singleton.mp inside]
    refine .inr (.inr ?_)
    intro segment found
    rw [List.mem_singleton.mp found]
    exact ⟨_,rfl,escape_plain _⟩
  · unfold renderNodeGroup at inside
    cases selected : selectedNodes group.2 graph.1.nodes with
    | nil =>
      rw [selected] at inside
      cases inside
    | cons first rest =>
      rw [selected] at inside
      rcases List.mem_cons.mp inside with rfl | later
      · refine .inr (.inr ?_)
        intro segment found
        rw [List.mem_singleton.mp found]
        exact ⟨_,rfl,group_plain group known⟩
      · obtain ⟨node,chosen,held⟩ := List.mem_flatMap.mp later
        exact .inl ⟨group,known,node,selected ▸ chosen,held⟩
  · unfold renderCases at inside
    cases selected : openCases cases with
    | nil =>
      rw [selected] at inside
      cases inside
    | cons first rest =>
      rw [selected] at inside
      rcases List.mem_cons.mp inside with rfl | later
      · refine .inr (.inr ?_)
        intro segment found
        rw [List.mem_singleton.mp found]
        exact ⟨_,rfl,by decide⟩
      · obtain ⟨case,chosen,held⟩ := List.mem_flatMap.mp later
        exact .inr (.inl ⟨case,chosen,held⟩)

theorem sections_unbroken (graph : IntentGraph) (cases : List ReconciliationCase) : Unbroken (sections table graph cases) := by
  intro section' member line inside
  apply layout_plain
  intro segment found
  have spans : (∃ value, segment = .code (escapeMarkdown table value)) ∨ ∃ shown, segment = .text shown ∧ Plain lineRule shown := by
    rcases view_line member inside with ⟨group,_,node,_,held⟩ | ⟨case,_,held⟩ | bare
    · rcases node_segment held found with named | ⟨ref,_,cited⟩ | shown
      · exact .inl ⟨_,named⟩
      · exact .inl ⟨ref,cited⟩
      · exact .inr shown
    · rcases case_segment held found with named | ⟨ref,_,cited⟩ | shown
      · exact .inl ⟨_,named⟩
      · exact .inl ⟨ref,cited⟩
      · exact .inr shown
    · exact .inr (bare segment found)
  rcases spans with ⟨value,rfl⟩ | ⟨shown,rfl,plain⟩
  · exact escape_plain value
  · exact plain

-- The lines of the view are told by what there is to show.
theorem markdown_lines (graph : IntentGraph) (cases : List ReconciliationCase) :
    List.Forall₂ Opening.Fits (skeleton (shapes (presence graph cases)))
      ((lines lineRule (renderMarkdown table graph cases)).map Line.body) := by
  rw [renderMarkdown,document_lines _ (sections_unbroken graph cases)]
  · exact bodies_fit (sections_shaped graph cases)
  · exact ⟨_,List.mem_cons_self,paragraph_first (by simp [Layout.chars,Segment.chars])⟩

end Lines

section Spans
variable {table : Categories}

-- No id and no reference that the view puts between backticks has one itself.
structure NoBackticks (graph : IntentGraph) (cases : List ReconciliationCase) : Prop where
  nodes : ∀ node ∈ graph.1.nodes, (∃ group ∈ semanticGroups, node.type ∈ group.2) →
    backtick ∉ node.id.toList ∧ ∀ ref ∈ node.evidenceRefs, backtick ∉ ref.toList
  cases : ∀ case ∈ cases, ContextProvider.isNonterminal case.status = true →
    backtick ∉ case.id.toList ∧ ∀ side ∈ case.evidenceSides, ∀ ref ∈ side.evidenceRefs, backtick ∉ ref.toList

theorem mem_selected {node : Node} : node ∈ selectedNodes types nodes ↔ node ∈ nodes ∧ node.type ∈ types := by
  simp [selectedNodes,Keyed.inOrder_member]

theorem mem_open {case : ReconciliationCase} : case ∈ openCases cases ↔ case ∈ cases ∧ ContextProvider.isNonterminal case.status = true := by
  simp [openCases,Keyed.inOrder_member]

theorem mem_allEvidenceRefs {case : ReconciliationCase} : ref ∈ case.allEvidenceRefs ↔ ∃ side ∈ case.evidenceSides, ref ∈ side.evidenceRefs := by
  simp [ReconciliationCase.allEvidenceRefs,(List.perm_insertionSort _ _).mem_iff]

theorem view_node {graph : IntentGraph} {cases : List ReconciliationCase} {line : Layout} (known : group ∈ semanticGroups)
    (chosen : node ∈ selectedNodes group.2 graph.1.nodes) (held : line ∈ nodeLines table node) :
    ∃ section' ∈ sections table graph cases, line ∈ section' := by
  refine ⟨renderNodeGroup table group graph.1.nodes,?_,?_⟩
  · simp only [sections,List.mem_cons,List.mem_append,List.mem_map]
    exact .inr (.inr (.inl ⟨group,known,rfl⟩))
  · unfold renderNodeGroup
    cases selected : selectedNodes group.2 graph.1.nodes with
    | nil =>
      rw [selected] at chosen
      cases chosen
    | cons first rest =>
      apply List.mem_cons_of_mem
      exact List.mem_flatMap.mpr ⟨node,selected ▸ chosen,held⟩

theorem view_case {graph : IntentGraph} {cases : List ReconciliationCase} {line : Layout} (chosen : case ∈ openCases cases)
    (held : line ∈ caseLines table case) : ∃ section' ∈ sections table graph cases, line ∈ section' := by
  refine ⟨renderCases table cases,?_,?_⟩
  · simp only [sections,List.mem_cons,List.mem_append]
    exact .inr (.inr (.inr (.inl trivial)))
  · unfold renderCases
    cases selected : openCases cases with
    | nil =>
      rw [selected] at chosen
      cases chosen
    | cons first rest =>
      apply List.mem_cons_of_mem
      exact List.mem_flatMap.mpr ⟨case,selected ▸ chosen,held⟩

-- The code spans of the view are closed by their own backticks exactly then.
theorem markdown_closed (graph : IntentGraph) (cases : List ReconciliationCase) :
    AllClosed (sections table graph cases) ↔ NoBackticks graph cases := by
  constructor
  · intro closed
    constructor
    · rintro node member ⟨group,known,typed⟩
      have chosen := mem_selected.mpr ⟨member,typed⟩
      have shut (line : Layout) (held : line ∈ nodeLines table node) : ∀ segment ∈ line, segment.Closed := by
        obtain ⟨section',inside,found⟩ := view_node known chosen held
        exact closed section' inside line found
      constructor
      · have named := shut _ List.mem_cons_self (.code (escapeMarkdown table node.id)) (by simp)
        exact fun tick => named (escape_backtick.mpr tick)
      · intro ref cited
        have present : node.evidenceRefs ≠ [] := List.ne_nil_of_mem cited
        have listed : .code (escapeMarkdown table ref) ∈ codes ((node.evidenceRefs.insertionSort (· ≤ ·)).map (escapeMarkdown table)) :=
          code_codes (List.mem_map_of_mem ((List.perm_insertionSort _ _).mem_iff.mpr cited))
        have span := shut (.text "  - Evidence: ".toList :: codes _) (by simp [nodeLines,present]) _ (List.mem_cons_of_mem _ listed)
        exact fun tick => span (escape_backtick.mpr tick)
    · intro case member live
      have chosen := mem_open.mpr ⟨member,live⟩
      have shut (line : Layout) (held : line ∈ caseLines table case) : ∀ segment ∈ line, segment.Closed := by
        have viewed : ∃ section' ∈ sections table graph cases, line ∈ section' := view_case chosen held
        obtain ⟨section',inside,found⟩ := viewed
        exact closed section' inside line found
      constructor
      · have named := shut _ List.mem_cons_self (.code (escapeMarkdown table case.id)) (by simp)
        exact fun tick => named (escape_backtick.mpr tick)
      · intro side present ref cited
        have listed : .code (escapeMarkdown table ref) ∈ codes (case.allEvidenceRefs.map (escapeMarkdown table)) :=
          code_codes (List.mem_map_of_mem (mem_allEvidenceRefs.mpr ⟨side,present,cited⟩))
        have span := shut (.text "  - Evidence: ".toList :: codes _) (by simp [caseLines]) _ (List.mem_cons_of_mem _ listed)
        exact fun tick => span (escape_backtick.mpr tick)
  · intro free section' member line inside segment found
    have shut (value : String) (clean : backtick ∉ value.toList) : (Segment.code (escapeMarkdown table value)).Closed :=
      fun tick => clean (escape_backtick.mp tick)
    rcases view_line member inside with ⟨group,known,node,chosen,held⟩ | ⟨case,chosen,held⟩ | bare
    · obtain ⟨listed,typed⟩ := mem_selected.mp chosen
      obtain ⟨named,cited⟩ := free.nodes node listed ⟨group,known,typed⟩
      rcases node_segment held found with rfl | ⟨ref,present,rfl⟩ | ⟨shown,rfl,_⟩
      · exact shut _ named
      · exact shut _ (cited ref present)
      · trivial
    · obtain ⟨listed,live⟩ := mem_open.mp chosen
      obtain ⟨named,cited⟩ := free.cases case listed live
      rcases case_segment held found with rfl | ⟨ref,present,rfl⟩ | ⟨shown,rfl,_⟩
      · exact shut _ named
      · obtain ⟨side,held',here⟩ := mem_allEvidenceRefs.mp present
        exact shut _ (cited side held' ref here)
      · trivial
    · obtain ⟨shown,rfl,_⟩ := bare segment found
      trivial

end Spans

section Order
variable {table : Categories}

-- Two graphs that list the same nodes and edges in another order.
structure Reordered (graph other : IntentGraph) : Prop where
  id : other.1.id = graph.1.id
  name : other.1.name = graph.1.name
  purpose : other.1.purpose = graph.1.purpose
  nodes : graph.1.nodes.Perm other.1.nodes
  edges : graph.1.edges.Perm other.1.edges

theorem selected_perm {nodes others : List Node} (distinct : (nodes.map Node.id).Nodup) (same : nodes.Perm others) (types : List String) :
    selectedNodes types nodes = selectedNodes types others :=
  Keyed.inOrder_congr (distinct.sublist (List.filter_sublist.map _)) (same.filter _)

theorem open_perm {cases others : List ReconciliationCase} (distinct : (cases.map ReconciliationCase.id).Nodup) (same : cases.Perm others) :
    openCases cases = openCases others :=
  Keyed.inOrder_congr (distinct.sublist (List.filter_sublist.map _)) (same.filter _)

theorem markdown_reordered {graph other : IntentGraph} {cases others : List ReconciliationCase} (alike : Reordered graph other)
    (distinct : (cases.map ReconciliationCase.id).Nodup) (same : cases.Perm others) :
    renderMarkdown table other others = renderMarkdown table graph cases := by
  have groups : ∀ group, renderNodeGroup table group other.1.nodes = renderNodeGroup table group graph.1.nodes := by
    intro group
    rw [renderNodeGroup,renderNodeGroup,selected_perm graph.nodes_distinct alike.nodes]
  have title' : title other = title graph := by rw [title,title,alike.name,alike.id]
  simp only [renderMarkdown,sections,title',alike.purpose,groups,renderCases,open_perm distinct same]

end Order

end MarkdownView
