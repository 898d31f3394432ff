import IntentEngineering.Render.DriftReport
import IntentEngineering.Render.Markdown
import IntentEngineering.Render.Mermaid
import IntentEngineering.Stores.CaseLifecycle

open LineText PyText LineLayout CharText

-- What untrusted text can do to the three views.
namespace RenderedViews

open MarkdownView (NoBackticks Reordered renderMarkdown markdown_lines markdown_closed markdown_reordered)
open DriftReport (renderDriftReport report_lines sections_closed report_reordered)
open MermaidView (renderMermaid escapeMermaid Raw Escaped Clean raw_label escaped_label mermaid_reordered)

section Views
variable (table : Categories) (host : Host)

-- The views of a graph and its cases. The lines are told by what there is to
-- show, code spans hold no further backtick, the text between the quotes of a
-- label passes `label`, and the order of the input does not matter.
structure Inert (label : List Char → Prop) (graph : IntentGraph) (cases : List ReconciliationCase) : Prop where
  markdownLines : List.Forall₂ Opening.Fits (skeleton (MarkdownView.shapes (MarkdownView.presence graph cases)))
    ((lines lineRule (renderMarkdown table graph cases)).map Line.body)
  reportLines : ∀ report, renderDriftReport table host cases = .ok report →
    List.Forall₂ Opening.Fits (skeleton (DriftReport.shapes (DriftReport.presence cases))) ((lines lineRule report).map Line.body)
  markdownSpans : AllClosed (MarkdownView.sections table graph cases)
  reportSpans : ∀ rendered, DriftReport.sections table host cases = .ok rendered → AllClosed rendered
  labels : ∀ node ∈ graph.1.nodes, label (escapeMermaid node.label)
  reordered : ∀ other others, Reordered graph other → cases.Perm others →
    renderMarkdown table other others = renderMarkdown table graph cases ∧
      renderDriftReport table host others = renderDriftReport table host cases ∧ renderMermaid other = renderMermaid graph

theorem inert_iff {graph : IntentGraph} {cases : List ReconciliationCase} (distinct : (cases.map ReconciliationCase.id).Nodup)
    (label : List Char → Prop) :
    Inert table host label graph cases ↔ NoBackticks graph cases ∧ ∀ node ∈ graph.1.nodes, label (escapeMermaid node.label) := by
  constructor
  · intro inert
    exact ⟨(markdown_closed graph cases).mp inert.markdownSpans,inert.labels⟩
  · rintro ⟨free,labels⟩
    exact {
      markdownLines := markdown_lines graph cases
      reportLines := fun _ done => report_lines done
      markdownSpans := (markdown_closed graph cases).mpr free
      reportSpans := fun _ done => sections_closed done
      labels := labels
      reordered := fun other others alike same =>
        ⟨markdown_reordered alike distinct same,report_reordered distinct same,mermaid_reordered alike.nodes alike.edges⟩ }

-- The views are inert but for backticks in the Markdown view's code spans, and
-- for quotes and further line boundaries in the labels. Where a quote behind a
-- backslash is not a raw one, and a carriage return and a line feed are the
-- only line breaks, labels are inert without a condition.
theorem views_inert (graph : IntentGraph) (cases : List ReconciliationCase) (distinct : (cases.map ReconciliationCase.id).Nodup) :
    (Inert table host Raw graph cases ↔ NoBackticks graph cases ∧ ∀ node ∈ graph.1.nodes, Clean node.label) ∧
      (Inert table host Escaped graph cases ↔ NoBackticks graph cases) := by
  constructor
  · rw [inert_iff table host distinct]
    simp only [raw_label]
  · rw [inert_iff table host distinct]
    exact and_iff_left fun node _ => escaped_label node.label

end Views

def requirement (id label : String) : Node :=
  ⟨id,"REQUIREMENT",label,"active","alice",reviewDay,"alice",reviewDay,none,none,none,none,none,["evidence:1"]⟩

def plainGraph : IntentGraph :=
  ⟨⟨"graph:1",0,"0.1.0",none,none,none,none,[requirement "requirement:1" "Export"],[],TypeRegistry.empty⟩,by decide +kernel⟩

-- A node whose id ends the code span it stands in.
def tickedId : String := String.ofList ['a',backtick,'b']

def tickedGraph : IntentGraph :=
  ⟨⟨"graph:1",0,"0.1.0",none,none,none,none,[requirement tickedId "Export"],[],TypeRegistry.empty⟩,by decide +kernel⟩

def zuluHost : Host := ⟨extendedInterpreter,fun t => .ok (Moment.ofDateTime t).shown⟩

theorem views_inert_plain : Inert controlsOnly zuluHost Raw plainGraph [openedCase] := by
  apply (views_inert controlsOnly zuluHost plainGraph [openedCase] (List.nodup_singleton _)).1.mpr
  refine ⟨⟨?_,?_⟩,?_⟩
  · intro node member _
    rw [List.mem_singleton.mp member]
    decide
  · intro case member _
    rw [List.mem_singleton.mp member]
    decide
  · intro node member
    rw [List.mem_singleton.mp member]
    constructor
    · decide
    · decide

theorem ticked_id_not_inert :
    ¬ Inert controlsOnly zuluHost Raw tickedGraph [] ∧ ¬ Inert controlsOnly zuluHost Escaped tickedGraph [] := by
  have ticked : ¬ NoBackticks tickedGraph [] := by
    intro free
    have named := (free.nodes (requirement tickedId "Export") List.mem_cons_self ⟨("Requirements",["REQUIREMENT","CAPABILITY"]),by decide,by decide⟩).1
    exact named (by decide)
  exact ⟨fun inert => ticked ((markdown_closed tickedGraph []).mp inert.markdownSpans),
    fun inert => ticked ((markdown_closed tickedGraph []).mp inert.markdownSpans)⟩

end RenderedViews
