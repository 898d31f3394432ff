import IntentEngineering.Library.CharText
import IntentEngineering.Library.LineLayout
import IntentEngineering.Library.Sha256
import IntentEngineering.Library.Utf8
import IntentEngineering.Models.Graph
import IntentEngineering.Library.Keyed

open LineText PyText CharText

-- The Mermaid view of a graph.
namespace MermaidView

def nodeId (stableId : String) : List Char := 'n' :: '_' :: (Sha256.hexdigest (Utf8.encode stableId.toList)).toList.take 16

def escapeMermaid (value : String) : List Char :=
  replace ']' "&#93;".toList <| replace '[' "&#91;".toList <| replace '>' "&gt;".toList <| replace '<' "&lt;".toList <|
    replace '&' "&amp;".toList <| replace '\n' [' '] <| replace '\r' [' '] <| replace '"' ['\\','"'] <|
      replace '\\' ['\\','\\'] value.toList

-- The quoted string of a node.
def label (node : Node) : List Char := '"' :: (escapeMermaid node.label ++ ['"'])

def renderNode (node : Node) : List Char := nodeId node.id ++ '[' :: (label node ++ [']'])

def renderEdge (edge : Edge) : List Char :=
  nodeId edge.fromId ++ " -->|".toList ++ edge.relation.spelling.toList ++ "| ".toList ++ nodeId edge.toId

def renderMermaid (graph : IntentGraph) : List Char :=
  LineLayout.join ['\n'] ("flowchart LR".toList ::
    ((Keyed.inOrder Node.id graph.1.nodes).map renderNode ++ (Keyed.inOrder Edge.id graph.1.edges).map renderEdge)) ++ ['\n']

-- Where a reader that knows backslash escapes would end the string: a quote, or
-- a backslash at the very end that takes the closing one.
def closesEarly : List Char → Bool
  | [] => false
  | ['\\'] => true
  | '\\' :: _ :: rest => closesEarly rest
  | c :: rest => decide (c = '"') || closesEarly rest

-- No quote and no line boundary inside.
def Raw (contents : List Char) : Prop := '"' ∉ contents ∧ Plain lineRule contents

-- No quote but behind a backslash, and no carriage return or line feed.
def Escaped (contents : List Char) : Prop := closesEarly contents = false ∧ '\r' ∉ contents ∧ '\n' ∉ contents

section Escaping

-- What becomes of one character.
def escapeChar (c : Char) : List Char :=
  if c = '\\' then ['\\','\\']
  else if c = '"' then ['\\','"']
  else if c = '\r' ∨ c = '\n' then [' ']
  else if c = '&' then "&amp;".toList
  else if c = '<' then "&lt;".toList
  else if c = '>' then "&gt;".toList
  else if c = '[' then "&#91;".toList
  else if c = ']' then "&#93;".toList
  else [c]

theorem escapeMermaid_chars (value : String) : escapeMermaid value = value.toList.flatMap escapeChar := by
  simp only [escapeMermaid,replace,List.flatMap_assoc]
  congr 1
  funext c
  unfold escapeChar
  by_cases slash : c = '\\'
  · subst slash
    rfl
  by_cases quote : c = '"'
  · subst quote
    rfl
  by_cases cr : c = '\r'
  · subst cr
    rfl
  by_cases lf : c = '\n'
  · subst lf
    rfl
  by_cases ampersand : c = '&'
  · subst ampersand
    rfl
  by_cases less : c = '<'
  · subst less
    rfl
  by_cases greater : c = '>'
  · subst greater
    rfl
  by_cases opening : c = '['
  · subst opening
    rfl
  by_cases closing : c = ']'
  · subst closing
    rfl
  simp [slash,quote,cr,lf,ampersand,less,greater,opening,closing]

theorem closesEarly_cons {c : Char} (slash : c ≠ '\\') (quote : c ≠ '"') (rest : List Char) : closesEarly (c :: rest) = closesEarly rest := by
  rw [closesEarly]
  · simp [quote]
  · rintro rfl
    exact absurd rfl slash
  · rintro _ _ rfl
    exact absurd rfl slash

theorem closesEarly_escape (c : Char) (rest : List Char) : closesEarly (escapeChar c ++ rest) = closesEarly rest := by
  unfold escapeChar
  split
  · rfl
  · rename_i slash
    split
    · rfl
    · rename_i quote
      iterate 6
        split
        · rfl
      exact closesEarly_cons slash quote rest

theorem escaped_closed (value : String) : closesEarly (escapeMermaid value) = false := by
  rw [escapeMermaid_chars]
  induction value.toList with
  | nil => rfl
  | cons c rest ih =>
    rw [List.flatMap_cons,closesEarly_escape]
    exact ih

-- The characters of the replacements, the quote's own aside.
def replacements : List Char := "\\ &amp;lt;gt;#9135".toList

theorem mem_escapeChar (member : x ∈ escapeChar c) : x = c ∧ c ≠ '\r' ∧ c ≠ '\n' ∨ x ∈ replacements := by
  have drawn : ∀ text ∈ ["&amp;".toList,"&lt;".toList,"&gt;".toList,"&#91;".toList,"&#93;".toList,[' '],['\\','\\']],
      ∀ y ∈ text, y ∈ replacements := by decide
  unfold escapeChar at member
  split at member
  · exact .inr (drawn _ (by simp) x member)
  split at member
  · rename_i quote
    simp only [List.mem_cons,List.not_mem_nil,or_false] at member
    rcases member with slash | same
    · rw [slash]
      exact .inr (by decide)
    · rw [same,quote]
      exact .inl ⟨rfl,by decide,by decide⟩
  split at member
  · exact .inr (drawn _ (by simp) x member)
  rename_i ending
  split at member
  · exact .inr (drawn _ (by simp) x member)
  split at member
  · exact .inr (drawn _ (by simp) x member)
  split at member
  · exact .inr (drawn _ (by simp) x member)
  split at member
  · exact .inr (drawn _ (by simp) x member)
  split at member
  · exact .inr (drawn _ (by simp) x member)
  exact .inl ⟨List.mem_singleton.mp member,not_or.mp ending⟩

-- A label's own quotes stay, behind a backslash.
theorem escaped_quote (value : String) : '"' ∈ escapeMermaid value ↔ '"' ∈ value.toList := by
  rw [escapeMermaid_chars,List.mem_flatMap]
  constructor
  · rintro ⟨c,member,shown⟩
    rcases mem_escapeChar shown with ⟨same,_⟩ | impossible
    · rwa [same]
    · exact absurd impossible (by decide)
  · intro member
    exact ⟨'"',member,by decide⟩

-- Of the line boundaries two are replaced.
theorem escaped_break (value : String) (broken : lineRule.isBreak c = true) :
    c ∈ escapeMermaid value ↔ c ∈ value.toList ∧ c ≠ '\r' ∧ c ≠ '\n' := by
  have plain : ∀ y ∈ replacements, lineRule.isBreak y = false := by decide
  rw [escapeMermaid_chars,List.mem_flatMap]
  constructor
  · rintro ⟨original,member,shown⟩
    rcases mem_escapeChar shown with ⟨rfl,ending⟩ | impossible
    · exact ⟨member,ending⟩
    · rw [plain c impossible] at broken
      cases broken
  · rintro ⟨member,cr,lf⟩
    refine ⟨c,member,?_⟩
    have other (mark : Char) (solid : lineRule.isBreak mark = false) : c ≠ mark := by
      rintro rfl
      rw [solid] at broken
      cases broken
    simp [escapeChar,other '\\' (by decide),other '"' (by decide),other '&' (by decide),other '<' (by decide),other '>' (by decide),
      other '[' (by decide),other ']' (by decide),cr,lf]

theorem escaped_label (value : String) : Escaped (escapeMermaid value) := by
  refine ⟨escaped_closed value,?_,?_⟩
  · intro member
    exact ((escaped_break value (by decide)).mp member).2.1 rfl
  · intro member
    exact ((escaped_break value (by decide)).mp member).2.2 rfl

-- A label without a quote, and with no boundary but the two that are replaced.
def Clean (value : String) : Prop :=
  '"' ∉ value.toList ∧ ∀ c ∈ value.toList, lineRule.isBreak c = true → c = '\r' ∨ c = '\n'

theorem raw_label (value : String) : Raw (escapeMermaid value) ↔ Clean value := by
  rw [Raw,Clean,escaped_quote]
  apply and_congr_right
  intro _
  constructor
  · intro plain c member broken
    by_contra other
    have kept := (escaped_break value broken).mpr ⟨member,not_or.mp other⟩
    rw [plain c kept] at broken
    cases broken
  · intro clean c member
    by_contra broken
    have breaks : lineRule.isBreak c = true := by simpa using broken
    obtain ⟨original,cr,lf⟩ := (escaped_break value breaks).mp member
    rcases clean c original breaks with same | same
    · exact cr same
    · exact lf same

end Escaping

theorem mermaid_reordered {graph other : IntentGraph} (nodes : graph.1.nodes.Perm other.1.nodes) (edges : graph.1.edges.Perm other.1.edges) :
    renderMermaid other = renderMermaid graph := by
  have nodes' := Keyed.inOrder_congr graph.nodes_distinct nodes
  have edges' := Keyed.inOrder_congr graph.edges_distinct edges
  rw [renderMermaid,renderMermaid,nodes',edges']

end MermaidView
