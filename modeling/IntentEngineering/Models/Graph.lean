import IntentEngineering.Models.ChangeSet
import IntentEngineering.Library.PyText

open Schema

structure CalendarDate where
  year : Nat
  month : Nat
  day : Nat
  era : 1 ≤ year ∧ year ≤ 9999
  season : 1 ≤ month ∧ month ≤ 12
  date : 1 ≤ day ∧ day ≤ daysInMonth year month

namespace CalendarDate

def text (d : CalendarDate) : List Char := DateTime.dateText d.year d.month d.day

def read (cs : List Char) : Option CalendarDate := do
  let (year,month,day,rest) ← DateTime.readTriple 4 '-' cs
  if valid : rest = [] ∧ (1 ≤ year ∧ year ≤ 9999) ∧ (1 ≤ month ∧ month ≤ 12) ∧ (1 ≤ day ∧ day ≤ daysInMonth year month) then
    some ⟨year,month,day,valid.2.1,valid.2.2.1,valid.2.2.2⟩
  else none

theorem read_text (d : CalendarDate) : read d.text = some d := by
  obtain ⟨year,month,day,era,season,date⟩ := d
  have inMonth : day ≤ 31 := by
    have limit := date.2
    unfold daysInMonth at limit
    split at limit
    · split at limit <;> omega
    · split at limit <;> omega
  have triple := DateTime.readTriple_text (show year < 10 ^ 4 by omega) (show month < 10 ^ 2 by omega)
    (show day < 10 ^ 2 by omega) '-' []
  rw [List.append_nil] at triple
  simp [read,text,DateTime.dateText,triple,era,season,date]

def codec : Codec CalendarDate :=
  Codec.string.convert (fun s => read s.toList) (fun d => String.ofList d.text)
    (fun d => by rw [String.toList_ofList]; exact read_text d)

end CalendarDate

-- `NodeType`
def nodeTypes : List String :=
  ["SOURCE_ARTIFACT","SOURCE_REVISION","EVIDENCE_SPAN","ACTOR","SOURCE_SYSTEM","CONTEXT","NEED","PRODUCT_INTENT",
   "DESIRED_OUTCOME","ASSUMPTION","PRINCIPLE","CONSTRAINT","REQUIREMENT","CAPABILITY","ACCEPTANCE_CRITERION","DECISION",
   "ARCHITECTURE","INTERFACE","DATA_CONTRACT","POLICY","REPOSITORY","MODULE","FILE","SYMBOL","ENDPOINT","SCHEMA","TEST",
   "BUILD_ARTIFACT","DEPLOYMENT","METRIC","OBSERVED_OUTCOME","INCIDENT","USER_FEEDBACK","EXPERIMENT_RESULT","CHANGESET",
   "RECONCILIATION_CASE","REVIEW_DECISION","OWNER","MILESTONE"]

-- `^[^\s:]+:[^\s:]+$`, matched in full.
def namespacedType (name : String) : Bool :=
  let cs := name.toList
  let plain (part : List Char) : Bool := !part.isEmpty && part.all fun c => !PyText.isSpace c && c != ':'
  match cs.dropWhile (· != ':') with
  | [] => false
  | _ :: rest => plain (cs.takeWhile (· != ':')) && plain rest

-- A set of names, listed in order.
structure TypeRegistry where
  extensions : List String
  sorted : extensions.Pairwise (· < ·)
  namespaced : ∀ name ∈ extensions, namespacedType name = true

namespace TypeRegistry

def build (names : List String) : Option TypeRegistry :=
  let extensions := names.dedup.insertionSort (· ≤ ·)
  if valid : extensions.Pairwise (· < ·) ∧ ∀ name ∈ extensions, namespacedType name = true then
    some ⟨extensions,valid.1,valid.2⟩
  else none

theorem build_extensions (r : TypeRegistry) : build r.extensions = some r := by
  have distinct : r.extensions.Nodup := r.sorted.imp ne_of_lt
  have ordered : r.extensions.dedup.insertionSort (· ≤ ·) = r.extensions := by
    rw [distinct.dedup]
    exact (r.sorted.imp le_of_lt).insertionSort_eq
  simp only [build,ordered]
  rw [dif_pos ⟨r.sorted,r.namespaced⟩]

theorem none_sorted : ([] : List String).Pairwise (· < ·) := .nil
theorem none_namespaced : ∀ name ∈ ([] : List String), namespacedType name = true := by simp

def empty : TypeRegistry := ⟨[],none_sorted,none_namespaced⟩

def codec : Codec TypeRegistry :=
  (Codec.object (Fields.defaulted "extensions" Codec.string.list [] Fields.nil)).convert (fun parts => build parts.1)
    (fun r => (r.extensions,())) build_extensions

-- `assert_registered`
def registers (r : TypeRegistry) (type : String) : Bool :=
  nodeTypes.contains type || (namespacedType type && r.extensions.contains type)

end TypeRegistry

-- A graph before its invariants have been asserted.
structure GraphDraft where
  id : String
  version : Nat
  schemaVersion : String
  name : Option String
  purpose : Option String
  createdAt : Option CalendarDate
  sourceSpec : Option String
  nodes : List Node
  edges : List Edge
  typeRegistry : TypeRegistry

namespace GraphDraft

variable (g : GraphDraft)

def nodeIds : List String := g.nodes.map Node.id
def edgeIds : List String := g.edges.map Edge.id

-- `assert_invariants`
def assertInvariants : Bool :=
  decide g.nodeIds.Nodup && decide g.edgeIds.Nodup &&
    g.nodes.all (fun n => g.typeRegistry.registers n.type && (n.sourceMode.isNone || !n.evidenceRefs.isEmpty)) &&
    g.edges.all (fun e => g.nodeIds.contains e.fromId && (e.external || g.nodeIds.contains e.toId))

def fields (lax : Coercions) :=
  Fields.defaulted "created_at" (CalendarDate.codec.nullable nofun) none <|
  Fields.required "edges" (Edge.codec lax true).list <|
  Fields.required "id" Codec.string <|
  Fields.defaulted "name" Codec.optionalString none <|
  Fields.required "nodes" (Node.codec lax).list <|
  Fields.defaulted "purpose" Codec.optionalString none <|
  Fields.defaulted "schema_version" Codec.string "0.1.0" <|
  Fields.defaulted "source_spec" Codec.optionalString none <|
  Fields.defaulted "type_registry" TypeRegistry.codec TypeRegistry.empty <|
  Fields.required "version" lax.naturalCodec <|
  Fields.nil

def codec (lax : Coercions) : Codec GraphDraft :=
  (Codec.object (fields lax)).convert
    (fun (createdAt,edges,id,name,nodes,purpose,schemaVersion,sourceSpec,typeRegistry,version,_) =>
      some ⟨id,version,schemaVersion,name,purpose,createdAt,sourceSpec,nodes,edges,typeRegistry⟩)
    (fun g => (g.createdAt,g.edges,g.id,g.name,g.nodes,g.purpose,g.schemaVersion,g.sourceSpec,g.typeRegistry,g.version,()))
    (fun _ => rfl)

end GraphDraft

-- Only a graph whose invariants hold is one.
abbrev IntentGraph := {g : GraphDraft // g.assertInvariants = true}

namespace IntentGraph

def codec (lax : Coercions) : Codec IntentGraph := (GraphDraft.codec lax).checked GraphDraft.assertInvariants

theorem object (lax : Coercions) (g : IntentGraph) : ∃ parts, (codec lax).dump g = .obj ((GraphDraft.fields lax).dump parts) := ⟨_,rfl⟩

variable (g : IntentGraph)

theorem nodes_distinct : g.1.nodeIds.Nodup := by
  have valid := g.2
  simp only [GraphDraft.assertInvariants,Bool.and_eq_true,decide_eq_true_eq] at valid
  exact valid.1.1.1

theorem edges_distinct : g.1.edgeIds.Nodup := by
  have valid := g.2
  simp only [GraphDraft.assertInvariants,Bool.and_eq_true,decide_eq_true_eq] at valid
  exact valid.1.1.2

-- `nodes.get`
def node (id : String) : Option Node := g.1.nodes.find? fun n => n.id == id

end IntentGraph
