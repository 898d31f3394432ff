import IntentEngineering.Graphs.Applier
import IntentEngineering.Library.JsonLines

open Schema Json JsonLines

-- The YAML library: what it loads from a file's bytes and what it dumps. A dumped
-- value is loaded again, unless the library folds a line separator in it.
structure Yaml where
  load : Utf8.Bytes → Option Json
  dump : Json → Utf8.Bytes
  exact : ∀ v : Json, v.WellFormed → Unbroken v → load (dump v) = some v

-- In flow style the dump is the JSON text.
def Yaml.flow : Yaml where
  load content := (Utf8.decode content).bind (loads plainDialect)
  dump v := Utf8.encode (text v)
  exact v formed _ := by
    have read := loads_text plainDialect formed (.inl rfl) blank_nil
    simpa [Utf8.decode_encode] using read

namespace GraphStore

variable (lax : Coercions) (yaml : Yaml)

def serializeGraph (graph : IntentGraph) : Utf8.Bytes := yaml.dump ((IntentGraph.codec lax).dump graph)

-- `str(...)` of the version in a starter file.
def versionText : Json → Option String
  | .str s => some s
  | .int n => some (toString n)
  | .bool true => some "True"
  | .bool false => some "False"
  | .null => some "None"
  | .float (.infinite negative) => some (if negative then "-inf" else "inf")
  | .float .nan => some "nan"
  | .float x => some (String.ofList (floatText x))
  | _ => none

-- `_canonical_graph_payload`: the supplied starter shape keeps the graph's own
-- fields under `graph`, with its nodes and edges beside it.
def canonicalGraphPayload (loaded : Members) : Option Members :=
  match loaded.lookup "graph" with
  | some (.obj starter) =>
    (versionText ((starter.lookup "version").getD (.str "0.1.0"))).map fun semanticVersion =>
      let payload := starter.filter fun m => m.1 != "version"
      let payload := insertMember "schema_version" (.str semanticVersion) payload
      let payload := insertMember "version" (.int 0) payload
      let payload := insertMember "nodes" ((loaded.lookup "nodes").getD (.arr [])) payload
      insertMember "edges" ((loaded.lookup "edges").getD (.arr [])) payload
  | _ => some loaded

def parseGraph (content : Utf8.Bytes) : Option IntentGraph :=
  match yaml.load content with
  | some (.obj loaded) => (canonicalGraphPayload loaded).bind fun payload => (IntentGraph.codec lax).load (.obj payload)
  | _ => none

theorem parse_serialized (graph : IntentGraph) (unbroken : Unbroken ((IntentGraph.codec lax).dump graph)) :
    parseGraph lax yaml (serializeGraph lax yaml graph) = some graph := by
  obtain ⟨parts,shape⟩ := IntentGraph.object lax graph
  have absent : ((GraphDraft.fields lax).dump parts).lookup "graph" = none := lookup_dumped _ parts (by decide)
  have loaded := yaml.exact _ ((IntentGraph.codec lax).formed graph) unbroken
  have read := (IntentGraph.codec lax).exact graph
  rw [shape] at loaded read
  simp only [parseGraph,serializeGraph,shape,loaded,canonicalGraphPayload,absent,Option.bind_some,read]

-- Blanks before a graph in flow style do not count.
theorem parse_spaced (graph : IntentGraph) (unbroken : Unbroken ((IntentGraph.codec lax).dump graph)) (blank : Blank w) :
    parseGraph lax Yaml.flow (Utf8.encode (w ++ ((IntentGraph.codec lax).dump graph).text)) = some graph := by
  have formed := (IntentGraph.codec lax).formed graph
  have spaced := loads_text plainDialect formed (.inl rfl) blank
  have loaded : Yaml.flow.load (Utf8.encode (w ++ ((IntentGraph.codec lax).dump graph).text)) =
      Yaml.flow.load (serializeGraph lax Yaml.flow graph) := by
    rw [serializeGraph,Yaml.flow.exact _ formed unbroken]
    simpa [Yaml.flow,Utf8.decode_encode] using spaced
  have parsed := parse_serialized lax Yaml.flow graph unbroken
  simpa only [parseGraph,loaded] using parsed

end GraphStore
