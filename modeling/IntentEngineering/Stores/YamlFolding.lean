import IntentEngineering.Library.JsonFolding
import IntentEngineering.Stores.GraphStore

open Schema JsonLines

-- A dumped value is loaded again, up to the line separators in its strings.
def Yaml.Folds (yaml : Yaml) : Prop := ∀ v : Json, v.WellFormed → ∃ v', yaml.load (yaml.dump v) = some v' ∧ v.Folded v'

theorem flow_loads (v : Json) (formed : v.WellFormed) : Yaml.flow.load (Yaml.flow.dump v) = some v := by
  have read := Json.loads_text Json.plainDialect formed (.inl rfl) Json.blank_nil
  simpa [Yaml.flow,Utf8.decode_encode] using read

theorem Yaml.flow_folds : Yaml.flow.Folds := fun v formed => ⟨v,flow_loads v formed,Json.folded_refl v⟩

namespace GraphStore

theorem push_read (name : String) (c : Codec α) (missing : Option α) (rest : Fields names β) (before : ∀ n ∈ names.head?, name < n)
    {ms : Json.Members} (got : (Fields.push name c missing rest before).load ms = some both) :
    rest.load ms = some both.2 ∧ ((ms.lookup name).elim missing c.load) = some both.1 := by
  simp only [Fields.push,Option.bind_eq_some_iff,Option.map_eq_some_iff] at got
  obtain ⟨a,first,b,later,rfl⟩ := got
  refine ⟨later,?_⟩
  cases found : ms.lookup name <;> simpa [found] using first

-- Whatever becomes of its strings, a stored graph keeps its version.
theorem folded_version {lax : Coercions} {yaml : Yaml} (folds : yaml.Folds) {graph again : IntentGraph}
    (parsed : parseGraph lax yaml (serializeGraph lax yaml graph) = some again) : again.1.version = graph.1.version := by
  obtain ⟨v,loaded,folded⟩ := folds _ ((IntentGraph.codec lax).formed graph)
  have shape : (IntentGraph.codec lax).dump graph = .obj ((GraphDraft.fields lax).dump
    (graph.1.createdAt,graph.1.edges,graph.1.id,graph.1.name,graph.1.nodes,graph.1.purpose,graph.1.schemaVersion,graph.1.sourceSpec,
      graph.1.typeRegistry,graph.1.version,())) := rfl
  rw [shape] at loaded folded
  cases folded with
  | obj members =>
    rename_i ms
    have plain : ∀ m ∈ (GraphDraft.fields lax).dump (graph.1.createdAt,graph.1.edges,graph.1.id,graph.1.name,graph.1.nodes,
        graph.1.purpose,graph.1.schemaVersion,graph.1.sourceSpec,graph.1.typeRegistry,graph.1.version,()), UnbrokenText m.1 := by
      intro m member
      have named := List.mem_map_of_mem (f := Prod.fst) member
      rw [Fields.named] at named
      have texts : ∀ name ∈ ["created_at","edges","id","name","nodes","purpose","schema_version","source_spec","type_registry","version"],
        UnbrokenText name := by decide
      exact texts _ named
    have starter := (Json.folded_lookup members plain "graph").1 (lookup_dumped _ _ (by decide))
    obtain ⟨v,stored,number⟩ := (Json.folded_lookup members plain "version").2 (.int graph.1.version) rfl
    cases number
    have read : (IntentGraph.codec lax).load (.obj ms) = some again := by
      simpa only [parseGraph,serializeGraph,shape,loaded,canonicalGraphPayload,starter,Option.bind_some] using parsed
    obtain ⟨draft,drafted,checked⟩ := Option.bind_eq_some_iff.mp read
    obtain ⟨parts,fields,built⟩ := Option.bind_eq_some_iff.mp drafted
    simp only [Option.some.injEq] at built
    subst built
    have versioned : parts.2.2.2.2.2.2.2.2.2.1 = graph.1.version := by
      simp only [Codec.object] at fields
      split at fields
      · have edges := (push_read _ _ _ _ (by decide) fields).1
        have id := (push_read _ _ _ _ (by decide) edges).1
        have name := (push_read _ _ _ _ (by decide) id).1
        have nodes := (push_read _ _ _ _ (by decide) name).1
        have purpose := (push_read _ _ _ _ (by decide) nodes).1
        have schemaVersion := (push_read _ _ _ _ (by decide) purpose).1
        have sourceSpec := (push_read _ _ _ _ (by decide) schemaVersion).1
        have typeRegistry := (push_read _ _ _ _ (by decide) sourceSpec).1
        have version := (push_read _ _ _ _ (by decide) typeRegistry).1
        have last := (push_read _ _ _ _ (Fields.before_nil _) version).2
        rw [stored] at last
        have number := lax.naturalCodec.exact graph.1.version
        exact Option.some.inj (last.symm.trans number)
      · cases fields
    split at checked
    · cases checked
      exact versioned
    · cases checked

end GraphStore
