import IntentEngineering.Policy.Project

open FileTree JsonLines Schema

namespace Project

section Initial
variable (env : Environment) (projectId : String)

theorem config_loads : ∃ v, env.yaml.load (configBytes env projectId) = some v ∧ (ProjectConfig.validate env.lax v).isSome = true := by
  obtain ⟨v,loaded,folded⟩ := env.folds _ ((ProjectConfig.codec env.lax SourceRoles.codec .none).formed (initialConfig projectId))
  refine ⟨v,loaded,?_⟩
  have shape : (ProjectConfig.codec env.lax SourceRoles.codec .none).dump (initialConfig projectId) =
      .obj ([("auto_apply_metadata",.bool true),("auto_apply_semantic",.bool false),("context_limits",.obj ContextLimits.defaults.members),
        ("graph_path",.str ".intent/graph.yaml"),("local_actor",.str "local")] ++ ("project_id",.str projectId) ::
        [("source_exclusions",.arr [.str ".intent/**",.str ".git/**"]),("source_roles",.arr [])]) := rfl
  rw [shape] at folded
  cases folded with
  | obj members =>
    obtain ⟨name,after,rfl,rest⟩ := Json.folded_text members (by decide) (by decide)
    have same := Json.folded_members rest (by decide)
    subst same
    have read := (ProjectConfig.codec env.lax SourceRoles.strictCodec ()).exact
      ⟨name,".intent/graph.yaml","local",[".intent/**",".git/**"],true,false,(),.defaults⟩
    exact Option.isSome_iff_exists.mpr ⟨_,read⟩

theorem graph_loads : ∃ v, env.yaml.load (graphBytes env projectId) = some v ∧ ((IntentGraph.codec env.lax).load v).isSome = true := by
  obtain ⟨v,loaded,folded⟩ := env.folds _ ((IntentGraph.codec env.lax).formed (initialGraph projectId))
  refine ⟨v,loaded,?_⟩
  have shape : (IntentGraph.codec env.lax).dump (initialGraph projectId) =
      .obj ([("created_at",.null),("edges",.arr [])] ++ ("id",.str ("graph:" ++ projectId)) :: ([] ++ ("name",.str projectId) ::
        [("nodes",.arr []),("purpose",.str "Local evidence-backed intent graph"),("schema_version",.str "0.1.0"),("source_spec",.null),
         ("type_registry",.obj [("extensions",.arr [])]),("version",.int 0)])) := rfl
  rw [shape] at folded
  cases folded with
  | obj members =>
    obtain ⟨id,middle,rfl,rest⟩ := Json.folded_text members (by decide) (by decide)
    obtain ⟨name,after,rfl,last⟩ := Json.folded_text rest (by decide) (by decide)
    have same := Json.folded_members last (by decide)
    subst same
    have read := (IntentGraph.codec env.lax).exact ⟨initialDraft id name,initial_invariants id name⟩
    exact Option.isSome_iff_exists.mpr ⟨_,read⟩

end Initial

section Repair
variable {env : Environment} {t next : Tree} {root : Path}

-- What a repair leaves: its two files, its directories and ledgers, and every
-- other entry as it was.
structure Written (env : Environment) (root : Path) (t next : Tree) : Prop where
  config : next.read configFile = .content (configBytes env (projectName root))
  graph : next.read graphFile = .content (graphBytes env (projectName root))
  others : ∀ path, path ≠ configFile → path ≠ graphFile → ∀ e, t.lookup path = some e → next.lookup path = some e

inductive Repaired (env : Environment) (root : Path) (t : Tree) : Except InitializeError InitializedProject × Tree → Prop where
  | blocked (impossible : ¬ ∀ name ∈ directories, (openOrCreateDirectory name).Possible t) (grows : Grows t left) :
      Repaired env root t (.error .unsafePath,left)
  | halted (possible : ∀ name ∈ directories, (openOrCreateDirectory name).Possible t) (occupied : t.isDirectory graphFile = true)
      (config : left.read configFile = .content (configBytes env (projectName root)))
      (others : ∀ path, path ≠ configFile → ∀ e, t.lookup path = some e → left.lookup path = some e) :
      Repaired env root t (.error .osError,left)
  | unsettled (possible : ∀ name ∈ directories, (openOrCreateDirectory name).Possible t) (free : t.isDirectory graphFile = false)
      (unfit : ¬ ∀ r ∈ ledgers, r.Possible t) (written : Written env root t left) :
      Repaired env root t (.error .unsafePath,left)
  | repaired {next : Tree} (possible : ∀ name ∈ directories, (openOrCreateDirectory name).Possible t) (free : t.isDirectory graphFile = false)
      (fit : ∀ r ∈ ledgers, r.Possible t) (written : Written env root t next)
      (met : ∀ r ∈ directories.map openOrCreateDirectory ++ ledgers, r.Met next) :
      Repaired env root t (.ok (initialized root),next)

theorem directories_possible : (∀ r ∈ directories.map openOrCreateDirectory, r.Possible t) ↔
    ∀ name ∈ directories, (openOrCreateDirectory name).Possible t := by
  simp only [List.forall_mem_map]

theorem completion_covered : ∀ r ∈ completion, r ∈ directories.map openOrCreateDirectory ++ ledgers := by
  intro r member
  rcases List.mem_append.mp member with front | last
  · rcases List.mem_cons.mp front with rfl | front
    · exact List.mem_append_left _ (List.mem_map_of_mem (by decide))
    · rcases List.mem_cons.mp front with rfl | ledger
      · exact List.mem_append_left _ (List.mem_map_of_mem (by decide))
      · exact List.mem_append_right _ ledger
  · rw [List.mem_singleton.mp last]
    exact List.mem_append_left _ (List.mem_map_of_mem (by decide))

-- A path that no step of the repair before the ledgers touches.
theorem unwritten_path {opened configured written : Tree} {configContent graphContent : Utf8.Bytes} {path : Path}
    (opens : provideAll (directories.map openOrCreateDirectory) t = (done,opened))
    (configures : opened.replace configFile configContent = some configured)
    (writes : configured.replace graphFile graphContent = some written)
    (notDirectory : path ∉ (directories.map openOrCreateDirectory).map Requirement.path) (notConfig : path ≠ configFile)
    (notGraph : path ≠ graphFile) : written.lookup path = t.lookup path := by
  have first := provideAll_frame (directories.map openOrCreateDirectory) t notDirectory
  rw [opens] at first
  have second := (replace_spec configures).2.2 path notConfig
  have third := (replace_spec writes).2.2 path notGraph
  exact third.trans (second.trans first)

theorem repair_repaired (file : t.isDirectory configFile = false) : Repaired env root t (repair env root t) := by
  have distinct : ((directories.map openOrCreateDirectory).map Requirement.path).Nodup := by decide
  have opens := provideAll_iff (t := t) distinct
  have grows := provideAll_grows (directories.map openOrCreateDirectory) t
  have met := @provideAll_met t (directories.map openOrCreateDirectory)
  have configStays : (provideAll (directories.map openOrCreateDirectory) t).2.lookup configFile = t.lookup configFile :=
    provideAll_frame (directories.map openOrCreateDirectory) t (by decide)
  have graphStays : (provideAll (directories.map openOrCreateDirectory) t).2.lookup graphFile = t.lookup graphFile :=
    provideAll_frame (directories.map openOrCreateDirectory) t (by decide)
  rw [directories_possible] at opens
  unfold repair
  cases opened : provideAll (directories.map openOrCreateDirectory) t with
  | mk done left =>
    rw [opened] at opens grows met configStays graphStays
    cases done with
    | false => exact .blocked (fun possible => absurd (opens.mpr possible) (by simp)) grows
    | true =>
      have possible := opens.mp rfl
      dsimp only at configStays graphStays grows ⊢
      cases configures : left.replace configFile (configBytes env (projectName root)) with
      | none =>
        have occupied := replace_refused configures
        simp only [Tree.isDirectory,configStays] at occupied file
        rw [occupied] at file
        cases file
      | some configured =>
        obtain ⟨configured_config,_,configured_others⟩ := replace_spec configures
        have kept (path : Path) (other : path ≠ configFile) (e) (there : t.lookup path = some e) : configured.lookup path = some e :=
          (configured_others path other).trans (grows path e there)
        dsimp only
        cases writes : configured.replace graphFile (graphBytes env (projectName root)) with
        | none =>
          have occupied := replace_refused writes
          have same : configured.lookup graphFile = t.lookup graphFile := (configured_others graphFile (by decide)).trans graphStays
          simp only [Tree.isDirectory,same] at occupied
          exact .halted possible occupied (read_file configured_config) kept
        | some written =>
          obtain ⟨written_graph,file,written_others⟩ := replace_spec writes
          have same : configured.lookup graphFile = t.lookup graphFile := (configured_others graphFile (by decide)).trans graphStays
          have free : t.isDirectory graphFile = false := by
            simp only [Tree.isDirectory,same] at file
            exact file
          have written_config := (written_others configFile (by decide)).trans configured_config
          have ledgersStay (r : Requirement) (member : r ∈ ledgers) : written.lookup r.path = t.lookup r.path := by
            have apart : ∀ r ∈ ledgers, r.path ∉ (directories.map openOrCreateDirectory).map Requirement.path ∧
              r.path ≠ configFile ∧ r.path ≠ graphFile := by decide
            obtain ⟨notDirectory,notConfig,notGraph⟩ := apart r member
            exact unwritten_path opened configures writes notDirectory notConfig notGraph
          have fits : (∀ r ∈ ledgers, r.Possible written) ↔ ∀ r ∈ ledgers, r.Possible t :=
            forall_congr' fun r => forall_congr' fun member => by simp only [Requirement.Possible,ledgersStay r member]
          have ensures := @provideAll_iff written ledgers (by decide)
          have ledgersGrow := provideAll_grows ledgers written
          have ledgersMet := @provideAll_met written ledgers
          rw [fits] at ensures
          have result (last : Tree) (grown : Grows written last) : Written env root t last :=
            ⟨read_file (grown _ _ written_config),read_file (grown _ _ written_graph),fun path notConfig notGraph e there =>
              grown path e ((written_others path notGraph).trans (kept path notConfig e there))⟩
          dsimp only
          cases ensured : provideAll ledgers written with
          | mk settled last =>
            rw [ensured] at ensures ledgersGrow ledgersMet
            cases settled with
            | false => exact .unsettled possible free (fun fit => absurd (ensures.mpr fit) (by simp)) (result last ledgersGrow)
            | true =>
              refine .repaired possible free (ensures.mp rfl) (result last ledgersGrow) ?_
              intro r member
              rcases List.mem_append.mp member with directory | ledger
              · obtain ⟨e,there,fit⟩ := met rfl r directory
                have apart : ∀ r ∈ directories.map openOrCreateDirectory, r.path ≠ configFile ∧ r.path ≠ graphFile := by decide
                obtain ⟨notConfig,notGraph⟩ := apart r directory
                refine ⟨e,ledgersGrow _ _ ?_,fit⟩
                rw [written_others _ notGraph,configured_others _ notConfig]
                exact there
              · exact ledgersMet rfl r ledger

end Repair

section Main
variable (env : Environment)

-- A configuration as the runtime reads it.
def ValidConfig (content : Utf8.Bytes) : Prop :=
  ∃ v, env.yaml.load content = some v ∧ (ProjectConfig.validateJson env.lax v).isSome = true

def Populated (content : Utf8.Bytes) : Prop :=
  ∃ graph, GraphStore.parseGraph env.lax env.yaml content = some graph ∧ (graph.1.nodes ≠ [] ∨ 0 < graph.1.version)

-- What must survive: a valid configuration, a graph that says something, and any
-- other file.
def Protected (path : Path) (content : Utf8.Bytes) : Prop :=
  (path = configFile → ValidConfig env content) ∧ (path = graphFile → Populated env content)

def Preserves (root : Path) (force : Bool) (t : Tree) : Prop :=
  match initializeProject env root force t with
  | (.ok project,next) =>
    (∀ path content, t.read path = .content content → Protected env path content → next.read path = .content content) ∧
      ∀ again, initializeProject env root again next = (.ok project,next)
  | (.error _,next) => ∀ path, t.read path ≠ .missing → next.read path = t.read path

-- The branch that writes: a forced run over an incomplete workspace that holds no
-- other state.
def Repairs (force : Bool) (t : Tree) : Prop :=
  t.isDirectory (workspacePath []) = true ∧ isCompleteValid env t = .ok false ∧ force = true ∧ stateIsEmpty t stateFiles = .ok true ∧
    ∀ name ∈ directories, (openOrCreateDirectory name).Possible t

-- What makes the repair stop after its first write.
def Unfinished (t : Tree) : Prop := t.isDirectory graphFile = true ∨ ¬ ∀ r ∈ ledgers, r.Possible t

-- Nothing is lost by writing over a file: it is not there, or already holds the
-- same bytes, or is neither worth keeping nor followed by an error.
def Expendable (t : Tree) (path : Path) (worth : Utf8.Bytes → Prop) (written : Utf8.Bytes) : Prop :=
  t.read path ≠ .missing → (Unfinished t ∨ ∃ content, t.read path = .content content ∧ worth content) → t.read path = .content written

def Harmless (root : Path) (t : Tree) : Prop :=
  Expendable t configFile (ValidConfig env) (configBytes env (projectName root)) ∧
    (t.isDirectory graphFile = false → Expendable t graphFile (Populated env) (graphBytes env (projectName root)))

variable {env} {t next : Tree} {root : Path} {force : Bool}

theorem complete_iff : isCompleteValid env t = .ok true ↔
    ∃ config configData graph graphData, t.read configFile = .content config ∧ env.yaml.load config = some configData ∧
      t.read graphFile = .content graph ∧ env.yaml.load graph = some graphData ∧
      (ProjectConfig.validate env.lax configData).isSome = true ∧ ((IntentGraph.codec env.lax).load graphData).isSome = true ∧
      ∀ name ∈ requiredDirectories, t.isDirectory (workspacePath [name]) = true := by
  constructor
  · intro complete
    unfold isCompleteValid at complete
    split at complete
    · cases complete
    · cases complete
    · cases complete
    · rename_i config configRead
      split at complete
      · cases complete
      · rename_i configData configLoaded
        split at complete
        · cases complete
        · cases complete
        · cases complete
        · rename_i graph graphRead
          split at complete
          · cases complete
          · rename_i graphData graphLoaded
            simp only [Except.ok.injEq,Bool.and_eq_true,List.all_eq_true] at complete
            exact ⟨config,configData,graph,graphData,configRead,configLoaded,graphRead,graphLoaded,complete.1.1,complete.1.2,complete.2⟩
  · rintro ⟨config,configData,graph,graphData,configRead,configLoaded,graphRead,graphLoaded,configValid,graphValid,present⟩
    have directoriesPresent : (requiredDirectories.all fun name => t.isDirectory (workspacePath [name])) = true :=
      List.all_eq_true.mpr present
    simp only [isCompleteValid,configRead,configLoaded,graphRead,graphLoaded,configValid,graphValid,directoriesPresent,Bool.and_self]

theorem complete_grows (complete : isCompleteValid env t = .ok true) (grows : Grows t next) : isCompleteValid env next = .ok true := by
  obtain ⟨config,configData,graph,graphData,configRead,configLoaded,graphRead,graphLoaded,configValid,graphValid,present⟩ :=
    complete_iff.mp complete
  have configStays : next.read configFile = .content config := by rw [grows.read (by rw [configRead]; simp),configRead]
  have graphStays : next.read graphFile = .content graph := by rw [grows.read (by rw [graphRead]; simp),graphRead]
  refine complete_iff.mpr ⟨config,configData,graph,graphData,configStays,configLoaded,graphStays,graphLoaded,configValid,graphValid,?_⟩
  intro name member
  exact grows.directory (present name member)

theorem written_complete (written : Written env root t next)
    (met : ∀ name ∈ directories, (openOrCreateDirectory name).Met next) : isCompleteValid env next = .ok true := by
  obtain ⟨configData,configLoaded,configValid⟩ := config_loads env (projectName root)
  obtain ⟨graphData,graphLoaded,graphValid⟩ := graph_loads env (projectName root)
  refine complete_iff.mpr ⟨_,configData,_,graphData,written.config,configLoaded,written.graph,graphLoaded,configValid,graphValid,?_⟩
  intro name member
  obtain ⟨e,there,fit⟩ := met name (List.mem_append_left _ member)
  have directory : e = .directory := by simpa [openOrCreateDirectory] using fit
  rw [Tree.isDirectory,beq_iff_eq,←directory]
  exact there

-- A workspace that has been completed is left alone.
theorem initialized_again (workspace : t.isDirectory (workspacePath []) = true) (complete : isCompleteValid env t = .ok true)
    (met : ∀ r ∈ completion, r.Met t) (again : Bool) : initializeProject env root again t = (.ok (initialized root),t) := by
  simp only [Tree.isDirectory,beq_iff_eq] at workspace
  have provided := provideAll_again met
  simp only [initializeProject,workspace,complete,Project.complete,provided]

theorem read_directory (directory : t.isDirectory path = true) : t.read path = .irregular := by
  simp only [Tree.isDirectory,beq_iff_eq] at directory
  simp only [Tree.read,directory]

theorem incomplete_config (incomplete : isCompleteValid env t = .ok false) : t.isDirectory configFile = false := by
  by_contra directory
  have irregular : t.read configFile = .irregular := read_directory (by simpa using directory)
  simp only [isCompleteValid,irregular] at incomplete
  cases incomplete

theorem expendable_unfinished {path : Path} {worth : Utf8.Bytes → Prop} {written : Utf8.Bytes} (unfinished : Unfinished t) :
    Expendable t path worth written ↔ (t.read path ≠ .missing → t.read path = .content written) :=
  ⟨fun expendable there => expendable there (.inl unfinished),fun same there _ => same there⟩

theorem expendable_finished {path : Path} {worth : Utf8.Bytes → Prop} {written : Utf8.Bytes} (finished : ¬ Unfinished t) :
    Expendable t path worth written ↔ ∀ content, t.read path = .content content → worth content → content = written := by
  constructor
  · intro expendable content read valued
    have same := expendable (by rw [read]; simp) (.inr ⟨content,read,valued⟩)
    rw [read] at same
    exact Opened.content.inj same
  · rintro only _ (unfinished | ⟨content,read,valued⟩)
    · exact absurd unfinished finished
    · rw [read,only content read valued]

-- A run that does not repair only adds what is missing.
theorem unrepaired_preserves (existing : (t.lookup (workspacePath [])).isSome = true) (other : ¬ Repairs env force t) :
    Preserves env root force t := by
  have kept (next : Tree) (grows : Grows t next) (path : Path) (there : t.read path ≠ .missing) : next.read path = t.read path :=
    grows.read there
  have same (path : Path) (_ : t.read path ≠ .missing) : t.read path = t.read path := rfl
  unfold Preserves initializeProject
  cases workspace : t.lookup (workspacePath []) with
  | none =>
    rw [workspace] at existing
    cases existing
  | some e =>
    cases e with
    | directory =>
      have inside : t.isDirectory (workspacePath []) = true := by simp [Tree.isDirectory,workspace]
      cases completeness : isCompleteValid env t with
      | error error => exact same
      | ok done =>
        cases done with
        | true =>
          have grows := provideAll_grows completion t
          have met := @provideAll_met t completion
          dsimp only [complete]
          cases provided : provideAll completion t with
          | mk settled next =>
            rw [provided] at grows met
            cases settled with
            | false => exact kept next grows
            | true =>
              refine ⟨?_,?_⟩
              · intro path content read _
                rw [←read]
                exact kept next grows path (by rw [read]; simp)
              · intro again
                exact initialized_again (grows.directory inside) (complete_grows completeness grows) (met rfl) again
        | false =>
          cases force with
          | false => exact same
          | true =>
            dsimp only [if_true]
            cases emptiness : stateIsEmpty t stateFiles with
            | error error => exact same
            | ok empty =>
              cases empty with
              | false => exact same
              | true =>
                have repaired : Repaired env root t (repair env root t) := repair_repaired (incomplete_config completeness)
                dsimp only
                generalize repair env root t = outcome at repaired ⊢
                cases repaired with
                | blocked impossible grows => exact kept _ grows
                | halted possible => exact absurd ⟨inside,completeness,rfl,emptiness,possible⟩ other
                | unsettled possible => exact absurd ⟨inside,completeness,rfl,emptiness,possible⟩ other
                | repaired possible => exact absurd ⟨inside,completeness,rfl,emptiness,possible⟩ other
    | _ => exact same

theorem repairs_result (repairs : Repairs env force t) : initializeProject env root force t = repair env root t := by
  obtain ⟨workspace,incomplete,rfl,empty,_⟩ := repairs
  simp only [Tree.isDirectory,beq_iff_eq] at workspace
  simp only [initializeProject,workspace,incomplete,empty,if_true]

theorem repaired_preserves (repairs : Repairs env force t) : Preserves env root force t ↔ Harmless env root t := by
  have apart : configFile ≠ graphFile := by decide
  have repaired : Repaired env root t (repair env root t) := repair_repaired (incomplete_config repairs.2.1)
  have result : initializeProject env root force t = repair env root t := repairs_result repairs
  unfold Preserves
  rw [result]
  generalize repair env root t = outcome at repaired ⊢
  cases repaired with
  | blocked impossible => exact absurd repairs.2.2.2.2 impossible
  | halted possible occupied config others =>
    unfold Harmless
    rw [expendable_unfinished (.inl occupied),occupied]
    constructor
    · intro kept
      refine ⟨fun there => ?_,fun impossible => absurd impossible (by simp)⟩
      rw [←kept configFile there,config]
    · rintro ⟨same,_⟩ path there
      by_cases equal : path = configFile
      · subst equal
        rw [config,same there]
      · exact read_kept (others path equal) there
  | unsettled possible free unfit written =>
    unfold Harmless
    rw [expendable_unfinished (.inr unfit),expendable_unfinished (.inr unfit)]
    constructor
    · intro kept
      refine ⟨fun there => ?_,fun _ there => ?_⟩
      · rw [←kept configFile there,written.config]
      · rw [←kept graphFile there,written.graph]
    · rintro ⟨sameConfig,sameGraph⟩ path there
      by_cases isConfig : path = configFile
      · subst isConfig
        rw [written.config,sameConfig there]
      · by_cases isGraph : path = graphFile
        · subst isGraph
          rw [written.graph,sameGraph free there]
        · exact read_kept (written.others path isConfig isGraph) there
  | @repaired next possible free fit written met =>
    have finished : ¬ Unfinished t := by
      rintro (occupied | unfit)
      · rw [free] at occupied
        cases occupied
      · exact unfit fit
    unfold Harmless
    rw [expendable_finished finished,expendable_finished finished]
    constructor
    · rintro ⟨kept,_⟩
      refine ⟨?_,fun _ => ?_⟩
      · intro content read valid
        have stays := kept configFile content read ⟨fun _ => valid,fun other => absurd other apart⟩
        rw [written.config] at stays
        exact (Opened.content.inj stays).symm
      · intro content read populated
        have stays := kept graphFile content read ⟨fun other => absurd other.symm apart,fun _ => populated⟩
        rw [written.graph] at stays
        exact (Opened.content.inj stays).symm
    · rintro ⟨sameConfig,sameGraph⟩
      refine ⟨?_,?_⟩
      · intro path content read worth
        by_cases isConfig : path = configFile
        · subst isConfig
          rw [written.config,sameConfig content read (worth.1 rfl)]
        · by_cases isGraph : path = graphFile
          · subst isGraph
            rw [written.graph,sameGraph free content read (worth.2 rfl)]
          · rw [←read]
            exact read_kept (written.others path isConfig isGraph) (by rw [read]; simp)
      · intro again
        have workspace : next.isDirectory (workspacePath []) = true := by
          have inside := repairs.1
          simp only [Tree.isDirectory,beq_iff_eq] at inside ⊢
          exact written.others _ (by decide) (by decide) _ inside
        have directoriesMet (name : String) (member : name ∈ directories) : (openOrCreateDirectory name).Met next :=
          met _ (List.mem_append_left _ (List.mem_map_of_mem member))
        refine initialized_again workspace (written_complete written directoriesMet) ?_ again
        exact fun r member => met r (completion_covered r member)

theorem initialization_preserves (env : Environment) (root : Path) (force : Bool) (t : Tree)
    (existing : (t.lookup (workspacePath [])).isSome = true) :
    Preserves env root force t ↔ (Repairs env force t → Harmless env root t) := by
  by_cases repairs : Repairs env force t
  · rw [repaired_preserves repairs]
    exact ⟨fun harmless _ => harmless,fun harmless => harmless repairs⟩
  · exact ⟨fun _ impossible => absurd impossible repairs,fun _ => unrepaired_preserves existing repairs⟩

end Main

section Flow

def flowEnvironment : Environment := ⟨canonicalOnly,Yaml.flow,Yaml.flow_folds⟩

def bareTree : Tree := AList.insert (workspacePath []) .directory ∅

theorem bare_preserved : Preserves flowEnvironment ["project"] true bareTree :=
  (initialization_preserves flowEnvironment ["project"] true bareTree rfl).mpr fun _ =>
    ⟨fun there _ => absurd rfl there,fun _ there _ => absurd rfl there⟩

def secondGraph : IntentGraph := ⟨⟨"graph:project",1,"0.1.0",none,none,none,none,[],[],.empty⟩,rfl⟩

-- The graph is there, and its configuration is not.
def orphanTree : Tree := bareTree.insert graphFile (.file (GraphStore.serializeGraph canonicalOnly Yaml.flow secondGraph) 1)

theorem orphan_repairs : Repairs flowEnvironment true orphanTree := by
  have absent : ∀ name ∈ directories, orphanTree.lookup (workspacePath [name]) = none := by
    simp only [directories,requiredDirectories,List.cons_append,List.nil_append,List.forall_mem_cons]
    exact ⟨rfl,rfl,rfl,rfl,rfl,rfl,by simp⟩
  refine ⟨rfl,rfl,rfl,rfl,?_⟩
  intro name member e there
  rw [openOrCreateDirectory,absent name member] at there
  cases there

-- A forced repair writes the first graph over a later one.
theorem erased_graph :
    ¬ ∀ (env : Environment) (root : Path) (force : Bool) (t : Tree), (t.lookup (workspacePath [])).isSome = true → Preserves env root force t := by
  intro claim
  have harmless := (repaired_preserves orphan_repairs).mp (claim flowEnvironment ["project"] true orphanTree rfl)
  have read : orphanTree.read graphFile = .content (GraphStore.serializeGraph canonicalOnly Yaml.flow secondGraph) := by
    exact read_file (AList.lookup_insert _)
  have free : orphanTree.isDirectory graphFile = false := by
    simp [Tree.isDirectory,orphanTree]
  have populated : Populated flowEnvironment (GraphStore.serializeGraph canonicalOnly Yaml.flow secondGraph) :=
    ⟨secondGraph,GraphStore.parse_serialized _ _ _ (by decide),.inr (by decide)⟩
  have same := harmless.2 free (by rw [read]; simp) (.inr ⟨_,read,populated⟩)
  rw [read] at same
  have contents := congrArg flowEnvironment.yaml.load (Opened.content.inj same)
  have second := flow_loads _ ((IntentGraph.codec canonicalOnly).formed secondGraph)
  have first := flow_loads _ ((IntentGraph.codec canonicalOnly).formed (initialGraph "project"))
  have dumps : (IntentGraph.codec canonicalOnly).dump secondGraph = (IntentGraph.codec canonicalOnly).dump (initialGraph "project") :=
    Option.some.inj (second.symm.trans (contents.trans first))
  have graphs := congrArg (IntentGraph.codec canonicalOnly).load dumps
  rw [(IntentGraph.codec canonicalOnly).exact,(IntentGraph.codec canonicalOnly).exact] at graphs
  have versions := congrArg (fun g : IntentGraph => g.1.version) (Option.some.inj graphs)
  cases versions

end Flow

end Project
