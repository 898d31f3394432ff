import IntentEngineering.Library.FileTree
import IntentEngineering.Models.Project
import IntentEngineering.Stores.YamlFolding

open FileTree

namespace Project

structure Environment where
  lax : Coercions
  yaml : Yaml
  folds : yaml.Folds

inductive InitializeError where
  | unsafePath
  | incomplete
  | durableState
  | osError
deriving DecidableEq

-- Of `ProjectAlreadyInitialized`; an `OSError` has the system's own.
def InitializeError.message : InitializeError → Option String
  | .unsafePath => some "local workspace has an unsafe path"
  | .incomplete => some "local workspace is incomplete or conflicting"
  | .durableState => some "local workspace contains durable state"
  | .osError => none

structure InitializedProject where
  root : Path
  workspace : Path
  configPath : Path
  graphPath : Path

def requiredDirectories : List String := ["evidence","reconciliation","history","approvals","cache"]

def directories : List String := requiredDirectories ++ ["connectors"]

def stateFiles : List (String × String) :=
  [("evidence","evidence.jsonl"),("reconciliation","cases.jsonl"),("history","changesets.jsonl"),("cache","checkpoints.yaml"),
   ("approvals","plans.jsonl"),("approvals","approvals.jsonl"),("approvals","receipts.jsonl"),
   ("approvals","webauthn-credentials.jsonl"),("approvals","webauthn-challenges.jsonl"),("approvals","policy.yaml"),
   ("history","intent-proposals.jsonl")]

-- Below the project root.
def workspacePath (names : List String) : Path := ".intent" :: names

def configFile : Path := workspacePath ["config.yaml"]

def graphFile : Path := workspacePath ["graph.yaml"]

def isRegularFile : Entry → Bool
  | .file _ links => links == 1
  | _ => false

def openOrCreateDirectory (name : String) : Requirement := ⟨workspacePath [name],(· == .directory),.directory,rfl⟩

def ensureRegularFile (directory name : String) : Requirement := ⟨workspacePath [directory,name],isRegularFile,.file [] 1,rfl⟩

def ledgers : List Requirement :=
  [ensureRegularFile "history" "intent-proposals.jsonl",ensureRegularFile "approvals" "webauthn-credentials.jsonl",
   ensureRegularFile "approvals" "webauthn-challenges.jsonl"]

-- What a workspace that is complete and valid is given.
def completion : List Requirement :=
  openOrCreateDirectory "history" :: openOrCreateDirectory "approvals" :: ledgers ++ [openOrCreateDirectory "connectors"]

def projectName (root : Path) : String :=
  match root.getLast? with
  | none => "project"
  | some "" => "project"
  | some name => name

def initialConfig (projectId : String) : ProjectConfig SourceRoles :=
  ⟨projectId,".intent/graph.yaml","local",[".intent/**",".git/**"],true,false,.none,.defaults⟩

def initialDraft (id name : String) : GraphDraft :=
  ⟨id,0,"0.1.0",some name,some "Local evidence-backed intent graph",none,none,[],[],.empty⟩

theorem initial_invariants (id name : String) : (initialDraft id name).assertInvariants = true := rfl

def initialGraph (projectId : String) : IntentGraph := ⟨initialDraft ("graph:" ++ projectId) projectId,initial_invariants _ _⟩

variable (env : Environment)

def configBytes (projectId : String) : Utf8.Bytes :=
  env.yaml.dump ((ProjectConfig.codec env.lax SourceRoles.codec .none).dump (initialConfig projectId))

def graphBytes (projectId : String) : Utf8.Bytes := env.yaml.dump ((IntentGraph.codec env.lax).dump (initialGraph projectId))

-- An entry that is no regular file is reported; whatever else goes wrong makes the
-- workspace incomplete. A value that is no mapping does not validate.
def isCompleteValid (t : Tree) : Except InitializeError Bool :=
  match t.read configFile with
  | .irregular => .error .unsafePath
  | .missing => .ok false
  | .refused => .ok false
  | .content config =>
    match env.yaml.load config with
    | none => .ok false
    | some configData =>
      match t.read graphFile with
      | .irregular => .error .unsafePath
      | .missing => .ok false
      | .refused => .ok false
      | .content graph =>
        match env.yaml.load graph with
        | none => .ok false
        | some graphData =>
          .ok ((ProjectConfig.validate env.lax configData).isSome && ((IntentGraph.codec env.lax).load graphData).isSome &&
            requiredDirectories.all fun name => t.isDirectory (workspacePath [name]))

def stateIsEmpty (t : Tree) : List (String × String) → Except InitializeError Bool
  | [] => .ok (!t.isDirectory (workspacePath ["connectors"]) || (t.children (workspacePath ["connectors"])).isEmpty)
  | (directory,filename) :: rest =>
    if t.isDirectory (workspacePath [directory]) then
      match t.read (workspacePath [directory,filename]) with
      | .content [] => stateIsEmpty t rest
      | .content _ => .ok false
      | .missing => stateIsEmpty t rest
      | .irregular => .error .unsafePath
      | .refused => .error .osError
    else stateIsEmpty t rest

def initialized (root : Path) : InitializedProject :=
  ⟨root,root ++ workspacePath [],root ++ configFile,root ++ graphFile⟩

-- The directories, then the two files, then the ledgers.
def repair (root : Path) (t : Tree) : Except InitializeError InitializedProject × Tree :=
  match provideAll (directories.map openOrCreateDirectory) t with
  | (false,opened) => (.error .unsafePath,opened)
  | (true,opened) =>
    match opened.replace configFile (configBytes env (projectName root)) with
    | none => (.error .osError,opened)
    | some configured =>
      match configured.replace graphFile (graphBytes env (projectName root)) with
      | none => (.error .osError,configured)
      | some written =>
        match provideAll ledgers written with
        | (false,left) => (.error .unsafePath,left)
        | (true,complete) => (.ok (initialized root),complete)

def complete (root : Path) (t : Tree) : Except InitializeError InitializedProject × Tree :=
  match provideAll completion t with
  | (false,left) => (.error .unsafePath,left)
  | (true,next) => (.ok (initialized root),next)

def initializeProject (root : Path) (force : Bool) (t : Tree) : Except InitializeError InitializedProject × Tree :=
  match t.lookup (workspacePath []) with
  | none => repair env root (t.insert (workspacePath []) .directory)
  | some .directory =>
    match isCompleteValid env t with
    | .error error => (.error error,t)
    | .ok true => complete root t
    | .ok false =>
      if force then
        match stateIsEmpty t stateFiles with
        | .error error => (.error error,t)
        | .ok false => (.error .durableState,t)
        | .ok true => repair env root t
      else (.error .incomplete,t)
  | some _ => (.error .unsafePath,t)

end Project
