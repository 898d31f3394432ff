import IntentEngineering.Library.Keyed
import IntentEngineering.Library.PyEqual
import IntentEngineering.Models.Evidence
import IntentEngineering.Models.Project
import IntentEngineering.Reconcile.Transitions

open Binary64

-- The character tables behind `str.lower` and `\w`.
structure Alphabet where
  lower : String → String
  word : Char → Bool

-- `_tokens`: the set of the words, as a list.
def Alphabet.tokens (a : Alphabet) (value : String) : List (List Char) :=
  (((a.lower value).toList.splitOnP fun c => !a.word c).filter (· ≠ [])).dedup

-- Who asks: nobody named, one actor, or a set of principals.
inductive Audience where
  | anyone
  | actor (name : String)
  | principals (names : List String)

-- `record.acl` against `actor`
def Audience.reads (audience : Audience) (record : EvidenceRecord) : Bool :=
  record.acl.isEmpty || match audience with
    | .anyone => false
    | .actor name => record.acl.contains name
    | .principals names => record.acl.any names.contains

-- What a provider is built over.
structure Workspace where
  graph : IntentGraph
  cases : List ReconciliationCase
  evidence : List EvidenceRecord

structure ContextItem where
  id : String
  type : String
  label : String
  confidence : Option Confidence
  evidenceRefs : List String

structure ContextPack where
  task : String
  relevantIntent : List ContextItem
  relevantRequirements : List ContextItem
  decisions : List ContextItem
  constraints : List ContextItem
  acceptanceCriteria : List ContextItem
  codeRefs : List ContextItem
  testRefs : List ContextItem
  openReconciliationCases : List ContextItem
  evidenceRefs : List String
  warnings : List String

namespace ContextProvider

def intentTypes : List String := ["CONTEXT","NEED","PRODUCT_INTENT","DESIRED_OUTCOME","ASSUMPTION","PRINCIPLE"]
def requirementTypes : List String := ["REQUIREMENT","CAPABILITY"]
def decisionTypes : List String := ["DECISION","ARCHITECTURE","INTERFACE","DATA_CONTRACT"]
def constraintTypes : List String := ["CONSTRAINT","POLICY"]
def codeTypes : List String := ["REPOSITORY","MODULE","FILE","SYMBOL","ENDPOINT","SCHEMA","BUILD_ARTIFACT","DEPLOYMENT"]

-- `_REF_LIMITS`
def refLimits : List (String × Int) :=
  [("relevant_intent",10),("relevant_requirements",10),("decisions",10),("constraints",10),("acceptance_criteria",10),
   ("code_refs",20),("test_refs",20),("open_reconciliation_cases",10),("evidence_refs",20)]

section
variable (w : Workspace)

def record (reference : String) : Option EvidenceRecord := Keyed.latest EvidenceRecord.id w.evidence reference

-- `_scope`
def scope (record : EvidenceRecord) : Option String :=
  match record.payload.1.lookup "repository_scope" with
  | some (.str scope) => some scope
  | _ => none

variable (repositoryScope : Option String) (audience : Audience)

def evidenceAllowed (record : EvidenceRecord) : Bool :=
  audience.reads record && (repositoryScope.isNone || scope record == repositoryScope)

def refsAllowed (references : List String) : Bool :=
  references.all fun reference => (record w reference).any (evidenceAllowed repositoryScope audience)

-- The values of `active_nodes`; the nodes of a graph have distinct identifiers.
def activeNodes : List Node :=
  w.graph.1.nodes.filter fun n => n.status == "active" && refsAllowed w repositoryScope audience n.evidenceRefs

end

section
variable (active : List Node)

def isActive (id : String) : Bool := (active.map Node.id).contains id

-- The edges that `_expand` follows.
def activeEdges (edges : List Edge) : List Edge :=
  edges.filter fun e => e.status == "active" && (isActive active e.fromId && isActive active e.toId)

end

def neighbours (edges : List Edge) (id : String) : List String :=
  (edges.flatMap fun e => (if e.fromId == id then [e.toId] else []) ++ (if e.toId == id then [e.fromId] else [])).dedup.insertionSort (· ≤ ·)

-- The nodes of one distance, each with its neighbours: `selected` and the nodes found.
def expandFrom (edges : List Edge) (selected : List String) (frontier : List String) : List String × List String :=
  (frontier.flatMap (neighbours edges)).foldl
    (fun found id => if found.1.contains id then found else (found.1 ++ [id],found.2 ++ [id])) (selected,[])

-- `_expand`: two hops; the queue holds all nodes of one distance before the next.
def expand (edges : List Edge) (seeds : List String) : List String :=
  let first := expandFrom edges seeds (seeds.insertionSort (· ≤ ·))
  (expandFrom edges first.1 first.2).1

-- `sorted(values, key=lambda value: (-score(value), id(value)))`
def ranked (score : α → Nat) (id : α → String) (values : List α) : List α :=
  values.mergeSort fun a b => decide (score b < score a) || (score a == score b && decide (id a ≤ id b))

def isNonterminal : ReconciliationStatus → Bool
  | .opened | .proposed | .needsHuman => true
  | _ => false

section
variable (w : Workspace) (repositoryScope : Option String) (audience : Audience)

-- `self._cases`: the last case under each identifier, in order.
def latestCases : List ReconciliationCase :=
  ((w.cases.map ReconciliationCase.id).dedup.insertionSort (· ≤ ·)).filterMap (Keyed.latest ReconciliationCase.id w.cases)

def selectedCases (selected : List String) : List ReconciliationCase :=
  (latestCases w).filter fun case =>
    isNonterminal case.status && (selected.contains case.subjectRef || case.affectedRefs.any selected.contains) &&
      refsAllowed w repositoryScope audience case.allEvidenceRefs

end

-- `_cap`
def cap (limits : ContextLimits) (fixedCaps : Bool) (category : String) (values : List α) : List α :=
  let limit := (limits.limits.lookup category).getD values.length
  let limit := if fixedCaps then min limit ((refLimits.lookup category).getD limit) else limit
  values.take limit.toNat

def itemForNode (n : Node) : ContextItem := ⟨n.id,n.type,n.label,n.intentFidelityConfidence,n.evidenceRefs⟩

def itemForCase (case : ReconciliationCase) : ContextItem :=
  ⟨case.id,"RECONCILIATION_CASE",case.caseType.spelling ++ ": " ++ case.subjectRef,none,case.allEvidenceRefs⟩

section
variable (scores : String → Nat)

def caseScore (case : ReconciliationCase) : Nat := ((case.subjectRef :: case.affectedRefs).map scores).foldl max 0

-- `_evidence_refs`, each reference with the highest score that cites it.
def evidenceRefs (limits : ContextLimits) (fixedCaps : Bool) (nodes : List Node) (cases : List ReconciliationCase) : List String :=
  let cited := (nodes.flatMap fun n => n.evidenceRefs.map fun reference => (reference,scores n.id)) ++
    cases.flatMap fun case => case.allEvidenceRefs.map fun reference => (reference,caseScore scores case)
  let evidenceScore (reference : String) : Nat := ((cited.filter (·.1 == reference)).map Prod.snd).foldl max 0
  cap limits fixedCaps "evidence_refs" (ranked evidenceScore id (cited.map Prod.fst).dedup)

-- The float `0.65`.
def confidenceFloor : Float64 := nearest false (65 / 100)

def lowConfidence (n : Node) : Bool :=
  n.intentFidelityConfidence.any fun confidence => (Json.floatAmount confidence.1).less (Json.floatAmount confidenceFloor)

def warnings (nodes : List Node) : List String :=
  let found := nodes.flatMap fun n =>
    (if lowConfidence n then [(n.id,"low confidence: " ++ n.id)] else []) ++
      if n.evidenceRefs.isEmpty then [(n.id,"missing evidence: " ++ n.id)] else []
  let before (a b : String × String) : Bool :=
    decide (scores b.1 < scores a.1) || (scores a.1 == scores b.1 && (decide (a.1 < b.1) || (a.1 == b.1 && decide (a.2 ≤ b.2))))
  (found.mergeSort before).map Prod.snd

end

-- The arguments of `_build`.
structure Request where
  query : String
  repositoryScope : Option String
  audience : Audience
  exactSeedId : Option String
  exactSeedIds : Option (List String)
  fixedCaps : Bool

section
variable (alphabet : Alphabet) (limits : ContextLimits) (w : Workspace)

section
variable (r : Request) (active : List Node)

def overlap (n : Node) : Nat := ((alphabet.tokens r.query).filter (alphabet.tokens n.label).contains).length

-- `none` when an exact seed is not active.
def seedIds : Option (List String) :=
  match r.exactSeedIds, r.exactSeedId with
  | some ids, _ => if ids.all (isActive active) then some ids else none
  | none, some id => some (if isActive active id then [id] else [])
  | none, none => some ((active.filter fun n => decide (0 < overlap alphabet r n)).map Node.id)

def scores (id : String) : Nat :=
  if (r.exactSeedIds.getD []).contains id then 1 else ((Keyed.find Node.id active id).map (overlap alphabet r)).getD 0

end

section
variable (r : Request) (active : List Node) (edges : List Edge) (casesOf : List String → List ReconciliationCase)

-- The pack of the nodes, edges and cases that take part.
def pack (seeds : List String) : ContextPack :=
  let scores := scores alphabet r active
  let selectedIds := expand edges seeds
  let selected := active.filter fun n => selectedIds.contains n.id
  let capped (category : String) (types : List String) : List Node :=
    cap limits r.fixedCaps category (ranked (fun n => scores n.id) Node.id (selected.filter fun n => types.contains n.type))
  let relevantIntent := capped "relevant_intent" intentTypes
  let relevantRequirements := capped "relevant_requirements" requirementTypes
  let decisions := capped "decisions" decisionTypes
  let constraints := capped "constraints" constraintTypes
  let acceptanceCriteria := capped "acceptance_criteria" ["ACCEPTANCE_CRITERION"]
  let codeRefs := capped "code_refs" codeTypes
  let testRefs := capped "test_refs" ["TEST"]
  let cases := cap limits r.fixedCaps "open_reconciliation_cases"
    (ranked (caseScore scores) ReconciliationCase.id (casesOf selectedIds))
  let nodes := relevantIntent ++ relevantRequirements ++ decisions ++ constraints ++ acceptanceCriteria ++ codeRefs ++ testRefs
  { task := r.query
    relevantIntent := relevantIntent.map itemForNode
    relevantRequirements := relevantRequirements.map itemForNode
    decisions := decisions.map itemForNode
    constraints := constraints.map itemForNode
    acceptanceCriteria := acceptanceCriteria.map itemForNode
    codeRefs := codeRefs.map itemForNode
    testRefs := testRefs.map itemForNode
    openReconciliationCases := cases.map itemForCase
    evidenceRefs := evidenceRefs scores limits r.fixedCaps nodes cases
    warnings := warnings scores nodes }

def packed : Option ContextPack := (seedIds alphabet r active).map (pack alphabet limits r active edges casesOf)

end

def build (r : Request) : Option ContextPack :=
  let active := activeNodes w r.repositoryScope r.audience
  packed alphabet limits r active (activeEdges active w.graph.1.edges) (selectedCases w r.repositoryScope r.audience)

def forTask (task : String) (repositoryScope : Option String) (audience : Audience) : Option ContextPack :=
  build alphabet limits w ⟨task,repositoryScope,audience,none,none,false⟩

def forSymbol (symbolRef : String) (audience : Audience) : Option ContextPack :=
  build alphabet limits w ⟨symbolRef,none,audience,if symbolRef = "" then none else some symbolRef,none,false⟩

-- The principals of `for_refs`; `none` is no collection.
def refPrincipals : Audience → Option Audience
  | .anyone => none
  | .actor name => some (.actor name)
  | .principals names => if names = [] ∨ "" ∈ names then none else some (.principals names)

-- `none` is `intent context unavailable`, whatever went wrong.
def forRefs (nodeIds : List String) (audience : Audience) : Option ContextPack :=
  if nodeIds = [] ∨ 256 < nodeIds.length ∨ "" ∈ nodeIds ∨ ¬nodeIds.Nodup then none
  else
    (refPrincipals audience).bind fun principals =>
      let requested := nodeIds.insertionSort (· ≤ ·)
      (build alphabet limits w ⟨"",none,principals,none,some requested,true⟩).bind fun pack =>
        let items := pack.relevantIntent ++ pack.relevantRequirements ++ pack.decisions ++ pack.constraints ++
          pack.acceptanceCriteria ++ pack.codeRefs ++ pack.testRefs
        if requested.all (items.map ContextItem.id).contains then some pack else none

inductive Question where
  | task (task : String) (repositoryScope : Option String)
  | symbol (symbolRef : String)
  | refs (nodeIds : List String)

def answer (question : Question) (audience : Audience) : Option ContextPack :=
  match question with
  | .task task repositoryScope => forTask alphabet limits w task repositoryScope audience
  | .symbol symbolRef => forSymbol alphabet limits w symbolRef audience
  | .refs nodeIds => forRefs alphabet limits w nodeIds audience

end

end ContextProvider
