import IntentEngineering.Models.Graph
import IntentEngineering.Models.Proposals

open Schema Json

-- `normalize_source_roles`: sorted by connector and scope, no pair twice.
structure SourceRoles where
  assignments : List SourceRoleAssignment
  sorted : assignments.Pairwise fun a b => ¬ b.before a
  distinct : (assignments.map fun a => (a.connectorId,a.scope)).Nodup
  bounded : ∀ a ∈ assignments, a.bounds = true

namespace SourceRoles

def build (assignments : List SourceRoleAssignment) : Option SourceRoles :=
  let normalized := assignments.insertionSort fun a b => ¬ b.before a
  if valid : normalized.Pairwise (fun a b => ¬ b.before a) ∧ (normalized.map fun a => (a.connectorId,a.scope)).Nodup ∧
      ∀ a ∈ normalized, a.bounds = true then
    some ⟨normalized,valid.1,valid.2.1,valid.2.2⟩
  else none

theorem build_assignments (r : SourceRoles) : build r.assignments = some r := by
  have ordered : r.assignments.insertionSort (fun a b => ¬ b.before a) = r.assignments := r.sorted.insertionSort_eq
  simp only [build,ordered]
  rw [dif_pos ⟨r.sorted,r.distinct,r.bounded⟩]

theorem no_assignments : ([] : List SourceRoleAssignment).Pairwise (fun a b => ¬ b.before a) ∧
    (([] : List SourceRoleAssignment).map fun a => (a.connectorId,a.scope)).Nodup ∧ ∀ a ∈ ([] : List SourceRoleAssignment), a.bounds = true :=
  ⟨.nil,List.nodup_nil,by simp⟩

def none : SourceRoles := ⟨[],no_assignments.1,no_assignments.2.1,no_assignments.2.2⟩

-- As JSON text gives them.
def codec : Codec SourceRoles := SourceRoleAssignment.codec.list.convert build assignments build_assignments

-- As Python objects give them: a strict role is a member of the enumeration, and
-- no loaded value is one.
def strictCodec : Codec Unit where
  dump _ := .arr []
  load | .arr [] => some () | _ => Option.none
  exact _ := rfl
  formed _ := trivial

end SourceRoles

-- `dict[str, int]`
structure ContextLimits where
  limits : List (String × Int)
  ascending : (limits.map Prod.fst).Pairwise (· < ·)

namespace ContextLimits

def members (c : ContextLimits) : Members := c.limits.map fun m => (m.1,.int m.2)

theorem members_formed (c : ContextLimits) : (Json.obj c.members).WellFormed := by
  have names : c.members.map Prod.fst = c.limits.map Prod.fst := by simp [members]
  refine ⟨by rw [names]; exact c.ascending,?_⟩
  have each (limits : List (String × Int)) : WellFormedMembers (limits.map fun m => (m.1,Json.int m.2)) := by
    induction limits with
    | nil => trivial
    | cons first rest ih => exact ⟨trivial,ih⟩
  exact each c.limits

variable (lax : Coercions)

def limit (m : String × Json) : Option (String × Int) := ((Codec.int.lax lax.integer).load m.2).map fun n => (m.1,n)

def build (ms : Members) : Option ContextLimits :=
  (ms.mapM (limit lax)).bind fun limits =>
    if ascending : (limits.map Prod.fst).Pairwise (· < ·) then some ⟨limits,ascending⟩ else none

theorem build_members (c : ContextLimits) : build lax c.members = some c := by
  have each (limits : List (String × Int)) : (limits.map fun m => (m.1,Json.int m.2)).mapM (limit lax) = some limits := by
    induction limits with
    | nil => rfl
    | cons first rest ih =>
      have head : limit lax (first.1,.int first.2) = some first := rfl
      simp [head,ih]
  simp only [build,members,each,Option.bind_some]
  rw [dif_pos c.ascending]

def codec : Codec ContextLimits :=
  Codec.mapping.convert (fun ms => build lax ms.1) (fun c => ⟨c.members,c.members_formed⟩) (build_members lax)

-- `_DEFAULT_CONTEXT_LIMITS`
def defaultLimits : List (String × Int) :=
  [("acceptance_criteria",10),("code_refs",20),("constraints",10),("decisions",10),("evidence_refs",20),
   ("open_reconciliation_cases",10),("relevant_intent",10),("relevant_requirements",10),("test_refs",20)]

theorem default_ascending : (defaultLimits.map Prod.fst).Pairwise (· < ·) := by decide

def defaults : ContextLimits := ⟨defaultLimits,default_ascending⟩

end ContextLimits

structure ProjectConfig (ρ : Type) where
  projectId : String
  graphPath : String
  localActor : String
  sourceExclusions : List String
  autoApplyMetadata : Bool
  autoApplySemantic : Bool
  sourceRoles : ρ
  contextLimits : ContextLimits

namespace ProjectConfig

def fields (lax : Coercions) (roles : Codec ρ) (unassigned : ρ) :=
  Fields.defaulted "auto_apply_metadata" lax.flagCodec true <|
  Fields.defaulted "auto_apply_semantic" lax.flagCodec false <|
  Fields.defaulted "context_limits" (ContextLimits.codec lax) .defaults <|
  Fields.defaulted "graph_path" Codec.string ".intent/graph.yaml" <|
  Fields.required "local_actor" Codec.string <|
  Fields.required "project_id" Codec.string <|
  Fields.defaulted "source_exclusions" Codec.string.list [] <|
  Fields.defaulted "source_roles" roles unassigned <|
  Fields.nil

def codec (lax : Coercions) (roles : Codec ρ) (unassigned : ρ) : Codec (ProjectConfig ρ) :=
  (Codec.object (fields lax roles unassigned)).convert
    (fun (autoApplyMetadata,autoApplySemantic,contextLimits,graphPath,localActor,projectId,sourceExclusions,sourceRoles,_) =>
      some ⟨projectId,graphPath,localActor,sourceExclusions,autoApplyMetadata,autoApplySemantic,sourceRoles,contextLimits⟩)
    (fun c => (c.autoApplyMetadata,c.autoApplySemantic,c.contextLimits,c.graphPath,c.localActor,c.projectId,c.sourceExclusions,
      c.sourceRoles,()))
    (fun _ => rfl)

-- `ProjectConfig.model_validate_json`, by which the runtime reads a configuration.
def validateJson (lax : Coercions) (v : Json) : Option (ProjectConfig SourceRoles) := (codec lax SourceRoles.codec .none).load v

-- `ProjectConfig.model_validate` of a loaded mapping.
def validate (lax : Coercions) (v : Json) : Option (ProjectConfig Unit) := (codec lax SourceRoles.strictCodec ()).load v

-- The two readers part at the first assignment.
theorem assigned_refused (lax : Coercions) (c : ProjectConfig SourceRoles) (assigned : c.sourceRoles.assignments ≠ []) :
    validateJson lax ((codec lax SourceRoles.codec .none).dump c) = some c ∧
      validate lax ((codec lax SourceRoles.codec .none).dump c) = none := by
  refine ⟨(codec lax SourceRoles.codec .none).exact c,?_⟩
  have refused : SourceRoles.strictCodec.load (SourceRoles.codec.dump c.sourceRoles) = Option.none := by
    cases roles : c.sourceRoles.assignments with
    | nil => exact absurd roles assigned
    | cons first rest => simp [SourceRoles.strictCodec,SourceRoles.codec,Codec.convert,Codec.list,roles]
  obtain ⟨ms,shape,stands⟩ : ∃ ms, (codec lax SourceRoles.codec .none).dump c = .obj ms ∧
    ms.lookup "source_roles" = some (SourceRoles.codec.dump c.sourceRoles) := ⟨_,rfl,rfl⟩
  have last : (Fields.push "source_roles" SourceRoles.strictCodec (some ()) Fields.nil (Fields.before_nil _)).load ms = Option.none := by
    simp only [Fields.push,stands,refused,Option.bind_none]
  rw [shape]
  apply convert_none
  apply object_none
  exact push_none _ _ _ _ (by decide) (push_none _ _ _ _ (by decide) (push_none _ _ _ _ (by decide)
    (push_none _ _ _ _ (by decide) (push_none _ _ _ _ (by decide) (push_none _ _ _ _ (by decide)
      (push_none _ _ _ _ (by decide) last))))))

end ProjectConfig
