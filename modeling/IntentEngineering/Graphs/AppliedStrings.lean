import IntentEngineering.Graphs.Applier
import IntentEngineering.Library.SchemaStrings

open Schema

-- An application writes no string of its own but one status.
namespace Applier
open Keyed

variable {P : String → Prop} {lax : Coercions}

@[simp] theorem confidence_writes (c : Option Confidence) : lax.optionalConfidenceCodec.Writes P c := by
  cases c with
  | none => simp [Codec.Writes,Coercions.optionalConfidenceCodec,Codec.nullable,Json.strings]
  | some c => simp [Codec.Writes,Coercions.optionalConfidenceCodec,Codec.nullable,Coercions.confidenceCodec,Codec.checked,
      Codec.convert,Codec.lax,Codec.float,Json.strings]

theorem natural_writes (n : Nat) : lax.naturalCodec.Writes P n := by
  simp [Codec.Writes,Coercions.naturalCodec,Codec.natural,Codec.convert,Codec.lax,Codec.int,Json.strings]

theorem optional_time_writes (t : DateTime) : lax.optionalTimeCodec.Writes P (some t) ↔ lax.timeCodec.Writes P t := .rfl

theorem strings_writes (xs : List String) : Codec.string.list.Writes P xs ↔ ∀ x ∈ xs, P x := by
  simp [writes_list]

theorem supersede_node_writes (status : P "superseded") (n : Node) (written : (Node.codec lax).Writes P n) :
    (Node.codec lax).Writes P (supersedeNode n) := by
  simp only [Node.codec,Node.fields,writes_convert,writes_object,writes_required,writes_defaulted,writes_string] at written ⊢
  simp_all [supersedeNode]

theorem edge_aliased (e : Edge) : (Edge.codec lax true).Writes P e ↔ (Edge.aliasFields lax).Writes P e.parts := .rfl

theorem supersede_edge_writes (status : P "superseded") (e : Edge) (written : (Edge.codec lax true).Writes P e) :
    (Edge.codec lax true).Writes P (supersedeEdge e) := by
  simp only [edge_aliased,Edge.aliasFields,Edge.parts,writes_required,writes_defaulted,writes_string] at written ⊢
  simp_all [supersedeEdge]

theorem reassess_writes {c : ConfidenceChange} (change : (ConfidenceChange.codec lax).Writes P c) (n : Node)
    (written : (Node.codec lax).Writes P n) : (Node.codec lax).Writes P (reassess c n) := by
  simp only [ConfidenceChange.codec,ConfidenceChange.fields,writes_convert,writes_object,writes_required,writes_string,
    strings_writes] at change
  simp only [Node.codec,Node.fields,writes_convert,writes_object,writes_required,writes_defaulted,writes_string,
    strings_writes] at written ⊢
  obtain ⟨-,actor,-,-,-,-,-,evidence,-,-,-,-,-,reason,-,-,-,timestamp,-⟩ := change
  have basis : Codec.optionalString.Writes P (some c.reason) := (writes_string _).mpr reason
  have refs : ∀ ref ∈ fromKeys (n.evidenceRefs ++ c.evidenceRefs), P ref := by
    intro ref member
    rcases List.mem_append.mp (mem_fromKeys.mp member) with old | new
    · exact written.2.2.2.2.2.2.2.1 ref old
    · exact evidence ref new
  simp_all [reassess,optional_time_writes]

theorem reclaim_writes {changeset : ChangeSet} (actor : P changeset.1.actor) (timestamp : lax.timeCodec.Writes P changeset.1.timestamp)
    {c : ImplementationStatusChange} (change : ImplementationStatusChange.codec.Writes P c) (n : Node)
    (written : (Node.codec lax).Writes P n) : (Node.codec lax).Writes P (reclaim changeset c n) := by
  simp only [ImplementationStatusChange.codec,ImplementationStatusChange.fields,writes_convert,writes_object,writes_required,
    writes_string,strings_writes] at change
  simp only [Node.codec,Node.fields,writes_convert,writes_object,writes_required,writes_defaulted,writes_string,
    strings_writes] at written ⊢
  obtain ⟨-,-,-,evidence,-,new,-⟩ := change
  have refs : ∀ ref ∈ fromKeys (n.evidenceRefs ++ c.evidenceRefs), P ref := by
    intro ref member
    rcases List.mem_append.mp (mem_fromKeys.mp member) with old | new
    · exact written.2.2.2.2.2.2.2.1 ref old
    · exact evidence ref new
  simp_all [reclaim]

-- What a fold keeps, when each of its steps does.
theorem fold_keeps {step : σ → α → Applied σ} {kept : σ → Prop} {items : List α}
    (keeps : ∀ item ∈ items, ∀ before after, kept before → step before item = .ok after → kept after)
    (start : kept before) (ran : items.foldlM step before = .ok after) : kept after := by
  induction items generalizing before with
  | nil =>
    cases ran
    exact start
  | cons item rest ih =>
    rw [List.foldlM_cons] at ran
    cases stepped : step before item with
    | error e => simp [stepped,bind,Except.bind] at ran
    | ok middle =>
      simp only [stepped,bind,Except.bind] at ran
      exact ih (fun other member => keeps other (by simp [member])) (keeps item (by simp) _ _ start stepped) ran

section Groups
variable {α : Type} {key : α → String} {kept : α → Prop}

theorem add_keeps {x : α} (new : kept x) (before after : List α) (old : ∀ y ∈ before, kept y)
    (added : add key before x = .ok after) : ∀ y ∈ after, kept y := by
  unfold add at added
  split at added
  · cases added
  · cases added
    intro y member
    rcases List.mem_append.mp member with earlier | last
    · exact old y earlier
    · rw [List.mem_singleton.mp last]
      exact new

theorem replace_keeps {change : α → α} (changed : ∀ y, kept y → kept (change y)) (xs : List α) (name : String)
    (old : ∀ y ∈ xs, kept y) : ∀ y ∈ replace key xs name change, kept y := by
  intro y member
  obtain ⟨x,inside,rfl⟩ := List.mem_map.mp member
  split
  · exact changed x (old x inside)
  · exact old x inside

theorem modify_keeps {change : α → α} (changed : ∀ y, kept y → kept (change y)) (name : String) (before after : List α)
    (old : ∀ y ∈ before, kept y) (modified : modify key before name change = .ok after) : ∀ y ∈ after, kept y := by
  unfold modify at modified
  split at modified
  · cases modified
    exact replace_keeps changed before name old
  · cases modified

end Groups

section Writes
variable {graph next : IntentGraph} {changeset : ChangeSet}

theorem applyNodes_writes (status : P "superseded") (nodes nodes' : List Node)
    (added : ∀ n ∈ changeset.1.nodesAdded, (Node.codec lax).Writes P n)
    (updated : ∀ u ∈ changeset.1.nodesUpdated, (Node.codec lax).Writes P u.replacement)
    (old : ∀ n ∈ nodes, (Node.codec lax).Writes P n) (applied : applyNodes nodes changeset = .ok nodes') :
    ∀ n ∈ nodes', (Node.codec lax).Writes P n := by
  let kept (nodes : List Node) : Prop := ∀ n ∈ nodes, (Node.codec lax).Writes P n
  unfold applyNodes at applied
  cases first : changeset.1.nodesAdded.foldlM (add Node.id) nodes with
  | error e => simp [first,bind,Except.bind] at applied
  | ok fresh =>
  simp only [first,bind,Except.bind] at applied
  split at applied
  · cases applied
  · rename_i replaced second
    have freshly : kept fresh := fold_keeps (fun n member before after => add_keeps (added n member) before after) old first
    have replacing : kept replaced := fold_keeps
      (fun u member before after => modify_keeps (fun _ _ => updated u member) u.nodeId before after) freshly second
    exact fold_keeps (fun name _ before after => modify_keeps (supersede_node_writes status) name before after) replacing applied

theorem applyEdges_writes (status : P "superseded") (edges edges' : List Edge)
    (added : ∀ e ∈ changeset.1.edgesAdded, (Edge.codec lax true).Writes P e)
    (updated : ∀ u ∈ changeset.1.edgesUpdated, (Edge.codec lax true).Writes P u.replacement)
    (old : ∀ e ∈ edges, (Edge.codec lax true).Writes P e) (applied : applyEdges edges changeset = .ok edges') :
    ∀ e ∈ edges', (Edge.codec lax true).Writes P e := by
  let kept (edges : List Edge) : Prop := ∀ e ∈ edges, (Edge.codec lax true).Writes P e
  unfold applyEdges at applied
  cases first : changeset.1.edgesAdded.foldlM (add Edge.id) edges with
  | error e => simp [first,bind,Except.bind] at applied
  | ok fresh =>
  simp only [first,bind,Except.bind] at applied
  split at applied
  · cases applied
  · rename_i replaced second
    have freshly : kept fresh := fold_keeps (fun e member before after => add_keeps (added e member) before after) old first
    have replacing : kept replaced := fold_keeps
      (fun u member before after => modify_keeps (fun _ _ => updated u member) u.edgeId before after) freshly second
    exact fold_keeps (fun name _ before after => modify_keeps (supersede_edge_writes status) name before after) replacing applied

theorem applyChanges_writes (nodes : List Node) (actor : P changeset.1.actor) (timestamp : lax.timeCodec.Writes P changeset.1.timestamp)
    (reassessed : ∀ c ∈ changeset.1.confidenceChanges, (ConfidenceChange.codec lax).Writes P c)
    (reclaimed : ∀ c ∈ changeset.1.implementationStatusChanges, ImplementationStatusChange.codec.Writes P c)
    (old : ∀ n ∈ nodes, (Node.codec lax).Writes P n) : ∀ n ∈ applyChanges nodes changeset, (Node.codec lax).Writes P n := by
  let kept (nodes : List Node) : Prop := ∀ n ∈ nodes, (Node.codec lax).Writes P n
  have first : kept (changeset.1.confidenceChanges.foldl (fun nodes c => replace Node.id nodes c.subjectRef (reassess c)) nodes) :=
    List.foldlRecOn _ _ old fun nodes held c member => replace_keeps (reassess_writes (reassessed c member)) nodes c.subjectRef held
  exact List.foldlRecOn (motive := kept) _ _ first fun nodes held c member =>
    replace_keeps (reclaim_writes actor timestamp (reclaimed c member)) nodes c.claimId held

-- The strings of the new graph are those of the old one and of the change set.
theorem applied_writes (status : P "superseded") (written : (IntentGraph.codec lax).Writes P graph)
    (changed : (ChangeSet.codec lax true).Writes P changeset) (applied : applyWithCaseEffects graph changeset = .ok next) :
    (IntentGraph.codec lax).Writes P next := by
  obtain ⟨nodes,edges,a⟩ := applied_iff.mp applied
  simp only [IntentGraph.codec,GraphDraft.codec,GraphDraft.fields,writes_checked,writes_convert,writes_object,writes_required,
    writes_defaulted,writes_list] at written ⊢
  simp only [ChangeSet.codec,ChangeSetDraft.codec,ChangeSetDraft.fields,NodeUpdate.codec,EdgeUpdate.codec,writes_checked,
    writes_convert,writes_object,writes_required,writes_string,writes_list] at changed
  obtain ⟨-,actor,-,-,-,reassessed,-,edgesAdded,-,-,-,edgesUpdated,-,-,-,-,-,reclaimed,-,nodesAdded,-,-,-,nodesUpdated,-,-,-,-,-,
    timestamp,-⟩ := changed
  obtain ⟨n1,createdAt,n2,oldEdges,n3,id,n4,name,n5,oldNodes,n6,purpose,n7,schema,n8,spec,n9,registry,n10,-,nil⟩ := written
  have nodesKept := applyNodes_writes status _ _ nodesAdded (fun u member => (nodesUpdated u member).2.2.2.1) oldNodes a.nodesApplied
  have edgesKept := applyEdges_writes status _ _ edgesAdded (fun u member => (edgesUpdated u member).2.2.2.1) oldEdges a.edgesApplied
  have changesKept := applyChanges_writes nodes actor timestamp reassessed reclaimed nodesKept
  rw [a.result]
  exact ⟨n1,createdAt,n2,fun e member => edgesKept e (inOrder_member.mp member),n3,id,n4,name,n5,
    fun n member => changesKept n (inOrder_member.mp member),n6,purpose,n7,schema,n8,spec,n9,registry,n10,natural_writes _,nil⟩

end Writes

end Applier
