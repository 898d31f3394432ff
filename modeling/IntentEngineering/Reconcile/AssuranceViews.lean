import IntentEngineering.Reconcile.Assurance
import IntentEngineering.Stores.LedgerFraming
import Mathlib.Data.List.ReduceOption

-- Runs that have given something, taken apart.
theorem except_bind_ok {α β ε : Type} {x : Except ε α} {f : α → Except ε β} {b : β} (got : x.bind f = .ok b) : ∃ a, x = .ok a ∧ f a = .ok b := by
  cases x with
  | error e => cases got
  | ok a => exact ⟨a,rfl,got⟩

theorem except_mapError_ok {α ε δ : Type} {x : Except ε α} {f : ε → δ} {a : α} (got : x.mapError f = .ok a) : x = .ok a := by
  cases x with
  | error e => cases got
  | ok b => exact congrArg Except.ok (Except.ok.inj got)

-- What runs over a list, one after the other, have given.
theorem runs_mem {α β ε : Type} {f : α → Except ε β} {xs : List α} {ys : List β} {y : β} (ran : xs.mapM f = .ok ys) :
    y ∈ ys ↔ ∃ x ∈ xs, f x = .ok y := by
  induction xs generalizing ys with
  | nil =>
    cases ran
    simp
  | cons x xs ih =>
    rw [List.mapM_cons] at ran
    obtain ⟨found,first,ran⟩ := except_bind_ok ran
    obtain ⟨later,rest,ran⟩ := except_bind_ok ran
    cases ran
    rw [List.mem_cons,ih rest]
    simp [first,eq_comm]

theorem gathered_mem {α β ε : Type} {f : α → Except ε (List β)} {xs : List α} {all : List β} {b : β}
    (ran : (xs.mapM f).map List.flatten = .ok all) : b ∈ all ↔ ∃ x ∈ xs, ∃ found, f x = .ok found ∧ b ∈ found := by
  obtain ⟨found,lists,rfl⟩ := except_map_ok ran
  rw [List.mem_flatten]
  constructor
  · intro inside
    obtain ⟨list,member,inside⟩ := inside
    obtain ⟨x,listed,ran⟩ := (runs_mem lists).mp member
    exact ⟨x,listed,list,ran,inside⟩
  · intro inside
    obtain ⟨x,listed,list,ran,inside⟩ := inside
    exact ⟨list,(runs_mem lists).mpr ⟨x,listed,ran⟩,inside⟩

-- The same of lookups, each of which has found something.
theorem lookups_mem {α β : Type} {f : α → Option β} {xs : List α} {ys : List β} (ran : xs.mapM f = some ys) :
    (∀ y, y ∈ ys ↔ ∃ x ∈ xs, f x = some y) ∧ ∀ x ∈ xs, ∃ y, f x = some y := by
  induction xs generalizing ys with
  | nil =>
    cases ran
    simp
  | cons x xs ih =>
    rw [List.mapM_cons] at ran
    obtain ⟨found,here,ran⟩ := Option.bind_eq_some_iff.mp ran
    obtain ⟨later,rest,ran⟩ := Option.bind_eq_some_iff.mp ran
    cases ran
    obtain ⟨members,each⟩ := ih rest
    refine ⟨?_,?_⟩
    · intro y
      rw [List.mem_cons,members y]
      simp [here,eq_comm]
    · intro z listed
      rcases List.mem_cons.mp listed with rfl | inside
      · exact ⟨found,here⟩
      · exact each z inside

namespace Assurance
open EvidenceDetection

section Sides
variable {actor : String} {records : List EvidenceRecord} {ingestions : List EvidenceIngestion} {n : Node} {s : EvidenceSide}

theorem sideFrom_some (made : sideFrom n sourceMode confidence resolved now = .ok (some s)) :
    s.label = n.type ∧ s.evidenceRefs = n.evidenceRefs.insertionSort (· ≤ ·) ∧ s.current = now := by
  unfold sideFrom at made
  dsimp only at made
  split at made
  · cases made
  · obtain ⟨latest,_,made⟩ := except_bind_ok made
    cases latest with
    | none => cases made
    | some observedAt =>
      dsimp only at made
      split at made
      · cases made
        exact ⟨rfl,rfl,rfl⟩
      · cases made

-- A side rests on records that can all be read.
theorem side_some (given : side actor records ingestions n = .ok (some s)) :
    ∃ sourceMode confidence resolved, n.sourceMode = some sourceMode ∧ n.intentFidelityConfidence = some confidence ∧ n.evidenceRefs ≠ [] ∧
      n.evidenceRefs.mapM (Keyed.latest EvidenceRecord.id records) = some resolved ∧ resolved.all (readable actor records) = true ∧
      sideFrom n sourceMode confidence resolved (resolved.all (current ingestions)) = .ok (some s) := by
  unfold side at given
  split at given
  · rename_i sourceMode confidence mode certain
    split at given
    · cases given
    rename_i cited
    split at given
    · cases given
    rename_i resolved found
    split at given
    · rename_i allowed
      exact ⟨sourceMode,confidence,resolved,mode,certain,cited,found,allowed,given⟩
    · cases given
  · cases given

theorem resolved_mem {refs : List String} {resolved : List EvidenceRecord}
    (found : refs.mapM (Keyed.latest EvidenceRecord.id records) = some resolved) : ∀ r ∈ resolved, r ∈ records := by
  intro r member
  obtain ⟨ref,_,gave⟩ := ((lookups_mem found).1 r).mp member
  exact (Keyed.latest_key gave).1

theorem readable_iff {r : EvidenceRecord} (member : r ∈ records) :
    readable actor records r = true ↔ ∀ q ∈ records, sameObject r q = true → evidenceAllowed actor q = true := by
  have itself : sameObject r r = true := by simp [sameObject]
  have chain : r ∈ records.filter (sameObject r) := List.mem_filter.mpr ⟨member,itself⟩
  simp only [readable,Bool.and_eq_true,Bool.not_eq_true',List.isEmpty_eq_false_iff,List.all_eq_true,List.mem_filter,and_imp]
  constructor
  · intro allowed
    exact allowed.1.2
  · intro all
    exact ⟨⟨List.ne_nil_of_mem chain,all⟩,all r member itself⟩

-- Who may read more sees the same side of a node.
theorem side_more {other : String} (more : ∀ r ∈ records, evidenceAllowed actor r = true → evidenceAllowed other r = true)
    (given : side actor records ingestions n = .ok (some s)) : side other records ingestions n = .ok (some s) := by
  obtain ⟨sourceMode,confidence,resolved,mode,certain,cited,found,allowed,made⟩ := side_some given
  have wider : resolved.all (readable other records) = true := by
    apply List.all_eq_true.mpr
    intro r member
    have inside := resolved_mem found r member
    have before := (readable_iff inside).mp (List.all_eq_true.mp allowed r member)
    exact (readable_iff inside).mpr fun q present same => more q present (before q present same)
  unfold side
  simp only [mode,certain,if_neg cited,found,wider,if_true,made]

end Sides

section Views
variable {actor : String} {graph : IntentGraph} {records : List EvidenceRecord} {ingestions : List EvidenceIngestion} {v : View}

theorem seenNode_some {n : Node} {s : Seen} :
    seenNode actor records ingestions n = .ok (some s) ↔ s.node = n ∧ side actor records ingestions n = .ok (some s.side) := by
  unfold seenNode
  cases side actor records ingestions n with
  | error e => simp [Except.map]
  | ok found =>
    cases found with
    | none => simp [Except.map]
    | some given =>
      obtain ⟨node,side'⟩ := s
      simp only [Except.map,Option.map_some,Except.ok.injEq,Option.some.injEq,Seen.mk.injEq]
      exact and_congr_left fun _ => eq_comm

theorem seen_members {nodes : List Node} {sides : List (Option Seen)} (ran : nodes.mapM (seenNode actor records ingestions) = .ok sides)
    (s : Seen) : s ∈ sides.reduceOption ↔ s.node ∈ nodes ∧ side actor records ingestions s.node = .ok (some s.side) := by
  rw [List.reduceOption_mem_iff,runs_mem ran]
  constructor
  · intro found
    obtain ⟨n,member,gave⟩ := found
    obtain ⟨rfl,given⟩ := seenNode_some.mp gave
    exact ⟨member,given⟩
  · intro found
    exact ⟨s.node,found.1,seenNode_some.mpr ⟨rfl,found.2⟩⟩

theorem seen_nodes {nodes : List Node} {sides : List (Option Seen)} (ran : nodes.mapM (seenNode actor records ingestions) = .ok sides) :
    (sides.reduceOption.map Seen.node).Sublist nodes := by
  induction nodes generalizing sides with
  | nil =>
    cases ran
    simp [List.reduceOption_nil]
  | cons n nodes ih =>
    rw [List.mapM_cons] at ran
    obtain ⟨found,first,ran⟩ := except_bind_ok ran
    obtain ⟨later,rest,ran⟩ := except_bind_ok ran
    cases ran
    cases found with
    | none =>
      rw [List.reduceOption_cons_of_none]
      exact (ih rest).cons n
    | some given =>
      obtain ⟨node,_⟩ := seenNode_some.mp first
      rw [List.reduceOption_cons_of_some,List.map_cons,node]
      exact (ih rest).cons_cons n

-- What a view shows of the graph.
structure Shows (actor : String) (graph : IntentGraph) (records : List EvidenceRecord) (ingestions : List EvidenceIngestion) (v : View) :
    Prop where
  edges : v.allActiveEdges = allActiveEdges graph
  distinct : (v.seen.map Seen.id).Nodup
  seen : ∀ s, s ∈ v.seen ↔ s.node ∈ allNodes graph ∧ side actor records ingestions s.node = .ok (some s.side)

theorem view_shows (ran : view actor graph records ingestions = .ok v) : Shows actor graph records ingestions v := by
  unfold view at ran
  obtain ⟨found,sides,rfl⟩ := except_map_ok ran
  refine ⟨rfl,?_,seen_members sides⟩
  have nodes : (graph.1.nodes.map Node.id).Nodup := by
    have valid := graph.2
    simp only [GraphDraft.assertInvariants,Bool.and_eq_true,decide_eq_true_eq] at valid
    exact valid.1.1.1
  have below := ((seen_nodes sides).trans List.filter_sublist).map Node.id
  rw [List.map_map] at below
  exact nodes.sublist below

theorem Shows.find {id : String} {s : Seen} (shows : Shows actor graph records ingestions v) : v.find id = some s ↔ s ∈ v.seen ∧ s.id = id := by
  constructor
  · exact Keyed.find_key
  · intro found
    obtain ⟨member,named⟩ := found
    subst named
    exact Keyed.find_member shows.distinct member

end Views

-- One view shows all that another does, on the same edges.
structure Below (v v' : View) : Prop where
  edges : v'.allActiveEdges = v.allActiveEdges
  found : ∀ id s, v.find id = some s → v'.find id = some s

theorem view_below {a b : String} {graph : IntentGraph} {records : List EvidenceRecord} {ingestions : List EvidenceIngestion} {v v' : View}
    (more : ∀ r ∈ records, evidenceAllowed a r = true → evidenceAllowed b r = true)
    (first : Shows a graph records ingestions v) (second : Shows b graph records ingestions v') : Below v v' := by
  refine ⟨second.edges.trans first.edges.symm,?_⟩
  intro id s found
  obtain ⟨member,named⟩ := first.find.mp found
  obtain ⟨active,given⟩ := (first.seen s).mp member
  exact second.find.mpr ⟨(second.seen s).mpr ⟨active,side_more more given⟩,named⟩

section Links
variable {v : View}

theorem activeEdges_mem {e : Edge} : e ∈ v.activeEdges ↔ e ∈ v.allActiveEdges ∧ v.sees e.fromId = true ∧ v.sees e.toId = true := by
  simp [View.activeEdges]

theorem linked_mem {id target : String} : target ∈ v.linked id ↔
    ∃ e ∈ v.activeEdges, (e.fromId = id ∧ e.toId = target) ∨ (e.toId = id ∧ e.fromId = target) := by
  simp only [View.linked,List.mem_flatMap,List.mem_append]
  refine exists_congr fun e => and_congr_right fun _ => or_congr ?_ ?_
  · split
    · rename_i here
      simp [here,eq_comm]
    · rename_i apart
      simp [apart]
  · split
    · rename_i here
      simp [here,eq_comm]
    · rename_i apart
      simp [apart]

theorem linked_sees {id target : String} (linked : target ∈ v.linked id) : v.sees target = true := by
  obtain ⟨e,active,ends⟩ := linked_mem.mp linked
  obtain ⟨_,origin,end'⟩ := activeEdges_mem.mp active
  rcases ends with ⟨_,rfl⟩ | ⟨_,rfl⟩
  · exact end'
  · exact origin

theorem obscured_mem {id : String} : id ∈ v.obscured ↔ v.sees id = true ∧
    ∃ e ∈ v.allActiveEdges, (e.fromId = id ∧ v.sees e.toId = false) ∨ (e.toId = id ∧ v.sees e.fromId = false) := by
  simp only [View.obscured,List.mem_flatMap,List.mem_map,List.mem_filter,List.mem_cons,List.not_mem_nil,or_false,Bool.and_eq_true,
    Bool.not_eq_true']
  constructor
  · intro found
    obtain ⟨e,member,pair,⟨which,sees,hidden⟩,rfl⟩ := found
    rcases which with rfl | rfl
    · exact ⟨sees,e,member,.inl ⟨rfl,hidden⟩⟩
    · exact ⟨sees,e,member,.inr ⟨rfl,hidden⟩⟩
  · intro found
    obtain ⟨sees,e,member,⟨rfl,hidden⟩ | ⟨rfl,hidden⟩⟩ := found
    · exact ⟨e,member,_,⟨.inl rfl,sees,hidden⟩,rfl⟩
    · exact ⟨e,member,_,⟨.inr rfl,sees,hidden⟩,rfl⟩

-- A seen node with nothing hidden beside it.
structure Clear (v : View) (id : String) : Prop where
  sees : v.sees id = true
  bare : id ∉ v.obscured

-- All edges of such a node lead to seen nodes.
theorem Clear.edge {id : String} {e : Edge} (clear : Clear v id) (member : e ∈ v.allActiveEdges) (ends : e.fromId = id ∨ e.toId = id) :
    e ∈ v.activeEdges := by
  have bare := clear.bare
  rw [obscured_mem] at bare
  have shown (other : Bool) (hidden : other = false → False) : other = true := by
    cases other with
    | false => exact absurd rfl hidden
    | true => rfl
  rcases ends with rfl | rfl
  · refine activeEdges_mem.mpr ⟨member,clear.sees,shown _ fun hidden => bare ⟨clear.sees,e,member,.inl ⟨rfl,hidden⟩⟩⟩
  · refine activeEdges_mem.mpr ⟨member,shown _ fun hidden => bare ⟨clear.sees,e,member,.inr ⟨rfl,hidden⟩⟩,clear.sees⟩

end Links

section Below
variable {v v' : View} {id : String} {types among : List String} (below : Below v v')
include below

theorem Below.sees (shown : v.sees id = true) : v'.sees id = true := by
  obtain ⟨s,found⟩ := Option.isSome_iff_exists.mp shown
  rw [View.sees,below.found id s found]
  rfl

theorem Below.find (shown : v.sees id = true) : v'.find id = v.find id := by
  obtain ⟨s,found⟩ := Option.isSome_iff_exists.mp shown
  rw [below.found id s found,found]

theorem Below.active {e : Edge} (active : e ∈ v.activeEdges) : e ∈ v'.activeEdges := by
  obtain ⟨member,origin,target⟩ := activeEdges_mem.mp active
  exact activeEdges_mem.mpr ⟨below.edges ▸ member,below.sees origin,below.sees target⟩

theorem Below.clear (clear : Clear v id) : Clear v' id := by
  refine ⟨below.sees clear.sees,?_⟩
  intro hidden
  obtain ⟨_,e,member,ends⟩ := obscured_mem.mp hidden
  rw [below.edges] at member
  rcases ends with ⟨here,dark⟩ | ⟨here,dark⟩
  · have shown := (activeEdges_mem.mp (below.active (clear.edge member (.inl here)))).2.2
    rw [dark] at shown
    cases shown
  · have shown := (activeEdges_mem.mp (below.active (clear.edge member (.inr here)))).2.1
    rw [dark] at shown
    cases shown

theorem Below.linked {target : String} (linked : target ∈ v.linked id) : target ∈ v'.linked id := by
  obtain ⟨e,active,ends⟩ := linked_mem.mp linked
  exact linked_mem.mpr ⟨e,below.active active,ends⟩

theorem Below.neighbours {target : String} (clear : Clear v id) : target ∈ v'.linked id ↔ target ∈ v.linked id := by
  constructor
  · intro linked
    obtain ⟨e,active,ends⟩ := linked_mem.mp linked
    have member := (activeEdges_mem.mp active).1
    rw [below.edges] at member
    exact linked_mem.mpr ⟨e,clear.edge member (ends.imp And.left And.left),ends⟩
  · exact below.linked

theorem Below.typed (shown : v.sees id = true) : v'.typed types id = v.typed types id := by
  rw [View.typed,View.typed,below.find shown]

-- So the detectors that look at one such node find the same.
theorem Below.missing {s : Seen} (clear : Clear v s.id) : missing v' types among caseType detectorId s = missing v types among caseType detectorId s := by
  have same : (v'.linked s.id).any (v'.typed among) = (v.linked s.id).any (v.typed among) := by
    apply Bool.eq_iff_iff.mpr
    simp only [List.any_eq_true,below.neighbours clear]
    refine exists_congr fun target => and_congr_right fun linked => ?_
    rw [below.typed (linked_sees linked)]
  unfold Assurance.missing
  rw [same]

theorem Below.targets {relation : RelationType} (clear : Clear v id) : v'.targets id relation types = v.targets id relation types := by
  simp only [View.targets,View.activeEdges,List.filterMap_filter,below.edges]
  apply List.filterMap_congr
  intro e member
  by_cases here : e.fromId = id ∧ e.relation = relation
  · obtain ⟨_,origin,target⟩ := activeEdges_mem.mp (clear.edge member (.inl here.1))
    simp only [origin,target,below.sees origin,below.sees target,below.find target]
  · simp only [if_neg here,ite_self]

theorem Below.testLag {s : Seen} (clear : Clear v s.id) : testLag v' s = testLag v s := by
  simp only [Assurance.testLag,below.targets clear]

-- A search from such a node only finds more.
theorem Below.reaches {start : String} (plain : v.typed implementationTypes start = false) (shown : v.sees start = true)
    (reaches : v.reachesImplementation start = true) : v'.reachesImplementation start = true := by
  have apart : v'.typed implementationTypes start = false := (below.typed shown).trans plain
  have fresh : ∀ a ∈ [start], v.typed implementationTypes a = false := by simpa using plain
  have fresh' : ∀ a ∈ [start], v'.typed implementationTypes a = false := by simpa using apart
  obtain ⟨n,short,a,border,c,walk,met⟩ := (BoundedSearch.search_iff (BoundedSearch.start_explored start) fresh).mp reaches
  apply (BoundedSearch.search_iff (BoundedSearch.start_explored start) fresh').mpr
  have typed : v'.typed implementationTypes c = true := by
    obtain ⟨s,found⟩ : ∃ s, v.find c = some s := by
      cases found : v.find c with
      | none => simp [View.typed,found] at met
      | some s => exact ⟨s,rfl⟩
    rwa [below.typed (by simp [View.sees,found])]
  exact ⟨n,short,a,border,c,walk.mono fun _ _ linked => below.linked linked,typed⟩

end Below

end Assurance
