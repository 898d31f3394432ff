import IntentEngineering.Reconcile.EvidenceDetection
import IntentEngineering.Stores.LedgerFraming
import Mathlib.Data.List.Perm.Basic

def ResolvedSide.map (change : EvidenceRecord → EvidenceRecord) (resolved : ResolvedSide) : ResolvedSide :=
  {resolved with records := resolved.records.map change}

namespace EvidenceDetection

theorem only_perm {xs ys : List α} (same : xs.Perm ys) : only xs = only ys := by
  match xs, ys, same with
  | [], ys, same => rw [List.nil_perm.mp same]
  | [x], ys, same => rw [List.singleton_perm.mp same]
  | _ :: _ :: _, [], same => cases List.perm_nil.mp same
  | _ :: _ :: _, [y], same => cases List.perm_singleton.mp same
  | _ :: _ :: _, _ :: _ :: _, _ => rfl

theorem only_map (f : α → β) (xs : List α) : only (xs.map f) = (only xs).map f := by
  match xs with
  | [] => rfl
  | [_] => rfl
  | _ :: _ :: _ => rfl

-- A search that only one entry can meet finds it in any order.
theorem find_perm {xs ys : List α} {test : α → Bool} (same : xs.Perm ys) (unique : (xs.filter test).length ≤ 1) :
    xs.find? test = ys.find? test := by
  rw [←List.head?_filter,←List.head?_filter]
  have filtered := same.filter test
  match found : xs.filter test, found' : ys.filter test with
  | [], _ =>
    rw [found,found'] at filtered
    rw [List.nil_perm.mp filtered]
  | [x], _ =>
    rw [found,found'] at filtered
    rw [List.singleton_perm.mp filtered]
  | _ :: _ :: _, _ =>
    rw [found] at unique
    simp at unique

theorem agreed_congr {xs ys : List EvidenceOrder} (same : ∀ o, o ∈ xs ↔ o ∈ ys) : agreed xs = agreed ys := by
  have dedup : xs.dedup.Perm ys.dedup := by
    rw [List.perm_ext_iff_of_nodup xs.nodup_dedup ys.nodup_dedup]
    simpa using same
  rw [agreed,agreed,only_perm dedup]

theorem filter_once {xs : List α} {name : α → String} (once : (xs.map name).Nodup) (text : String) :
    (xs.filter fun x => name x == text).length ≤ 1 := by
  have counted := List.nodup_iff_count_le_one.mp once text
  rwa [List.count,List.countP_map,List.countP_eq_length_filter] at counted

-- No connector associates one record twice, as the ledger's reader checks.
def Once (ingestions : List EvidenceIngestion) : Prop :=
  ∀ connectorId, ((ingestions.filter fun item => item.connectorId == connectorId).map fun item => item.evidence.id).Nodup

theorem once_perm {ingestions ingestions' : List EvidenceIngestion} (ledger : ingestions.Perm ingestions') (once : Once ingestions) :
    Once ingestions' := fun connectorId => ((ledger.filter _).map _).nodup_iff.mp (once connectorId)

section Permuted
variable {ingestions ingestions' : List EvidenceIngestion} (ledger : ingestions.Perm ingestions')
include ledger

theorem recordsAreCurrent_perm : recordsAreCurrent ingestions = recordsAreCurrent ingestions' := by
  funext records
  have any (p : EvidenceIngestion → Bool) : ingestions.any p = ingestions'.any p := ledger.any_eq
  simp only [recordsAreCurrent,any]
  congr 1
  funext record
  have filtered := ledger.filter fun item => item.evidence.id == record.id
  congr 1
  · rw [filtered.isEmpty_eq]
  · exact filtered.all_eq

theorem sequenceIn_perm (once : Once ingestions) (id connectorId : String) :
    sequenceIn ingestions id connectorId = sequenceIn ingestions' id connectorId := by
  have reversed : ingestions.reverse.Perm ingestions'.reverse :=
    (List.reverse_perm _).trans (ledger.trans (List.reverse_perm _).symm)
  have unique : (ingestions.reverse.filter fun item => item.evidence.id == id && item.connectorId == connectorId).length ≤ 1 := by
    rw [List.filter_reverse,List.length_reverse,←List.filter_filter]
    exact filter_once (once connectorId) id
  rw [sequenceIn,sequenceIn,find_perm reversed unique]

theorem recordOrder_perm (once : Once ingestions) : recordOrder ingestions = recordOrder ingestions' := by
  funext left right
  simp only [recordOrder,sequenceIn_perm ledger once]
  split
  · rw [agreed_congr]
    intro o
    exact ((ledger.map _).filterMap _).mem_iff
  · rfl

theorem derivedOrder_perm (once : Once ingestions) : derivedOrder ingestions = derivedOrder ingestions' := by
  have same : sideOrder ingestions = sideOrder ingestions' := by
    funext left right
    simp only [sideOrder,recordOrder_perm ledger once]
  funext left right leftVersion rightVersion
  simp only [derivedOrder,same]

variable {records records' : List EvidenceRecord} (copies : records.Perm records')
include copies

omit ledger in
theorem resolveReference_perm (declaring : EvidenceRecord) : resolveReference declaring records = resolveReference declaring records' := by
  have filtered (p : EvidenceRecord → Bool) : only (records.filter p) = only (records'.filter p) := only_perm (copies.filter p)
  funext reference
  simp only [resolveReference,filtered]

theorem resolveNext_perm : resolveNext records ingestions = resolveNext records' ingestions' := by
  have side (declaring : EvidenceRecord) : resolveSide declaring records ingestions = resolveSide declaring records' ingestions' := by
    funext actor side
    simp only [resolveSide,resolveReference_perm copies,recordsAreCurrent_perm ledger]
  funext actor declaring declared previous
  simp only [resolveNext,side]

theorem inputFromRecord_perm (once : Once ingestions) :
    inputFromRecord records ingestions = inputFromRecord records' ingestions' := by
  funext actor env graphIds declaring
  simp only [inputFromRecord,resolveNext_perm ledger copies,derivedOrder_perm ledger once]

-- Records under different identifiers are read in one order.
theorem candidates_perm (once : Once ingestions) (distinct : (records.map EvidenceRecord.id).Nodup) (env : DetectionEnv)
    (graphIds : List String) (actor : String) :
    candidates env graphIds actor ingestions records = candidates env graphIds actor ingestions' records' := by
  simp only [candidates,Keyed.inOrder_congr distinct copies,inputFromRecord_perm ledger copies once]

end Permuted

-- What detection sees of a record.
structure Alike (env : DetectionEnv) (a b : EvidenceRecord) : Prop where
  id : a.id = b.id
  connectorType : a.connectorType = b.connectorType
  externalObjectId : a.externalObjectId = b.externalObjectId
  author : a.author = b.author
  observedAt : a.observedAt = b.observedAt
  acl : a.acl = b.acl
  declaration : declaration env a = declaration env b
  gitPath : gitPathMatches a = gitPathMatches b

section Changed
variable {env : DetectionEnv} {change : EvidenceRecord → EvidenceRecord} (alike : ∀ r, Alike env r (change r))
include alike

omit alike in
theorem only_changed {p q : EvidenceRecord → Bool} (same : ∀ r, q (change r) = p r) (records : List EvidenceRecord) :
    only ((records.map change).filter q) = (only (records.filter p)).map change := by
  have tests : q ∘ change = p := funext same
  rw [List.filter_map,tests,only_map]

theorem resolveReference_changed (declaring : EvidenceRecord) (records : List EvidenceRecord) (reference : String) :
    resolveReference (change declaring) (records.map change) reference = (resolveReference declaring records reference).map change := by
  simp only [resolveReference]
  repeat' split
  · rfl
  · rfl
  · exact only_changed (fun r => by rw [(alike r).connectorType,(alike r).externalObjectId]) records
  · rfl
  · exact only_changed (fun r => by rw [(alike r).gitPath]) records
  · exact only_changed (fun r => by rw [(alike r).id]) records

omit alike in
theorem mapM_changed {f g : String → Option EvidenceRecord} (same : ∀ reference, g reference = (f reference).map change)
    (references : List String) : references.mapM g = (references.mapM f).map (List.map change) := by
  induction references with
  | nil => rfl
  | cons reference rest ih =>
    simp only [List.mapM_cons,same,ih]
    cases f reference with
    | none => rfl
    | some found =>
      cases rest.mapM f with
      | none => rfl
      | some later => rfl

omit alike in
theorem field_changed {field : EvidenceRecord → α} (same : ∀ r, field (change r) = field r) (records : List EvidenceRecord) :
    (records.map change).map field = records.map field := by
  simp [Function.comp_def,same]

theorem recordsAreCurrent_changed (ingestions : List EvidenceIngestion) (records : List EvidenceRecord) :
    recordsAreCurrent ingestions (records.map change) = recordsAreCurrent ingestions records := by
  simp only [recordsAreCurrent,List.all_map,Function.comp_def,←(alike _).id,←(alike _).connectorType,←(alike _).externalObjectId]

theorem refsAllowed_changed (references : List String) (records : List EvidenceRecord) (actor : String) :
    refsAllowed references (records.map change) actor = refsAllowed references records actor := by
  have allowed : (fun r => evidenceAllowed actor (change r)) = evidenceAllowed actor := by
    funext r
    simp only [evidenceAllowed,←(alike r).acl]
  have tests (reference : String) : (fun record : EvidenceRecord => record.id == reference) ∘ change = fun record => record.id == reference := by
    funext r
    simp only [Function.comp_apply,←(alike r).id]
  simp only [refsAllowed,←List.map_reverse,List.find?_map,tests,Option.any_map,allowed]

theorem resolveSide_changed (declaring : EvidenceRecord) (records : List EvidenceRecord) (ingestions : List EvidenceIngestion)
    (actor : String) (side : SideDeclaration) :
    resolveSide (change declaring) (records.map change) ingestions actor side =
      (resolveSide declaring records ingestions actor side).map (Option.map (ResolvedSide.map change)) := by
  unfold resolveSide
  split
  · rfl
  · rw [mapM_changed (resolveReference_changed alike declaring records) side.evidenceRefs]
    cases side.evidenceRefs.mapM (resolveReference declaring records) with
    | none => rfl
    | some resolved =>
      have ids := field_changed (fun r => (alike r).id.symm) resolved
      have times := field_changed (fun r => (alike r).observedAt.symm) resolved
      have authors : (resolved.map change).filterMap EvidenceRecord.author = resolved.filterMap EvidenceRecord.author := by
        rw [List.filterMap_map]
        congr 1
        funext r
        exact (alike r).author.symm
      simp only [Option.map_some,ids,times,authors,recordsAreCurrent_changed alike,refsAllowed_changed alike]
      split
      · rfl
      · cases latestTime (resolved.map EvidenceRecord.observedAt) with
        | error e => rfl
        | ok latest =>
          cases latest with
          | none => rfl
          | some observedAt =>
            simp only [Except.bind]
            split
            · rfl
            · rfl

omit alike in
theorem andThen_map (f : α → β) (found : Except DetectionError (Option α)) (next : β → Except DetectionError (Option γ)) :
    andThen (found.map (Option.map f)) next = andThen found fun value => next (f value) := by
  rcases found with e | _ | value <;> rfl

-- What is read of a side, apart from which records were.
def changedSide (change : EvidenceRecord → EvidenceRecord) (found : Option ResolvedSide × List String) : Option ResolvedSide × List String :=
  (found.1.map (ResolvedSide.map change),found.2)

theorem resolveNext_changed (records : List EvidenceRecord) (ingestions : List EvidenceIngestion) (actor : String)
    (declaring : EvidenceRecord) (declared : Option SideDeclaration) (previous : List String) :
    resolveNext (records.map change) ingestions actor (change declaring) declared previous =
      (resolveNext records ingestions actor declaring declared previous).map (Option.map (changedSide change)) := by
  cases declared with
  | none => rfl
  | some side =>
    simp only [resolveNext,resolveSide_changed alike]
    rw [andThen_map]
    cases resolveSide declaring records ingestions actor side with
    | error e => rfl
    | ok found =>
      cases found with
      | none => rfl
      | some resolved =>
        simp only [andThen,Except.bind]
        change (if resolved.side.evidenceRefs.any _ = true then _ else _) = _
        split <;> rfl

theorem recordOrder_changed (ingestions : List EvidenceIngestion) (left right : EvidenceRecord) :
    recordOrder ingestions (change left) (change right) = recordOrder ingestions left right := by
  simp only [recordOrder,←(alike _).id,←(alike _).connectorType,←(alike _).externalObjectId,←(alike _).observedAt]

theorem sideOrder_changed (ingestions : List EvidenceIngestion) (left right : ResolvedSide) :
    sideOrder ingestions (left.map change) (right.map change) = sideOrder ingestions left right := by
  have pairs : ((left.map change).records.flatMap fun first => (right.map change).records.map fun second => (first,second)) =
      (left.records.flatMap fun first => right.records.map fun second => (first,second)).map fun pair => (change pair.1,change pair.2) := by
    simp [ResolvedSide.map,List.flatMap_map,List.map_flatMap,Function.comp_def]
  rw [sideOrder,pairs,List.mapM_map]
  simp only [Function.comp_def,recordOrder_changed alike]
  rfl

theorem derivedOrder_changed (ingestions : List EvidenceIngestion) (left right : Option ResolvedSide) (leftVersion rightVersion : Option Int) :
    derivedOrder ingestions (left.map (ResolvedSide.map change)) (right.map (ResolvedSide.map change)) leftVersion rightVersion =
      derivedOrder ingestions left right leftVersion rightVersion := by
  cases left <;> cases right <;> simp only [derivedOrder,Option.map_some,Option.map_none,sideOrder_changed alike]

theorem inputFromRecord_changed (records : List EvidenceRecord) (ingestions : List EvidenceIngestion) (actor : String)
    (graphIds : List String) (declaring : EvidenceRecord) :
    inputFromRecord (records.map change) ingestions actor env graphIds (change declaring) =
      inputFromRecord records ingestions actor env graphIds declaring := by
  have allowed := refsAllowed_changed alike [declaring.id] [declaring] actor
  have kept : (fun side : ResolvedSide => (side.map change).side) = ResolvedSide.side := rfl
  simp only [List.map_cons,List.map_nil] at allowed
  simp only [inputFromRecord,←(alike declaring).declaration,←(alike declaring).id,allowed,resolveNext_changed alike,andThen_map,
    changedSide,derivedOrder_changed alike,Option.map_map,Function.comp_def,kept]

theorem candidates_changed (graphIds : List String) (actor : String) (ingestions : List EvidenceIngestion) (records : List EvidenceRecord) :
    candidates env graphIds actor ingestions (records.map change) = candidates env graphIds actor ingestions records := by
  have sorted : Keyed.inOrder EvidenceRecord.id (records.map change) = (Keyed.inOrder EvidenceRecord.id records).map change := by
    symm
    apply List.map_insertionSort
    intro a _ b _
    rw [(alike a).id,(alike b).id]
  rw [candidates,sorted,List.mapM_map]
  simp only [Function.comp_def,inputFromRecord_changed alike]
  rfl

end Changed

theorem gitPath_equal {a b : EvidenceRecord} (same : a.equal b = true) : gitPathMatches a = gitPathMatches b := by
  simp only [EvidenceRecord.equal,Bool.and_eq_true,beq_iff_eq] at same
  obtain ⟨⟨⟨⟨⟨⟨⟨⟨⟨⟨_,connector⟩,_⟩,_⟩,_⟩,_⟩,_⟩,_⟩,payload⟩,_⟩,_⟩ := same
  obtain ⟨members,shape,payload⟩ := Json.equal_obj.mp payload
  cases shape
  funext path
  simp only [gitPathMatches,connector]
  congr 1
  rcases Json.equalMembers_lookup payload "changed_paths" with ⟨first,second⟩ | ⟨x,y,first,second,found⟩
  · rw [first,second]
  · rw [first,second]
    cases x with
    | arr xs =>
      obtain ⟨ys,rfl,items⟩ := Json.equal_arr.mp found
      exact Json.equalItems_any items path
    | _ =>
      cases y with
      | arr ys => exact absurd (Json.equal_symm _ found) (by simp [Json.equal,Json.scalarEqual,Json.amount])
      | _ => rfl

-- Two records of a collection that may both be indexed.
def Agree (a b : EvidenceRecord) : Prop := a.id = b.id → a.equal b = true

theorem Agree.symm {a b : EvidenceRecord} (agree : Agree a b) : Agree b a := fun same => EvidenceRecord.equal_symm (agree same.symm)

instance : Std.Symm Agree := ⟨fun _ _ => Agree.symm⟩

def ids (records : List EvidenceRecord) : List String := records.map EvidenceRecord.id

theorem replaced_ids (byId : List EvidenceRecord) (record : EvidenceRecord) :
    ids (byId.map fun indexed => if indexed.id = record.id then record else indexed) = ids byId := by
  simp only [ids,List.map_map]
  apply List.map_congr_left
  intro indexed _
  simp only [Function.comp_apply]
  split
  · rename_i same
    exact same.symm
  · rfl

-- Each record is compared with the last one of its identifier only; equality
-- carries what that one was compared with.
theorem indexRecords_some (byId records : List EvidenceRecord) (distinct : (ids byId).Nodup) :
    (indexRecords byId records).isSome = true ↔ (∀ b ∈ byId, ∀ r ∈ records, Agree b r) ∧ records.Pairwise Agree := by
  induction records generalizing byId with
  | nil => simp [indexRecords]
  | cons record rest ih =>
    unfold indexRecords
    cases found : byId.find? fun indexed => indexed.id == record.id with
    | none =>
      have fresh : ∀ b ∈ byId, b.id ≠ record.id := by simpa using found
      have distinct' : (ids (byId ++ [record])).Nodup := by
        simp only [ids,List.map_append,List.map_cons,List.map_nil]
        rw [List.nodup_append]
        refine ⟨distinct,List.nodup_singleton _,?_⟩
        rintro _ member _ own rfl
        obtain ⟨b,present,same⟩ := List.mem_map.mp member
        rw [List.mem_singleton] at own
        exact fresh b present (same.trans own)
      simp only [ih _ distinct',List.pairwise_cons]
      constructor
      · rintro ⟨apart,later⟩
        refine ⟨fun b present r member => ?_,fun r member => apart record (by simp) r member,later⟩
        rcases List.mem_cons.mp member with rfl | member
        · exact fun same => absurd same (fresh b present)
        · exact apart b (by simp [present]) r member
      · rintro ⟨apart,own,later⟩
        refine ⟨fun b present r member => ?_,later⟩
        rcases List.mem_append.mp present with present | here
        · exact apart b present r (by simp [member])
        · rw [List.mem_singleton.mp here]
          exact own r member
    | some previous =>
      have present := List.mem_of_find?_eq_some found
      have same : previous.id = record.id := by simpa using List.find?_some found
      cases equals : previous.equal record with
      | false =>
        simp only [equals,Bool.false_eq_true,if_false,Option.isSome_none,false_iff,not_and]
        intro apart
        exact absurd (apart previous present record (by simp) same) (by simp [equals])
      | true =>
        have distinct' := distinct
        rw [←replaced_ids byId record] at distinct'
        simp only [equals,if_true,ih _ distinct',List.pairwise_cons]
        constructor
        · rintro ⟨apart,later⟩
          have own : ∀ r ∈ rest, Agree record r := fun r member =>
            apart record (List.mem_map.mpr ⟨previous,present,by simp [same]⟩) r member
          refine ⟨fun b member r inside => ?_,own,later⟩
          by_cases here : b.id = record.id
          · have one : b = previous := List.inj_on_of_nodup_map distinct member present (here.trans same.symm)
            subst one
            rcases List.mem_cons.mp inside with rfl | inside
            · exact fun _ => equals
            · exact fun again => EvidenceRecord.equal_trans equals (own r inside (here.symm.trans again))
          · rcases List.mem_cons.mp inside with rfl | inside
            · exact fun same => absurd same here
            · exact apart b (List.mem_map.mpr ⟨b,member,by simp [here]⟩) r inside
        · rintro ⟨apart,own,later⟩
          refine ⟨fun b member r inside => ?_,later⟩
          obtain ⟨b',member',rfl⟩ := List.mem_map.mp member
          split
          · exact own r inside
          · exact apart b' member' r (by simp [inside])

theorem indexRecords_spec {byId records stable : List EvidenceRecord} (distinct : (ids byId).Nodup)
    (indexed : indexRecords byId records = some stable) :
    (ids stable).Nodup ∧ (∀ s ∈ stable, s ∈ byId ∨ s ∈ records) ∧ ∀ id, id ∈ ids stable ↔ id ∈ ids byId ∨ id ∈ ids records := by
  induction records generalizing byId with
  | nil =>
    cases indexed
    exact ⟨distinct,fun s member => .inl member,fun id => by simp [ids]⟩
  | cons record rest ih =>
    unfold indexRecords at indexed
    cases found : byId.find? fun entry => entry.id == record.id with
    | none =>
      have fresh : ∀ b ∈ byId, b.id ≠ record.id := by simpa using found
      have distinct' : (ids (byId ++ [record])).Nodup := by
        have apart : record.id ∉ ids byId := by
          intro member
          obtain ⟨b,present,same⟩ := List.mem_map.mp member
          exact fresh b present same
        simpa [ids] using List.nodup_append.mpr ⟨distinct,List.nodup_singleton record.id,by simpa [ids] using apart⟩
      simp only [found] at indexed
      obtain ⟨whole,members,names⟩ := ih distinct' indexed
      refine ⟨whole,fun s member => ?_,fun id => ?_⟩
      · rcases members s member with before | after
        · rcases List.mem_append.mp before with before | here
          · exact .inl before
          · exact .inr (by simp [List.mem_singleton.mp here])
        · exact .inr (by simp [after])
      · rw [names id]
        simp [ids,or_assoc]
    | some previous =>
      have present := List.mem_of_find?_eq_some found
      have same : previous.id = record.id := by simpa using List.find?_some found
      simp only [found] at indexed
      split at indexed
      · have distinct' := distinct
        rw [←replaced_ids byId record] at distinct'
        obtain ⟨whole,members,names⟩ := ih distinct' indexed
        refine ⟨whole,fun s member => ?_,fun id => ?_⟩
        · rcases members s member with before | after
          · obtain ⟨b,inside,rfl⟩ := List.mem_map.mp before
            split
            · exact .inr (by simp)
            · exact .inl inside
          · exact .inr (by simp [after])
        · have known : record.id ∈ ids byId := same ▸ List.mem_map_of_mem present
          rw [names id,replaced_ids]
          constructor
          · rintro (before | after)
            · exact .inl before
            · exact .inr (List.mem_cons_of_mem _ after)
          · rintro (before | after)
            · exact .inl before
            · rcases List.mem_cons.mp after with rfl | after
              · exact .inl known
              · exact .inr after
      · cases indexed

-- Copies of one record that Python takes for equal read the same.
def CopiesAgree (env : DetectionEnv) (records : List EvidenceRecord) : Prop :=
  ∀ a ∈ records, ∀ b ∈ records, a.id = b.id → a.equal b = true → declaration env a = declaration env b ∧ a.observedAt = b.observedAt

theorem copies_alike {env : DetectionEnv} {records : List EvidenceRecord} (agree : CopiesAgree env records)
    (indexable : records.Pairwise Agree) {a b : EvidenceRecord} (first : a ∈ records) (second : b ∈ records) (same : a.id = b.id) :
    Alike env a b := by
  by_cases one : a = b
  · subst one
    exact ⟨rfl,rfl,rfl,rfl,rfl,rfl,rfl,rfl⟩
  · have equals : a.equal b = true := indexable.forall first second one same
    obtain ⟨declared,time⟩ := agree a first b second same equals
    have fields := equals
    simp only [EvidenceRecord.equal,Bool.and_eq_true,beq_iff_eq] at fields
    obtain ⟨⟨⟨⟨⟨⟨⟨⟨⟨⟨_,connector⟩,object⟩,_⟩,author⟩,_⟩,_⟩,_⟩,_⟩,_⟩,acl⟩ := fields
    exact ⟨same,connector,object,author,time,acl,declared,gitPath_equal equals⟩

theorem indexRecords_perm {records records' : List EvidenceRecord} (copies : records.Perm records') :
    (indexRecords [] records).isSome = (indexRecords [] records').isSome := by
  rw [Bool.eq_iff_iff,indexRecords_some [] records List.nodup_nil,indexRecords_some [] records' List.nodup_nil,
    copies.pairwise_iff Agree.symm]
  simp

-- The entry of one index under the identifier of an entry of the other.
def counterpart (stable : List EvidenceRecord) (record : EvidenceRecord) : EvidenceRecord :=
  (stable.find? fun indexed => indexed.id == record.id).getD record

theorem counterpart_spec {stable : List EvidenceRecord} {record : EvidenceRecord} (known : record.id ∈ ids stable) :
    counterpart stable record ∈ stable ∧ (counterpart stable record).id = record.id := by
  obtain ⟨indexed,present,same⟩ := List.mem_map.mp known
  cases found : stable.find? fun indexed => indexed.id == record.id with
  | none =>
    rw [List.find?_eq_none] at found
    exact absurd (by simpa using same) (found indexed present)
  | some entry =>
    rw [counterpart,found]
    exact ⟨List.mem_of_find?_eq_some found,by simpa using List.find?_some found⟩

theorem counterpart_perm {stable stable' : List EvidenceRecord} (distinct : (ids stable).Nodup) (distinct' : (ids stable').Nodup)
    (names : ∀ id, id ∈ ids stable' ↔ id ∈ ids stable) : stable'.Perm (stable.map (counterpart stable')) := by
  have known {r : EvidenceRecord} (member : r ∈ stable) : r.id ∈ ids stable' := (names r.id).mpr (List.mem_map_of_mem member)
  have kept : ids (stable.map (counterpart stable')) = ids stable := by
    simp only [ids,List.map_map]
    apply List.map_congr_left
    intro r member
    exact (counterpart_spec (known member)).2
  have whole : (stable.map (counterpart stable')).Nodup := List.Nodup.of_map EvidenceRecord.id (show (ids _).Nodup by rwa [kept])
  rw [List.perm_ext_iff_of_nodup (List.Nodup.of_map EvidenceRecord.id distinct') whole]
  intro r
  constructor
  · intro member
    obtain ⟨s,present,same⟩ := List.mem_map.mp ((names r.id).mp (List.mem_map_of_mem member))
    obtain ⟨inside,identical⟩ := counterpart_spec (known present)
    have one : counterpart stable' s = r := List.inj_on_of_nodup_map distinct' inside member (identical.trans same)
    exact List.mem_map.mpr ⟨s,present,one⟩
  · intro member
    obtain ⟨s,present,rfl⟩ := List.mem_map.mp member
    exact (counterpart_spec (known present)).1

theorem detection_perm {env : DetectionEnv} {records records' : List EvidenceRecord} {ingestions ingestions' : List EvidenceIngestion}
    (once : Once ingestions) (agree : CopiesAgree env records) (copies : records.Perm records') (ledger : ingestions.Perm ingestions')
    (graph : IntentGraph) (actor : String) :
    detectEvidenceDrift env records' graph actor ingestions' = detectEvidenceDrift env records graph actor ingestions := by
  have readable := indexRecords_perm copies
  unfold detectEvidenceDrift
  cases indexed : indexRecords [] records with
  | none =>
    rw [indexed,Option.isSome_none] at readable
    rw [Option.isSome_eq_false_iff.mp readable.symm |> Option.isNone_iff_eq_none.mp]
  | some stable =>
    rw [indexed,Option.isSome_some] at readable
    obtain ⟨stable',indexed'⟩ := Option.isSome_iff_exists.mp readable.symm
    rw [indexed']
    have indexable : records.Pairwise Agree := ((indexRecords_some [] records List.nodup_nil).mp (by rw [indexed]; rfl)).2
    have empty : (ids []).Nodup := List.nodup_nil
    obtain ⟨distinct,members,names⟩ := indexRecords_spec empty indexed
    obtain ⟨distinct',members',names'⟩ := indexRecords_spec empty indexed'
    have inside {s : EvidenceRecord} (member : s ∈ stable) : s ∈ records := by simpa using members s member
    have inside' {s : EvidenceRecord} (member : s ∈ stable') : s ∈ records := by simpa [copies.mem_iff] using members' s member
    have sameNames (id : String) : id ∈ ids stable' ↔ id ∈ ids stable := by
      have moved : ids records' ⊆ ids records ∧ ids records ⊆ ids records' :=
        ⟨(copies.map EvidenceRecord.id).symm.subset,(copies.map EvidenceRecord.id).subset⟩
      rw [names id,names' id]
      simp only [ids,List.map_nil,List.not_mem_nil,false_or]
      exact ⟨fun found => moved.1 found,fun found => moved.2 found⟩
    classical
    -- Outside the index a record is left as it is, so that the change may be one for all records.
    let change (r : EvidenceRecord) : EvidenceRecord := if r ∈ stable then counterpart stable' r else r
    have alike (r : EvidenceRecord) : Alike env r (change r) := by
      by_cases member : r ∈ stable
      · obtain ⟨present,same⟩ := counterpart_spec ((sameNames r.id).mpr (List.mem_map_of_mem member))
        simp only [change,member,if_true]
        exact copies_alike agree indexable (inside member) (inside' present) same.symm
      · simp only [change,member,if_false]
        exact ⟨rfl,rfl,rfl,rfl,rfl,rfl,rfl,rfl⟩
    have changed : stable.map change = stable.map (counterpart stable') :=
      List.map_congr_left fun r member => by simp only [change,member,if_true]
    have moved : stable'.Perm (stable.map change) := changed ▸ counterpart_perm distinct distinct' sameNames
    have same := candidates_perm ledger.symm moved (once_perm ledger once) distinct' env (graph.1.nodes.map Node.id) actor
    simp only [same,candidates_changed alike]

theorem default_once {selected : List DriftObservation} {o : DriftObservation} (once : (selected.map DriftObservation.subjectRef).Nodup) :
    ((DriftObservation.setDefault selected o).map DriftObservation.subjectRef).Nodup := by
  unfold DriftObservation.setDefault
  split
  · exact once
  · rename_i fresh
    rw [List.contains_iff_mem] at fresh
    rw [List.map_append,List.map_singleton,←List.concat_eq_append]
    exact once.concat fresh

theorem selected_once (found : List DriftObservation) :
    ((DriftObservation.selectDriftObservations found).map DriftObservation.subjectRef).Nodup := by
  have kept (os selected : List DriftObservation) (once : (selected.map DriftObservation.subjectRef).Nodup) :
      ((os.foldl DriftObservation.setDefault selected).map DriftObservation.subjectRef).Nodup := by
    induction os generalizing selected with
    | nil => exact once
    | cons o os ih => exact ih _ (default_once once)
  have sorted := (List.mergeSort_perm ((found.mergeSort DriftObservation.precedes).foldl DriftObservation.setDefault [])
    fun a b => decide (a.fingerprint ≤ b.fingerprint)).map DriftObservation.subjectRef
  exact sorted.nodup_iff.mpr (kept _ [] .nil)

-- One observation of a subject at most; the order of records and ledger does not
-- matter where copies taken for equal read the same.
theorem detection_ordered (env : DetectionEnv) (graph : IntentGraph) (actor : String) (records : List EvidenceRecord)
    (ingestions : List EvidenceIngestion) (once : Once ingestions) :
    (∀ found, detectEvidenceDrift env records graph actor ingestions = .ok found → (found.map DriftObservation.subjectRef).Nodup) ∧
      (CopiesAgree env records → ∀ records' ingestions', records.Perm records' → ingestions.Perm ingestions' →
        detectEvidenceDrift env records' graph actor ingestions' = detectEvidenceDrift env records graph actor ingestions) := by
  constructor
  · intro found detected
    unfold detectEvidenceDrift at detected
    split at detected
    · cases detected
      exact .nil
    · obtain ⟨seen,_,rfl⟩ := except_map_ok detected
      exact selected_once seen
  · intro agree records' ingestions' copies ledger
    exact detection_perm once agree copies ledger graph actor

section Copies

theorem export_time : DateTime.Valid 2026 8 2 12 0 0 0 (some 0) := by decide
def exportedAt : DateTime := ⟨2026,8,2,12,0,0,0,some 0,export_time⟩

theorem epoch_time : DateTime.Valid 1970 1 1 0 0 1 0 (some 0) := by decide

-- A number is read as seconds since 1970, a flag as no time.
def secondsRead : Json → Option DateTime
  | .int 1 => some ⟨1970,1,1,0,0,1,0,some 0,epoch_time⟩
  | _ => none

def exportEnv : DetectionEnv := ⟨{canonicalOnly with time := secondsRead},Yaml.flow,fun _ => none⟩

def exportDraft : GraphDraft :=
  ⟨"graph:1",0,"0.1.0",none,none,none,none,
    [⟨"requirement:export","REQUIREMENT","export","active","alice",exportedAt,"alice",exportedAt,none,none,none,none,none,[]⟩],[],
    TypeRegistry.empty⟩

theorem export_sound : exportDraft.assertInvariants = true := by decide +kernel
def exportGraph : IntentGraph := ⟨exportDraft,export_sound⟩

theorem zero_representable : Binary64.Representable 0 := ⟨0,0,by norm_num,by norm_num,by norm_num,by norm_num⟩

-- Material code without semantics, by a side whose own time is to be ignored.
def declaring (observedAt : Json) : Json.Members :=
  [("detection_input",.obj [("affected_refs",.arr []),("compatibility",.str "aligns"),("has_mapped_semantics",.bool false),
    ("implementation",.obj [("claim",.str "Legacy export"),("confidence",.float (.finite ⟨false,0,zero_representable⟩)),
      ("evidence_refs",.arr [.str "$self"]),("label",.str "implementation"),("observed_at",observedAt)]),
    ("material_code_change",.bool true),("subject_ref",.str "requirement:export")])]

theorem numbered_formed : (Json.obj (declaring (.int 1))).WellFormed := by decide
theorem flagged_formed : (Json.obj (declaring (.bool true))).WellFormed := by decide

def exported (payload : Payload) : EvidenceRecord :=
  ⟨"evidence:1","git","commit:1","1",some "carol",exportedAt,"git:commit:1","sha256:1",payload,none,[]⟩

def numbered : EvidenceRecord := exported ⟨declaring (.int 1),numbered_formed⟩
def flagged : EvidenceRecord := exported ⟨declaring (.bool true),flagged_formed⟩

theorem git_named : connectorText "git" = true := by decide

theorem first_sequence : 1 ≤ 1 := Nat.le_refl 1

def exportLedger : List EvidenceIngestion := [⟨"git",1,none,numbered,git_named,first_sequence⟩]

theorem export_once : Once exportLedger := by
  intro connectorId
  apply List.Nodup.map_on
  · intro a first b second _
    have one : a = b := by
      rw [List.mem_singleton.mp (List.mem_of_mem_filter first),List.mem_singleton.mp (List.mem_of_mem_filter second)]
    exact one
  · exact (List.nodup_singleton _).filter _

-- Two copies that differ in `1` against `True`: the one that comes last is read.
theorem last_copy_read : Once exportLedger ∧ [numbered,flagged].Perm [flagged,numbered] ∧
    (detectEvidenceDrift exportEnv [numbered,flagged] exportGraph "carol" exportLedger).map (List.map DriftObservation.subjectRef) =
      .ok [] ∧
    (detectEvidenceDrift exportEnv [flagged,numbered] exportGraph "carol" exportLedger).map (List.map DriftObservation.subjectRef) =
      .ok ["requirement:export"] := by
  refine ⟨export_once,.swap _ _ _,?_,?_⟩ <;> decide +kernel

-- A commit that nothing declares anything about.
def undeclared : EvidenceRecord :=
  ⟨"evidence:2","git","commit:2","1",some "carol",exportedAt,"git:commit:2","sha256:2",⟨[],List.Pairwise.nil,trivial⟩,none,[]⟩

theorem detection_ordered_export :
    (∀ found, detectEvidenceDrift exportEnv [numbered,undeclared] exportGraph "carol" exportLedger = .ok found →
      (found.map DriftObservation.subjectRef).Nodup) ∧
      detectEvidenceDrift exportEnv [undeclared,numbered] exportGraph "carol" exportLedger =
        detectEvidenceDrift exportEnv [numbered,undeclared] exportGraph "carol" exportLedger := by
  obtain ⟨unique,stable⟩ := detection_ordered exportEnv exportGraph "carol" [numbered,undeclared] exportLedger export_once
  refine ⟨unique,stable ?_ _ _ (.swap _ _ _) (.refl _)⟩
  intro a first b second same _
  have apart : numbered.id ≠ undeclared.id := by decide
  simp only [List.mem_cons,List.not_mem_nil,or_false] at first second
  rcases first with rfl | rfl <;> rcases second with rfl | rfl
  · exact ⟨rfl,rfl⟩
  · exact absurd same apart
  · exact absurd same.symm apart
  · exact ⟨rfl,rfl⟩

end Copies

end EvidenceDetection
