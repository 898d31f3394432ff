import IntentEngineering.Stores.CaseLifecycle
import IntentEngineering.Stores.LedgerFraming

open Schema Json PyText LineText JsonLines

-- Readers that see of an object only the members under their own names.
namespace Schema

class Fields.Local (f : Fields names α) : Prop where
  same : ∀ ms ms' : Members, (∀ name ∈ names, ms'.lookup name = ms.lookup name) → f.load ms' = f.load ms

instance : Fields.nil.Local := ⟨fun _ _ _ => rfl⟩

instance {c : Codec α} {rest : Fields names β} [rest.Local] (missing : Option α) (before : ∀ n ∈ names.head?, name < n) :
    (Fields.push name c missing rest before).Local where
  same ms ms' same := by
    have first := same name List.mem_cons_self
    have later := Fields.Local.same (f := rest) ms ms' fun n member => same n (List.mem_cons_of_mem _ member)
    simp only [Fields.push,first,later]

instance {c : Codec α} {rest : Fields names β} [rest.Local] (before : ∀ n ∈ names.head?, name < n) :
    (Fields.required name c rest before).Local := inferInstanceAs (Fields.push ..).Local

instance {c : Codec α} {rest : Fields names β} [rest.Local] (value : α) (before : ∀ n ∈ names.head?, name < n) :
    (Fields.defaulted name c value rest before).Local := inferInstanceAs (Fields.push ..).Local

theorem push_some {ms : Members} {c : Codec α} {missing : Option α} {rest : Fields names β} {before : ∀ n ∈ names.head?, name < n} :
    (Fields.push name c missing rest before).load ms = some (a,b) ↔
      (match ms.lookup name with | none => missing | some v => c.load v) = some a ∧ rest.load ms = some b := by
  simp only [Fields.push,Option.bind_eq_some_iff,Option.map_eq_some_iff,Prod.mk.injEq]
  constructor
  · rintro ⟨_,first,_,later,rfl,rfl⟩
    exact ⟨first,later⟩
  · rintro ⟨first,later⟩
    exact ⟨a,first,b,later,rfl,rfl⟩

theorem object_some {ms : Members} {fields : Fields names α} :
    (Codec.object fields).load (.obj ms) = some a ↔ (∀ m ∈ ms, m.1 ∈ names) ∧ fields.load ms = some a := by
  simp only [Codec.object]
  split
  · rename_i known
    simp only [List.all_eq_true,decide_eq_true_eq] at known
    exact ⟨fun read => ⟨known,read⟩,fun read => read.2⟩
  · rename_i unknown
    simp only [List.all_eq_true,decide_eq_true_eq] at unknown
    constructor
    · intro read
      cases read
    · intro read
      exact absurd read.1 unknown

theorem lookup_insertMember (key name : String) (v : Json) (ms : Members) :
    (insertMember key v ms).lookup name = if name = key then some v else ms.lookup name := by
  induction ms with
  | nil =>
    simp only [insertMember,List.lookup_cons,List.lookup_nil]
    by_cases same : name = key
    · simp [same]
    · have test : (name == key) = false := by simpa using same
      simp [same,test]
  | cons first rest ih =>
    obtain ⟨k,w⟩ := first
    by_cases same : name = key
    · subst same
      simp only [insertMember,if_true] at ih ⊢
      split
      · simp
      · split
        · simp
        · rename_i _ other
          have test : (name == k) = false := by simpa using other
          simp [List.lookup_cons,test,ih]
    · have test : (name == key) = false := by simpa using same
      simp only [insertMember,if_neg same] at ih ⊢
      split
      · simp [List.lookup_cons,test]
      · split
        · rename_i _ equal
          subst equal
          simp [List.lookup_cons,test]
        · simp only [List.lookup_cons]
          rw [ih]

theorem lookup_dropped {key name : String} (other : name ≠ key) (ms : Members) :
    (ms.filter fun m => m.1 != key).lookup name = ms.lookup name := by
  induction ms with
  | nil => rfl
  | cons first rest ih =>
    obtain ⟨k,w⟩ := first
    by_cases here : k = key
    · have test : (name == k) = false := by simpa [here] using other
      simp [here,List.lookup_cons,ih,show (name == key) = false by simpa using other]
    · simp [here,List.lookup_cons,ih]

theorem lookup_removed (key : String) (ms : Members) : (ms.filter fun m => m.1 != key).lookup key = none := by
  apply lookup_absent
  simp

end Schema

namespace ReconciliationCase

-- The same case under another creator.
def creditedTo (case : ReconciliationCase) (creator : String) (attributed : creator ≠ "") : ReconciliationCase :=
  {case with createdBy := creator, attributed := attributed}

instance (lax : Coercions) : (later lax).Local := by
  unfold later
  infer_instance

end ReconciliationCase

namespace CaseStore

-- The first actor of a history that leaves some text when it is stripped.
def earliestActor (case : ReconciliationCase) : List Char :=
  match case.history with
  | [] => []
  | event :: _ => strip event.actor.toList

-- The creator that the migration finds for a row that reads as this case.
def creditOf (case : ReconciliationCase) : Option String :=
  if earliestActor case ≠ [] then some (String.ofList (earliestActor case))
  else if hasText case.detectorId then some ("detector:" ++ case.detectorId) else none

theorem creditOf_named (found : creditOf case = some creator) : creator ≠ "" := by
  unfold creditOf at found
  split at found
  · rename_i present
    cases found
    intro blank
    apply present
    simpa using congrArg String.toList blank
  · split at found
    · cases found
      intro blank
      have empty := congrArg String.toList blank
      simp at empty
    · cases found

-- A case record without the field.
def withoutCreator : Json → Json
  | .obj ms => .obj (ms.filter fun m => m.1 != "created_by")
  | v => v

section Rows
variable {lax : Coercions}

-- What the loaded case says of the row it was read from.
structure Row (ms : Members) (case : ReconciliationCase) : Prop where
  detector : ms.lookup "detector_id" = some (.str case.detectorId)
  history : case.history = [] ∧ (ms.lookup "history" = none ∨ ms.lookup "history" = some (.arr [])) ∨
    ∃ event rest row items, case.history = event :: rest ∧ ms.lookup "history" = some (.arr (.obj row :: items)) ∧
      row.lookup "actor" = some (.str event.actor)

theorem string_some {v : Json} (read : Codec.string.load v = some s) : v = .str s := by
  cases v <;> cases read
  rfl

theorem event_actor {v : Json} (read : (ClassificationEvent.codec lax).load v = some event) :
    ∃ row, v = .obj row ∧ row.lookup "actor" = some (.str event.actor) := by
  obtain ⟨parts,loaded,built⟩ := Option.bind_eq_some_iff.mp read
  cases v with
  | obj row =>
    obtain ⟨actor,at',new,prior,_⟩ := parts
    obtain ⟨_,fields⟩ := object_some.mp loaded
    simp only [ClassificationEvent.fields,Fields.required,push_some] at fields
    obtain ⟨first,_⟩ := fields
    refine ⟨row,rfl,?_⟩
    have named : actor = event.actor := by
      dsimp only at built
      split at built
      · cases built
        rfl
      · cases built
    split at first
    · cases first
    · rename_i v present
      rw [present,string_some first,named]
  | _ => cases loaded

theorem row_history {ms : Members} {history : List ClassificationEvent}
    (read : (match ms.lookup "history" with
      | none => some []
      | some v => (ClassificationEvent.codec lax).list.load v) = some history) :
    history = [] ∧ (ms.lookup "history" = none ∨ ms.lookup "history" = some (.arr [])) ∨
      ∃ event rest row items, history = event :: rest ∧ ms.lookup "history" = some (.arr (.obj row :: items)) ∧
        row.lookup "actor" = some (.str event.actor) := by
  split at read
  · rename_i absent
    cases read
    exact .inl ⟨rfl,.inl absent⟩
  · rename_i v present
    cases v with
    | arr items =>
      cases items with
      | nil =>
        cases read
        exact .inl ⟨rfl,.inr present⟩
      | cons first items =>
        have loaded : (first :: items).mapM (ClassificationEvent.codec lax).load = some history := read
        simp only [List.mapM_cons,Option.bind_eq_bind,Option.bind_eq_some_iff,Option.pure_def,Option.some.injEq] at loaded
        obtain ⟨event,one,rest,_,rfl⟩ := loaded
        obtain ⟨row,rfl,actor⟩ := event_actor one
        exact .inr ⟨event,rest,row,items,rfl,present,actor⟩
    | _ => cases read

-- The members of a case row, when it reads.
theorem case_row {ms : Members} (read : (ReconciliationCase.codec lax).load (.obj ms) = some case) : Row ms case := by
  obtain ⟨parts,loaded,built⟩ := Option.bind_eq_some_iff.mp read
  obtain ⟨affectedRefs,alternatives,caseType,createdAt,createdBy,detectorId,evidenceSides,fingerprint,history,rest⟩ := parts
  obtain ⟨_,fields⟩ := object_some.mp loaded
  simp only [ReconciliationCase.fields,Fields.required,Fields.defaulted,push_some] at fields
  obtain ⟨_,_,_,_,_,detector,_,_,told,_⟩ := fields
  dsimp only at built
  split at built
  · cases built
    constructor
    · dsimp only
      split at detector
      · cases detector
      · rename_i v present
        rw [present,string_some detector]
    · exact row_history told
  · cases built

-- A row that reads under some creator reads under any other one.
theorem load_credited {ms ms' : Members} (read : (ReconciliationCase.codec lax).load (.obj ms) = some case)
    (same : ∀ name, name ≠ "created_by" → ms'.lookup name = ms.lookup name)
    (known : ∀ m ∈ ms', m.1 = "created_by" ∨ m.1 ∈ ms.map Prod.fst) (creator : ms'.lookup "created_by" = some (.str name))
    (attributed : name ≠ "") : (ReconciliationCase.codec lax).load (.obj ms') = some (case.creditedTo name attributed) := by
  obtain ⟨parts,loaded,built⟩ := Option.bind_eq_some_iff.mp read
  obtain ⟨affectedRefs,alternatives,caseType,createdAt,createdBy,rest⟩ := parts
  obtain ⟨keys,fields⟩ := object_some.mp loaded
  have tail : (ReconciliationCase.later lax).load ms' = (ReconciliationCase.later lax).load ms := by
    apply Fields.Local.same
    intro field member
    apply same
    rintro rfl
    revert member
    decide
  have read' : (Codec.object (ReconciliationCase.fields lax)).load (.obj ms')
      = some (affectedRefs,alternatives,caseType,createdAt,name,rest) := by
    apply object_some.mpr
    constructor
    · intro m member
      cases known m member with
      | inl named =>
        rw [named]
        decide
      | inr old =>
        obtain ⟨before,inside,named⟩ := List.mem_map.mp old
        rw [←named]
        exact keys before inside
    · simp only [ReconciliationCase.fields,Fields.required,Fields.defaulted,push_some] at fields ⊢
      rw [same "affected_refs" (by decide),same "alternatives" (by decide),same "case_type" (by decide),
        same "created_at" (by decide),creator]
      obtain ⟨first,second,third,fourth,_,final⟩ := fields
      exact ⟨first,second,third,fourth,rfl,tail.trans final⟩
  apply Option.bind_eq_some_iff.mpr
  refine ⟨_,read',?_⟩
  obtain ⟨detectorId,evidenceSides,fingerprint,history,id,impact,requiresHuman,resolution,resolvedByChangeset,status,subjectRef,_⟩ := rest
  dsimp only at built ⊢
  split at built
  · rename_i valid
    cases built
    rw [dif_pos ⟨valid.1,attributed,valid.2.2⟩]
    rfl
  · cases built

-- What the migration makes of a row without the field.
def recredited (case : ReconciliationCase) : Option ReconciliationCase :=
  (creditOf case).bind fun creator => if named : creator ≠ "" then some (case.creditedTo creator named) else none

theorem recredited_some (found : creditOf case = some creator) :
    recredited case = some (case.creditedTo creator (creditOf_named found)) := by
  rw [recredited,found,Option.bind_some,dif_pos (creditOf_named found)]

-- The stripped first actor, as the row has it.
def rowActor (ms : Members) : List Char :=
  match ms.lookup "history" with
  | some (.arr (.obj event :: _)) =>
    match event.lookup "actor" with
    | some (.str actor) => strip actor.toList
    | _ => []
  | _ => []

theorem migrate_eq (ms : Members) : migrateLegacyCasePayload ms =
    if (ms.lookup "created_by").isSome then some ms
    else if rowActor ms ≠ [] then some (insertMember "created_by" (.str (String.ofList (rowActor ms))) ms)
    else match ms.lookup "detector_id" with
      | some (.str detector) => if hasText detector then some (insertMember "created_by" (.str ("detector:" ++ detector)) ms) else none
      | _ => none := rfl

theorem row_earliest {ms : Members} (row : Row ms case) : rowActor ms = earliestActor case := by
  unfold rowActor
  rcases row.history with ⟨empty,absent | written⟩ | ⟨event,rest,first,items,shape,written,actor⟩
  · rw [absent,earliestActor,empty]
  · rw [written,earliestActor,empty]
  · rw [written,earliestActor,shape]
    dsimp only
    rw [actor]

theorem row_migrates {ms : Members} (row : Row ms case) (absent : ms.lookup "created_by" = none) :
    migrateLegacyCasePayload ms = (creditOf case).map fun creator => insertMember "created_by" (.str creator) ms := by
  rw [migrate_eq,absent,if_neg (by simp),row_earliest row,creditOf,row.detector]
  split
  · rfl
  · dsimp only
    split <;> rfl

-- What the migration adds is this one member.
theorem migrated_row {ms migrated : Members} (moved : migrateLegacyCasePayload ms = some migrated) :
    migrated = ms ∨ ∃ creator, migrated = insertMember "created_by" (.str creator) ms := by
  rw [migrate_eq] at moved
  split at moved
  · cases moved
    exact .inl rfl
  · split at moved
    · cases moved
      exact .inr ⟨_,rfl⟩
    · split at moved
      · split at moved
        · cases moved
          exact .inr ⟨_,rfl⟩
        · cases moved
      · cases moved

theorem inserted_known {ms : Members} (v : Json) (member : m ∈ ms) (other : m.1 ≠ key) : m.1 ∈ (insertMember key v ms).map Prod.fst := by
  by_contra absent
  have missing := lookup_absent absent
  rw [lookup_insertMember,if_neg other] at missing
  have apart := List.lookup_eq_none_iff.mp missing m member
  simp at apart

theorem row_same {ms ms' : Members} (row : Row ms case) (same : ∀ name, name ≠ "created_by" → ms'.lookup name = ms.lookup name) :
    Row ms' case := by
  have detector := same "detector_id" (by decide)
  have history := same "history" (by decide)
  constructor
  · rw [detector]
    exact row.detector
  · rw [history]
    exact row.history

theorem dropped_inserted (v : Json) (ms : Members) (name : String) (other : name ≠ "created_by") :
    (ms.filter fun m => m.1 != "created_by").lookup name = (insertMember "created_by" v ms).lookup name := by
  rw [lookup_dropped other,lookup_insertMember,if_neg other]

-- Without the field a row reads as the same case under the migration's creator.
theorem read_without {ms ms₀ : Members} (read : (ReconciliationCase.codec lax).load (.obj ms₀) = some case)
    (same : ∀ name, name ≠ "created_by" → (ms.filter fun m => m.1 != "created_by").lookup name = ms₀.lookup name)
    (known : ∀ m ∈ ms, m.1 ≠ "created_by" → m.1 ∈ ms₀.map Prod.fst) :
    readCase lax (withoutCreator (.obj ms)) = recredited case := by
  have row := row_same (case_row read) same
  simp only [withoutCreator,readCase,row_migrates row (lookup_removed "created_by" ms)]
  cases found : creditOf case with
  | none => rw [recredited,found,Option.map_none,Option.bind_none,Option.bind_none]
  | some creator =>
    rw [recredited_some found,Option.map_some,Option.bind_some]
    apply load_credited read
    · intro name other
      rw [lookup_insertMember,if_neg other]
      exact same name other
    · intro m member
      rcases insertMember_keys (List.mem_map_of_mem member) with named | old
      · exact .inl named
      · obtain ⟨before,inside,named⟩ := List.mem_map.mp old
        obtain ⟨held,other⟩ := List.mem_filter.mp inside
        rw [←named]
        exact .inr (known before held (by simpa using other))
    · rw [lookup_insertMember,if_pos rfl]

theorem readCase_without (read : readCase lax v = some case) : readCase lax (withoutCreator v) = recredited case := by
  cases v with
  | obj ms =>
    obtain ⟨migrated,moved,loaded⟩ := Option.bind_eq_some_iff.mp read
    rcases migrated_row moved with rfl | ⟨creator,rfl⟩
    · exact read_without loaded (fun name other => lookup_dropped other _) (fun m member _ => List.mem_map_of_mem member)
    · exact read_without loaded (dropped_inserted _ ms) (fun m member other => inserted_known _ member other)
  | _ => cases read

end Rows

section Identity
variable {lax : Coercions}

def identityMembers (lax : Coercions) (case : ReconciliationCase) : Members :=
  [("affected_refs",Codec.string.list.dump case.affectedRefs),
    ("alternatives",ReconciliationCaseType.codec.list.dump case.alternatives),
    ("case_type",ReconciliationCaseType.codec.dump case.caseType),
    ("created_at",lax.timeCodec.dump case.createdAt),
    ("created_by",.str case.createdBy),
    ("detector_id",.str case.detectorId),
    ("evidence_sides",(EvidenceSide.codec lax).list.dump case.evidenceSides),
    ("fingerprint",.str case.fingerprint),
    ("id",.str case.id),
    ("impact",.str case.impact),
    ("requires_human",lax.flagCodec.dump case.requiresHuman),
    ("subject_ref",.str case.subjectRef)]

theorem identity_members (case : ReconciliationCase) : immutableIdentity lax case = .obj (identityMembers lax case) := by
  simp only [immutableIdentity,ReconciliationCase.codec,Codec.convert,Codec.object,ReconciliationCase.fields,Fields.required,
    Fields.defaulted,Fields.push]
  simp [lifecycleFields,identityMembers,Fields.nil,Codec.string]

theorem identity_parts {a b : ReconciliationCase} (same : Json.equal (immutableIdentity lax a) (immutableIdentity lax b) = true) :
    equalMembers (identityMembers lax a) (identityMembers lax b) = true := by
  rw [identity_members,identity_members] at same
  exact same

theorem identity_text {a b : ReconciliationCase} (same : Json.equal (immutableIdentity lax a) (immutableIdentity lax b) = true)
    (mine : (identityMembers lax a).lookup k = some (.str x)) (yours : (identityMembers lax b).lookup k = some (.str y)) : x = y := by
  rcases equalMembers_lookup (identity_parts same) k with ⟨absent,_⟩ | ⟨v,w,left,right,equals⟩
  · rw [mine] at absent
    cases absent
  · rw [mine] at left
    rw [yours] at right
    cases left
    cases right
    exact (Json.str.inj (equal_str.mp equals)).symm

theorem identity_creator {a b : ReconciliationCase} (same : Json.equal (immutableIdentity lax a) (immutableIdentity lax b) = true) :
    a.createdBy = b.createdBy :=
  identity_text (k := "created_by") same (by simp [identityMembers,List.lookup_cons]) (by simp [identityMembers,List.lookup_cons])

theorem identity_detector {a b : ReconciliationCase} (same : Json.equal (immutableIdentity lax a) (immutableIdentity lax b) = true) :
    a.detectorId = b.detectorId :=
  identity_text (k := "detector_id") same (by simp [identityMembers,List.lookup_cons]) (by simp [identityMembers,List.lookup_cons])

-- The identity under another creator, the same one on both sides.
theorem identity_credited {a b : ReconciliationCase} (attributed : creator ≠ "")
    (same : Json.equal (immutableIdentity lax a) (immutableIdentity lax b) = true) :
    Json.equal (immutableIdentity lax (a.creditedTo creator attributed)) (immutableIdentity lax (b.creditedTo creator attributed)) = true := by
  have parts := identity_parts same
  rw [identity_members,identity_members]
  simp only [Json.equal,identityMembers,equalMembers,ReconciliationCase.creditedTo,Bool.and_eq_true,beq_self_eq_true,true_and] at parts ⊢
  obtain ⟨affectedRefs,alternatives,caseType,createdAt,_,rest⟩ := parts
  exact ⟨affectedRefs,alternatives,caseType,createdAt,rest⟩

theorem equal_credited {a b : ReconciliationCase} (attributed : creator ≠ "") (same : a.createdBy = b.createdBy) :
    (a.creditedTo creator attributed).equal (b.creditedTo creator attributed) = a.equal b := by
  simp only [ReconciliationCase.equal,ReconciliationCase.creditedTo,same,beq_self_eq_true]
  rfl

end Identity

section Simulation
variable {lax : Coercions}

-- A case under the creator its own row gives it.
def assigned (case : ReconciliationCase) : ReconciliationCase := (recredited case).getD case

theorem assigned_eq (found : creditOf case = some creator) : assigned case = case.creditedTo creator (creditOf_named found) := by
  rw [assigned,recredited_some found,Option.getD_some]

theorem assigned_same (case : ReconciliationCase) : (assigned case).id = case.id ∧ (assigned case).fingerprint = case.fingerprint := by
  cases found : creditOf case with
  | none => simp [assigned,recredited,found]
  | some creator =>
    rw [assigned_eq found]
    exact ⟨rfl,rfl⟩

def assignedEntries (entries : List (String × ReconciliationCase)) : List (String × ReconciliationCase) :=
  entries.map fun entry => (entry.1,assigned entry.2)

def assignedIndex (s : CaseIndex) : CaseIndex := ⟨assignedEntries s.latestById,assignedEntries s.byFingerprint⟩

theorem lookup_assigned (entries : List (String × ReconciliationCase)) (key : String) :
    (assignedEntries entries).lookup key = (entries.lookup key).map assigned := by
  induction entries with
  | nil => rfl
  | cons first rest ih =>
    obtain ⟨k,case⟩ := first
    simp only [assignedEntries,List.map_cons,List.lookup_cons] at ih ⊢
    cases key == k with
    | true => rfl
    | false => exact ih

theorem store_assigned (s : CaseIndex) (case : ReconciliationCase) :
    (assignedIndex s).store (assigned case) = assignedIndex (s.store case) := by
  obtain ⟨id,fingerprint⟩ := assigned_same case
  simp only [CaseIndex.store,assignedIndex,assign,assignedEntries,List.map_cons,id,fingerprint]

theorem owned_assigned (s : CaseIndex) (case : ReconciliationCase) :
    (assignedIndex s).ownedElsewhere (assigned case) = s.ownedElsewhere case := by
  obtain ⟨id,fingerprint⟩ := assigned_same case
  simp only [CaseIndex.ownedElsewhere,assignedIndex,lookup_assigned,id,fingerprint]
  cases s.byFingerprint.lookup case.fingerprint with
  | none => rfl
  | some owner => simp [(assigned_same owner).1]

-- What the check does to a version it does again to the version under its own
-- creator, when the latest version of the case has the same one.
theorem recordVersion_assigned {s : CaseIndex} (known : creditOf case = some creator)
    (agreed : ∀ previous, s.latestById.lookup case.id = some previous → creditOf previous = some creator)
    (taken : recordVersion lax true s case = .ok (index,added)) :
    recordVersion lax true (assignedIndex s) (assigned case) = .ok (assignedIndex index,added) := by
  have looked : (assignedIndex s).latestById.lookup (assigned case).id = (s.latestById.lookup case.id).map assigned := by
    rw [(assigned_same case).1]
    exact lookup_assigned _ _
  simp only [recordVersion,owned_assigned,looked] at taken ⊢
  split at taken
  · cases taken
  · rename_i owned
    rw [if_neg owned]
    cases found : s.latestById.lookup case.id with
    | none =>
      rw [found] at taken
      cases taken
      rw [Option.map_none,store_assigned]
    | some previous =>
      rw [found] at taken
      simp only [Option.map_some] at taken ⊢
      split at taken
      · cases taken
      · rename_i identity
        have same : Json.equal (immutableIdentity lax previous) (immutableIdentity lax case) = true := by simpa using identity
        have credited := identity_credited (creditOf_named known) same
        have equals := equal_credited (creditOf_named known) (identity_creator same)
        rw [assigned_eq known,assigned_eq (agreed previous found),credited,equals]
        simp only [Bool.not_true,Bool.false_eq_true,if_false]
        split at taken
        · rename_i equal
          cases taken
          rw [if_pos equal]
          rfl
        · rename_i different
          rw [if_neg different]
          split at taken
          · cases taken
          · rename_i moved
            split at taken
            · cases taken
            · rename_i grows
              cases taken
              rw [←store_assigned,assigned_eq known]
              rw [if_neg (show ¬ (previous.creditedTo creator _).status = (case.creditedTo creator _).status from moved),
                if_neg (show ¬ (!extendsLifecycle (previous.creditedTo creator _) (case.creditedTo creator _)) = true from grows)]

end Simulation

section Lineage
variable {lax : Coercions}

-- The check of a sequence of versions.
def indexAll (lax : Coercions) : CaseIndex → List ReconciliationCase → Option CaseIndex
  | s, [] => some s
  | s, case :: rest =>
    match recordVersion lax true s case with
    | .error _ => none
    | .ok (s',_) => indexAll lax s' rest

-- What an earlier version of a case shares with a later one.
structure Older (a b : ReconciliationCase) : Prop where
  detector : a.detectorId = b.detectorId
  actor : a.history ≠ [] → b.history ≠ [] ∧ earliestActor a = earliestActor b

theorem Older.refl (a : ReconciliationCase) : Older a a := ⟨rfl,fun present => ⟨present,rfl⟩⟩

theorem Older.trans (first : Older a b) (second : Older b c) : Older a c := by
  refine ⟨first.detector.trans second.detector,?_⟩
  intro present
  obtain ⟨present',same⟩ := first.actor present
  obtain ⟨present'',same'⟩ := second.actor present'
  exact ⟨present'',same.trans same'⟩

theorem earliest_same {a b : ReconciliationCase} (more : b.history = past ++ more)
    (same : equalLists ClassificationEvent.equal past a.history = true) (present : a.history ≠ []) :
    b.history ≠ [] ∧ earliestActor a = earliestActor b := by
  unfold earliestActor
  cases later : a.history with
  | nil => exact absurd later present
  | cons event rest =>
    rw [later] at same
    cases past with
    | nil => cases same
    | cons first others =>
      simp only [equalLists,Bool.and_eq_true,ClassificationEvent.equal,beq_iff_eq] at same
      rw [more,List.cons_append]
      dsimp only
      rw [same.1.1.1.1]
      exact ⟨List.cons_ne_nil _ _,rfl⟩

theorem earliest_back {a b : ReconciliationCase} (same : equalLists ClassificationEvent.equal a.history b.history = true)
    (present : b.history ≠ []) : a.history ≠ [] ∧ earliestActor b = earliestActor a :=
  earliest_same (List.append_nil _).symm same present

-- The three ways a version is taken.
theorem recordVersion_cases {s : CaseIndex} (taken : recordVersion lax true s case = .ok (index,added)) :
    s.latestById.lookup case.id = none ∧ index = s.store case ∨
      ∃ previous, s.latestById.lookup case.id = some previous ∧ (Older case previous ∧ index = s ∨ Older previous case ∧ index = s.store case) := by
  unfold recordVersion at taken
  split at taken
  · cases taken
  · split at taken
    · rename_i absent
      cases taken
      exact .inl ⟨absent,rfl⟩
    · rename_i previous present
      split at taken
      · cases taken
      · rename_i identity
        have identical : Json.equal (immutableIdentity lax previous) (immutableIdentity lax case) = true := by simpa using identity
        have detector := identity_detector identical
        split at taken
        · rename_i equal
          cases taken
          refine .inr ⟨previous,present,.inl ⟨⟨detector.symm,?_⟩,rfl⟩⟩
          simp only [ReconciliationCase.equal,Bool.and_eq_true] at equal
          exact earliest_back equal.2
        · split at taken
          · cases taken
          · split at taken
            · cases taken
            · rename_i grows
              cases taken
              refine .inr ⟨previous,present,.inr ⟨⟨detector,?_⟩,rfl⟩⟩
              simp only [extendsLifecycle,Bool.not_eq_true,Bool.not_eq_false'] at grows
              split at grows
              · cases grows
              · rename_i event last
                simp only [Bool.and_eq_true,decide_eq_true_eq] at grows
                exact earliest_same (List.dropLast_append_getLast? event last).symm grows.1.1.2

-- The latest version of each case is a later one than all of them.
def Lineage (versions : List ReconciliationCase) (s : CaseIndex) : Prop :=
  ∀ case ∈ versions, ∃ latest, s.latestById.lookup case.id = some latest ∧ Older case latest

theorem lookup_stored (s : CaseIndex) (case : ReconciliationCase) (id : String) :
    (s.store case).latestById.lookup id = if id = case.id then some case else s.latestById.lookup id := by
  by_cases same : id = case.id
  · simp [CaseIndex.store,assign,same]
  · have test : (id == case.id) = false := by simpa using same
    simp [CaseIndex.store,assign,List.lookup_cons,test,same]

theorem lineage_stored {s : CaseIndex} (held : Lineage versions s)
    (older : ∀ previous, s.latestById.lookup case.id = some previous → Older previous case) : Lineage (versions ++ [case]) (s.store case) := by
  intro version member
  rw [lookup_stored]
  rcases List.mem_append.mp member with before | new
  · obtain ⟨latest,found,grew⟩ := held version before
    by_cases same : version.id = case.id
    · rw [if_pos same]
      rw [same] at found
      exact ⟨case,rfl,grew.trans (older latest found)⟩
    · rw [if_neg same]
      exact ⟨latest,found,grew⟩
  · rw [List.mem_singleton.mp new,if_pos rfl]
    exact ⟨case,rfl,.refl case⟩

theorem lineage_step {s : CaseIndex} (held : Lineage versions s) (taken : recordVersion lax true s case = .ok (index,added)) :
    Lineage (versions ++ [case]) index := by
  rcases recordVersion_cases taken with ⟨absent,rfl⟩ | ⟨previous,present,⟨older,rfl⟩ | ⟨older,rfl⟩⟩
  · apply lineage_stored held
    intro previous found
    rw [absent] at found
    cases found
  · intro version member
    rcases List.mem_append.mp member with before | new
    · exact held version before
    · cases List.mem_singleton.mp new
      exact ⟨previous,present,older⟩
  · apply lineage_stored held
    intro latest found
    rw [present] at found
    cases found
    exact older

theorem lineage_run {s : CaseIndex} (held : Lineage past s) (ran : indexAll lax s versions = some index) :
    Lineage (past ++ versions) index := by
  induction versions generalizing past s with
  | nil =>
    cases ran
    rwa [List.append_nil]
  | cons case rest ih =>
    unfold indexAll at ran
    split at ran
    · cases ran
    · rename_i taken
      have next := ih (lineage_step held taken) ran
      rwa [List.append_assoc] at next

theorem lineage_agrees (held : Lineage versions s) (first : a ∈ versions) (second : b ∈ versions) (same : a.id = b.id) :
    a.detectorId = b.detectorId ∧ (a.history ≠ [] → b.history ≠ [] → earliestActor a = earliestActor b) := by
  obtain ⟨latest,found,older⟩ := held a first
  obtain ⟨latest',found',older'⟩ := held b second
  rw [same,found'] at found
  cases found
  refine ⟨older.detector.trans older'.detector.symm,?_⟩
  intro present present'
  exact (older.actor present).2.trans (older'.actor present').2.symm

end Lineage

section Ledgers
variable {lax : Coercions}

theorem mapM_iff {f : α → Option β} : xs.mapM f = some ys ↔ List.Forall₂ (fun x y => f x = some y) xs ys := by
  induction xs generalizing ys with
  | nil => cases ys <;> simp
  | cons x xs ih =>
    simp only [List.mapM_cons,Option.bind_eq_bind,Option.bind_eq_some_iff,Option.pure_def,Option.some.injEq]
    constructor
    · rintro ⟨y,first,rest,later,rfl⟩
      exact .cons first (ih.mp later)
    · intro both
      cases both with
      | cons first later => exact ⟨_,first,_,ih.mpr later,rfl⟩

-- A line as a record.
def rowOf (line : Line Char) : Option Json := if isBlank line.body then none else loads plainDialect line.text

-- The decoded rows of a ledger.
def rows : Option Utf8.Bytes → Option (List Json)
  | none => some []
  | some content => (Utf8.decode content).bind fun cs => (lines lineRule cs).mapM rowOf

-- The same ledger with the field deleted from every row, however the rows are
-- spelled.
def Deleted (content content' : Option Utf8.Bytes) : Prop := rows content' = (rows content).map fun vs => vs.map withoutCreator

theorem line_iff (s : CaseLedger) (n : Nat) (l : Line Char) : (reader lax).line s n l = .ok next ↔
    ∃ v case index added, rowOf l = some v ∧ readCase lax v = some case ∧ recordVersion lax true s.index case = .ok (index,added) ∧
      next = ⟨s.versions ++ [case],index⟩ := by
  have shown : (reader lax).shown l = l.text := rfl
  have dialect : (reader lax).dialect = plainDialect := rfl
  unfold LedgerReader.line rowOf
  rw [shown,dialect]
  split
  · constructor
    · intro taken
      cases taken
    · rintro ⟨v,case,index,added,impossible,_⟩
      cases impossible
  · cases loads plainDialect l.text with
    | none =>
      constructor
      · intro taken
        cases taken
      · rintro ⟨v,case,index,added,impossible,_⟩
        cases impossible
    | some v =>
      dsimp only
      constructor
      · intro taken
        have recorded : record lax s n v = .ok next := taken
        unfold record at recorded
        split at recorded
        · split at recorded
          · cases recorded
          · rename_i case read
            split at recorded
            · cases recorded
            · rename_i index added stored
              cases recorded
              exact ⟨_,case,index,added,rfl,read,stored,rfl⟩
        · cases recorded
      · rintro ⟨w,case,index,added,same,read,stored,rfl⟩
        cases same
        have recorded : record lax s n v = .ok ⟨s.versions ++ [case],index⟩ := by
          cases v with
          | obj ms => simp only [record,read,stored]
          | _ => cases read
        exact recorded

theorem readFrom_iff (n : Nat) (s : CaseLedger) (ls : List (Line Char)) : (reader lax).readFrom n s ls = .ok next ↔
    ∃ vs cases, ls.mapM rowOf = some vs ∧ vs.mapM (readCase lax) = some cases ∧ indexAll lax s.index cases = some next.index ∧
      next.versions = s.versions ++ cases := by
  induction ls generalizing n s with
  | nil =>
    simp only [LedgerReader.readFrom,List.mapM_nil,Option.pure_def,Option.some.injEq,Except.ok.injEq]
    constructor
    · rintro rfl
      exact ⟨[],[],rfl,rfl,rfl,(List.append_nil _).symm⟩
    · rintro ⟨_,read,rfl,told,ended,versions⟩
      have empty : read = [] := (Option.some.inj told).symm
      rw [empty] at ended versions
      rw [List.append_nil] at versions
      have index : s.index = next.index := Option.some.inj ended
      cases s
      cases next
      cases versions
      cases index
      rfl
  | cons l rest ih =>
    unfold LedgerReader.readFrom
    constructor
    · intro read
      split at read
      · cases read
      · rename_i middle first
        obtain ⟨v,case,index,added,row,told,stored,rfl⟩ := (line_iff s n l).mp first
        obtain ⟨vs,cases,rows,all,ended,shown⟩ := (ih _ _).mp read
        refine ⟨v :: vs,case :: cases,by simp [row,rows],by simp [told,all],?_,by simpa using shown⟩
        simpa only [indexAll,stored] using ended
    · rintro ⟨vs,cases,rows,all,ended,shown⟩
      cases mapM_iff.mp rows with
      | @cons _ v _ vs row others =>
        cases mapM_iff.mp all with
        | @cons _ case _ cases told remaining =>
          unfold indexAll at ended
          split at ended
          · cases ended
          · rename_i index added stored
            have first : (reader lax).line s n l = .ok ⟨s.versions ++ [case],index⟩ :=
              (line_iff s n l).mpr ⟨v,case,index,added,row,told,stored,rfl⟩
            rw [first]
            apply (ih _ _).mpr
            exact ⟨vs,cases,mapM_iff.mpr others,mapM_iff.mpr remaining,ended,by simpa using shown⟩

-- A ledger is accepted when its rows read as cases and these pass the check.
theorem parse_rows : parseCaseVersions lax content = .ok versions ↔
    ∃ vs index, rows content = some vs ∧ vs.mapM (readCase lax) = some versions ∧ indexAll lax ⟨[],[]⟩ versions = some index := by
  rw [case_read]
  cases content with
  | none =>
    constructor
    · rintro ⟨s,read,rfl⟩
      cases read
      exact ⟨[],_,rfl,rfl,rfl⟩
    · rintro ⟨vs,index,found,read,_⟩
      cases found
      cases read
      exact ⟨_,rfl,rfl⟩
  | some bytes =>
    simp only [parseVersions,LedgerReader.read,rows]
    cases Utf8.decode bytes with
    | none => simp
    | some cs =>
      dsimp only
      constructor
      · rintro ⟨s,read,rfl⟩
        obtain ⟨vs,cases,found,all,ended,shown⟩ := (readFrom_iff _ _ _).mp read
        have same : s.versions = cases := by simpa [reader] using shown
        rw [same]
        exact ⟨vs,s.index,found,all,ended⟩
      · rintro ⟨vs,index,found,all,ended⟩
        exact ⟨⟨versions,index⟩,(readFrom_iff _ _ _).mpr ⟨vs,versions,found,all,ended,rfl⟩,rfl⟩

theorem rows_without {vs : List Json} (read : vs.mapM (readCase lax) = some versions) :
    (vs.map withoutCreator).mapM (readCase lax) = versions.mapM recredited := by
  induction vs generalizing versions with
  | nil =>
    cases read
    rfl
  | cons v vs ih =>
    cases mapM_iff.mp read with
    | cons first rest =>
      simp only [List.map_cons,List.mapM_cons,readCase_without first,ih (mapM_iff.mpr rest)]

end Ledgers

section Agreement
variable {lax : Coercions}

-- Every row finds a creator, and the rows of one case find the same one.
def Alike (versions : List ReconciliationCase) : Prop :=
  ∀ case ∈ versions, ∃ creator, creditOf case = some creator ∧ ∀ other ∈ versions, other.id = case.id → creditOf other = some creator

-- The same in terms of what the rows hold. A version without a history is the
-- one a detector opened; the later ones name their first actor.
structure Traceable (versions : List ReconciliationCase) : Prop where
  named : ∀ case ∈ versions, earliestActor case = [] → hasText case.detectorId = true
  steady : ∀ first ∈ versions, ∀ later ∈ versions, later.id = first.id → first.history = [] → earliestActor later ≠ [] →
    String.ofList (earliestActor later) = "detector:" ++ first.detectorId

-- The ledger is accepted with the same versions, but for one creator a case.
def Migrates (lax : Coercions) (versions : List ReconciliationCase) (content' : Option Utf8.Bytes) : Prop :=
  ∃ versions', parseCaseVersions lax content' = .ok versions' ∧
    List.Forall₂ (fun old new => new = old.creditedTo new.createdBy new.attributed) versions versions' ∧
    ∀ a ∈ versions', ∀ b ∈ versions', a.id = b.id → a.createdBy = b.createdBy

theorem earliest_empty {case : ReconciliationCase} (empty : case.history = []) : earliestActor case = [] := by
  rw [earliestActor,empty]

theorem credit_actor (present : earliestActor case ≠ []) : creditOf case = some (String.ofList (earliestActor case)) := if_pos present

theorem credit_detector (absent : earliestActor case = []) (named : hasText case.detectorId = true) :
    creditOf case = some ("detector:" ++ case.detectorId) := by
  rw [creditOf,if_neg (not_not.mpr absent),if_pos named]

theorem traceable_alike (traceable : Traceable versions) (held : Lineage versions s) : Alike versions := by
  intro case member
  by_cases present : earliestActor case = []
  · refine ⟨_,credit_detector present (traceable.named case member present),?_⟩
    intro other second same
    obtain ⟨detector,actors⟩ := lineage_agrees held second member same
    by_cases told : earliestActor other = []
    · rw [credit_detector told (traceable.named other second told),detector]
    · have opened : case.history = [] := by
        by_contra history
        have grown : other.history ≠ [] := fun empty => told (earliest_empty empty)
        exact told ((actors grown history).trans present)
      rw [credit_actor told,traceable.steady case member other second same opened told]
  · refine ⟨_,credit_actor present,?_⟩
    intro other second same
    obtain ⟨detector,actors⟩ := lineage_agrees held second member same
    have grown : case.history ≠ [] := fun empty => present (earliest_empty empty)
    by_cases opened : other.history = []
    · rw [credit_detector (earliest_empty opened) (traceable.named other second (earliest_empty opened)),
        traceable.steady other second case member same.symm opened present]
    · rw [←actors opened grown] at present ⊢
      exact credit_actor present

theorem alike_traceable (alike : Alike versions) : Traceable versions := by
  constructor
  · intro case member absent
    obtain ⟨creator,found,_⟩ := alike case member
    rw [creditOf,if_neg (not_not.mpr absent)] at found
    split at found
    · assumption
    · cases found
  · intro first member later second same opened told
    obtain ⟨creator,found,others⟩ := alike first member
    have shown := others later second same
    rw [credit_actor told] at shown
    rw [creditOf,if_neg (not_not.mpr (earliest_empty opened))] at found
    split at found
    · exact Option.some.inj (shown.trans found.symm)
    · cases found

-- The index holds versions of the ledger under their own ids.
def Indexes (versions : List ReconciliationCase) (s : CaseIndex) : Prop :=
  ∀ id case, s.latestById.lookup id = some case → case ∈ versions ∧ case.id = id

theorem indexes_step {s : CaseIndex} (held : Indexes versions s) (member : case ∈ versions)
    (taken : recordVersion lax true s case = .ok (index,added)) : Indexes versions index := by
  have stored : Indexes versions (s.store case) := by
    intro id found looked
    rw [lookup_stored] at looked
    split at looked
    · rename_i same
      cases looked
      exact ⟨member,same.symm⟩
    · exact held id found looked
  rcases recordVersion_cases taken with ⟨_,rfl⟩ | ⟨_,_,⟨_,rfl⟩ | ⟨_,rfl⟩⟩
  · exact stored
  · exact held
  · exact stored

theorem indexAll_assigned {s : CaseIndex} (alike : Alike versions) (held : Indexes versions s) (members : ∀ case ∈ cases, case ∈ versions)
    (ran : indexAll lax s cases = some index) : indexAll lax (assignedIndex s) (cases.map assigned) = some (assignedIndex index) := by
  induction cases generalizing s with
  | nil =>
    cases ran
    rfl
  | cons case rest ih =>
    have member := members case List.mem_cons_self
    unfold indexAll at ran
    split at ran
    · cases ran
    · rename_i middle added taken
      obtain ⟨creator,found,others⟩ := alike case member
      have again := recordVersion_assigned found (fun previous looked =>
        others previous (held _ _ looked).1 (held _ _ looked).2) taken
      rw [List.map_cons,indexAll,again]
      exact ih (indexes_step held member taken) (fun other later => members other (List.mem_cons_of_mem _ later)) ran

theorem alike_recredited (alike : Alike versions) : versions.mapM recredited = some (versions.map assigned) := by
  apply mapM_iff.mpr
  apply List.forall₂_map_right_iff.mpr
  apply List.forall₂_same.mpr
  intro case member
  obtain ⟨creator,found,_⟩ := alike case member
  rw [recredited_some found,assigned_eq found]

theorem alike_migrates (alike : Alike versions) {vs : List Json} (told : vs.mapM (readCase lax) = some versions)
    (ran : indexAll lax ⟨[],[]⟩ versions = some index) (deleted : rows content' = some (vs.map withoutCreator)) :
    Migrates lax versions content' := by
  have empty : Indexes versions ⟨[],[]⟩ := by
    intro id case looked
    cases looked
  have read := (rows_without told).trans (alike_recredited alike)
  refine ⟨versions.map assigned,parse_rows.mpr ⟨_,_,deleted,read,indexAll_assigned alike empty (fun _ member => member) ran⟩,?_,?_⟩
  · apply List.forall₂_map_right_iff.mpr
    apply List.forall₂_same.mpr
    intro case member
    obtain ⟨creator,found,_⟩ := alike case member
    rw [assigned_eq found]
    rfl
  · intro a first b second same
    obtain ⟨one,member,rfl⟩ := List.mem_map.mp first
    obtain ⟨two,member',rfl⟩ := List.mem_map.mp second
    rw [(assigned_same one).1,(assigned_same two).1] at same
    obtain ⟨creator,found,others⟩ := alike one member
    rw [assigned_eq found,assigned_eq (others two member' same.symm)]
    rfl

theorem recredited_creator (found : recredited case = some new) : new.id = case.id ∧ creditOf case = some new.createdBy := by
  cases credit : creditOf case with
  | none =>
    rw [recredited,credit] at found
    cases found
  | some creator =>
    rw [recredited_some credit] at found
    cases found
    exact ⟨rfl,rfl⟩

theorem forall₂_member {relation : α → β → Prop} (both : List.Forall₂ relation xs ys) (member : x ∈ xs) : ∃ y ∈ ys, relation x y := by
  induction both with
  | nil => cases member
  | cons first _ ih =>
    cases List.mem_cons.mp member with
    | inl here =>
      subst here
      exact ⟨_,List.mem_cons_self,first⟩
    | inr later =>
      obtain ⟨y,inside,related⟩ := ih later
      exact ⟨y,List.mem_cons_of_mem _ inside,related⟩

theorem migrates_alike {vs : List Json} (told : vs.mapM (readCase lax) = some versions)
    (deleted : rows content' = some (vs.map withoutCreator)) (migrates : Migrates lax versions content') : Alike versions := by
  obtain ⟨versions',parsed,_,constant⟩ := migrates
  obtain ⟨ws,_,found,read,_⟩ := parse_rows.mp parsed
  rw [deleted] at found
  cases found
  have moved := mapM_iff.mp ((rows_without told).symm.trans read)
  intro case member
  obtain ⟨new,inside,credited⟩ := forall₂_member moved member
  obtain ⟨same,credit⟩ := recredited_creator credited
  refine ⟨new.createdBy,credit,?_⟩
  intro other second equal
  obtain ⟨new',inside',credited'⟩ := forall₂_member moved second
  obtain ⟨same',credit'⟩ := recredited_creator credited'
  rw [credit',constant new' inside' new inside (by rw [same',same,equal])]

-- An accepted ledger without the field is accepted with one creator a case
-- exactly when its first versions and its later ones name the same creator.
theorem migration_agrees (accepted : parseCaseVersions lax content = .ok versions) (deleted : Deleted content content') :
    Migrates lax versions content' ↔ Traceable versions := by
  obtain ⟨vs,index,found,told,ran⟩ := parse_rows.mp accepted
  rw [Deleted,found] at deleted
  constructor
  · intro migrates
    exact alike_traceable (migrates_alike told deleted migrates)
  · intro traceable
    have unborn : Lineage [] ⟨[],[]⟩ := by intro case member; cases member
    have held := lineage_run unborn ran
    exact alike_migrates (traceable_alike traceable held) told ran deleted

end Agreement

section Written
variable {lax : Coercions}

-- A ledger written record by record has the records as its rows.
theorem rows_frames {vs : List Json} (each : ∀ v ∈ vs, (∃ ms, v = .obj ms) ∧ WellFormed v ∧ Unbroken v) :
    rows (some (Utf8.encode (vs.flatMap frame))) = some vs := by
  rw [rows,Utf8.decode_encode,Option.bind_some]
  induction vs with
  | nil => rfl
  | cons v vs ih =>
    obtain ⟨⟨ms,rfl⟩,formed,unbroken⟩ := each v List.mem_cons_self
    obtain ⟨line,split,_,read,solid⟩ := append_whole [] (vs.flatMap frame) plainDialect formed (.inl rfl) unbroken (by decide)
    rw [List.nil_append,show (LineText.scan lineRule ([] : List Char)).complete = [] from rfl,List.nil_append] at split
    have row : rowOf line = some (.obj ms) := by simp [rowOf,solid,read]
    rw [List.flatMap_cons,split]
    simp [row,ih fun w member => each w (List.mem_cons_of_mem _ member)]

theorem filter_formed (keep : String × Json → Bool) {ms : Members} (formed : WellFormedMembers ms) : WellFormedMembers (ms.filter keep) := by
  induction ms with
  | nil => trivial
  | cons m ms ih =>
    by_cases kept : keep m = true
    · rw [List.filter_cons_of_pos kept]
      exact ⟨formed.1,ih formed.2⟩
    · rw [List.filter_cons_of_neg kept]
      exact ih formed.2

theorem formed_without {ms : Members} (formed : WellFormed (.obj ms)) : WellFormed (withoutCreator (.obj ms)) :=
  ⟨formed.1.sublist (List.filter_sublist.map _),filter_formed _ formed.2⟩

-- The ledger of these versions, as the store writes it.
def writtenLedger (lax : Coercions) (cases : List ReconciliationCase) : Option Utf8.Bytes :=
  some (Utf8.encode ((cases.map (ReconciliationCase.codec lax).dump).flatMap frame))

-- The same versions as they were written before the field existed.
def legacyLedger (lax : Coercions) (cases : List ReconciliationCase) : Option Utf8.Bytes :=
  some (Utf8.encode ((cases.map fun case => withoutCreator ((ReconciliationCase.codec lax).dump case)).flatMap frame))

theorem filter_strings (keep : String × Json → Bool) (ms : Members) : stringsMembers (ms.filter keep) ⊆ stringsMembers ms := by
  induction ms with
  | nil => exact List.Subset.refl _
  | cons m ms ih =>
    obtain ⟨k,v⟩ := m
    intro s member
    by_cases kept : keep (k,v) = true
    · rw [List.filter_cons_of_pos kept] at member
      simp only [stringsMembers,List.mem_cons,List.mem_append] at member ⊢
      rcases member with here | value | later
      · exact .inl here
      · exact .inr (.inl value)
      · exact .inr (.inr (ih later))
    · rw [List.filter_cons_of_neg kept] at member
      simp only [stringsMembers,List.mem_cons,List.mem_append]
      exact .inr (.inr (ih member))

theorem unbroken_without {ms : Members} (unbroken : Unbroken (.obj ms)) : Unbroken (withoutCreator (.obj ms)) :=
  fun s member => unbroken s (filter_strings _ ms member)

theorem written_accepted {cases : List ReconciliationCase} (unbroken : ∀ case ∈ cases, Unbroken ((ReconciliationCase.codec lax).dump case))
    (passes : (indexAll lax ⟨[],[]⟩ cases).isSome = true) :
    parseCaseVersions lax (writtenLedger lax cases) = .ok cases ∧ Deleted (writtenLedger lax cases) (legacyLedger lax cases) := by
  have written : rows (writtenLedger lax cases) = some (cases.map (ReconciliationCase.codec lax).dump) := by
    apply rows_frames
    intro v member
    obtain ⟨case,inside,rfl⟩ := List.mem_map.mp member
    exact ⟨⟨_,rfl⟩,(ReconciliationCase.codec lax).formed case,unbroken case inside⟩
  have legacy : rows (legacyLedger lax cases) = some (cases.map fun case => withoutCreator ((ReconciliationCase.codec lax).dump case)) := by
    apply rows_frames
    intro v member
    obtain ⟨case,inside,rfl⟩ := List.mem_map.mp member
    exact ⟨⟨_,rfl⟩,formed_without ((ReconciliationCase.codec lax).formed case),unbroken_without (unbroken case inside)⟩
  constructor
  · obtain ⟨index,ran⟩ := Option.isSome_iff_exists.mp passes
    refine parse_rows.mpr ⟨_,index,written,?_,ran⟩
    apply mapM_iff.mpr
    apply List.forall₂_map_left_iff.mpr
    apply List.forall₂_same.mpr
    intro case _
    obtain ⟨ms,shape,read⟩ := dump_case lax case
    rw [shape]
    exact read
  · rw [Deleted,legacy,written,Option.map_some,List.map_map]
    rfl

end Written

theorem opened_unbroken : Unbroken ((ReconciliationCase.codec canonicalOnly).dump openedCase) := by decide +kernel

theorem proposed_unbroken : Unbroken ((ReconciliationCase.codec canonicalOnly).dump proposedCase) := by decide +kernel

-- A proposal that the detector itself reports.
def reportedCase : ReconciliationCase :=
  {openedCase with
    status := .proposed
    history := [⟨"detector:detector",reviewDay,.opened,.proposed,by decide⟩]
    valid := by decide}

theorem reported_unbroken : Unbroken ((ReconciliationCase.codec canonicalOnly).dump reportedCase) := by decide +kernel

theorem reported_accepted : parseCaseVersions canonicalOnly (writtenLedger canonicalOnly [openedCase,reportedCase]) = .ok [openedCase,reportedCase] ∧
    Deleted (writtenLedger canonicalOnly [openedCase,reportedCase]) (legacyLedger canonicalOnly [openedCase,reportedCase]) := by
  apply written_accepted
  · intro case member
    simp only [List.mem_cons,List.not_mem_nil,or_false] at member
    rcases member with rfl | rfl
    · exact opened_unbroken
    · exact reported_unbroken
  · decide +kernel

theorem proposed_accepted : parseCaseVersions canonicalOnly (writtenLedger canonicalOnly [openedCase,proposedCase]) = .ok [openedCase,proposedCase] ∧
    Deleted (writtenLedger canonicalOnly [openedCase,proposedCase]) (legacyLedger canonicalOnly [openedCase,proposedCase]) := by
  apply written_accepted
  · intro case member
    simp only [List.mem_cons,List.not_mem_nil,or_false] at member
    rcases member with rfl | rfl
    · exact opened_unbroken
    · exact proposed_unbroken
  · decide +kernel

theorem reported_traceable : Traceable [openedCase,reportedCase] := by
  constructor
  · intro case member _
    simp only [List.mem_cons,List.not_mem_nil,or_false] at member
    rcases member with rfl | rfl
    · decide
    · decide
  · intro first member later second _ opened told
    simp only [List.mem_cons,List.not_mem_nil,or_false] at member second
    rcases member with rfl | rfl
    · rcases second with rfl | rfl
      · exact absurd rfl told
      · decide
    · cases opened

theorem migration_agrees_reported : Migrates canonicalOnly [openedCase,reportedCase] (legacyLedger canonicalOnly [openedCase,reportedCase]) :=
  (migration_agrees reported_accepted.1 reported_accepted.2).mpr reported_traceable

-- Opened by a detector and proposed by a reviewer, a case is credited to both.
theorem proposed_case_migrates_apart :
    parseCaseVersions canonicalOnly (writtenLedger canonicalOnly [openedCase,proposedCase]) = .ok [openedCase,proposedCase] ∧
      Deleted (writtenLedger canonicalOnly [openedCase,proposedCase]) (legacyLedger canonicalOnly [openedCase,proposedCase]) ∧
      ¬ Migrates canonicalOnly [openedCase,proposedCase] (legacyLedger canonicalOnly [openedCase,proposedCase]) := by
  obtain ⟨accepted,deleted⟩ := proposed_accepted
  refine ⟨accepted,deleted,?_⟩
  intro migrates
  obtain ⟨vs,index,found,told,ran⟩ := parse_rows.mp accepted
  rw [Deleted,found] at deleted
  have steady := (alike_traceable (migrates_alike told deleted migrates)).steady openedCase (by simp) proposedCase (by simp) rfl rfl (by decide)
  revert steady
  decide

end CaseStore
