import IntentEngineering.Reconcile.AssuranceReports

namespace Assurance
open EvidenceDetection

section Privacy
variable {actor : String} {graph : IntentGraph} {records records' : List EvidenceRecord} {ingestions ingestions' : List EvidenceIngestion}
  {existingCases : List ReconciliationCase}

-- The ledger of an evidence file: every association is of a record in it.
structure Backed (records : List EvidenceRecord) (ingestions : List EvidenceIngestion) : Prop where
  numbered : Numbered records ingestions
  backed : ∀ item ∈ ingestions, item.evidence ∈ records

-- Two ledgers between which the actor cannot tell: they agree on what he may
-- read, and on which objects of that have versions that he may not.
structure Indistinguishable (actor : String) (records records' : List EvidenceRecord) (ingestions ingestions' : List EvidenceIngestion) : Prop where
  left : Backed records ingestions
  right : Backed records' ingestions'
  visible : records.filter (evidenceAllowed actor) = records'.filter (evidenceAllowed actor)
  ledger : (ingestions.filter fun item => evidenceAllowed actor item.evidence) =
    ingestions'.filter fun item => evidenceAllowed actor item.evidence
  shadowed : ∀ r ∈ records.filter (evidenceAllowed actor),
    (∃ h ∈ records, sameObject r h = true ∧ evidenceAllowed actor h = false) ↔
      ∃ h ∈ records', sameObject r h = true ∧ evidenceAllowed actor h = false

theorem Indistinguishable.symm (alike : Indistinguishable actor records records' ingestions ingestions') :
    Indistinguishable actor records' records ingestions' ingestions :=
  ⟨alike.right,alike.left,alike.visible.symm,alike.ledger.symm,fun r member => (alike.shadowed r (alike.visible ▸ member)).symm⟩

-- A record with every version of its object readable is one on both sides.
theorem Indistinguishable.open' {r : EvidenceRecord} (alike : Indistinguishable actor records records' ingestions ingestions')
    (shown : Open actor records r) : Open actor records' r := by
  obtain ⟨member,allowed⟩ := shown
  have itself : evidenceAllowed actor r = true := allowed r member (by simp [sameObject])
  have visible : r ∈ records.filter (evidenceAllowed actor) := List.mem_filter.mpr ⟨member,itself⟩
  have visible' := visible
  rw [alike.visible] at visible'
  refine ⟨(List.mem_filter.mp visible').1,?_⟩
  intro q there same
  by_contra hidden
  obtain ⟨h,here,same',dark⟩ := (alike.shadowed r visible).mpr ⟨q,there,same,by simpa using hidden⟩
  rw [allowed h here same'] at dark
  cases dark

-- What a reference leads to that a side may rest on.
def resolve (actor : String) (records : List EvidenceRecord) (ref : String) : Option EvidenceRecord :=
  (Keyed.latest EvidenceRecord.id records ref).filter (readable actor records)

theorem resolve_some {ref : String} {r : EvidenceRecord} (distinct : (records.map EvidenceRecord.id).Nodup) :
    resolve actor records ref = some r ↔ Open actor records r ∧ r.id = ref := by
  have reversed : (records.reverse.map EvidenceRecord.id).Nodup := by simpa using distinct
  rw [resolve,Option.filter_eq_some_iff]
  constructor
  · intro found
    obtain ⟨member,named⟩ := Keyed.latest_key found.1
    exact ⟨⟨member,(readable_iff member).mp found.2⟩,named⟩
  · intro shown
    obtain ⟨⟨member,allowed⟩,rfl⟩ := shown
    exact ⟨Keyed.find_member reversed (List.mem_reverse.mpr member),(readable_iff member).mpr allowed⟩

theorem resolve_same (alike : Indistinguishable actor records records' ingestions ingestions') : resolve actor records = resolve actor records' := by
  funext ref
  apply Option.ext
  intro r
  rw [resolve_some alike.left.numbered.1,resolve_some alike.right.numbered.1]
  exact and_congr_left fun _ => ⟨alike.open',alike.symm.open'⟩

theorem resolve_all (refs : List String) :
    refs.mapM (resolve actor records) = (refs.mapM (Keyed.latest EvidenceRecord.id records)).filter (·.all (readable actor records)) := by
  induction refs with
  | nil => rfl
  | cons ref refs ih =>
    rw [List.mapM_cons,List.mapM_cons,ih,resolve]
    cases Keyed.latest EvidenceRecord.id records ref with
    | none => rfl
    | some r =>
      cases refs.mapM (Keyed.latest EvidenceRecord.id records) with
      | none => cases allowed : readable actor records r <;> simp [Option.filter,allowed]
      | some rest =>
        cases allowed : readable actor records r <;> cases others : rest.all (readable actor records) <;>
          simp [Option.filter,allowed,others]

-- A side in these terms.
theorem side_resolved (n : Node) : side actor records ingestions n = match n.sourceMode, n.intentFidelityConfidence with
    | some sourceMode, some confidence =>
      if n.evidenceRefs = [] then .ok none
      else match n.evidenceRefs.mapM (resolve actor records) with
        | none => .ok none
        | some resolved => sideFrom n sourceMode confidence resolved (resolved.all (current ingestions))
    | _, _ => .ok none := by
  unfold side
  rw [resolve_all]
  cases n.sourceMode with
  | none => rfl
  | some sourceMode =>
    cases n.intentFidelityConfidence with
    | none => rfl
    | some confidence =>
      simp only
      split
      · rfl
      · cases n.evidenceRefs.mapM (Keyed.latest EvidenceRecord.id records) with
        | none => rfl
        | some resolved => cases allowed : resolved.all (readable actor records) <;> simp [Option.filter,allowed]

-- Whether such a record is current shows in what the actor may read.
theorem current_visible {r : EvidenceRecord} (backed : Backed records ingestions) (shown : Open actor records r) :
    current ingestions r = current (ingestions.filter fun item => evidenceAllowed actor item.evidence) r := by
  have own {item : EvidenceIngestion} (member : item ∈ ingestions) (named : item.evidence.id = r.id) :
      evidenceAllowed actor item.evidence = true := by
    rw [List.inj_on_of_nodup_map backed.numbered.1 (backed.backed item member) shown.1 named]
    exact shown.2 r shown.1 (by simp [sameObject])
  have associations : (ingestions.filter fun item => item.evidence.id == r.id) =
      (ingestions.filter fun item => evidenceAllowed actor item.evidence).filter fun item => item.evidence.id == r.id := by
    rw [List.filter_filter]
    apply List.filter_congr
    intro item member
    by_cases named : item.evidence.id = r.id
    · simp [named,own member named]
    · simp [named]
  have later (association : EvidenceIngestion) : (ingestions.any fun item =>
        item.connectorId == association.connectorId && item.evidence.connectorType == r.connectorType &&
          item.evidence.externalObjectId == r.externalObjectId && decide (association.sequence < item.sequence)) =
      (ingestions.filter fun item => evidenceAllowed actor item.evidence).any fun item =>
        item.connectorId == association.connectorId && item.evidence.connectorType == r.connectorType &&
          item.evidence.externalObjectId == r.externalObjectId && decide (association.sequence < item.sequence) := by
    rw [List.any_filter]
    apply Bool.eq_iff_iff.mpr
    simp only [List.any_eq_true]
    refine exists_congr fun item => and_congr_right fun member => ?_
    have allowed (type : item.evidence.connectorType = r.connectorType) (object : item.evidence.externalObjectId = r.externalObjectId) :
        evidenceAllowed actor item.evidence = true := shown.2 _ (backed.backed item member) (by simp [sameObject,type,object])
    simp only [Bool.and_eq_true,beq_iff_eq]
    constructor
    · intro fits
      exact ⟨allowed fits.1.1.2 fits.1.2,fits⟩
    · exact And.right
  unfold current recordsAreCurrent
  simp only [List.all_cons,List.all_nil,associations,later]

theorem side_same (alike : Indistinguishable actor records records' ingestions ingestions') :
    side actor records ingestions = side actor records' ingestions' := by
  funext n
  rw [side_resolved,side_resolved,resolve_same alike]
  cases n.sourceMode with
  | none => rfl
  | some sourceMode =>
    cases n.intentFidelityConfidence with
    | none => rfl
    | some confidence =>
      simp only
      split
      · rfl
      · cases found : n.evidenceRefs.mapM (resolve actor records') with
        | none => rfl
        | some resolved =>
          have shown (r : EvidenceRecord) (member : r ∈ resolved) : Open actor records' r := by
            obtain ⟨ref,_,gave⟩ := ((lookups_mem found).1 r).mp member
            exact ((resolve_some alike.right.numbered.1).mp gave).1
          have same : resolved.all (current ingestions) = resolved.all (current ingestions') := by
            apply Bool.eq_iff_iff.mpr
            simp only [List.all_eq_true]
            refine forall₂_congr fun r member => ?_
            have there := shown r member
            rw [current_visible alike.right there,current_visible alike.left (alike.symm.open' there),alike.ledger]
          simp only [same]

-- What the reasoner is given is the same, too.
theorem snapshot_same (alike : Indistinguishable actor records records' ingestions ingestions') (v : View) :
    snapshot actor graph records ingestions existingCases v = snapshot actor graph records' ingestions' existingCases v := by
  have own {records : List EvidenceRecord} {ingestions : List EvidenceIngestion} (backed : Backed records ingestions) :
      (ingestions.filter fun item => (Keyed.latest EvidenceRecord.id (records.filter (evidenceAllowed actor)) item.evidence.id).any fun record =>
          item.evidence.equal record) =
        (ingestions.filter fun item => evidenceAllowed actor item.evidence).filter fun item =>
          (Keyed.latest EvidenceRecord.id (records.filter (evidenceAllowed actor)) item.evidence.id).any fun record =>
            item.evidence.equal record := by
    rw [List.filter_filter]
    apply List.filter_congr
    intro item member
    cases found : Keyed.latest EvidenceRecord.id (records.filter (evidenceAllowed actor)) item.evidence.id with
    | none => simp
    | some r =>
      obtain ⟨inside,named⟩ := Keyed.latest_key found
      obtain ⟨present,allowed⟩ := List.mem_filter.mp inside
      have same := List.inj_on_of_nodup_map backed.numbered.1 present (backed.backed item member) named
      simp [same ▸ allowed]
  have left := own alike.left
  rw [alike.visible,alike.ledger] at left
  simp only [snapshot,alike.visible,left,own alike.right]

-- A report, reasoned or not, shows nothing of what the actor may not read.
theorem report_private (reasoner : Option AssuranceReasoner) (alike : Indistinguishable actor records records' ingestions ingestions') :
    detect actor graph records ingestions existingCases reasoner = detect actor graph records' ingestions' existingCases reasoner := by
  have views : view actor graph records ingestions = view actor graph records' ingestions' := by
    have nodes : seenNode actor records ingestions = seenNode actor records' ingestions' := by
      funext n
      rw [seenNode,seenNode,side_same alike]
    rw [view,view,nodes]
  have reasons (v : View) : reasoned actor graph records ingestions existingCases reasoner v =
      reasoned actor graph records' ingestions' existingCases reasoner v := by
    cases reasoner with
    | none => rfl
    | some answer => simp only [reasoned,snapshot_same alike v]
  have left : ¬(¬(records.map EvidenceRecord.id).Nodup ∨ ¬(ingestions.map fun item => (item.connectorId,item.sequence)).Nodup) := by
    simpa [Numbered,not_or] using alike.left.numbered
  have right : ¬(¬(records'.map EvidenceRecord.id).Nodup ∨ ¬(ingestions'.map fun item => (item.connectorId,item.sequence)).Nodup) := by
    simpa [Numbered,not_or] using alike.right.numbered
  simp only [detect,if_neg left,if_neg right,views,reasons]

end Privacy

-- Another file in place of bob's.
def tests : EvidenceRecord :=
  ⟨"evidence:tests","git","tests.py","4",some "erin",surveyed,"tests.py","sha256:3",⟨[],nothing_formed⟩,none,["bob"]⟩

theorem wish_captured : wishItem.evidence = wish := rfl

theorem survey_alike : Indistinguishable "ada" [wish,code] [wish,tests] surveyItems [wishItem] := by
  refine ⟨⟨survey_numbered,by simp [surveyItems,wish_captured]⟩,⟨by unfold Numbered; decide,by simp [wish_captured]⟩,rfl,rfl,?_⟩
  intro r member
  have named : r = wish := by
    have visible : [wish,code].filter (evidenceAllowed "ada") = [wish] := rfl
    rw [visible] at member
    exact List.mem_singleton.mp member
  subst named
  decide

theorem survey_private : detect "ada" surveyGraph [wish,code] surveyItems [] (some fun _ => some []) =
    detect "ada" surveyGraph [wish,tests] [wishItem] [] (some fun _ => some []) :=
  report_private _ survey_alike

end Assurance
