import IntentEngineering.Stores.ClarificationChronology

open Schema ByteFrames Json JsonLines LineText

-- The ledger as the preflight gate parses it.
namespace Preflight

structure ParsedProposals where
  proposals : List IntentProposal
  decisions : List ProposalDecisionRecord

namespace ParsedProposals

variable (s : ParsedProposals)

def proposal (id : String) : Option IntentProposal := s.proposals.find? fun p => p.1.id == id

def decision (proposalId : String) : Option ProposalDecisionRecord := s.decisions.find? fun d => d.1.proposalId == proposalId

-- The proposals that have no decision.
def undecided : List IntentProposal := s.proposals.filter fun p => (s.decision p.1.id).isNone

end ParsedProposals

variable (lax : Coercions)

-- The frame is written with `allow_nan=False` and the record is validated again.
def readFrame (line : Line UInt8) : Option IntentLedgerRecord :=
  if line.text.getLast? ≠ some 10 ∨ line.text.all isSpaceByte = true then none
  else (Utf8.decode line.text.dropLast).bind fun cs =>
    (loads strictDialect cs).bind fun
      | .obj ms =>
        if allFinite (.obj ms) = false ∨ Utf8.encode (frame (.obj ms)) ≠ line.text then none
        else ((loads plainDialect cs).bind (IntentLedgerRecord.codec lax).load).bind fun r =>
          ((IntentLedgerRecord.codec lax).load ((IntentLedgerRecord.codec lax).dump r)).bind fun again =>
            if serialize (IntentLedgerRecord.codec lax) again ≠ line.text then none else some r
      | _ => none

-- One frame of the loop: clarifications are passed over.
def step (s : ParsedProposals) (expected : Nat) (r : IntentLedgerRecord) : Option ParsedProposals :=
  if r.sequence ≠ expected then none
  else match r.payload with
    | .clarification _ => some s
    | .proposal p => if (s.proposal p.1.id).isSome then none else some { s with proposals := s.proposals ++ [p] }
    | .decision d =>
      match s.proposal d.1.proposalId with
      | none => none
      | some p =>
        if ¬ Replay.decides p d = true ∨ (s.decision d.1.proposalId).isSome then none
        else some { s with decisions := s.decisions ++ [d] }

def parseLines : Nat → ParsedProposals → List (Line UInt8) → Option ParsedProposals
  | _, s, [] => some s
  | n, s, line :: rest => (readFrame lax line).bind fun r => (step s n r).bind fun s' => parseLines (n + 1) s' rest

-- `_parse_proposals`; none where it raises.
def parseProposals (content : Utf8.Bytes) : Option (List IntentProposal) :=
  if content ≠ [] ∧ content.getLast? ≠ some 10 then none
  else (parseLines lax 0 ⟨[],[]⟩ (lines byteRule content)).map ParsedProposals.undecided

-- The two frame readers differ only where the store's own checks fail already.
theorem readFrame_same (line : Line UInt8) : readFrame lax line = ByteFrames.readFrame (IntentLedgerRecord.codec lax) line := by
  ext r
  constructor
  · intro got
    unfold readFrame at got
    unfold ByteFrames.readFrame
    split at got
    · cases got
    · rename_i passes
      rw [if_neg passes]
      obtain ⟨cs,decoded,got⟩ := Option.bind_eq_some_iff.mp got
      obtain ⟨v,loaded,got⟩ := Option.bind_eq_some_iff.mp got
      refine Option.bind_eq_some_iff.mpr ⟨cs,decoded,Option.bind_eq_some_iff.mpr ⟨v,loaded,?_⟩⟩
      split at got
      · split at got
        · cases got
        · rename_i both
          simp only [not_or,not_not] at both
          obtain ⟨r',parsed,got⟩ := Option.bind_eq_some_iff.mp got
          simp only [(IntentLedgerRecord.codec lax).exact,Option.bind_some] at got
          simpa [both.2,parsed] using got
      · cases got
  · intro got
    have finite := ((readFrame_iff (IntentLedgerRecord.object lax) line r).mp got).2
    have spelled := ((readFrame_iff (IntentLedgerRecord.object lax) line r).mp got).1
    unfold ByteFrames.readFrame at got
    unfold readFrame
    split at got
    · cases got
    · rename_i passes
      rw [if_neg passes]
      obtain ⟨cs,decoded,got⟩ := Option.bind_eq_some_iff.mp got
      obtain ⟨v,loaded,got⟩ := Option.bind_eq_some_iff.mp got
      refine Option.bind_eq_some_iff.mpr ⟨cs,decoded,Option.bind_eq_some_iff.mpr ⟨v,loaded,?_⟩⟩
      split at got
      · rename_i ms
        split at got
        · cases got
        · rename_i canonical
          have texts := encode_injective ((not_not.mp canonical).trans spelled)
          simp only [frame,List.append_cancel_right_eq] at texts
          have same := text_injective (loads_formed loaded) ((IntentLedgerRecord.codec lax).formed r) texts
          rw [←same] at finite
          obtain ⟨r',parsed,got⟩ := Option.bind_eq_some_iff.mp got
          simpa [finite,not_not.mp canonical,parsed,(IntentLedgerRecord.codec lax).exact] using got
      · cases got

theorem parseLines_same (n : Nat) (s : ParsedProposals) (ls : List (Line UInt8)) :
    parseLines lax n s ls = readLines (IntentLedgerRecord.codec lax) step n s ls := by
  induction ls generalizing n s with
  | nil => rfl
  | cons line ls ih => simp only [parseLines,readLines,readFrame_same,ih]

theorem parse_iff (content : Utf8.Bytes) (pending : List IntentProposal) : parseProposals lax content = some pending ↔
    ∃ rs s, content = contentOf (IntentLedgerRecord.codec lax) rs ∧ replay step 0 ⟨[],[]⟩ rs = some s ∧ s.undecided = pending := by
  have read (s : ParsedProposals) := read_iff (IntentLedgerRecord.object lax) step ⟨[],[]⟩ s content
  have shape : parseProposals lax content = (ByteFrames.read (IntentLedgerRecord.codec lax) step ⟨[],[]⟩ content).map ParsedProposals.undecided := by
    unfold parseProposals ByteFrames.read
    split
    · rfl
    · rw [parseLines_same]
  rw [shape,Option.map_eq_some_iff]
  constructor
  · rintro ⟨s,got,same⟩
    obtain ⟨rs,written,_,ran⟩ := (read s).mp got
    exact ⟨rs,s,written,ran,same⟩
  · rintro ⟨rs,s,written,ran,same⟩
    exact ⟨s,(read s).mpr ⟨rs,written,fun r _ => Codec.Finite.finite (c := IntentLedgerRecord.codec lax) r,ran⟩,same⟩

end Preflight

-- What preflight keeps of the store's state.
def LedgerState.parsed (s : LedgerState) : Preflight.ParsedProposals := ⟨s.proposals,s.decisions⟩

-- The proposals of the store that have no decision.
def LedgerState.undecided (s : LedgerState) : List IntentProposal := s.proposals.filter fun p => (s.decision p.1.id).isNone

namespace ClarificationRules

-- A ledger that ends with a proposed event waits for its proposal.
def awaited (before : List LedgerPayload) : Option (String × String) :=
  match before.getLast? with
  | some (.clarification e) => if e.1.eventType = .proposed then e.1.proposalId.map fun id => (id,e.1.session.1.id) else none
  | _ => none

def stateOf (before : List LedgerPayload) : LedgerState := before.foldl LedgerState.extend LedgerState.empty

-- The rules on one record that only the store checks.
structure Governs (before : List LedgerPayload) (payload : LedgerPayload) : Prop where
  follows : (⟨stateOf before,awaited before⟩ : Replay).awaits payload = true
  event : ∀ e, payload = .clarification e →
    e.validTransition ((stateOf before).session e.1.session.1.id) ((stateOf before).latestEvent e.1.session.1.id) = some true ∧
      (e.1.eventType = .closed → (⟨stateOf before,none⟩ : Replay).closesDecided e = true)
  proposal : ∀ p binding, payload = .proposal p → p.1.binding = some binding →
    (⟨stateOf before,none⟩ : Replay).boundToSession p binding = true
  decision : ∀ d p binding, payload = .decision d → (stateOf before).proposal d.1.proposalId = some p → p.1.binding = some binding →
    (⟨stateOf before,none⟩ : Replay).governed binding d = true

-- The rules on a whole ledger.
structure Holds (payloads : List LedgerPayload) : Prop where
  each : ∀ before payload after, payloads = before ++ payload :: after → Governs before payload
  settled : awaited payloads = none
  closed : ∀ p ∈ (stateOf payloads).proposals, (⟨stateOf payloads,none⟩ : Replay).closed p = true

theorem stateOf_append (before : List LedgerPayload) (payload : LedgerPayload) :
    stateOf (before ++ [payload]) = (stateOf before).extend payload := by
  simp [stateOf]

theorem each_append (before : List LedgerPayload) (payload : LedgerPayload) :
    (∀ xs x ys, before ++ [payload] = xs ++ x :: ys → Governs xs x) ↔
      (∀ xs x ys, before = xs ++ x :: ys → Governs xs x) ∧ Governs before payload := by
  constructor
  · intro all
    refine ⟨?_,all before payload [] rfl⟩
    rintro xs x ys rfl
    exact all xs x (ys ++ [payload]) (by simp)
  · rintro ⟨old,new⟩ xs x ys split
    cases ys using List.reverseRecOn with
    | nil =>
      obtain ⟨rfl,same⟩ := List.append_inj' split rfl
      cases same
      exact new
    | append_singleton ys y =>
      have longer : before ++ [payload] = (xs ++ x :: ys) ++ [y] := by rw [split]; simp
      obtain ⟨rfl,_⟩ := List.append_inj' longer rfl
      exact old xs x ys rfl

theorem awaited_append (before : List LedgerPayload) (payload : LedgerPayload) : awaited (before ++ [payload]) =
    match payload with
    | .clarification e => if e.1.eventType = .proposed then e.1.proposalId.map fun id => (id,e.1.session.1.id) else none
    | _ => none := by
  cases payload <;> simp [awaited]

-- The store's three kinds of frame, each as what preflight asks of it and the
-- rules that it passes over.
theorem clarify_rules (before : List LedgerPayload) (e : ClarificationEvent) (s' : Replay)
    (follows : (⟨stateOf before,awaited before⟩ : Replay).awaits (.clarification e) = true) :
    (⟨stateOf before,awaited before⟩ : Replay).clarify e = some s' ↔ Governs before (.clarification e) ∧
      s' = ⟨stateOf (before ++ [.clarification e]),awaited (before ++ [.clarification e])⟩ := by
  have none : awaited before = none := by simpa [Replay.awaits] using follows
  rw [Replay.clarify_iff,stateOf_append,awaited_append,none]
  constructor
  · rintro ⟨valid,closes,rfl⟩
    refine ⟨⟨follows,?_,by simp,by simp⟩,rfl⟩
    intro f same
    cases same
    exact ⟨valid,closes⟩
  · rintro ⟨governs,rfl⟩
    obtain ⟨valid,closes⟩ := governs.event e rfl
    exact ⟨valid,closes,rfl⟩

theorem propose_rules (before : List LedgerPayload) (p : IntentProposal) (s' : Replay)
    (follows : (⟨stateOf before,awaited before⟩ : Replay).awaits (.proposal p) = true) :
    (⟨stateOf before,awaited before⟩ : Replay).propose p = some s' ↔ (stateOf before).proposal p.1.id = none ∧
      Governs before (.proposal p) ∧ s' = ⟨stateOf (before ++ [.proposal p]),awaited (before ++ [.proposal p])⟩ := by
  rw [Replay.propose_iff,stateOf_append,awaited_append]
  have settled : (if p.1.binding.isSome = true then none else awaited before) = none := by
    cases bound : p.1.binding with
    | some binding => simp
    | none => simpa [Replay.awaits,bound] using follows
  rw [settled]
  constructor
  · rintro ⟨fresh,held,rfl⟩
    refine ⟨fresh,⟨follows,by simp,?_,by simp⟩,rfl⟩
    intro q binding same bound
    cases same
    exact held binding bound
  · rintro ⟨fresh,governs,rfl⟩
    exact ⟨fresh,fun binding bound => governs.proposal p binding rfl bound,rfl⟩

theorem settle_rules (before : List LedgerPayload) (d : ProposalDecisionRecord) (s' : Replay)
    (follows : (⟨stateOf before,awaited before⟩ : Replay).awaits (.decision d) = true) :
    (⟨stateOf before,awaited before⟩ : Replay).settle d = some s' ↔
      (∃ p, (stateOf before).proposal d.1.proposalId = some p ∧ Replay.decides p d = true ∧
        (stateOf before).decision d.1.proposalId = none) ∧
      Governs before (.decision d) ∧ s' = ⟨stateOf (before ++ [.decision d]),awaited (before ++ [.decision d])⟩ := by
  have none : awaited before = none := by simpa [Replay.awaits] using follows
  rw [Replay.settle_iff,stateOf_append,awaited_append,none]
  constructor
  · rintro ⟨p,found,repeats,fresh,governed,rfl⟩
    refine ⟨⟨p,found,repeats,fresh⟩,⟨follows,by simp,by simp,?_⟩,rfl⟩
    intro d' q binding same known bound
    cases same
    rw [found] at known
    cases known
    exact governed binding bound
  · rintro ⟨⟨p,found,repeats,fresh⟩,governs,rfl⟩
    exact ⟨p,found,repeats,fresh,fun binding bound => governs.decision d p binding rfl found bound,rfl⟩

-- One frame of the store is one frame of preflight under the rules.
theorem step_iff (before : List LedgerPayload) (n : Nat) (r : IntentLedgerRecord) (s' : Replay) :
    (⟨stateOf before,awaited before⟩ : Replay).step n r = some s' ↔
      Preflight.step (stateOf before).parsed n r = some (stateOf (before ++ [r.payload])).parsed ∧ Governs before r.payload ∧
        s' = ⟨stateOf (before ++ [r.payload]),awaited (before ++ [r.payload])⟩ := by
  obtain ⟨sequence,payload⟩ := r
  by_cases place : sequence = n
  · by_cases follows : (⟨stateOf before,awaited before⟩ : Replay).awaits payload = true
    · subst place
      cases payload with
      | clarification e =>
        simp only [Replay.step,follows,not_true_eq_false,ne_eq,or_self,if_false,clarify_rules before e s' follows,Preflight.step,
          stateOf_append]
        exact ⟨fun found => ⟨rfl,found⟩,fun found => found.2⟩
      | proposal p =>
        simp only [Replay.step,follows,not_true_eq_false,ne_eq,or_self,if_false,propose_rules before p s' follows,Preflight.step,
          stateOf_append]
        have same : (stateOf before).parsed.proposal p.1.id = (stateOf before).proposal p.1.id := rfl
        rw [same]
        cases known : (stateOf before).proposal p.1.id with
        | some q => simp
        | none => exact ⟨fun found => ⟨rfl,found.2⟩,fun found => ⟨rfl,found.2⟩⟩
      | decision d =>
        simp only [Replay.step,follows,not_true_eq_false,ne_eq,or_self,if_false,settle_rules before d s' follows,Preflight.step,
          stateOf_append]
        have same : (stateOf before).parsed.proposal d.1.proposalId = (stateOf before).proposal d.1.proposalId := rfl
        have alike : (stateOf before).parsed.decision d.1.proposalId = (stateOf before).decision d.1.proposalId := rfl
        rw [same,alike]
        cases known : (stateOf before).proposal d.1.proposalId with
        | none => simp
        | some p =>
          constructor
          · rintro ⟨⟨q,found,repeats,fresh⟩,rest⟩
            cases found
            exact ⟨by simp [repeats,fresh]; rfl,rest⟩
          · rintro ⟨taken,rest⟩
            refine ⟨⟨p,rfl,?_⟩,rest⟩
            dsimp only at taken
            split at taken
            · cases taken
            · rename_i passes
              simp only [not_or,not_not,Option.not_isSome_iff_eq_none] at passes
              exact passes
    · constructor
      · intro stepped
        simp [Replay.step,follows] at stepped
      · rintro ⟨_,governs,_⟩
        exact absurd governs.follows follows
  · simp [Replay.step,Preflight.step,place]

-- Preflight keeps exactly what it has read.
theorem parsed_step {l : LedgerState} (taken : Preflight.step l.parsed n r = some s) : s = (l.extend r.payload).parsed := by
  obtain ⟨sequence,payload⟩ := r
  unfold Preflight.step at taken
  split at taken
  · cases taken
  · cases payload with
    | clarification e =>
      cases taken
      rfl
    | proposal p =>
      simp only at taken
      split at taken
      · cases taken
      · cases taken
        rfl
    | decision d =>
      simp only at taken
      split at taken
      · cases taken
      · split at taken
        · cases taken
        · cases taken
          rfl

theorem parsed_replay (rs : List IntentLedgerRecord) (ran : replay Preflight.step 0 ⟨[],[]⟩ rs = some s) :
    s = (stateOf (rs.map IntentLedgerRecord.payload)).parsed := by
  induction rs using List.reverseRecOn generalizing s with
  | nil =>
    cases ran
    rfl
  | append_singleton rs r ih =>
    rw [replay_last] at ran
    obtain ⟨middle,earlier,taken⟩ := Option.bind_eq_some_iff.mp ran
    rw [ih earlier] at taken
    rw [parsed_step taken,List.map_append,List.map_cons,List.map_nil,stateOf_append]

-- A whole ledger replays in the store exactly when it replays in preflight and
-- the rules hold of each of its records.
theorem replay_iff (rs : List IntentLedgerRecord) (s' : Replay) : replay Replay.step 0 Replay.start rs = some s' ↔
    replay Preflight.step 0 ⟨[],[]⟩ rs = some (stateOf (rs.map IntentLedgerRecord.payload)).parsed ∧
      (∀ before payload after, rs.map IntentLedgerRecord.payload = before ++ payload :: after → Governs before payload) ∧
      s' = ⟨stateOf (rs.map IntentLedgerRecord.payload),awaited (rs.map IntentLedgerRecord.payload)⟩ := by
  induction rs using List.reverseRecOn generalizing s' with
  | nil =>
    simp only [replay,List.map_nil,Option.some.injEq]
    constructor
    · rintro rfl
      exact ⟨rfl,by simp,rfl⟩
    · rintro ⟨_,_,rfl⟩
      rfl
  | append_singleton rs r ih =>
    rw [replay_last,replay_last,Option.bind_eq_some_iff,Option.bind_eq_some_iff,List.map_append,List.map_cons,List.map_nil,each_append]
    constructor
    · rintro ⟨middle,ran,stepped⟩
      obtain ⟨parsed,rules,rfl⟩ := (ih middle).mp ran
      obtain ⟨taken,governs,same⟩ := (step_iff _ _ _ _).mp stepped
      exact ⟨⟨_,parsed,taken⟩,⟨rules,governs⟩,same⟩
    · rintro ⟨⟨middle,parsed,taken⟩,⟨rules,governs⟩,same⟩
      have kept := parsed_replay rs parsed
      subst kept
      exact ⟨_,(ih _).mpr ⟨parsed,rules,rfl⟩,(step_iff _ _ _ _).mpr ⟨taken,governs,same⟩⟩

end ClarificationRules

namespace IntentProposalStore
open ClarificationRules

variable (lax : Coercions)

-- The store accepts what preflight accepts and the clarification rules allow.
theorem decode_rules (content : Utf8.Bytes) (s : LedgerState) : decode lax content = some s ↔
    Preflight.parseProposals lax content = some s.undecided ∧ ∃ rs, content = contentOf (IntentLedgerRecord.codec lax) rs ∧
      Holds (rs.map IntentLedgerRecord.payload) ∧ s = stateOf (rs.map IntentLedgerRecord.payload) := by
  rw [decode_iff,Preflight.parse_iff]
  constructor
  · rintro ⟨rs,r,written,ran,ended⟩
    obtain ⟨parsed,rules,rfl⟩ := (replay_iff rs r).mp ran
    obtain ⟨settled,closed,rfl⟩ := (Replay.finish_iff _ _).mp ended
    exact ⟨⟨rs,_,written,parsed,rfl⟩,rs,written,⟨rules,settled,closed⟩,rfl⟩
  · rintro ⟨⟨rs,parsed,written,ran,_⟩,rs',again,holds,rfl⟩
    have same := contentOf_injective (written.symm.trans again)
    subst same
    have kept := parsed_replay rs ran
    subst kept
    refine ⟨rs,_,written,(replay_iff rs _).mpr ⟨ran,holds.each,rfl⟩,(Replay.finish_iff _ _).mpr ⟨holds.settled,?_,rfl⟩⟩
    exact holds.closed

-- A record that the clarification rules say nothing about.
def PlainPayload : LedgerPayload → Prop
  | .proposal p => p.1.binding = none
  | .decision _ => True
  | .clarification _ => False

theorem plain_state (plain : ∀ payload ∈ payloads, PlainPayload payload) : ∀ p ∈ (stateOf payloads).proposals, p.1.binding = none := by
  induction payloads using List.reverseRecOn with
  | nil =>
    intro p member
    cases member
  | append_singleton before payload ih =>
    have earlier := ih fun other member => plain other (by simp [member])
    intro p member
    rw [stateOf_append] at member
    cases payload with
    | proposal q =>
      rcases List.mem_append.mp member with old | new
      · exact earlier p old
      · rw [List.mem_singleton.mp new]
        exact plain (.proposal q) (by simp)
    | decision d => exact earlier p member
    | clarification e => exact earlier p member

theorem plain_settled (plain : ∀ payload ∈ payloads, PlainPayload payload) : awaited payloads = none := by
  unfold awaited
  split
  · rename_i e last
    exact absurd (plain _ (List.mem_of_getLast? last)) id
  · rfl

theorem plain_governs (plain : ∀ payload ∈ before, PlainPayload payload) (next : PlainPayload payload) : Governs before payload := by
  have settled := plain_settled plain
  cases payload with
  | proposal p =>
    refine ⟨by simp [Replay.awaits,settled],by simp,?_,by simp⟩
    intro q binding same bound
    cases same
    rw [show p.1.binding = none from next] at bound
    cases bound
  | decision d =>
    refine ⟨by simp [Replay.awaits,settled],by simp,by simp,?_⟩
    intro d' p binding _ found bound
    rw [plain_state plain p (LedgerState.proposal_found found).1] at bound
    cases bound
  | clarification e => exact absurd next id

theorem plain_holds (plain : ∀ payload ∈ payloads, PlainPayload payload) : Holds payloads := by
  refine ⟨?_,plain_settled plain,?_⟩
  · rintro before payload after rfl
    exact plain_governs (fun other member => plain other (by simp [member])) (plain payload (by simp))
  · intro p member
    simp [Replay.closed,plain_state plain p member]

-- The store accepts a content exactly when preflight does and the clarification
-- rules, which preflight passes over, hold of its records; then both agree on
-- the proposals without a decision. Where there is no clarification the two
-- accept the same contents.
theorem decoders_agree (lax : Coercions) (content : Utf8.Bytes) :
    (∀ s, decode lax content = some s → Preflight.parseProposals lax content = some s.undecided) ∧
    ((decode lax content).isSome = true ↔ (Preflight.parseProposals lax content).isSome = true ∧
      ∃ rs, content = contentOf (IntentLedgerRecord.codec lax) rs ∧ Holds (rs.map IntentLedgerRecord.payload)) ∧
    ∀ rs, content = contentOf (IntentLedgerRecord.codec lax) rs → (∀ r ∈ rs, PlainPayload r.payload) →
      ((decode lax content).isSome = true ↔ (Preflight.parseProposals lax content).isSome = true) := by
  have rules : (decode lax content).isSome = true ↔ (Preflight.parseProposals lax content).isSome = true ∧
      ∃ rs, content = contentOf (IntentLedgerRecord.codec lax) rs ∧ Holds (rs.map IntentLedgerRecord.payload) := by
    simp only [Option.isSome_iff_exists]
    constructor
    · rintro ⟨s,read⟩
      obtain ⟨parsed,rs,written,holds,_⟩ := (decode_rules lax content s).mp read
      exact ⟨⟨_,parsed⟩,rs,written,holds⟩
    · rintro ⟨⟨pending,parsed⟩,rs,written,holds⟩
      obtain ⟨rs',kept,again,ran,same⟩ := (Preflight.parse_iff lax content pending).mp parsed
      have records := contentOf_injective (again.symm.trans written)
      subst records
      have found := parsed_replay rs' ran
      subst found
      exact ⟨_,(decode_rules lax content _).mpr ⟨parsed.trans (congrArg some same.symm),rs',written,holds,rfl⟩⟩
  refine ⟨fun s read => ((decode_rules lax content s).mp read).1,rules,?_⟩
  intro rs written plain
  rw [rules]
  refine ⟨And.left,fun accepted => ⟨accepted,rs,written,plain_holds ?_⟩⟩
  intro payload member
  obtain ⟨r,inside,rfl⟩ := List.mem_map.mp member
  exact plain r inside

theorem plain_proposal_pending : ∃ content, (decode canonicalOnly content).isSome = true ∧
    Preflight.parseProposals canonicalOnly content = some [plainProposal] := by
  have put : call canonicalOnly [] (.put plainProposal) = some (append canonicalOnly [] (.proposal plainProposal),true) := rfl
  have empty : decode canonicalOnly [] = some LedgerState.empty := rfl
  have read := call_outcome canonicalOnly empty put
  rw [show (Call.put plainProposal).standsAlone = true from rfl,if_pos rfl] at read
  have undecided : (LedgerState.empty.extend (.proposal plainProposal)).undecided = [plainProposal] := rfl
  exact ⟨_,by rw [read]; rfl,((decoders_agree canonicalOnly _).1 _ read).trans (congrArg some undecided)⟩

theorem append_first (lax : Coercions) (payload : LedgerPayload) :
    append lax [] payload = contentOf (IntentLedgerRecord.codec lax) [⟨0,payload⟩] := by
  have first : (lines byteRule []).length = 0 := rfl
  simp [append,contentOf,first]

-- Preflight lists a proposal that the store refuses together with its ledger.
theorem session_proposal_pending : ∃ content, Preflight.parseProposals canonicalOnly content = some [sessionProposal] ∧
    decode canonicalOnly content = none := by
  have put : call canonicalOnly [] (.put sessionProposal) = some (append canonicalOnly [] (.proposal sessionProposal),true) := rfl
  have empty : decode canonicalOnly [] = some LedgerState.empty := rfl
  have written : append canonicalOnly [] (.proposal sessionProposal) =
      contentOf (IntentLedgerRecord.codec canonicalOnly) [⟨0,.proposal sessionProposal⟩] := append_first _ _
  have ran : replay Preflight.step 0 ⟨[],[]⟩ [⟨0,.proposal sessionProposal⟩] = some ⟨[sessionProposal],[]⟩ := rfl
  have undecided : (⟨[sessionProposal],[]⟩ : Preflight.ParsedProposals).undecided = [sessionProposal] := rfl
  have lost := call_outcome canonicalOnly empty put
  rw [show (Call.put sessionProposal).standsAlone = false from rfl,if_neg Bool.false_ne_true] at lost
  exact ⟨_,(Preflight.parse_iff _ _ _).mpr ⟨_,_,written,ran,undecided⟩,lost⟩

end IntentProposalStore
