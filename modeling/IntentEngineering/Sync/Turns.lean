import IntentEngineering.Sync.Orchestrator

-- Everything that one turn of a run can do.
namespace SyncOrchestrator

inductive Turned (lax : Coercions) (c : Connector) (answer : Answer) (w : Workspace) : Phase → Workspace → Phase → Prop where
  | stops : Turned lax c answer w phase w (.ended false)
  | rests : Turned lax c answer w (.ended succeeded) w (.ended succeeded)
  | begins : Turned lax c answer w .idle w (.begun w.checkpoint)
  | migrates (got : EvidenceStore.migrateLegacy lax w.evidence.content c.id c.type = .ok candidates) :
    Turned lax c answer w (.begun prior) w (.migrating prior candidates)
  | migrated : Turned lax c answer w (.migrating prior []) w (.loading prior)
  | brings (got : EvidenceStore.associate lax w.evidence.content c.id record = .ok out) :
    Turned lax c answer w (.migrating prior (record :: rest)) (w.settled out) (.migrating prior rest)
  | bringsLast (got : EvidenceStore.associate lax w.evidence.content c.id record = .ok out) :
    Turned lax c answer w (.migrating prior (record :: rest)) (w.settled out) (.ended false)
  | loads (read : w.ledger lax c = .ok ledger)
    (exact : isExactConsumedPrefix (consumedIds prior) (ledger.map fun item => item.evidence.id) = true) :
    Turned lax c answer w (.loading prior) w (.ready (.load prior ledger))
  | discovers : Turned lax c answer w (.ready capture) w (.capturing {capture with discovered := answer.discovered} answer.discovered)
  | captures : Turned lax c answer w (.capturing capture []) w (.captured capture)
  | associates (typed : record.connectorType = c.type)
    (got : EvidenceStore.associate lax w.evidence.content c.id record = .ok out) :
    Turned lax c answer w (.capturing capture (some record :: rest)) (w.settled out) (.associated capture record rest)
  | associatesLast (typed : record.connectorType = c.type)
    (got : EvidenceStore.associate lax w.evidence.content c.id record = .ok out) :
    Turned lax c answer w (.capturing capture (some record :: rest)) (w.settled out) (.ended false)
  | takes (read : w.ledger lax c = .ok ledger)
    (found : (ledger.reverse.find? fun item => item.evidence.id == record.id) = some ingestion) :
    Turned lax c answer w (.associated capture record rest) w (.capturing (capture.take record ingestion) rest)
  | reasons : Turned lax c answer w (.captured capture) w (.reasoned capture)
  | detects : Turned lax c answer w (.reasoned capture) w (.detected capture)
  | prepares (read : w.ledger lax c = .ok ledger) (made : checkpointAfterDiscovery c answer ledger capture = some checkpoint)
    (new : advanced capture.prior checkpoint = true) :
    Turned lax c answer w (.detected capture) w (.prepared capture.prior checkpoint)
  | finishes (read : w.ledger lax c = .ok ledger) (made : checkpointAfterDiscovery c answer ledger capture = some checkpoint)
    (old : advanced capture.prior checkpoint = false) :
    Turned lax c answer w (.detected capture) w (.ended true)
  | writes (same : sameCheckpoint w.checkpoint prior = true) :
    Turned lax c answer w (.prepared prior checkpoint) {w with checkpoint := some checkpoint} (.ended succeeded)

theorem turn_turned (lax : Coercions) (c : Connector) (answer : Answer) (w : Workspace) (phase : Phase) :
    Turned lax c answer w phase (turn lax c answer w phase).1 (turn lax c answer w phase).2 := by
  cases phase with
  | idle =>
    simp only [turn]
    split
    · exact .stops
    · exact .begins
  | begun prior =>
    simp only [turn]
    split
    · exact .stops
    · rename_i got
      split
      · exact .stops
      · exact .migrates got
  | migrating prior rest =>
    cases rest with
    | nil => exact .migrated
    | cons record rest =>
      simp only [turn,persist]
      cases got : EvidenceStore.associate lax w.evidence.content c.id record with
      | error e => exact .stops
      | ok out =>
        simp only
        split
        · split
          · exact .bringsLast got
          · exact .stops
        · exact .brings got
  | loading prior =>
    simp only [turn]
    split
    · exact .stops
    · rename_i ledger read
      split
      · exact .stops
      · rename_i refused
        rw [Bool.not_eq_true,Bool.or_eq_false_iff] at refused
        exact .loads read (by simpa using refused.2)
  | ready capture =>
    simp only [turn]
    split
    · exact .stops
    · exact .discovers
  | capturing capture rest =>
    cases rest with
    | nil => exact .captures
    | cons source rest =>
      cases source with
      | none => exact .stops
      | some record =>
        simp only [turn,persist]
        split
        · exact .stops
        · rename_i other
          have typed : record.connectorType = c.type := by simpa using other
          cases got : EvidenceStore.associate lax w.evidence.content c.id record with
          | error e => exact .stops
          | ok out =>
            simp only
            split
            · split
              · exact .associatesLast typed got
              · exact .stops
            · exact .associates typed got
  | associated capture record rest =>
    simp only [turn]
    split
    · exact .stops
    · rename_i read
      split
      · exact .stops
      · rename_i found
        split
        · exact .stops
        · exact .takes read found
  | captured capture =>
    simp only [turn]
    split
    · exact .stops
    · exact .reasons
  | reasoned capture =>
    simp only [turn]
    split
    · exact .stops
    · exact .detects
  | detected capture =>
    simp only [turn]
    split
    · exact .stops
    · rename_i read
      split
      · exact .stops
      · split
        · exact .stops
        · rename_i made
          split
          · rename_i new
            exact .prepares read made new
          · rename_i old
            exact .finishes read made (by simpa using old)
  | prepared prior checkpoint =>
    simp only [turn]
    split
    · exact .stops
    · rename_i same
      have unchanged : sameCheckpoint w.checkpoint prior = true := by simpa using same
      split
      · split
        · exact .writes unchanged
        · exact .stops
      · exact .writes unchanged
  | ended succeeded => exact .rests

def turns (lax : Coercions) (c : Connector) (answers : List Answer) (state : Workspace × Phase) : Workspace × Phase :=
  answers.foldl (fun state answer => turn lax c answer state.1 state.2) state

theorem turns_append (lax : Coercions) (c : Connector) (first second : List Answer) (state : Workspace × Phase) :
    turns lax c (first ++ second) state = turns lax c second (turns lax c first state) :=
  List.foldl_append

theorem turns_ended (lax : Coercions) (c : Connector) (answers : List Answer) (w : Workspace) (succeeded : Bool) :
    turns lax c answers (w,.ended succeeded) = (w,.ended succeeded) := by
  induction answers with
  | nil => rfl
  | cons answer rest ih => exact ih

-- The turns of one run, which no other run comes between.
theorem steps_alone (lax : Coercions) (c : Connector) (s : System) (run : Nat) (answers : List Answer) :
    s.steps lax c (answers.map (Move.mk run)) =
      ⟨(turns lax c answers (s.workspace,s.phase run)).1,Function.update s.phase run (turns lax c answers (s.workspace,s.phase run)).2⟩ := by
  induction answers generalizing s with
  | nil => simp [System.steps,turns]
  | cons answer rest ih =>
    change (s.step lax c ⟨run,answer⟩).steps lax c (rest.map (Move.mk run)) = _
    rw [ih]
    simp [System.step,turns]

end SyncOrchestrator
