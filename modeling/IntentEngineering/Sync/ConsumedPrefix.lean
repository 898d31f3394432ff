import IntentEngineering.Sync.AtLeastOnce
import IntentEngineering.Sync.CalmRuns

-- Any number of runs of one connector over one workspace, whose turns come in
-- any order.
namespace SyncOrchestrator
variable {env : WriteEnv} {c : Connector}

namespace Capture

theorem take_held (capture : Capture) (record : EvidenceRecord) (ingestion : EvidenceIngestion) :
    (capture.take record ingestion).held = if record.id ∈ capture.held then capture.held else capture.held ++ [record.id] := by
  simp only [take,List.contains_iff_mem]
  split
  · rfl
  · simp [held]

end Capture

-- What a run has in hand is a beginning of the ledger.
def Fits (w : Workspace) : Phase → Prop
  | .idle | .ended _ => True
  | .begun prior | .loading prior | .migrating prior _ => consumedIds prior <+: w.ids
  | .ready capture | .capturing capture _ | .associated capture _ _ | .captured capture | .reasoned capture | .detected capture =>
    capture.held <+: w.ids
  | .prepared _ checkpoint => checkpoint.consumedEvidenceIds <+: w.ids

theorem fits_later {w w' : Workspace} (grown : w.ids <+: w'.ids) (fits : Fits w phase) : Fits w' phase := by
  cases phase with
  | idle | ended => trivial
  | _ => exact List.IsPrefix.trans fits grown

-- A record that a run takes up is the ledger's next one after those it has.
def Follows (lax : Coercions) (c : Connector) (w : Workspace) : Phase → Prop
  | .associated capture record _ => ∀ ledger, w.ledger lax c = .ok ledger → record.id ∉ capture.held →
    (ledger.map fun item => item.evidence.id)[capture.held.length]? = some record.id
  | _ => True

theorem taken_fits {capture : Capture} {w : Workspace} (fits : capture.held <+: w.ids)
    (follows : record.id ∉ capture.held → w.ids[capture.held.length]? = some record.id) :
    (capture.take record ingestion).held <+: w.ids := by
  rw [Capture.take_held]
  split
  · exact fits
  · rename_i fresh
    have next := follows fresh
    obtain ⟨rest,whole⟩ := fits
    rw [←whole,List.getElem?_append_right (Nat.le_refl _),Nat.sub_self] at next
    cases rest with
    | nil => cases next
    | cons id rest =>
      cases next
      exact ⟨rest,by rw [←whole,List.append_assoc]; rfl⟩

theorem turned_fits {w : Workspace} (backed : w.Backed env c) (clean : Clean phase) (stored : consumedIds w.checkpoint <+: w.ids)
    (fits : Fits w phase) (follows : Follows env.lax c w phase) (turned : Turned env.lax c answer w phase w' phase') :
    consumedIds w'.checkpoint <+: w'.ids ∧ Fits w' phase' := by
  obtain ⟨_,grown,_⟩ := turned_backed backed clean turned
  cases turned with
  | stops | rests | finishes => exact ⟨stored,trivial⟩
  | begins => exact ⟨stored,stored⟩
  | bringsLast | associatesLast => exact ⟨stored.trans grown,trivial⟩
  | brings | associates => exact ⟨stored.trans grown,fits_later grown fits⟩
  | loads read exact =>
    refine ⟨stored,?_⟩
    have known := Workspace.ids_ledger backed
    cases Workspace.ledger_known backed read
    change (Capture.load _ _).held <+: _
    rw [gathered_held (load_gathered (prefix_exact.mp exact) (ledger_distinct backed)),known]
  | takes read found =>
    refine ⟨stored,taken_fits fits fun fresh => ?_⟩
    rw [←Workspace.ledger_ids backed read]
    exact follows _ read fresh
  | @prepares ledger capture checkpoint read made new =>
    have distinct : capture.held.Nodup := (Workspace.ids_nodup backed).sublist (List.IsPrefix.sublist fits)
    refine ⟨stored,?_⟩
    change checkpoint.consumedEvidenceIds <+: _
    rw [checkpoint_consumed made,Keyed.fromKeys_fixed distinct]
    exact fits
  | writes same => exact ⟨fits,trivial⟩
  | _ => exact ⟨stored,fits⟩

namespace System
variable {s : System}

-- Every record is taken up as the ledger's next one.
def Orderly (lax : Coercions) (c : Connector) : System → List Move → Prop
  | _, [] => True
  | s, move :: rest => Follows lax c s.workspace (s.phase move.run) ∧ Orderly lax c (s.step lax c move) rest

-- What the ledger has in order begins with what the checkpoint lists, and no
-- run that is about to authenticate its checkpoint is refused.
def Consistent (lax : Coercions) (c : Connector) (s : System) : Prop :=
  ∀ ledger, s.workspace.ledger lax c = .ok ledger →
    consumedIds s.workspace.checkpoint <+: (ledger.map fun item => item.evidence.id) ∧
    ∀ run prior, s.phase run = .loading prior → isExactConsumedPrefix (consumedIds prior) (ledger.map fun item => item.evidence.id) = true

structure Fitting (env : WriteEnv) (c : Connector) (s : System) : Prop where
  backed : s.Backed env c
  stored : consumedIds s.workspace.checkpoint <+: s.workspace.ids
  fits : ∀ run, Fits s.workspace (s.phase run)

theorem start_fitting : start.Fitting env c := ⟨start_backed,List.prefix_rfl,fun _ => trivial⟩

theorem step_fitting (fitting : s.Fitting env c) (follows : Follows env.lax c s.workspace (s.phase move.run)) :
    (s.step env.lax c move).Fitting env c := by
  have turned := turn_turned env.lax c move.answer s.workspace (s.phase move.run)
  obtain ⟨stored,fits⟩ := turned_fits fitting.backed.workspace (fitting.backed.clean _) fitting.stored (fitting.fits _) follows turned
  obtain ⟨_,grown,_⟩ := turned_backed fitting.backed.workspace (fitting.backed.clean _) turned
  refine ⟨step_backed fitting.backed move,stored,fun run => ?_⟩
  by_cases same : run = move.run
  · subst same
    simpa only [step,Function.update_self] using fits
  · simpa only [step,Function.update_of_ne same] using fits_later grown (fitting.fits run)

theorem steps_fitting (moves : List Move) (fitting : s.Fitting env c) (orderly : Orderly env.lax c s moves) :
    (s.steps env.lax c moves).Fitting env c := by
  induction moves generalizing s with
  | nil => exact fitting
  | cons move rest ih => exact ih (step_fitting fitting orderly.1) orderly.2

theorem fitting_consistent (fitting : s.Fitting env c) : s.Consistent env.lax c := by
  intro ledger read
  rw [Workspace.ledger_ids fitting.backed.workspace read]
  refine ⟨fitting.stored,fun run prior loads => prefix_exact.mpr ?_⟩
  have fits := fitting.fits run
  rw [loads] at fits
  exact fits

-- The turns of a run that nothing comes between.
theorem alone_orderly (run : Nat) (answers : List Answer) (backed : s.Backed env c) (alone : Alone c s.workspace (s.phase run)) :
    Orderly env.lax c s (answers.map (Move.mk run)) := by
  induction answers generalizing s with
  | nil => trivial
  | cons answer rest ih =>
    have turned := turn_turned env.lax c answer s.workspace (s.phase run)
    refine ⟨?_,ih (step_backed backed _) ?_⟩
    · cases at_ : s.phase run with
      | associated capture record rest =>
        rw [at_] at alone
        obtain ⟨ledger,more,shape,gathered,grown⟩ := alone
        intro whole read fresh
        rw [Workspace.ledger_known backed.workspace read,shape]
        rw [gathered_held gathered] at fresh ⊢
        rcases grown with ⟨rfl,member⟩ | ⟨item,rfl,rfl,_⟩
        · exact absurd member fresh
        · rw [List.map_append,List.getElem?_append_right (Nat.le_refl _),Nat.sub_self]
          rfl
      | _ => trivial
    · have next := turned_alone backed.workspace alone turned
      simpa only [step,Function.update_self] using next

end System

-- In any interleaving whose runs take records up in the ledger's order.
theorem checkpoint_prefix (env : WriteEnv) (c : Connector) (moves : List Move) (orderly : System.start.Orderly env.lax c moves) :
    (System.start.steps env.lax c moves).Consistent env.lax c :=
  System.fitting_consistent (System.steps_fitting moves System.start_fitting orderly)

-- A run that goes through on its own.
def undisturbed : List Move := (List.replicate 12 (finding [firstNote])).map (Move.mk 0)

theorem undisturbed_prefix : (System.start.steps plainEnv.lax markdownConnector undisturbed).Consistent plainEnv.lax markdownConnector :=
  checkpoint_prefix plainEnv markdownConnector undisturbed (System.alone_orderly 0 _ System.start_backed trivial)

-- One run has found only the late note when another ingests the first one.
def overtaken : List Move :=
  (List.replicate 5 (finding [lateNote])).map (Move.mk 1) ++ ((List.replicate 7 (finding [firstNote])).map (Move.mk 0) ++
    (List.replicate 7 (finding [])).map (Move.mk 1))

def overtaking : Capture := {Capture.load none [] with discovered := [some lateNote]}

def doubled : Workspace := noted.ingested plainEnv.lax lateItem

theorem late_absent : known (noted.index.ledger markdownConnector.id) lateNote = none := by
  rw [noted_ledger]
  rfl

theorem late_ingested : ingest markdownConnector markdown_named (noted.index.ledger markdownConnector.id) lateNote = lateItem := by
  rw [noted_ledger]
  rfl

theorem doubled_backed : doubled.Backed plainEnv markdownConnector := by
  have backed := ingested_backed lateNote noted_backed noted_readable markdown_named rfl late_absent
  rwa [late_ingested] at backed

theorem doubled_readable : doubled.Readable plainEnv.lax := readable_settled noted_readable rfl lateItem_legible

theorem doubled_ledger : doubled.index.ledger markdownConnector.id = [firstItem,lateItem] := by
  rw [doubled,ingested_ledger rfl,noted_ledger]
  rfl

theorem overtaken_turns : ∃ checkpoint,
    turns plainEnv.lax markdownConnector (List.replicate 7 (finding [])) (noted,.capturing overtaking [some lateNote]) =
      ({doubled with checkpoint := checkpoint},.ended true) ∧ consumedIds checkpoint = ["evidence:2"] := by
  have taken := fresh_turns (finding []) overtaking lateNote [] noted_backed noted_readable rfl rfl late_absent markdown_named
    (late_ingested ▸ lateItem_legible)
  rw [late_ingested] at taken
  obtain ⟨checkpoint,closed,consumed⟩ := closing_turns (finding []) (overtaking.take lateNote lateItem) doubled_backed doubled_readable rfl
    (by decide) rfl
  refine ⟨checkpoint,?_,consumed⟩
  change turns plainEnv.lax markdownConnector (List.replicate 2 (finding []) ++ List.replicate 5 (finding [])) _ = _
  rw [turns_append]
  exact (congrArg (turns plainEnv.lax markdownConnector _) taken).trans closed

theorem empty_markdown : Workspace.empty.Backed plainEnv markdownConnector := Workspace.empty_backed

theorem overtaken_inconsistent :
    ¬ (System.start.steps plainEnv.lax markdownConnector overtaken).Consistent plainEnv.lax markdownConnector := by
  have opened := opening_turns (finding [lateNote]) empty_markdown
    (fun _ member => absurd member List.not_mem_nil) List.prefix_rfl rfl
  obtain ⟨checkpoint,closed,consumed⟩ := overtaken_turns
  have first := steps_alone plainEnv.lax markdownConnector System.start 1 (List.replicate 5 (finding [lateNote]))
  rw [show turns plainEnv.lax markdownConnector (List.replicate 5 (finding [lateNote])) (System.start.workspace,System.start.phase 1) =
    (Workspace.empty,.capturing overtaking [some lateNote]) from opened] at first
  have second := steps_alone plainEnv.lax markdownConnector
    ⟨Workspace.empty,Function.update System.start.phase 1 (.capturing overtaking [some lateNote])⟩ 0 (List.replicate 7 (finding [firstNote]))
  simp only [Function.update_of_ne (show 0 ≠ 1 by decide)] at second
  rw [show System.start.phase 0 = Phase.idle from rfl,first_turns] at second
  have third := steps_alone plainEnv.lax markdownConnector ⟨noted,Function.update
    (Function.update System.start.phase 1 (.capturing overtaking [some lateNote])) 0
    (.capturing (Capture.take {Capture.load none [] with discovered := [some firstNote]} firstNote firstItem) [])⟩ 1
    (List.replicate 7 (finding []))
  simp only [Function.update_of_ne (show 1 ≠ 0 by decide),Function.update_self,closed] at third
  have whole : (System.start.steps plainEnv.lax markdownConnector overtaken).workspace = {doubled with checkpoint := checkpoint} := by
    rw [overtaken,System.steps,List.foldl_append,List.foldl_append]
    change (System.steps plainEnv.lax markdownConnector (System.steps plainEnv.lax markdownConnector
      (System.steps plainEnv.lax markdownConnector System.start _) _) _).workspace = _
    rw [first,second,third]
  intro consistent
  have read := (Workspace.ledger_reads doubled_backed).mpr ⟨doubled_readable,doubled_ledger.symm⟩
  have listed := (consistent [firstItem,lateItem] (by rw [whole]; exact read)).1
  rw [whole] at listed
  simp only [consumed] at listed
  exact absurd listed (by decide)

end SyncOrchestrator
