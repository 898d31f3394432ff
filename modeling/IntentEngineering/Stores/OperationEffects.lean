import IntentEngineering.Stores.StoreRecovery

namespace LocalTransaction
open Interrupt

namespace Operation
variable {α : Type} (c : Coordinator) (op : Operation α)

-- What an operation leaves of the contents it starts from: one that returns has
-- added its whole frame, one that is stopped some first part of it.
def Left (contents : Contents) : Except Halt α → Contents → Prop
  | .ok value, left => ∃ frame, op.turn (contents op.target) = some (value,frame) ∧ left = extended contents op.target frame
  | .error _, left => left = contents ∨ ∃ value frame part, op.turn (contents op.target) = some (value,some frame) ∧
      part <+: frame ∧ left = extended contents op.target (some part)

end Operation

section
variable {c : Coordinator} {α : Type} {op : Operation α}

theorem append_effective (closed : disk.journal = none) (same : disk.targets = contents) (name : String) (frame : Bytes) :
    effective c (appendTarget name frame disk) = some (Operation.extended contents name (some frame)) := by
  subst same
  exact effective_none closed

-- The file's own part of an operation, with no journal pending.
theorem turnAct_left (contents : Contents) :
    Ensures (fun disk => disk.targets = contents ∧ disk.journal = none) op.turnAct
      (fun value disk => ∃ left, effective c disk = some left ∧ op.Left contents (.ok value) left)
      (fun halt disk => ∃ left, effective c disk = some left ∧ op.Left contents (.error halt) left) := by
  have untouched (halt : Halt) (disk : Disk) (start : disk.targets = contents ∧ disk.journal = none) :
      ∃ left, effective c disk = some left ∧ op.Left contents (.error halt) left :=
    ⟨contents,by rw [effective_none start.2,start.1],.inl rfl⟩
  apply ensures_bind (fun content disk => content = contents op.target ∧ disk.targets = contents ∧ disk.journal = none)
  · apply ensures_observe
    · intro disk start
      exact ⟨by rw [start.1],start⟩
    · intro disk halt start
      exact untouched halt disk start
  · intro content
    apply ensures_each
    intro disk start
    obtain ⟨rfl,start⟩ := start
    cases turned : op.turn (contents op.target) with
    | none =>
      intro world same
      subst same
      exact untouched .exception _ start
    | some outcome =>
      obtain ⟨value,_ | frame⟩ := outcome
      · intro world same
        subst same
        exact ⟨contents,by rw [effective_none start.2,start.1],none,turned,rfl⟩
      · apply ensures_bind (fun _ after => effective c after = some (Operation.extended contents op.target (some frame)))
        · apply ensures_durable
          · intro disk' same
            subst same
            exact append_effective start.2 start.1 op.target frame
          · intro disk' halt reached same
            subst same
            cases reached with
            | zero => exact untouched halt _ start
            | succ written =>
              exact ⟨_,append_effective start.2 start.1 op.target (frame.take written),
                .inr ⟨value,frame,_,turned,List.take_prefix written frame,rfl⟩⟩
        · intro _ world grown
          exact ⟨_,grown,some frame,turned,rfl⟩

-- A coordinated operation, whatever interrupts it.
theorem act_left (coordinated : op.coordinated = true) (contents : Contents) :
    Ensures (fun disk => effective c disk = some contents) (op.act c)
      (fun value disk => ∃ left, effective c disk = some left ∧ op.Left contents (.ok value) left)
      (fun halt disk => ∃ left, effective c disk = some left ∧ op.Left contents (.error halt) left) := by
  rw [Operation.act,if_pos coordinated]
  apply ensures_bind (fun _ disk => disk.targets = contents ∧ disk.journal = none)
  · exact ensures_weaken (recover_spec c contents) (fun _ same => same) (fun _ _ done => done)
      (fun _ _ still => ⟨contents,still,.inl rfl⟩)
  · intro _
    exact turnAct_left contents

theorem left_frame {contents left : Contents} {result : Except Halt α} (leaves : op.Left contents result left) (other : name ≠ op.target) :
    left name = contents name := by
  have kept (frame : Option Bytes) : Operation.extended contents op.target frame name = contents name := by
    cases frame with
    | none => rfl
    | some bytes => simp [Operation.extended,other]
  cases result with
  | ok value =>
    obtain ⟨frame,_,rfl⟩ := leaves
    exact kept frame
  | error halt =>
    rcases leaves with rfl | ⟨_,_,part,_,_,rfl⟩
    · rfl
    · exact kept (some part)

theorem act_calm (closed : disk.journal = none) (turned : op.turn (disk.targets op.target) = some (value,frame)) :
    ∃ after, op.act c ⟨disk,[]⟩ = (.ok value,⟨after,[]⟩) ∧ after.journal = none ∧
      after.targets = Operation.extended disk.targets op.target frame := by
  have turn : ∃ after, op.turnAct ⟨disk,[]⟩ = (.ok value,⟨after,[]⟩) ∧ after.journal = none ∧
      after.targets = Operation.extended disk.targets op.target frame := by
    have seen : observe (fun disk => disk.targets op.target) ⟨disk,[]⟩ = (.ok (disk.targets op.target),⟨disk,[]⟩) := rfl
    rw [Operation.turnAct,run_bind,seen]
    dsimp only
    rw [turned]
    cases frame with
    | none => exact ⟨disk,rfl,closed,rfl⟩
    | some bytes => exact ⟨_,rfl,closed,rfl⟩
  rw [Operation.act]
  split
  · rw [run_bind]
    have recovered : recoverUnlocked c ⟨disk,[]⟩ = (.ok false,⟨disk,[]⟩) := by
      cases disk
      cases closed
      rfl
    rw [recovered]
    exact turn
  · exact turn

-- Over an unreadable journal nothing is done.
theorem act_refused (coordinated : op.coordinated = true) (shut : effective c disk = none)
    (ran : op.act c ⟨disk,schedule⟩ = (result,after)) :
    (∃ halt, result = .error halt) ∧ effective c after.state = none := by
  have triple : Ensures (fun disk => effective c disk = none) (op.act c) (fun _ _ => False) (fun _ disk => effective c disk = none) := by
    rw [Operation.act,if_pos coordinated]
    exact ensures_bind (fun _ _ => False) (recover_refused c) (fun _ _ impossible => impossible.elim)
  cases result with
  | ok value => exact (triple.ok shut ran).elim
  | error halt => exact ⟨⟨halt,rfl⟩,triple.error shut ran⟩

theorem act_effective (coordinated : op.coordinated = true) (settled : effective c disk = some contents)
    (ran : op.act c ⟨disk,schedule⟩ = (result,after)) :
    ∃ left, effective c after.state = some left ∧ op.Left contents result left := by
  have left := act_left (c := c) coordinated contents ⟨disk,schedule⟩ settled
  rw [ran] at left
  cases result <;> exact left

end

end LocalTransaction
