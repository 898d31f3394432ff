import IntentEngineering.Storage.Transaction

namespace LocalTransaction
open Interrupt

-- What a reader sees once a pending restore has been finished.
def overlay (preimages : List Preimage) (base : Contents) : Contents := fun name =>
  match preimages.find? (fun preimage => preimage.target = name) with
  | some preimage => preimage.content
  | none => base name

-- The contents every completed recovery of this disk ends with. An unreadable
-- journal has none: its recovery never completes.
def effective (c : Coordinator) (disk : Disk) : Option Contents :=
  match disk.journal with
  | none => some disk.targets
  | some file => match readableJournal c file with
    | none => none
    | some journal =>
      some (if journal.state = .prepared then overlay journal.preimages disk.targets else disk.targets)

def names (preimages : List Preimage) : List String := preimages.map Preimage.target

theorem overlay_absent (absent : name ∉ names preimages) : overlay preimages base name = base name := by
  have missing : preimages.find? (fun preimage => preimage.target = name) = none := by
    refine List.find?_eq_none.mpr fun preimage member => ?_
    simp only [decide_eq_true_eq]
    exact fun same => absent (List.mem_map.mpr ⟨preimage,member,same⟩)
  simp only [overlay,missing]

theorem overlay_present (distinct : (names preimages).Nodup) (member : preimage ∈ preimages) :
    overlay preimages base preimage.target = preimage.content := by
  unfold overlay
  split
  · rename_i found got
    have inside := List.mem_of_find?_eq_some got
    have same : found.target = preimage.target := by simpa using List.find?_some got
    rw [List.inj_on_of_nodup_map distinct inside member same]
  · rename_i missing
    have none := List.find?_eq_none.mp missing preimage member
    simp at none

-- Restoring one recorded target, in full or not at all, changes nothing that a
-- later recovery restores anyway.
theorem overlay_restored (distinct : (names preimages).Nodup) (member : preimage ∈ preimages) (disk : Disk) :
    overlay preimages (setTarget preimage.target preimage.content disk).targets =
      overlay preimages disk.targets := by
  funext name
  by_cases inside : name ∈ names preimages
  · obtain ⟨other,found,rfl⟩ := List.mem_map.mp inside
    rw [overlay_present distinct found,overlay_present distinct found]
  · rw [overlay_absent inside,overlay_absent inside]
    have other : name ≠ preimage.target := fun same => inside (same ▸ List.mem_map_of_mem member)
    simp [setTarget,other]

theorem overlay_perm (distinct : (names left).Nodup) (perm : left.Perm right) (base : Contents) :
    overlay left base = overlay right base := by
  have distinctRight : (names right).Nodup := (perm.map Preimage.target).nodup_iff.mp distinct
  funext name
  by_cases inside : name ∈ names left
  · obtain ⟨preimage,found,rfl⟩ := List.mem_map.mp inside
    rw [overlay_present distinct found,overlay_present distinctRight (perm.mem_iff.mp found)]
  · have outside : name ∉ names right := fun other =>
      inside ((perm.map Preimage.target).mem_iff.mpr other)
    rw [overlay_absent inside,overlay_absent outside]

theorem overlay_cons_restored (distinct : (names (preimage :: rest)).Nodup) (disk : Disk) :
    overlay rest (setTarget preimage.target preimage.content disk).targets =
      overlay (preimage :: rest) disk.targets := by
  obtain ⟨fresh,_⟩ := List.nodup_cons.mp distinct
  funext name
  by_cases here : preimage.target = name
  · subst here
    rw [overlay_absent fresh]
    simp [overlay,setTarget]
  · have other : name ≠ preimage.target := fun same => here same.symm
    simp [overlay,setTarget,here,other]

theorem restoreTarget_exact (preimage : Preimage) :
    restoreTarget preimage = atomically (setTarget preimage.target preimage.content) := by
  rcases preimage with ⟨name,_ | content⟩ <;> rfl

theorem restore_spec (distinct : (names preimages).Nodup) (contents : Contents) (file : Option JournalFile) :
    Ensures (fun disk => overlay preimages disk.targets = contents ∧ disk.journal = file) (restore preimages)
      (fun _ disk => disk.targets = contents ∧ overlay preimages disk.targets = contents ∧ disk.journal = file)
      (fun _ disk => overlay preimages disk.targets = contents ∧ disk.journal = file) := by
  have perm := List.perm_insertionSort (fun left right : Preimage => left.target ≤ right.target) preimages
  -- the turns still to come would alone complete the restore
  let kept (rest : List Preimage) (disk : Disk) : Prop :=
    (∀ preimage ∈ rest, preimage ∈ preimages) ∧ (names rest).Nodup ∧ overlay rest disk.targets = contents ∧
      overlay preimages disk.targets = contents ∧ disk.journal = file
  have each (item : Preimage) (rest : List Preimage) : Ensures (kept (item :: rest)) (restoreTarget item)
      (fun _ => kept rest) (fun _ disk => overlay preimages disk.targets = contents ∧ disk.journal = file) := by
    rw [restoreTarget_exact]
    have stays (disk : Disk) (start : kept (item :: rest) disk) :
        overlay preimages (setTarget item.target item.content disk).targets = contents :=
      (overlay_restored distinct (start.1 item (by simp)) disk).trans start.2.2.2.1
    refine ensures_atomically (fun disk start => ?_) (fun disk _ start => start.2.2.2)
      (fun disk _ start => ⟨stays disk start,start.2.2.2.2⟩)
    refine ⟨fun other member => start.1 other (by simp [member]),(List.nodup_cons.mp start.2.1).2,?_,
      stays disk start,start.2.2.2.2⟩
    exact (overlay_cons_restored start.2.1 disk).trans start.2.2.1
  refine ensures_weaken (ensures_forM each _) (fun disk start => ?_) (fun _ disk done => ?_)
    (fun _ _ stop => stop)
  · refine ⟨fun preimage member => perm.mem_iff.mp member,?_,?_,start.1,start.2⟩
    · exact (perm.map Preimage.target).nodup_iff.mpr distinct
    · rw [←overlay_perm distinct perm.symm]
      exact start.1
  · exact ⟨done.2.2.1,done.2.2.2⟩

theorem readable_names (readable : readableJournal c file = some journal) :
    (names journal.preimages).Nodup ∧ ∀ name ∈ names journal.preimages, name ∈ c.targets := by
  unfold readableJournal at readable
  split at readable
  · cases readable
  · rename_i record
    split at readable
    · rename_i accepted
      cases Option.some.inj readable
      have perm : (targetSet journal).Perm (names journal.preimages) := List.perm_insertionSort _ _
      have sorted : (targetSet journal).Pairwise (· < ·) := by
        rcases accepted with current | legacy
        · rw [current]; exact c.sorted
        · exact c.legacySorted _ legacy
      refine ⟨perm.nodup_iff.mp (sorted.imp fun less same => ?_),fun name member => ?_⟩
      · exact absurd (same ▸ less) (String.lt_irrefl _)
      · have inside := perm.mem_iff.mpr member
        rcases accepted with current | legacy
        · rwa [current] at inside
        · exact (c.legacyProper _ legacy).2.2 name inside
    · cases readable

theorem unlinkJournal_spec (missingOk : Bool) (before : Disk) :
    Ensures (· = before) (unlinkJournal missingOk) (fun _ disk => disk = setJournal none before)
      (fun _ disk => disk = before ∨ disk = setJournal none before) := by
  unfold unlinkJournal
  refine ensures_bind _ ensures_current (fun disk => ?_)
  have last : Ensures (fun s => disk = s ∧ s = before) (atomically (setJournal none))
      (fun _ disk => disk = setJournal none before) (fun _ disk => disk = before ∨ disk = setJournal none before) :=
    ensures_atomically (fun s start => by rw [start.2]) (fun s _ start => .inl start.2)
      (fun s _ start => .inr (by rw [start.2]))
  split
  · refine ensures_bind (fun _ s => disk = s ∧ s = before) ?_ (fun _ => last)
    exact ensures_weaken (ensures_throw (fun _ s => s = before) _) (fun s start => start.2)
      (fun _ s impossible => impossible) (fun _ s stop => .inl stop)
  · exact last

theorem effective_none (missing : disk.journal = none) : effective c disk = some disk.targets := by
  simp only [effective,missing]

theorem effective_journal (present : disk.journal = some file) (readable : readableJournal c file = some journal) :
    effective c disk = some (if journal.state = .prepared then overlay journal.preimages disk.targets
      else disk.targets) := by
  simp only [effective,present,readable]

theorem readJournal_spec (c : Coordinator) (before : Disk) :
    Ensures (· = before) (readJournal c)
      (fun loaded disk => disk = before ∧ ((loaded = none ∧ before.journal = none) ∨
        ∃ file journal, loaded = some journal ∧ before.journal = some file ∧ readableJournal c file = some journal))
      (fun _ disk => disk = before) := by
  unfold readJournal
  refine ensures_bind (fun file disk => file = before.journal ∧ disk = before)
    (ensures_observe (fun s start => ⟨by rw [start],start⟩) (fun s _ start => start)) (fun found => ?_)
  cases found with
  | none => exact fun world start => ⟨start.2,.inl ⟨rfl,start.1.symm⟩⟩
  | some file =>
    dsimp only
    split
    · exact fun world start => start.2
    · rename_i journal readable
      exact fun world start => ⟨start.2,.inr ⟨file,journal,rfl,start.1.symm,readable⟩⟩

theorem unlinkJournal_settles (c : Coordinator) (missingOk : Bool) (contents : Contents) :
    Ensures (fun disk => disk.targets = contents ∧ effective c disk = some contents) (unlinkJournal missingOk)
      (fun _ disk => disk.targets = contents ∧ disk.journal = none)
      (fun _ disk => effective c disk = some contents) := by
  refine ensures_each fun before start => ?_
  have gone : effective c (setJournal none before) = some contents := by
    rw [effective_none rfl]; exact congrArg some start.1
  refine ensures_weaken (unlinkJournal_spec missingOk before) (fun _ same => same) (fun _ disk done => ?_)
    (fun _ disk stop => ?_)
  · rw [done]; exact ⟨start.1,rfl⟩
  · rcases stop with rfl | rfl
    · exact start.2
    · exact gone

-- A recovery keeps the effective contents wherever it is cut off, and when it
-- completes they are the contents on disk.
theorem recover_spec (c : Coordinator) (contents : Contents) :
    Ensures (fun disk => effective c disk = some contents) (recoverUnlocked c)
      (fun _ disk => disk.targets = contents ∧ disk.journal = none)
      (fun _ disk => effective c disk = some contents) := by
  refine ensures_each fun before start => ?_
  unfold recoverUnlocked
  refine ensures_bind _ (ensures_weaken (readJournal_spec c before) (fun _ same => same) (fun _ _ done => done)
    (fun _ disk same => by rw [same]; exact start)) (fun loaded => ?_)
  cases loaded with
  | none =>
    rintro world ⟨same,⟨_,missing⟩ | ⟨_,_,impossible,_⟩⟩
    · rw [effective_none missing] at start
      rw [←same] at start missing
      exact ⟨Option.some.inj start,missing⟩
    · cases impossible
  | some journal =>
    refine ensures_bind (fun _ disk => disk.targets = contents ∧ effective c disk = some contents) ?_
      (fun _ => ensures_bind _ (unlinkJournal_settles c false contents)
        (fun _ => ensures_pure (fun _ (disk : Disk) => disk.targets = contents ∧ disk.journal = none) true))
    refine ensures_each fun disk found => ?_
    obtain ⟨rfl,⟨impossible,_⟩ | ⟨file,record,same,present,readable⟩⟩ := found
    · cases impossible
    cases Option.some.inj same
    have distinct := (readable_names readable).1
    rw [effective_journal present readable] at start
    unfold restorePrepared
    split
    · rename_i prepared
      simp only [prepared,if_true,Option.some.injEq] at start
      refine ensures_weaken (restore_spec distinct contents (some file)) (fun s same => ?_) (fun _ s done => ?_)
        (fun _ s stop => ?_)
      · rw [same]; exact ⟨start,present⟩
      · rw [effective_journal done.2.2 readable,if_pos prepared]
        exact ⟨done.1,congrArg some done.2.1⟩
      · rw [effective_journal stop.2 readable,if_pos prepared]
        exact congrArg some stop.1
    · rename_i committed
      simp only [committed,if_false,Option.some.injEq] at start
      have settled : effective c disk = some contents := by
        rw [effective_journal present readable,if_neg committed]
        exact congrArg some start
      rintro ⟨_,schedule⟩ rfl
      exact ⟨start,settled⟩

theorem recover_refused (c : Coordinator) :
    Ensures (fun disk => effective c disk = none) (recoverUnlocked c) (fun _ _ => False)
      (fun _ disk => effective c disk = none) := by
  refine ensures_each fun before start => ?_
  unfold recoverUnlocked
  refine ensures_bind (fun _ _ => False) ?_ (fun _ _ impossible => impossible.elim)
  refine ensures_weaken (readJournal_spec c before) (fun _ same => same) (fun loaded disk done => ?_)
    (fun _ disk same => by rw [same]; exact start)
  rcases done with ⟨_,⟨_,missing⟩ | ⟨file,journal,_,present,readable⟩⟩
  · rw [effective_none missing] at start; cases start
  · rw [effective_journal present readable] at start; cases start

theorem recover_returned (ran : recoverUnlocked c before = (.ok done,after)) :
    effective c before.state = some after.state.targets ∧ after.state.journal = none := by
  cases settled : effective c before.state with
  | none => exact ((recover_refused c).ok settled ran).elim
  | some contents =>
    have result := (recover_spec c contents).ok settled ran
    rw [result.1]
    exact ⟨rfl,result.2⟩

-- Any number of interrupted recoveries, each by a process of its own, and then
-- one that returns.
inductive Recovers (c : Coordinator) : Disk → Disk → Prop where
  | completed (ran : recoverUnlocked c ⟨disk,schedule⟩ = (.ok done,after)) : Recovers c disk after.state
  | interrupted (ran : recoverUnlocked c ⟨disk,schedule⟩ = (.error halt,after))
      (rest : Recovers c after.state final) : Recovers c disk final

theorem recovers_effective (path : Recovers c disk final) (settled : effective c disk = some contents) :
    final.targets = contents := by
  induction path with
  | completed ran => exact ((recover_spec c contents).ok settled ran).1
  | interrupted ran _ ih => exact ih ((recover_spec c contents).error settled ran)

end LocalTransaction
