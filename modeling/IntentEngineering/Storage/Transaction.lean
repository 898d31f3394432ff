import IntentEngineering.Library.Interrupt
import Mathlib.Data.List.Sort
import Mathlib.Data.String.Basic

namespace LocalTransaction
open Interrupt

abbrev Bytes := List UInt8
abbrev Contents := String → Option Bytes

-- `^[a-z][a-z0-9_]*$`, matched in full.
def validTargetName (name : String) : Bool :=
  match name.toList with
  | [] => false
  | first :: rest => first.isLower && rest.all (fun c => c.isLower || c.isDigit || c = '_')

inductive JournalState where
  | prepared
  | committed
deriving DecidableEq

-- The record that `_read_journal` hands on. Content is already decoded here:
-- the digest and the base64 text are functions of it.
structure Preimage where
  target : String
  content : Option Bytes
deriving DecidableEq

structure Journal where
  state : JournalState
  transactionId : String
  preimages : List Preimage
deriving DecidableEq

-- `malformed` stands for every journal text that fails to decode.
inductive JournalFile where
  | journal (record : Journal)
  | malformed
deriving DecidableEq

-- The files of one coordinator and its thread's `poisoned` flag. The flag is
-- reset by each outermost transaction and read only inside it.
structure Disk where
  journal : Option JournalFile
  targets : Contents
  poisoned : Bool

structure Coordinator where
  targets : List String
  legacyTargetSets : List (List String)
  nonempty : targets ≠ []
  valid : targets.all validTargetName = true
  sorted : targets.Pairwise (· < ·)
  legacySorted : ∀ names ∈ legacyTargetSets, names.Pairwise (· < ·)
  legacyProper : ∀ names ∈ legacyTargetSets, names ≠ [] ∧ names ≠ targets ∧ ∀ name ∈ names, name ∈ targets
  legacyDistinct : legacyTargetSets.Nodup

theorem noLegacySets_sorted : ∀ names ∈ ([] : List (List String)), names.Pairwise (· < ·) := by simp
theorem noLegacySets_distinct : ([] : List (List String)).Nodup := by simp

def setTarget (name : String) (content : Option Bytes) (disk : Disk) : Disk :=
  {disk with targets := fun other => if other = name then content else disk.targets other}

def setJournal (file : Option JournalFile) (disk : Disk) : Disk := {disk with journal := file}

def setPoisoned (flag : Bool) (disk : Disk) : Disk := {disk with poisoned := flag}

-- `SecureFile.append` creates the file first; then a torn write has added some
-- first part of the payload.
def appendTarget (name : String) (content : Bytes) (disk : Disk) : Disk :=
  setTarget name (some ((disk.targets name).getD [] ++ content)) disk

def atomicWrite (name : String) (content : Bytes) : Act Disk Unit :=
  atomically (setTarget name (some content))

def append (name : String) (content : Bytes) : Act Disk Unit :=
  durable (appendTarget name content) fun reached disk =>
    match reached with
    | 0 => disk
    | written + 1 => appendTarget name (content.take written) disk

def unlink (name : String) : Act Disk Unit := atomically (setTarget name none)

def writeJournal (journal : Journal) : Act Disk Unit :=
  atomically (setJournal (some (.journal journal)))

def unlinkJournal (missingOk : Bool) : Act Disk Unit := do
  if (← current).journal = none ∧ missingOk = false then throw .exception
  atomically (setJournal none)

def journalFor (preimages : List Preimage) (state : JournalState) (transactionId : String) : Journal :=
  ⟨state,transactionId,preimages⟩

def snapshot (c : Coordinator) : Act Disk (List Preimage) :=
  c.targets.mapM fun name => do
    return ⟨name,← observe (fun disk => disk.targets name)⟩

def targetSet (journal : Journal) : List String :=
  (journal.preimages.map Preimage.target).insertionSort (· ≤ ·)

def readableJournal (c : Coordinator) (file : JournalFile) : Option Journal :=
  match file with
  | .malformed => none
  | .journal journal =>
    if targetSet journal = c.targets ∨ targetSet journal ∈ c.legacyTargetSets then some journal else none

def readJournal (c : Coordinator) : Act Disk (Option Journal) := do
  match ← observe Disk.journal with
  | none => return none
  | some file => match readableJournal c file with
    | none => throw .exception
    | some journal => return some journal

def restoreTarget (preimage : Preimage) : Act Disk Unit :=
  match preimage.content with
  | none => unlink preimage.target
  | some content => atomicWrite preimage.target content

def restore (preimages : List Preimage) : Act Disk Unit :=
  (preimages.insertionSort fun left right => left.target ≤ right.target).forM restoreTarget

def restorePrepared (journal : Journal) : Act Disk Unit :=
  if journal.state = .prepared then restore journal.preimages else pure ()

def recoverUnlocked (c : Coordinator) : Act Disk Bool := do
  match ← readJournal c with
  | none => return false
  | some journal =>
    restorePrepared journal
    unlinkJournal false
    return true

-- What a caller does inside the scope. `read` lets it branch on what it finds,
-- `attempt` is its own `except Exception`, `nested` opens the scope again on the
-- same thread, and `leave` raises, or ends the process, between two steps.
inductive Body where
  | done
  | leave (halt : Halt)
  | read (name : String) (next : Option Bytes → Body)
  | write (name : String) (content : Bytes)
  | append (name : String) (content : Bytes)
  | both (first second : Body)
  | attempt (body handler : Body)
  | nested (body : Body)

def target (c : Coordinator) (name : String) : Act Disk Unit :=
  if name ∈ c.targets then pure () else throw .exception

def runBody (c : Coordinator) : Body → Act Disk Unit
  | .done => pure ()
  | .leave halt => throw halt
  | .read name next => do
    target c name
    let content ← observe (fun disk => disk.targets name)
    runBody c (next content)
  | .write name content => do
    target c name
    atomicWrite name content
    interruptible
  | .append name content => do
    target c name
    append name content
    interruptible
  | .both first second => do
    runBody c first
    runBody c second
  | .attempt body handler => handleException (runBody c body) (runBody c handler)
  | .nested body =>
    tryCatch (runBody c body) fun halt => do
      update (setPoisoned true)
      throw halt

-- The `journal_prepared` stage and then the caller's scope.
def enter (c : Coordinator) (body : Body) : Act Disk Unit := do
  interruptible
  runBody c body

def undo (preimages : List Preimage) : Act Disk Unit := do
  restore preimages
  unlinkJournal true

def rollsBack (rollbackBaseExceptions : Bool) : Halt → Bool
  | .exception => true
  | .baseException => rollbackBaseExceptions
  | .died => false

def rollback (rollbackBaseExceptions : Bool) (preimages : List Preimage) (halt : Halt) : Act Disk Unit :=
  if rollsBack rollbackBaseExceptions halt then do
    undo preimages
    throw halt
  else throw halt

def commit (preimages : List Preimage) (transactionId : String) : Act Disk Unit := do
  if (← current).poisoned then throw .exception
  writeJournal (journalFor preimages .committed transactionId)
  interruptible
  unlinkJournal false

def prepare (preimages : List Preimage) (transactionId : String) : Act Disk Unit := do
  writeJournal (journalFor preimages .prepared transactionId)
  update (setPoisoned false)

-- The part of `transaction` under its `try`.
def guarded (c : Coordinator) (transactionId : String) (body : Body) (preimages : List Preimage) :
    Act Disk Unit := do
  enter c body
  commit preimages transactionId

def openTransaction (c : Coordinator) : Act Disk (List Preimage) := do
  let _ ← recoverUnlocked c
  snapshot c

def closeTransaction (c : Coordinator) (rollbackBaseExceptions : Bool) (transactionId : String) (body : Body)
    (preimages : List Preimage) : Act Disk Unit := do
  prepare preimages transactionId
  tryCatch (guarded c transactionId body preimages) (rollback rollbackBaseExceptions preimages)

def transaction (c : Coordinator) (rollbackBaseExceptions : Bool) (transactionId : String) (body : Body) :
    Act Disk Unit := do
  let preimages ← openTransaction c
  closeTransaction c rollbackBaseExceptions transactionId body preimages

end LocalTransaction
