import IntentEngineering.Library.Choices

open Choices (choose current update outcome)

-- `SecureFile.atomic_write` with `reject_target_races`, over the system calls
-- it makes.
namespace StrictWrite

-- What a call raises. `cancelled` is any exception the code does not name.
inductive Raised where
  | osError
  | fileExists
  | fileNotFound
  | badDescriptor
  | unsafePath
  | rollback
  | cancelled
deriving DecidableEq

-- `except OSError` takes its subclasses too.
def Raised.isOSError : Raised → Bool
  | .osError | .fileExists | .fileNotFound | .badDescriptor => true
  | .unsafePath | .rollback | .cancelled => false

structure Inode where
  content : List UInt8
  regular : Bool
  links : Nat
deriving DecidableEq

-- One directory that nobody else changes. A file made in it gets an unused number.
structure Directory where
  entries : String → Option Nat
  inodes : Nat → Inode
  next : Nat
  fresh : ∀ name ino, entries name = some ino → ino < next

-- The fields of `os.stat_result` the code reads; its identity is the number.
structure Metadata where
  ino : Nat
  regular : Bool
  links : Nat
  size : Nat
deriving DecidableEq

namespace Directory

def metadata (d : Directory) (ino : Nat) : Metadata :=
  ⟨ino,(d.inodes ino).regular,(d.inodes ino).links,(d.inodes ino).content.length⟩

-- What a name holds, the file behind it included.
def lookup (d : Directory) (name : String) : Option (Nat × Inode) := (d.entries name).map fun ino => (ino,d.inodes ino)

theorem create_fresh (d : Directory) (name : String) : ∀ other ino,
    (if other = name then some d.next else d.entries other) = some ino → ino < d.next + 1 := by
  intro other ino named
  split at named
  · cases named
    exact Nat.lt_succ_self _
  · exact Nat.lt_succ_of_lt (d.fresh other ino named)

def create (d : Directory) (name : String) : Directory :=
  ⟨fun other => if other = name then some d.next else d.entries other,
    fun ino => if ino = d.next then ⟨[],true,1⟩ else d.inodes ino,d.next + 1,create_fresh d name⟩

theorem move_fresh (d : Directory) (source target : String) : ∀ other ino,
    (if other = target then d.entries source else if other = source then none else d.entries other) = some ino → ino < d.next := by
  intro other ino named
  split at named
  · exact d.fresh source ino named
  · split at named
    · cases named
    · exact d.fresh other ino named

def move (d : Directory) (source target : String) : Directory :=
  ⟨fun other => if other = target then d.entries source else if other = source then none else d.entries other,
    d.inodes,d.next,move_fresh d source target⟩

theorem exchange_fresh (d : Directory) (left right : String) : ∀ other ino,
    (if other = right then d.entries left else if other = left then d.entries right else d.entries other) = some ino →
      ino < d.next := by
  intro other ino named
  split at named
  · exact d.fresh left ino named
  · split at named
    · exact d.fresh right ino named
    · exact d.fresh other ino named

def exchange (d : Directory) (left right : String) : Directory :=
  ⟨fun other => if other = right then d.entries left else if other = left then d.entries right else d.entries other,
    d.inodes,d.next,exchange_fresh d left right⟩

def edit (d : Directory) (ino : Nat) (change : List UInt8 → List UInt8) : Directory :=
  {d with inodes := fun other => if other = ino then {d.inodes ino with content := change (d.inodes ino).content} else d.inodes other}

end Directory

-- A descriptor is the file it holds; -1 is `none`.
abbrev Descriptor := Option Nat

structure Files where
  directory : Directory
  held : Nat → Bool

structure StrictWriteState where
  committed : Bool
  cleaned : Bool
  indeterminate : Bool
  displacedTouched : Bool
  displacedScrubbed : Bool
deriving DecidableEq

-- The files, and the variables of the running calls that outlive a `try`.
structure Session where
  files : Files
  state : StrictWriteState
  temporaryName : Option String
  reportDescriptor : Descriptor
  displacedDescriptor : Descriptor
  report : Option Metadata
  quarantine : Option String

def starting (directory : Directory) : Session :=
  ⟨⟨directory,fun _ => false⟩,⟨false,false,false,false,false⟩,none,none,none,none,none⟩

-- A system call completes, or fails before or after it took effect.
inductive Fate where
  | completes
  | refused
  | torn
deriving DecidableEq

-- What the environment decides for one step. `amount` is how much more than one
-- byte a write takes, `token` what `secrets.token_hex` gives.
structure Choice where
  fate : Fate
  amount : Nat
  token : String

-- The named boundaries of a strict write.
inductive Stage where
  | prepared
  | newInstalled
  | newDurable
  | existingExchanged
  | existingDurable
  | originalQuarantined
  | originalPreScrub
  | originalScrubbed
deriving DecidableEq

-- `renames` says whether the platform has a rename with flags, `fault` what is
-- injected at a boundary.
structure Host where
  renames : Bool
  fault : Stage → Option Raised

abbrev Act := Choices.Act Raised Choice Session

variable {α : Type}

-- A failing system call raises an OSError of its own kind only for what is so.
def system (attempt : Nat → Files → Except Raised (α × Files)) : Act α := do
  let choice ← choose
  match choice.fate,attempt choice.amount (← current).files with
  | .refused,_ => throw .osError
  | _,.error error => throw error
  | .torn,.ok (_,files) =>
    update fun s => {s with files := files}
    throw .osError
  | .completes,.ok (value,files) =>
    update fun s => {s with files := files}
    return value

-- `try: … except OSError`, as a value.
def caught (act : Act α) : Act (Except Raised α) := do
  match ← outcome act with
  | .ok value => return .ok value
  | .error error => if error.isOSError then return .error error else throw error

section Calls

def statName (name : String) (files : Files) : Except Raised Metadata :=
  match files.directory.entries name with
  | none => .error .fileNotFound
  | some ino => .ok (files.directory.metadata ino)

def statDescriptor (descriptor : Descriptor) (files : Files) : Except Raised Metadata :=
  match descriptor with
  | none => .error .badDescriptor
  | some ino => if files.held ino then .ok (files.directory.metadata ino) else .error .badDescriptor

def stat (name : String) : Act Metadata := system fun _ files => (statName name files).map (·,files)

def fstat (descriptor : Descriptor) : Act Metadata := system fun _ files => (statDescriptor descriptor files).map (·,files)

-- Content is what a reader sees, so a flush changes nothing of it.
def fsync : Act Unit := system fun _ files => .ok ((),files)

-- `O_WRONLY | O_CREAT | O_EXCL | O_NOFOLLOW`.
def openExclusive (name : String) : Act Nat := system fun _ files =>
  match files.directory.entries name with
  | some _ => .error .fileExists
  | none => .ok (files.directory.next,
      ⟨files.directory.create name,fun ino => decide (ino = files.directory.next) || files.held ino⟩)

-- `O_WRONLY | O_NOFOLLOW`.
def openExisting (name : String) : Act Nat := system fun _ files =>
  match files.directory.entries name with
  | none => .error .fileNotFound
  | some ino =>
    if (files.directory.inodes ino).regular then .ok (ino,{files with held := fun other => decide (other = ino) || files.held other})
    else .error .osError

def write (ino : Nat) (view : List UInt8) : Act Nat := system fun amount files =>
  .ok ((view.take (amount + 1)).length,{files with directory := files.directory.edit ino (· ++ view.take (amount + 1))})

def ftruncate (descriptor : Descriptor) : Act Unit := system fun _ files =>
  match descriptor with
  | none => .error .badDescriptor
  | some ino => .ok ((),{files with directory := files.directory.edit ino fun _ => []})

def close (ino : Nat) : Act Unit := system fun _ files =>
  if files.held ino then .ok ((),{files with held := fun other => !decide (other = ino) && files.held other})
  else .error .badDescriptor

end Calls

section Renames
variable (host : Host)

def renameWithFlags (change : Directory → Except Raised Directory) : Act Unit :=
  if host.renames then
    system fun _ files => (change files.directory).map fun directory => ((),{files with directory := directory})
  else throw .unsafePath

def exchangeNames (left right : String) : Act Unit := renameWithFlags host fun directory =>
  if (directory.entries left).isSome && (directory.entries right).isSome then .ok (directory.exchange left right)
  else .error .fileNotFound

def renameExclusive (source target : String) : Act Unit := renameWithFlags host fun directory =>
  if (directory.entries source).isNone then .error .fileNotFound
  else if (directory.entries target).isSome then .error .fileExists
  else .ok (directory.move source target)

def strictFault (stage : Stage) : Act Unit :=
  match host.fault stage with
  | none => return ()
  | some error => throw error

end Renames

def requireRegular (metadata : Metadata) : Act Unit :=
  if !metadata.regular || metadata.links != 1 then throw .unsafePath else return ()

def safe (metadata : Metadata) : Bool := metadata.regular && metadata.links == 1

def rollbackAttempts : Nat := 32

-- `secrets.token_hex`.
def tokenHex : Act String := do
  return (← choose).token

def temporaryPath (name token : String) : String := "." ++ name ++ "." ++ token ++ ".tmp"

def quarantinePath (name token : String) : String := "." ++ name ++ "." ++ token ++ ".rollback"

def assertSafeExistingTarget (name : String) : Act (Option Metadata) := do
  match ← caught (stat name) with
  | .error .fileNotFound => return none
  | .error _ => throw .unsafePath
  | .ok metadata =>
    requireRegular metadata
    return some metadata

def matchingEntry (name : String) (expected : Metadata) : Act (Option Metadata) := do
  match ← caught (stat name) with
  | .error _ => return none
  | .ok observed => return if observed.ino = expected.ino then some observed else none

def entryMatches (name : String) (expected : Metadata) : Act Bool := do
  return (← matchingEntry name expected).isSome

def entryIsSafe (name : String) (expected : Metadata) : Act Bool := do
  return (← matchingEntry name expected).any safe

-- `except BaseException` around the whole scrub.
def scrubDescriptor (descriptor : Descriptor) (expected : Metadata) (singleLink : Bool) : Act Bool := do
  let scrubbed ← outcome do
    let observed ← fstat descriptor
    if observed.ino != expected.ino || !observed.regular || singleLink && observed.links != 1 then return none
    ftruncate descriptor
    fsync
    return some (← fstat descriptor)
  match scrubbed with
  | .ok (some scrubbed) =>
    return scrubbed.ino == expected.ino && scrubbed.regular && scrubbed.size == 0 && (!singleLink || scrubbed.links == 1)
  | _ => return false

def closeDescriptor (ino : Nat) : Nat → Act Bool
  | 0 => return false
  | attempts + 1 => do
    match ← caught (close ino) with
    | .ok () => return true
    | .error error =>
      match ← caught (fstat (some ino)) with
      | .error .badDescriptor => return true
      | _ => if error = .badDescriptor then return true else closeDescriptor ino attempts

-- `for _ in range(2)`: one check that fails is enough.
def twice (check : Act Bool) : Act Bool := do
  if ← check then check else return false

section Snapshots
variable (name : String)

def terminalReportSnapshot (report : Metadata) (reportDescriptor : Descriptor) : Act Bool := twice do
  match ← caught (fstat reportDescriptor) with
  | .error _ => return false
  | .ok held =>
    return (← entryIsSafe name report) && held.ino == report.ino && safe held && held.size == report.size

def terminalExistingSnapshot (quarantine : String) (original : Metadata) (displacedDescriptor : Descriptor) (report : Metadata)
    (reportDescriptor : Descriptor) : Act Bool := twice do
  let tombstone ← matchingEntry quarantine original
  match ← caught (fstat displacedDescriptor) with
  | .error _ => return false
  | .ok displaced =>
    if !tombstone.any (fun t => safe t && t.size == 0) || displaced.ino != original.ino || displaced.links != 1 ||
        displaced.size != 0 then return false
    terminalReportSnapshot name report reportDescriptor

def terminalRollbackSnapshot (original : Option Metadata) (displacedDescriptor : Descriptor) (report : Metadata)
    (reportDescriptor : Descriptor) : Act Bool := twice do
  match ← caught (stat name) with
  | .error .fileNotFound => remaining true
  | .error _ => return false
  | .ok _ => remaining false
where
  remaining (targetAbsent : Bool) : Act Bool := do
    match ← caught (fstat reportDescriptor) with
    | .error _ => return false
    | .ok heldReport =>
      let reportIsZero := heldReport.ino == report.ino && heldReport.regular && decide (heldReport.links ≤ 1) && heldReport.size == 0
      match original with
      | none => return targetAbsent && reportIsZero
      | some original =>
        match ← caught (fstat displacedDescriptor) with
        | .error _ => return false
        | .ok heldOriginal =>
          if targetAbsent then return false
          return (← entryIsSafe name original) && heldOriginal.ino == original.ino && heldOriginal.links == 1 &&
            heldOriginal.size == original.size && reportIsZero

end Snapshots

section Rollback
variable (host : Host) (target : String)

-- What is left to look at once the entry has been renamed.
def retained (name quarantine : String) (expected : Metadata) : Act Bool := do
  match ← matchingEntry quarantine expected with
  | none =>
    match ← caught (do let _ ← stat quarantine; stat name) with
    | .error .fileNotFound =>
      let _ ← caught (renameExclusive host quarantine name)
      return false
    | _ => return false
  | some _ =>
    match ← caught (stat name) with
    | .error .fileNotFound => return (← matchingEntry quarantine expected).any fun r => safe r && r.size == 0
    | _ => return false

def quarantineEntry (name : String) (expected : Metadata) : Nat → Act Bool
  | 0 => return false
  | attempts + 1 => do
    match ← caught (stat name) with
    | .error .fileNotFound => return true
    | .error _ => return false
    | .ok live =>
      if live.ino != expected.ino then return false
      let quarantine := quarantinePath target (← tokenHex)
      match ← caught (renameExclusive host name quarantine) with
      | .error .fileExists => quarantineEntry name expected attempts
      | .error _ => return false
      | .ok () => retained host name quarantine expected

def quarantineOwnedEntry (name : String) (expected : Metadata) (descriptor : Descriptor) : Act Bool := do
  if ← scrubDescriptor descriptor expected false then quarantineEntry host target name expected rollbackAttempts
  else return false

def restoreExistingTarget (temporaryName : String) (report original : Metadata) (quarantine : Option String) : Act Bool := do
  match quarantine with
  | none => exchangeBack
  | some quarantine =>
    if ← entryMatches quarantine original then
      match ← caught (renameExclusive host quarantine temporaryName) with
      | .error _ => return false
      | .ok () => exchangeBack
    else exchangeBack
where
  restored : Act Bool := do
    if ← entryMatches temporaryName report then entryIsSafe target original else return false
  exchangeBack : Act Bool := do
    if ← restored then return true
    if !(← entryMatches target report) then return false
    if !(← entryMatches temporaryName original) then return false
    match ← caught (do exchangeNames host temporaryName target; fsync) with
    | .error _ => return false
    | .ok () => restored

end Rollback

def mark (change : StrictWriteState → StrictWriteState) : Act Unit := update fun s => {s with state := change s.state}

section Install
variable (host : Host) (target temporaryName : String) (report : Metadata) (reportDescriptor displacedDescriptor : Descriptor)

def installNew : Act Unit := do
  renameExclusive host temporaryName target
  strictFault host .newInstalled
  if !(← entryIsSafe target report) then throw .unsafePath
  fsync
  strictFault host .newDurable
  if !(← terminalReportSnapshot target report reportDescriptor) then throw .unsafePath
  mark fun state => {state with committed := true}

def exchangedSafely (expectedTarget : Metadata) : Act Unit := do
  if !(← entryIsSafe target report) then throw .unsafePath
  if !(← entryIsSafe temporaryName expectedTarget) then throw .unsafePath

-- The second half: the original leaves its name for good.
def displaceOriginal (expectedTarget : Metadata) : Act Unit := do
  let quarantine := quarantinePath target (← tokenHex)
  update fun s => {s with quarantine := some quarantine}
  renameExclusive host temporaryName quarantine
  strictFault host .originalQuarantined
  if !(← entryIsSafe quarantine expectedTarget) then throw .unsafePath
  strictFault host .originalPreScrub
  mark fun state => {state with displacedTouched := true}
  if !(← scrubDescriptor displacedDescriptor expectedTarget true) then throw .rollback
  mark fun state => {state with displacedScrubbed := true}
  fsync
  strictFault host .originalScrubbed
  if !(← terminalExistingSnapshot target quarantine expectedTarget displacedDescriptor report reportDescriptor) then throw .rollback
  mark fun state => {state with committed := true}

def installExisting (expectedTarget : Metadata) : Act Unit := do
  exchangeNames host temporaryName target
  strictFault host .existingExchanged
  exchangedSafely target temporaryName report expectedTarget
  fsync
  strictFault host .existingDurable
  exchangedSafely target temporaryName report expectedTarget
  displaceOriginal host target temporaryName report reportDescriptor displacedDescriptor expectedTarget

-- What follows when no preimage can be proved.
def givenUp (failure : Raised) : Act Unit := do
  if !(← current).state.cleaned then
    let _ ← scrubDescriptor reportDescriptor report false
    mark fun state => {state with indeterminate := true}
    throw .rollback
  throw failure

-- The end both rollbacks share: the snapshot has the last word on `cleaned`.
def proveRollback (cleaned : Bool) (original : Option Metadata) (failure : Raised) : Act Unit := do
  mark fun state => {state with cleaned := cleaned}
  if cleaned then
    let proved ← terminalRollbackSnapshot target original displacedDescriptor report reportDescriptor
    mark fun state => {state with cleaned := proved}
  givenUp report reportDescriptor failure

def rollBackNew (failure : Raised) : Act Unit := do
  let targetCleaned ← quarantineOwnedEntry host target target report reportDescriptor
  let temporaryCleaned ← quarantineOwnedEntry host target temporaryName report reportDescriptor
  proveRollback target report reportDescriptor displacedDescriptor (targetCleaned && temporaryCleaned) none failure

def rollBackExisting (expectedTarget : Metadata) (failure : Raised) : Act Unit := do
  let session ← current
  if session.state.displacedTouched then
    match session.quarantine with
    | none => givenUp report reportDescriptor failure
    | some quarantine =>
      if !session.state.displacedScrubbed then givenUp report reportDescriptor failure
      else if ← terminalExistingSnapshot target quarantine expectedTarget displacedDescriptor report reportDescriptor then
        mark fun state => {state with committed := true}
      else givenUp report reportDescriptor failure
  else
    let restored ← restoreExistingTarget host target temporaryName report expectedTarget session.quarantine
    let cleaned ← if restored then quarantineOwnedEntry host target temporaryName report reportDescriptor else pure false
    proveRollback target report reportDescriptor displacedDescriptor cleaned (some expectedTarget) failure

def installVerifiedTemporary (expectedTarget : Option Metadata) : Act Unit := do
  let installed ← outcome (match expectedTarget with
    | none => installNew host target temporaryName report reportDescriptor
    | some expected => installExisting host target temporaryName report reportDescriptor displacedDescriptor expected)
  match installed with
  | .ok () => return ()
  | .error failure =>
    if (← current).state.committed then return ()
    match expectedTarget with
    | none => rollBackNew host target temporaryName report reportDescriptor displacedDescriptor failure
    | some expected => rollBackExisting host target temporaryName report reportDescriptor displacedDescriptor expected failure

end Install

section Write
variable (host : Host) (target : String)

def openTemporary : Nat → Act Unit
  | 0 => return ()
  | attempts + 1 => do
    let name := temporaryPath target (← tokenHex)
    update fun s => {s with temporaryName := some name}
    match ← outcome (openExclusive name) with
    | .ok ino => update fun s => {s with reportDescriptor := some ino}
    | .error .fileExists =>
      update fun s => {s with temporaryName := none}
      openTemporary attempts
    | .error error => throw error

-- Every write takes a byte at least, so the length is enough turns.
def writeView (ino : Nat) : Nat → List UInt8 → Act Unit
  | _,[] => return ()
  | 0,_ => return ()
  | turns + 1,view => do
    let written ← write ino view
    writeView ino turns (view.drop written)

def observeReport (descriptor : Descriptor) : Act Metadata := do
  let report ← fstat descriptor
  update fun s => {s with report := some report}
  requireRegular report
  return report

def holdExisting : Option Metadata → Act Descriptor
  | none => return none
  | some expectedTarget => do
    let ino ← openExisting target
    update fun s => {s with displacedDescriptor := some ino}
    let displaced ← fstat (some ino)
    requireRegular displaced
    if displaced.ino != expectedTarget.ino then throw .unsafePath
    return some ino

-- What follows once the staging file is open.
def stageAndInstall (content : List UInt8) (temporaryName : String) (ino : Nat) : Act Unit := do
  let _ ← observeReport (some ino)
  writeView ino content.length content
  fsync
  let report ← observeReport (some ino)
  strictFault host .prepared
  let expectedTarget ← assertSafeExistingTarget target
  let displacedDescriptor ← holdExisting target expectedTarget
  installVerifiedTemporary host target temporaryName report (some ino) displacedDescriptor expectedTarget
  if (← current).state.committed then update fun s => {s with temporaryName := none}

def prepareAndInstall (content : List UInt8) : Act Unit := do
  openTemporary target rollbackAttempts
  let session ← current
  match session.temporaryName,session.reportDescriptor with
  | some temporaryName,some ino => stageAndInstall host target content temporaryName ino
  | _,_ => throw .unsafePath

def quarantineTemporary (temporaryName : Option String) (report : Metadata) (reportDescriptor : Descriptor) : Act Bool :=
  match temporaryName with
  | none => return false
  | some temporaryName => quarantineOwnedEntry host target temporaryName report reportDescriptor

-- Cleaning up after a write that did not even reach its rollback. The failure
-- is forgotten when it does not work.
def cleanUp (failure : Option Raised) : Act (Option Raised) := do
  let session ← current
  match session.report with
  | none => return failure
  | some report =>
    if session.state.committed || session.state.cleaned then return failure
    let cleaned ← quarantineTemporary host target session.temporaryName report session.reportDescriptor
    mark fun state => {state with cleaned := cleaned}
    if cleaned then return failure
    let _ ← scrubDescriptor session.reportDescriptor report false
    return none

def closeOwned (descriptor : Descriptor) : Act Bool :=
  match descriptor with
  | none => return true
  | some ino => closeDescriptor ino rollbackAttempts

def finish (failure : Option Raised) : Act Unit := do
  let session ← current
  let reportClosed ← closeOwned session.reportDescriptor
  let displacedClosed ← closeOwned session.displacedDescriptor
  let closeFailed := !reportClosed || !displacedClosed
  if session.state.committed && failure.isNone && !closeFailed then return ()
  if closeFailed || session.state.indeterminate || !session.state.cleaned then throw .rollback
  match failure with
  | none => throw .rollback
  | some failure => if failure.isOSError then throw .unsafePath else throw failure

def failureOf : Except Raised Unit → Option Raised
  | .ok () => none
  | .error failure => some failure

def atomicWriteStrict (content : List UInt8) : Act Unit := do
  let ended ← outcome (prepareAndInstall host target content)
  finish (← cleanUp host target (failureOf ended))

end Write

end StrictWrite
