import IntentEngineering.Capture.CursorCodecs
import IntentEngineering.Models.Tasks

-- Provider-neutral contracts of the source connectors.
structure SourceObject where
  externalObjectId : String
  externalVersion : String
  locator : String
deriving DecidableEq

structure RawSourceObject where
  connectorType : String
  externalObjectId : String
  externalVersion : String
  author : Option String
  observedAt : DateTime
  sourceLocator : String
  contentHash : String
  payload : Payload
  parentRef : Option String
  acl : List String

namespace RawSourceObject

def listed (raw : RawSourceObject) : SourceObject := ⟨raw.externalObjectId,raw.externalVersion,raw.sourceLocator⟩

-- `evidence_id`
def evidenceId (raw : RawSourceObject) : String :=
  let nul := String.ofList [Char.ofNat 0]
  "evidence:sha256:" ++ Sha256.hexdigest (Utf8.encode (raw.connectorType ++ nul ++ raw.externalObjectId ++ nul ++
    raw.externalVersion ++ nul ++ raw.contentHash).toList)

-- `normalize_raw_source`
def normalizeRawSource (raw : RawSourceObject) : EvidenceRecord :=
  ⟨raw.evidenceId,raw.connectorType,raw.externalObjectId,raw.externalVersion,raw.author,raw.observedAt,raw.sourceLocator,
    raw.contentHash,raw.payload,raw.parentRef,raw.acl⟩

end RawSourceObject

-- What a library call raises.
inductive Raised where
  | typeError
  | valueError
  | overflowError
  | recursionError
  | osError
deriving DecidableEq

-- `except (TypeError, ValidationError, ValueError)`
def Raised.caught : Raised → Bool
  | .typeError | .valueError => true
  | _ => false

def DecodeFailure.raised : DecodeFailure → Raised
  | .fixed _ | .unicodeEncodeError => .valueError
  | .recursionError => .recursionError
  | .overflowError => .overflowError

inductive SyncFailure where
  | connectorError
  | raised (e : Raised)
deriving DecidableEq

-- What a caught exception is replaced with.
def fixedFailure (result : Except Raised α) : Except SyncFailure α :=
  match result with
  | .ok value => .ok value
  | .error e => .error (if e.caught then .connectorError else .raised e)

namespace EvidenceRecord

def payloadIs (record : EvidenceRecord) (name : String) (value : Json) : Bool :=
  (record.payload.1.lookup name).any fun found => found.equal value

end EvidenceRecord

-- The interpreter and the time zone of the machine, in which a naive time is kept.
structure Host where
  interpreter : Interpreter
  localTime : DateTime → Except Raised UtcTime

namespace DateTime

-- `astimezone(UTC)`
def astimezone (host : Host) (t : DateTime) : Except Raised UtcTime :=
  match t.offset with
  | none => host.localTime t
  | some minutes => match Moment.astimezone (Moment.ofDateTime t).shown (minutes * 60000000) with
    | some shifted => .ok shifted
    | none => .error .overflowError

-- `_format_datetime`
def format (host : Host) (t : DateTime) : Except Raised String := (t.astimezone host).map fun shifted => String.ofList shifted.1.text

-- `max` of times, beginning with one; `none` where a naive and an aware one meet.
def newestFrom : DateTime → List DateTime → Option DateTime
  | best, [] => some best
  | best, t :: rest =>
    if t.offset.isSome = best.offset.isSome then newestFrom (if best.instant < t.instant then t else best) rest else none

def newest : List DateTime → Except Raised (Option DateTime)
  | [] => .ok none
  | first :: rest => match newestFrom first rest with
    | some t => .ok (some t)
    | none => .error .typeError

theorem newestFrom_spec {best : DateTime} {times : List DateTime} (found : newestFrom best times = some top) :
    top ∈ best :: times ∧ (∀ t ∈ best :: times, t.instant ≤ top.instant) ∧
      ∀ t ∈ best :: times, t.offset.isSome = top.offset.isSome := by
  induction times generalizing best with
  | nil =>
    cases found
    simp
  | cons t rest ih =>
    simp only [newestFrom] at found
    split at found
    · rename_i alike
      obtain ⟨member,above,kinds⟩ := ih found
      have leader := above _ List.mem_cons_self
      have kind := kinds _ List.mem_cons_self
      refine ⟨?_,?_,?_⟩
      · split at member
        · exact List.mem_cons_of_mem _ member
        · rcases List.mem_cons.mp member with rfl | member
          · exact List.mem_cons_self
          · exact List.mem_cons_of_mem _ (List.mem_cons_of_mem _ member)
      · intro x inside
        rcases List.mem_cons.mp inside with rfl | inside
        · split at leader <;> omega
        · rcases List.mem_cons.mp inside with rfl | inside
          · split at leader <;> omega
          · exact above x (List.mem_cons_of_mem _ inside)
      · have both : best.offset.isSome = top.offset.isSome := by
          split at kind
          · exact alike.symm.trans kind
          · exact kind
        intro x inside
        rcases List.mem_cons.mp inside with rfl | inside
        · exact both
        · rcases List.mem_cons.mp inside with rfl | inside
          · exact alike.trans both
          · exact kinds x (List.mem_cons_of_mem _ inside)
    · cases found

theorem newest_spec {times : List DateTime} (found : newest times = .ok (some top)) :
    top ∈ times ∧ (∀ t ∈ times, t.instant ≤ top.instant) ∧ ∀ t ∈ times, t.offset.isSome = top.offset.isSome := by
  cases times with
  | nil => cases found
  | cons first rest =>
    simp only [newest] at found
    split at found
    · rename_i t found'
      cases found
      exact newestFrom_spec found'
    · cases found

theorem newest_none {times : List DateTime} (found : newest times = .ok none) : times = [] := by
  cases times with
  | nil => rfl
  | cons first rest =>
    simp only [newest] at found
    split at found <;> cases found

-- Times of one kind can be compared.
theorem newest_some {times : List DateTime} {kind : Bool} (alike : ∀ t ∈ times, t.offset.isSome = kind) (solid : times ≠ []) :
    ∃ top, newest times = .ok (some top) := by
  have each (best : DateTime) (rest : List DateTime) (alike : ∀ t ∈ best :: rest, t.offset.isSome = kind) :
      ∃ top, newestFrom best rest = some top := by
    induction rest generalizing best with
    | nil => exact ⟨best,rfl⟩
    | cons t rest ih =>
      have same : t.offset.isSome = best.offset.isSome := by
        rw [alike t (by simp),alike best (by simp)]
      simp only [newestFrom,same,if_true]
      apply ih
      intro x inside
      rcases List.mem_cons.mp inside with rfl | inside
      · split
        · exact alike t (by simp)
        · exact alike best (by simp)
      · exact alike x (by simp [inside])
  cases times with
  | nil => exact absurd rfl solid
  | cons first rest =>
    obtain ⟨top,found⟩ := each first rest alike
    exact ⟨top,by simp only [newest,found]⟩

end DateTime

theorem Moment.astimezone_instant {t u : UtcTime} {east : Int} (within : -DateTime.dayLength < east ∧ east < DateTime.dayLength)
    (shifted : Moment.astimezone t east = some u) : u.1.instant = t.1.instant - east := by
  unfold Moment.astimezone at shifted
  split at shifted
  · rename_i zero
    cases shifted
    simp [zero]
  · split at shifted
    · have size : (east.toNat : Int) = east := by omega
      rcases t.earlier_spec (show east.toNat < DateTime.dayLength by omega) with ⟨t',shown,instant,_⟩ | ⟨hidden,_⟩
      · rw [shown] at shifted
        cases shifted
        rw [instant,size]
      · rw [hidden] at shifted
        cases shifted
    · have size : ((-east).toNat : Int) = -east := by omega
      rcases t.later_spec (show (-east).toNat < DateTime.dayLength by omega) with ⟨t',shown,instant,_⟩ | ⟨hidden,_⟩
      · rw [shown] at shifted
        cases shifted
        rw [instant,size]
        ring
      · rw [hidden] at shifted
        cases shifted

theorem DateTime.astimezone_same {host : Host} {t : DateTime} {u : UtcTime} (aware : t.offset.isSome = true)
    (shifted : t.astimezone host = .ok u) : u.1.same t = true := by
  obtain ⟨minutes,offset⟩ := Option.isSome_iff_exists.mp aware
  simp only [DateTime.astimezone,offset] at shifted
  split at shifted
  · rename_i shown
    cases shifted
    have zone := t.valid.zone minutes offset
    have within : -DateTime.dayLength < minutes * 60000000 ∧ minutes * 60000000 < DateTime.dayLength := by
      simp only [DateTime.dayLength]
      omega
    have instant := Moment.astimezone_instant within shown
    have same : (Moment.ofDateTime t).shown.1.instant = t.localMicroseconds := by
      simp [Moment.ofDateTime,DateTime.instant,DateTime.localMicroseconds]
    rw [same] at instant
    have own : t.instant = t.localMicroseconds - minutes * 60000000 := by rw [DateTime.instant,offset,Option.getD_some]
    have kept : u.1.offset.isSome = t.offset.isSome := by rw [u.2,offset]; rfl
    rw [DateTime.same,kept,instant,own]
    simp
  · cases shifted
