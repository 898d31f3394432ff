import IntentEngineering.Library.Schema

open Decimal

def isLeap (year : Nat) : Bool := year % 4 == 0 && (year % 100 != 0 || year % 400 == 0)

def daysInMonth (year month : Nat) : Nat :=
  if month = 2 then (if isLeap year then 29 else 28)
  else if month ∈ [4,6,9,11] then 30
  else 31

-- Offsets are minutes east of UTC, less than a day either way; a value without
-- one is naive.
structure DateTime.Valid (year month day hour minute second microsecond : Nat) (offset : Option Int) : Prop where
  era : 1 ≤ year ∧ year ≤ 9999
  season : 1 ≤ month ∧ month ≤ 12
  date : 1 ≤ day ∧ day ≤ daysInMonth year month
  clock : hour < 24 ∧ minute < 60 ∧ second < 60 ∧ microsecond < 1000000
  zone : ∀ minutes ∈ offset, -1440 < minutes ∧ minutes < 1440

instance : Decidable (DateTime.Valid year month day hour minute second microsecond offset) :=
  decidable_of_iff ((1 ≤ year ∧ year ≤ 9999) ∧ (1 ≤ month ∧ month ≤ 12) ∧
      (1 ≤ day ∧ day ≤ daysInMonth year month) ∧ (hour < 24 ∧ minute < 60 ∧ second < 60 ∧ microsecond < 1000000) ∧
      ∀ minutes ∈ offset, -1440 < minutes ∧ minutes < 1440)
    ⟨fun ⟨era,season,date,clock,zone⟩ => ⟨era,season,date,clock,zone⟩,
      fun valid => ⟨valid.era,valid.season,valid.date,valid.clock,valid.zone⟩⟩

structure DateTime where
  year : Nat
  month : Nat
  day : Nat
  hour : Nat
  minute : Nat
  second : Nat
  microsecond : Nat
  offset : Option Int
  valid : DateTime.Valid year month day hour minute second microsecond offset
deriving DecidableEq

namespace DateTime

-- Whole days of the proleptic calendar before a date.
def ordinal (year month day : Nat) : Nat :=
  365 * (year - 1) + (year - 1) / 4 - (year - 1) / 100 + (year - 1) / 400 +
    ((List.range (month - 1)).map fun earlier => daysInMonth year (earlier + 1)).sum + day

def localMicroseconds (t : DateTime) : Int :=
  (((ordinal t.year t.month t.day * 24 + t.hour) * 60 + t.minute) * 60 + t.second) * 1000000 + t.microsecond

def instant (t : DateTime) : Int := t.localMicroseconds - t.offset.getD 0 * 60000000

-- Aware values compare as instants, naive ones as calendar values; the two
-- kinds are never equal.
def same (a b : DateTime) : Bool := a.offset.isSome == b.offset.isSome && a.instant == b.instant

theorem same_symm {a b : DateTime} (alike : a.same b = true) : b.same a = true := by
  simp only [same,Bool.and_eq_true,beq_iff_eq] at alike ⊢
  exact ⟨alike.1.symm,alike.2.symm⟩

theorem same_trans {a b c : DateTime} (first : a.same b = true) (second : b.same c = true) : a.same c = true := by
  simp only [same,Bool.and_eq_true,beq_iff_eq] at first second ⊢
  exact ⟨first.1.trans second.1,first.2.trans second.2⟩

@[simp] theorem same_self (t : DateTime) : t.same t = true := by simp [same]

def zoneText : Option Int → List Char
  | none => []
  | some minutes =>
    if minutes = 0 then ['Z']
    else (if minutes < 0 then '-' else '+') ::
      (padded 2 (minutes.natAbs / 60) ++ ':' :: padded 2 (minutes.natAbs % 60))

def fractionText (microsecond : Nat) : List Char :=
  if microsecond = 0 then [] else '.' :: padded 6 microsecond

def dateText (year month day : Nat) : List Char :=
  padded 4 year ++ '-' :: (padded 2 month ++ '-' :: padded 2 day)

def clockText (hour minute second : Nat) : List Char :=
  padded 2 hour ++ ':' :: (padded 2 minute ++ ':' :: padded 2 second)

def text (t : DateTime) : List Char :=
  dateText t.year t.month t.day ++ 'T' :: (clockText t.hour t.minute t.second ++
    (fractionText t.microsecond ++ zoneText t.offset))

theorem padded_ascii (width n : Nat) : ∀ c ∈ padded width n, c.toNat < 128 := by
  intro c member
  have digit := padded_digits width n c member
  simp only [isDigit,Bool.and_eq_true,decide_eq_true_eq] at digit
  omega

theorem text_ascii (t : DateTime) : ∀ c ∈ t.text, c.toNat < 128 := by
  intro c member
  simp only [text,dateText,clockText,fractionText,zoneText,List.mem_append,List.mem_cons] at member
  have digits := fun width n => padded_ascii width n c
  have marks : ∀ m ∈ ['-','T',':','.','Z','+'], m.toNat < 128 := by decide
  have mark (m : Char) (known : m ∈ ['-','T',':','.','Z','+']) (same : c = m) : c.toNat < 128 := same ▸ marks m known
  rcases member with (y | dash | m | dash | d) | t | (h | colon | m | colon | s) | fraction | zone
  · exact digits _ _ y
  · exact mark _ (by simp) dash
  · exact digits _ _ m
  · exact mark _ (by simp) dash
  · exact digits _ _ d
  · exact mark _ (by simp) t
  · exact digits _ _ h
  · exact mark _ (by simp) colon
  · exact digits _ _ m
  · exact mark _ (by simp) colon
  · exact digits _ _ s
  · split at fraction
    · cases fraction
    · rcases List.mem_cons.mp fraction with dot | digit
      · exact mark _ (by simp) dot
      · exact digits _ _ digit
  · split at zone
    · cases zone
    · split at zone
      · exact mark _ (by simp) (List.mem_singleton.mp zone)
      · rcases List.mem_cons.mp zone with sign | rest
        · split at sign
          · exact mark _ (by simp) sign
          · exact mark _ (by simp) sign
        · rcases List.mem_append.mp rest with hours | later
          · exact digits _ _ hours
          · rcases List.mem_cons.mp later with colon | minutes
            · exact mark _ (by simp) colon
            · exact digits _ _ minutes

def number (width : Nat) (cs : List Char) : Option (Nat × List Char) :=
  if (cs.take width).length = width ∧ (cs.take width).all isDigit = true then
    some (natValue (cs.take width),cs.drop width)
  else none

def skip (c : Char) : List Char → Option (List Char)
  | d :: cs => if d = c then some cs else none
  | [] => none

def readFraction : List Char → Option (Nat × List Char)
  | '.' :: cs => number 6 cs
  | cs => some (0,cs)

def readOffset (sign : Int) (cs : List Char) : Option (Option Int) := do
  let (hours,cs) ← number 2 cs
  let cs ← skip ':' cs
  let (minutes,cs) ← number 2 cs
  if cs = [] then some (some (sign * (hours * 60 + minutes))) else none

def readZone : List Char → Option (Option Int)
  | [] => some none
  | ['Z'] => some (some 0)
  | '+' :: cs => readOffset 1 cs
  | '-' :: cs => readOffset (-1) cs
  | _ => none

def readTriple (width : Nat) (mark : Char) (cs : List Char) : Option (Nat × Nat × Nat × List Char) := do
  let (first,cs) ← number width cs
  let cs ← skip mark cs
  let (second,cs) ← number 2 cs
  let cs ← skip mark cs
  let (third,cs) ← number 2 cs
  some (first,second,third,cs)

def read (cs : List Char) : Option DateTime := do
  let (year,month,day,cs) ← readTriple 4 '-' cs
  let cs ← skip 'T' cs
  let (hour,minute,second,cs) ← readTriple 2 ':' cs
  let (microsecond,cs) ← readFraction cs
  let offset ← readZone cs
  if valid : Valid year month day hour minute second microsecond offset then
    some ⟨year,month,day,hour,minute,second,microsecond,offset,valid⟩
  else none

theorem number_padded (fits : n < 10 ^ width) (rest : List Char) :
    number width (padded width n ++ rest) = some (n,rest) := by
  have size := padded_length width n
  have digits : (padded width n).all isDigit = true := List.all_eq_true.mpr (padded_digits width n)
  have head : (padded width n ++ rest).take width = padded width n := by
    rw [List.take_append_of_le_length (by omega),List.take_of_length_le (by omega)]
  have tail : (padded width n ++ rest).drop width = rest := by
    rw [List.drop_append_of_le_length (by omega),List.drop_of_length_le (by omega),List.nil_append]
  simp only [number,head,tail,size,digits,and_self,if_true,natValue_padded fits]

@[simp] theorem skip_cons (c : Char) (cs : List Char) : skip c (c :: cs) = some cs := by simp [skip]

theorem readTriple_text (first : a < 10 ^ width) (second : b < 10 ^ 2) (third : c < 10 ^ 2) (mark : Char) (rest : List Char) :
    readTriple width mark (padded width a ++ mark :: (padded 2 b ++ mark :: (padded 2 c ++ rest))) = some (a,b,c,rest) := by
  simp [readTriple,number_padded first,number_padded second,number_padded third]

theorem readZone_text {offset : Option Int} (bounded : ∀ minutes ∈ offset, -1440 < minutes ∧ minutes < (1440 : Int)) :
    readZone (zoneText offset) = some offset := by
  cases offset with
  | none => rfl
  | some minutes =>
    obtain ⟨low,high⟩ := bounded minutes rfl
    have hours : minutes.natAbs / 60 < 10 ^ 2 := by omega
    have rest : minutes.natAbs % 60 < 10 ^ 2 := by omega
    have tail := number_padded rest []
    rw [List.append_nil] at tail
    have whole (sign : Int) :
        readOffset sign (padded 2 (minutes.natAbs / 60) ++ ':' :: padded 2 (minutes.natAbs % 60)) =
          some (some (sign * minutes.natAbs)) := by
      simp only [readOffset,number_padded hours,Option.bind_eq_bind,Option.bind_some,skip_cons,tail,if_true]
      congr 3
      omega
    by_cases zero : minutes = 0
    · simp [zoneText,zero,readZone]
    · by_cases negative : minutes < 0
      · have positive : -1 * (minutes.natAbs : Int) = minutes := by omega
        simp only [zoneText,if_neg zero,if_pos negative,readZone,whole,positive]
      · have positive : 1 * (minutes.natAbs : Int) = minutes := by omega
        simp only [zoneText,if_neg zero,if_neg negative,readZone,whole,positive]

theorem readFraction_text {microsecond : Nat} (small : microsecond < 1000000) (zone : Option Int) :
    readFraction (fractionText microsecond ++ zoneText zone) = some (microsecond,zoneText zone) := by
  unfold fractionText
  split
  · rename_i zero
    subst zero
    have noPoint : ∀ cs, zoneText zone ≠ '.' :: cs := by
      intro cs
      unfold zoneText
      split
      · simp
      · split
        · simp
        · split <;> simp
    simp only [List.nil_append]
    unfold readFraction
    split
    · rename_i cs shape
      exact absurd shape (noPoint cs)
    · rfl
  · exact number_padded (by omega) _

theorem read_text (t : DateTime) : read t.text = some t := by
  obtain ⟨year,month,day,hour,minute,second,microsecond,offset,valid⟩ := t
  have inMonth : day ≤ 31 := by
    have limit := valid.date.2
    unfold daysInMonth at limit
    split at limit
    · split at limit <;> omega
    · split at limit <;> omega
  obtain ⟨_,yearHigh⟩ := valid.era
  obtain ⟨_,monthHigh⟩ := valid.season
  obtain ⟨hourHigh,minuteHigh,secondHigh,small⟩ := valid.clock
  have date := readTriple_text (show year < 10 ^ 4 by omega) (show month < 10 ^ 2 by omega) (show day < 10 ^ 2 by omega) '-'
  have clock := readTriple_text (show hour < 10 ^ 2 by omega) (show minute < 10 ^ 2 by omega) (show second < 10 ^ 2 by omega) ':'
  simp only [read,text,dateText,clockText,List.append_assoc,List.cons_append,date,clock,Option.bind_eq_bind,Option.bind_some,
    skip_cons,readFraction_text small,readZone_text valid.zone,valid,dite_true]

def codec : Schema.Codec DateTime :=
  Schema.Codec.string.convert (fun s => read s.toList) (fun t => String.ofList t.text)
    (fun t => by rw [String.toList_ofList]; exact read_text t)

end DateTime

-- A time that has been normalised to UTC.
abbrev UtcTime := {t : DateTime // t.offset = some 0}

def UtcTime.codec : Schema.Codec UtcTime :=
  DateTime.codec.convert (fun t => if utc : t.offset = some 0 then some ⟨t,utc⟩ else none) Subtype.val
    (fun t => by simp [t.2])

instance : DateTime.codec.Finite := inferInstanceAs (Schema.Codec.convert ..).Finite
instance : UtcTime.codec.Finite := inferInstanceAs (Schema.Codec.convert ..).Finite
