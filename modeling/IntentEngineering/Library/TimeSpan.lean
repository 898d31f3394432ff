import IntentEngineering.Library.DateTime

namespace DateTime

-- The calendar day after a date.
def nextDay (year month day : Nat) : Nat × Nat × Nat :=
  if day < daysInMonth year month then (year,month,day + 1)
  else if month < 12 then (year,month + 1,1)
  else (year + 1,1,1)

def microsecondOfDay (t : DateTime) : Nat := ((t.hour * 60 + t.minute) * 60 + t.second) * 1000000 + t.microsecond

def dayLength : Nat := 24 * 60 * 60 * 1000000

theorem year_length (year : Nat) :
    ((List.range 12).map fun earlier => daysInMonth year (earlier + 1)).sum = if isLeap year then 366 else 365 := by
  simp [List.range_succ,daysInMonth]
  split <;> rfl

theorem leap_days (year : Nat) : (year + 1) / 4 - (year + 1) / 100 + (year + 1) / 400 =
    year / 4 - year / 100 + year / 400 + if isLeap (year + 1) then 1 else 0 := by
  have fourth := (Nat.succ_div : (year + 1) / 4 = _)
  have century := (Nat.succ_div : (year + 1) / 100 = _)
  have era := (Nat.succ_div : (year + 1) / 400 = _)
  simp only [Nat.dvd_iff_mod_eq_zero] at fourth century era
  have fewer : year / 100 ≤ year / 4 := by omega
  by_cases four : (year + 1) % 4 = 0
  · by_cases hundred : (year + 1) % 100 = 0
    · by_cases whole : (year + 1) % 400 = 0
      · simp only [four,hundred,whole,if_true] at fourth century era
        simp [isLeap,four,hundred,whole]
        omega
      · simp only [four,hundred,whole,if_true,if_false] at fourth century era
        simp [isLeap,four,hundred,whole]
        omega
    · have whole : (year + 1) % 400 ≠ 0 := by omega
      simp only [four,hundred,whole,if_true,if_false] at fourth century era
      simp [isLeap,four,hundred]
      omega
  · have hundred : (year + 1) % 100 ≠ 0 := by omega
    have whole : (year + 1) % 400 ≠ 0 := by omega
    simp only [four,hundred,whole,if_false] at fourth century era
    simp [isLeap,four]
    omega

theorem ordinal_nextDay {year month day : Nat} (positive : 1 ≤ year) (season : 1 ≤ month ∧ month ≤ 12) (date : 1 ≤ day ∧ day ≤ daysInMonth year month) :
    ordinal (nextDay year month day).1 (nextDay year month day).2.1 (nextDay year month day).2.2 = ordinal year month day + 1 := by
  unfold nextDay
  split
  · simp only [ordinal]
    omega
  · rename_i last
    have whole : day = daysInMonth year month := by omega
    have months : ((List.range month).map fun earlier => daysInMonth year (earlier + 1)).sum =
        ((List.range (month - 1)).map fun earlier => daysInMonth year (earlier + 1)).sum + day := by
      obtain ⟨earlier,rfl⟩ : ∃ earlier, month = earlier + 1 := ⟨month - 1,by omega⟩
      rw [List.range_succ,List.map_append,List.sum_append,Nat.add_sub_cancel,whole]
      simp
    split
    · simp only [ordinal,Nat.add_sub_cancel,months]
      omega
    · have december : month = 12 := by omega
      rw [december,year_length] at months
      obtain ⟨before,rfl⟩ : ∃ before, year = before + 1 := ⟨year - 1,by omega⟩
      have leap := leap_days before
      simp only [ordinal,december,Nat.add_sub_cancel,Nat.sub_self,List.range_zero,List.map_nil,List.sum_nil]
      have fewer : (before + 1) / 100 ≤ (before + 1) / 4 := by omega
      have fewer' : before / 100 ≤ before / 4 := by omega
      split at months
      · rename_i yes
        rw [if_pos yes] at leap
        omega
      · rename_i no
        rw [if_neg no] at leap
        omega

end DateTime

namespace UtcTime

-- The moment a clock shows on a date, where there is one.
def moment (date : Nat × Nat × Nat) (clock : Nat) : Option UtcTime :=
  if valid : DateTime.Valid date.1 date.2.1 date.2.2 (clock / 3600000000) (clock / 60000000 % 60) (clock / 1000000 % 60)
      (clock % 1000000) (some 0) then
    some ⟨⟨date.1,date.2.1,date.2.2,clock / 3600000000,clock / 60000000 % 60,clock / 1000000 % 60,clock % 1000000,some 0,valid⟩,rfl⟩
  else none

-- `t + timedelta`, for less than a day; `none` past the last year.
def later (t : UtcTime) (microseconds : Nat) : Option UtcTime :=
  let total := t.1.microsecondOfDay + microseconds
  if total < DateTime.dayLength then moment (t.1.year,t.1.month,t.1.day) total
  else moment (DateTime.nextDay t.1.year t.1.month t.1.day) (total - DateTime.dayLength)

theorem moment_instant (shown : moment date clock = some t) :
    t.1.instant = DateTime.ordinal date.1 date.2.1 date.2.2 * DateTime.dayLength + clock := by
  unfold moment at shown
  split at shown
  · cases shown
    simp only [DateTime.instant,DateTime.localMicroseconds,Option.getD_some,DateTime.dayLength]
    omega
  · cases shown

theorem day_instant (t : UtcTime) :
    t.1.instant = DateTime.ordinal t.1.year t.1.month t.1.day * DateTime.dayLength + t.1.microsecondOfDay := by
  simp only [DateTime.instant,DateTime.localMicroseconds,t.2,Option.getD_some,DateTime.dayLength,DateTime.microsecondOfDay]
  push_cast
  ring

theorem later_instant {t t' : UtcTime} (moved : t.later microseconds = some t') : t'.1.instant = t.1.instant + microseconds := by
  have start := day_instant t
  unfold later at moved
  dsimp only at moved
  split at moved
  · rw [moment_instant moved,start]
    push_cast
    ring
  · have turned := DateTime.ordinal_nextDay t.1.valid.era.1 t.1.valid.season t.1.valid.date
    rw [moment_instant moved,turned,start]
    simp only [DateTime.dayLength] at *
    omega

end UtcTime
