import IntentEngineering.Library.TimeSpan

namespace DateTime

-- The calendar day before a date; before the first day of year 1 it is in no year.
def previousDay (year month day : Nat) : Nat × Nat × Nat :=
  if 1 < day then (year,month,day - 1)
  else if 1 < month then (year,month - 1,daysInMonth year (month - 1))
  else (year - 1,12,31)

theorem daysInMonth_bounds (year month : Nat) : 28 ≤ daysInMonth year month ∧ daysInMonth year month ≤ 31 := by
  unfold daysInMonth
  split
  · split <;> omega
  · split <;> omega

theorem nextDay_previousDay {year month day : Nat} (season : 1 ≤ month ∧ month ≤ 12) (date : 1 ≤ day ∧ day ≤ daysInMonth year month)
    (started : 2 ≤ year ∨ 1 < month ∨ 1 < day) :
    nextDay (previousDay year month day).1 (previousDay year month day).2.1 (previousDay year month day).2.2 = (year,month,day) := by
  unfold previousDay
  split
  · rename_i more
    have inside : day - 1 < daysInMonth year month := by omega
    simp only [nextDay,if_pos inside,Prod.mk.injEq,true_and]
    omega
  · rename_i first
    split
    · rename_i later
      have early : month - 1 < 12 := by omega
      simp only [nextDay,lt_irrefl,if_false,if_pos early,Prod.mk.injEq,true_and]
      omega
    · simp only [nextDay,show ¬31 < daysInMonth (year - 1) 12 by simp [daysInMonth],lt_irrefl,if_false,Prod.mk.injEq]
      omega

theorem previousDay_valid {year month day : Nat} (era : year ≤ 9999) (season : 1 ≤ month ∧ month ≤ 12)
    (date : 1 ≤ day ∧ day ≤ daysInMonth year month) (started : 2 ≤ year ∨ 1 ≤ year ∧ (1 < month ∨ 1 < day)) :
    let before := previousDay year month day
    (1 ≤ before.1 ∧ before.1 ≤ 9999) ∧ (1 ≤ before.2.1 ∧ before.2.1 ≤ 12) ∧
      1 ≤ before.2.2 ∧ before.2.2 ≤ daysInMonth before.1 before.2.1 := by
  unfold previousDay
  dsimp only
  split
  · dsimp only
    omega
  · split
    · have size := daysInMonth_bounds year (month - 1)
      dsimp only
      omega
    · have december : daysInMonth (year - 1) 12 = 31 := by simp [daysInMonth]
      dsimp only
      omega

theorem nextDay_valid {year month day : Nat} (era : 1 ≤ year ∧ year ≤ 9999) (season : 1 ≤ month ∧ month ≤ 12)
    (date : 1 ≤ day ∧ day ≤ daysInMonth year month) (more : year < 9999 ∨ month < 12 ∨ day < 31) :
    let after := nextDay year month day
    (1 ≤ after.1 ∧ after.1 ≤ 9999) ∧ (1 ≤ after.2.1 ∧ after.2.1 ≤ 12) ∧
      1 ≤ after.2.2 ∧ after.2.2 ≤ daysInMonth after.1 after.2.1 := by
  unfold nextDay
  dsimp only
  split
  · dsimp only
    omega
  · split
    · have size := daysInMonth_bounds year (month + 1)
      dsimp only
      omega
    · have december : daysInMonth year 12 = 31 := by simp [daysInMonth]
      have final : month = 12 := by omega
      subst final
      have size := daysInMonth_bounds (year + 1) 1
      dsimp only
      omega

-- The last day of year 9999 is the last a calendar has.
def lastOrdinal : Nat := 3652059

theorem ordinal_bounds {year month day : Nat} (era : 1 ≤ year ∧ year ≤ 9999) (season : 1 ≤ month ∧ month ≤ 12)
    (date : 1 ≤ day ∧ day ≤ daysInMonth year month) : 1 ≤ ordinal year month day ∧ ordinal year month day ≤ lastOrdinal := by
  have months : ((List.range (month - 1)).map fun earlier => daysInMonth year (earlier + 1)).sum + day ≤
      if isLeap year then 366 else 365 := by
    obtain ⟨low,high⟩ := season
    obtain ⟨_,inside⟩ := date
    cases leap : isLeap year with
    | true => interval_cases month <;> simp [List.range_succ,daysInMonth,leap] at inside ⊢ <;> omega
    | false => interval_cases month <;> simp [List.range_succ,daysInMonth,leap] at inside ⊢ <;> omega
  have last : year = 9999 → isLeap year = false := by rintro rfl; rfl
  simp only [ordinal,lastOrdinal]
  have whole : year < 9999 ∨ year = 9999 := by omega
  rcases whole with earlier | final
  · split at months <;> omega
  · rw [last final] at months
    simp only [Bool.false_eq_true,if_false] at months
    omega

end DateTime

namespace UtcTime

theorem moment_shown {date : Nat × Nat × Nat} {clock : Nat} (era : 1 ≤ date.1 ∧ date.1 ≤ 9999) (season : 1 ≤ date.2.1 ∧ date.2.1 ≤ 12)
    (day : 1 ≤ date.2.2 ∧ date.2.2 ≤ daysInMonth date.1 date.2.1) (within : clock < DateTime.dayLength) :
    ∃ t, moment date clock = some t := by
  have valid : DateTime.Valid date.1 date.2.1 date.2.2 (clock / 3600000000) (clock / 60000000 % 60) (clock / 1000000 % 60)
      (clock % 1000000) (some 0) := by
    refine ⟨era,season,day,?_,fun minutes found => ?_⟩
    · simp only [DateTime.dayLength] at within
      omega
    · cases found
      decide
  exact ⟨_,by rw [moment,dif_pos valid]⟩

theorem moment_era {t : UtcTime} (shown : moment date clock = some t) : 1 ≤ date.1 ∧ date.1 ≤ 9999 := by
  unfold moment at shown
  split at shown
  · rename_i valid
    exact valid.era
  · cases shown

-- `t - timedelta`, for less than a day; `none` before the first year.
def earlier (t : UtcTime) (microseconds : Nat) : Option UtcTime :=
  if microseconds ≤ t.1.microsecondOfDay then moment (t.1.year,t.1.month,t.1.day) (t.1.microsecondOfDay - microseconds)
  else moment (DateTime.previousDay t.1.year t.1.month t.1.day) (t.1.microsecondOfDay + DateTime.dayLength - microseconds)

theorem clock_low (t : UtcTime) : t.1.microsecondOfDay < DateTime.dayLength := by
  have clock := t.1.valid.clock
  simp only [DateTime.microsecondOfDay,DateTime.dayLength]
  omega

-- The instants a calendar has.
def Dated (instant : Int) : Prop := DateTime.dayLength ≤ instant ∧ instant < (DateTime.lastOrdinal + 1) * DateTime.dayLength

instance : DecidablePred Dated := fun _ => inferInstanceAs (Decidable (_ ∧ _))

theorem moment_dated (date : Nat × Nat × Nat) (clock : Nat) (instant : Int) (era : 1 ≤ date.1 ∧ date.1 ≤ 9999) (season : 1 ≤ date.2.1 ∧ date.2.1 ≤ 12)
    (day : 1 ≤ date.2.2 ∧ date.2.2 ≤ daysInMonth date.1 date.2.1) (within : clock < DateTime.dayLength)
    (same : (DateTime.ordinal date.1 date.2.1 date.2.2 * DateTime.dayLength + clock : Int) = instant) :
    Dated instant ∧ ∃ t, moment date clock = some t ∧ t.1.instant = instant := by
  obtain ⟨t,shown⟩ := moment_shown era season day within
  obtain ⟨low,high⟩ := DateTime.ordinal_bounds era season day
  refine ⟨?_,t,shown,(moment_instant shown).trans same⟩
  simp only [Dated,DateTime.dayLength,DateTime.lastOrdinal] at *
  omega

theorem dated (t : UtcTime) : Dated t.1.instant := by
  obtain ⟨low,high⟩ := DateTime.ordinal_bounds t.1.valid.era t.1.valid.season t.1.valid.date
  have clock := clock_low t
  rw [day_instant t]
  simp only [Dated,DateTime.dayLength,DateTime.lastOrdinal] at *
  omega

theorem earlier_spec (t : UtcTime) (small : microseconds < DateTime.dayLength) :
    (∃ t', t.earlier microseconds = some t' ∧ t'.1.instant = t.1.instant - microseconds ∧ Dated (t.1.instant - microseconds)) ∨
    t.earlier microseconds = none ∧ ¬Dated (t.1.instant - microseconds) := by
  obtain ⟨era,season,date,_,_⟩ := t.1.valid
  have clock := clock_low t
  have start := day_instant t
  unfold earlier
  split
  · rename_i room
    obtain ⟨dated,t',shown,instant⟩ := moment_dated (t.1.year,t.1.month,t.1.day) (t.1.microsecondOfDay - microseconds)
      (t.1.instant - microseconds) era season date (by omega) (by rw [start]; push_cast [room]; ring)
    exact .inl ⟨t',shown,instant,dated⟩
  · rename_i short
    by_cases started : 2 ≤ t.1.year ∨ 1 < t.1.month ∨ 1 < t.1.day
    · have valid := DateTime.previousDay_valid era.2 season date (started.imp_right fun later => ⟨era.1,later⟩)
      have turned := DateTime.ordinal_nextDay valid.1.1 valid.2.1 valid.2.2
      rw [DateTime.nextDay_previousDay season date started] at turned
      obtain ⟨dated,t',shown,instant⟩ := moment_dated _ (t.1.microsecondOfDay + DateTime.dayLength - microseconds)
        (t.1.instant - microseconds) valid.1 valid.2.1 valid.2.2 (by omega) (by
          rw [start,turned]
          simp only [DateTime.dayLength] at *
          omega)
      exact .inl ⟨t',shown,instant,dated⟩
    · have first : t.1.year = 1 ∧ t.1.month = 1 ∧ t.1.day = 1 := by omega
      refine .inr ⟨?_,?_⟩
      · cases shown : moment (DateTime.previousDay t.1.year t.1.month t.1.day) (t.1.microsecondOfDay + DateTime.dayLength - microseconds) with
        | none => rfl
        | some t' =>
          have era := moment_era shown
          rw [first.1,first.2.1,first.2.2] at era
          exact absurd era (by decide)
      · rw [start,first.1,first.2.1,first.2.2]
        have one : DateTime.ordinal 1 1 1 = 1 := rfl
        simp only [Dated,one,DateTime.dayLength] at *
        omega

theorem later_spec (t : UtcTime) (small : microseconds < DateTime.dayLength) :
    (∃ t', t.later microseconds = some t' ∧ t'.1.instant = t.1.instant + microseconds ∧ Dated (t.1.instant + microseconds)) ∨
    t.later microseconds = none ∧ ¬Dated (t.1.instant + microseconds) := by
  obtain ⟨era,season,date,_,_⟩ := t.1.valid
  have clock := clock_low t
  have start := day_instant t
  unfold later
  dsimp only
  split
  · rename_i room
    obtain ⟨dated,t',shown,instant⟩ := moment_dated (t.1.year,t.1.month,t.1.day) (t.1.microsecondOfDay + microseconds)
      (t.1.instant + microseconds) era season date room (by rw [start]; push_cast; ring)
    exact .inl ⟨t',shown,instant,dated⟩
  · rename_i full
    by_cases more : t.1.year < 9999 ∨ t.1.month < 12 ∨ t.1.day < 31
    · have valid := DateTime.nextDay_valid era season date more
      have turned := DateTime.ordinal_nextDay era.1 season date
      obtain ⟨dated,t',shown,instant⟩ := moment_dated _ (t.1.microsecondOfDay + microseconds - DateTime.dayLength)
        (t.1.instant + microseconds) valid.1 valid.2.1 valid.2.2 (by omega) (by
          rw [start,turned]
          simp only [DateTime.dayLength] at *
          omega)
      exact .inl ⟨t',shown,instant,dated⟩
    · have inside := DateTime.daysInMonth_bounds t.1.year t.1.month
      have final : t.1.year = 9999 ∧ t.1.month = 12 ∧ t.1.day = 31 := by omega
      refine .inr ⟨?_,?_⟩
      · cases shown : moment (DateTime.nextDay t.1.year t.1.month t.1.day) (t.1.microsecondOfDay + microseconds - DateTime.dayLength) with
        | none => rfl
        | some t' =>
          have era := moment_era shown
          rw [final.1,final.2.1,final.2.2] at era
          exact absurd era (by decide)
      · rw [start,final.1,final.2.1,final.2.2]
        have last : DateTime.ordinal 9999 12 31 = DateTime.lastOrdinal := rfl
        simp only [Dated,last,DateTime.lastOrdinal,DateTime.dayLength] at *
        omega

end UtcTime
