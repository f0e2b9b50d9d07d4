import AdTerminal.Schedule.AlarmUtil

/-! The spellings of a time. An alarm is set at the three numbers that a string is read as, and the
play list is selected by comparing the string itself with the present time, which is padded. -/

namespace AdTerminal.Strategy
open JavaString

namespace TimeOfDay

def seconds (time : TimeOfDay) : Nat := time.hour * 3600 + time.minute * 60 + time.second

def ofSeconds (n : Nat) (inside : n < 86400) : TimeOfDay where
  hour := ⟨n / 3600, by omega⟩
  minute := ⟨n / 60 % 60, by omega⟩
  second := ⟨n % 60, by omega⟩

theorem seconds_ofSeconds {n : Nat} (inside : n < 86400) : (ofSeconds n inside).seconds = n := by
  show n / 3600 * 3600 + n / 60 % 60 * 60 + n % 60 = n
  omega

theorem seconds_lt (time : TimeOfDay) : time.seconds < 86400 := by
  have hour := time.hour.isLt
  have minute := time.minute.isLt
  have second := time.second.isLt
  unfold seconds
  omega

theorem seconds_lt_iff {time other : TimeOfDay} : time.seconds < other.seconds ↔
    time.hour < other.hour ∨ time.hour = other.hour ∧
      (time.minute < other.minute ∨ time.minute = other.minute ∧ time.second < other.second) := by
  have minute := time.minute.isLt
  have second := time.second.isLt
  have otherMinute := other.minute.isLt
  have otherSecond := other.second.isLt
  unfold seconds
  omega

end TimeOfDay

/-- Padded numbers are compared as numbers, and then what follows them. -/
theorem twoDigits_append_lt {n m : Nat} {rest other : JavaString} :
    twoDigits n ++ rest < twoDigits m ++ other ↔ n < m ∨ n = m ∧ rest < other := by
  simp only [twoDigits, List.cons_append, List.nil_append, List.cons_lt_cons_iff]
  constructor
  · rintro (_ | ⟨_, _ | ⟨_, less⟩⟩)
    · omega
    · omega
    · exact .inr ⟨by omega, less⟩
  · rintro (_ | ⟨rfl, less⟩)
    · omega
    · exact .inr ⟨rfl, .inr ⟨rfl, less⟩⟩

/-- The order of the padded times is that of the times. -/
theorem getCurrentTime_lt {time other : TimeOfDay} :
    getCurrentTime time < getCurrentTime other ↔ time.seconds < other.seconds := by
  have padded : ∀ time : TimeOfDay, getCurrentTime time =
      twoDigits time.hour ++ 0x3A :: (twoDigits time.minute ++ 0x3A :: (twoDigits time.second ++ [])) := fun _ => rfl
  rw [padded, padded, TimeOfDay.seconds_lt_iff, twoDigits_append_lt, List.cons_lt_cons_iff, twoDigits_append_lt,
    List.cons_lt_cons_iff, twoDigits_append_lt]
  simp [Fin.ext_iff]

theorem getCurrentTime_le {time other : TimeOfDay} :
    getCurrentTime time ≤ getCurrentTime other ↔ time.seconds ≤ other.seconds := by
  rw [← not_lt, ← not_lt, getCurrentTime_lt]

end AdTerminal.Strategy

namespace AdTerminal.Schedule
open Strategy JavaString

/-- A string that `ConvertAlarmUpTime` reads as a time of the day. -/
structure TimeSpelling where
  text : JavaString
  time : TimeOfDay
  reads : AlarmUtil.timeInt text = .ok (time.hour, time.minute, time.second)

namespace TimeSpelling

/-- The two readings of an interval agree at a time. -/
def Agrees (start stop : TimeSpelling) (now : TimeOfDay) : Prop :=
  isTimeInInterval (getCurrentTime now) start.text stop.text = true ↔
    start.time.seconds ≤ now.seconds ∧ now.seconds ≤ stop.time.seconds

/-- Among the padded times the string stands before its own one, and after the second before. -/
def Opens (start : TimeSpelling) : Prop :=
  start.text ≤ getCurrentTime start.time ∧
    ∀ before : TimeOfDay, before.seconds + 1 = start.time.seconds → getCurrentTime before < start.text

/-- Among the padded times the string stands after its own one, and before the second after. -/
def Closes (stop : TimeSpelling) : Prop :=
  getCurrentTime stop.time ≤ stop.text ∧
    ∀ after : TimeOfDay, after.seconds = stop.time.seconds + 1 → stop.text < getCurrentTime after

/-- No padded time stands between the strings. -/
def Disjoint (start stop : TimeSpelling) : Prop :=
  ∀ time : TimeOfDay, getCurrentTime time < start.text ∨ stop.text < getCurrentTime time

variable {start stop : TimeSpelling}

theorem Opens.le_iff (opens : start.Opens) (now : TimeOfDay) :
    start.text ≤ getCurrentTime now ↔ start.time.seconds ≤ now.seconds := by
  obtain ⟨own, earlier⟩ := opens
  constructor
  · intro reached
    by_contra early
    have bound := start.time.seconds_lt
    have before := earlier (.ofSeconds (start.time.seconds - 1) (by omega)) (by rw [TimeOfDay.seconds_ofSeconds]; omega)
    have passed : getCurrentTime now ≤ getCurrentTime (.ofSeconds (start.time.seconds - 1) (by omega)) := by
      rw [getCurrentTime_le, TimeOfDay.seconds_ofSeconds]
      omega
    exact absurd (reached.trans passed) (not_le.mpr before)
  · intro late
    exact own.trans (getCurrentTime_le.mpr late)

theorem Closes.le_iff (closes : stop.Closes) (now : TimeOfDay) :
    getCurrentTime now ≤ stop.text ↔ now.seconds ≤ stop.time.seconds := by
  obtain ⟨own, later⟩ := closes
  constructor
  · intro reached
    by_contra late
    have bound := now.seconds_lt
    have after := later (.ofSeconds (stop.time.seconds + 1) (by omega)) (TimeOfDay.seconds_ofSeconds _)
    have passed : getCurrentTime (.ofSeconds (stop.time.seconds + 1) (by omega)) ≤ getCurrentTime now := by
      rw [getCurrentTime_le, TimeOfDay.seconds_ofSeconds]
      omega
    exact absurd (passed.trans reached) (not_le.mpr after)
  · intro early
    exact (getCurrentTime_le.mpr early).trans own

/-- Two strings that enclose a time, and are only read as what they enclose, are placed as their times. -/
theorem placed_of_agrees (agrees : ∀ now, Agrees start stop now)
    (ordered : start.time.seconds ≤ stop.time.seconds) : start.Opens ∧ stop.Closes := by
  simp only [Agrees, isTimeInInterval_iff] at agrees
  obtain ⟨startOwn, startIn⟩ := (agrees start.time).mpr ⟨le_rfl, ordered⟩
  obtain ⟨stopIn, stopOwn⟩ := (agrees stop.time).mpr ⟨ordered, le_rfl⟩
  refine ⟨⟨startOwn, fun before next => ?_⟩, stopOwn, fun after next => ?_⟩
  · by_contra reached
    have below : getCurrentTime before ≤ getCurrentTime start.time := getCurrentTime_le.mpr (by omega)
    have inside := (agrees before).mp ⟨not_lt.mp reached, below.trans startIn⟩
    omega
  · by_contra reached
    have above : getCurrentTime stop.time ≤ getCurrentTime after := getCurrentTime_le.mpr (by omega)
    have inside := (agrees after).mp ⟨stopIn.trans above, not_lt.mp reached⟩
    omega

/-- For all strings that are read as times: the two readings of the interval agree at all times of
the day exactly if both strings stand among the padded times as their own ones do, or the interval
is empty in both. -/
theorem agrees_iff (start stop : TimeSpelling) : (∀ now, Agrees start stop now) ↔
    start.Opens ∧ stop.Closes ∨ stop.time.seconds < start.time.seconds ∧ Disjoint start stop := by
  constructor
  · intro agrees
    rcases le_or_gt start.time.seconds stop.time.seconds with ordered | reversed
    · exact .inl (placed_of_agrees agrees ordered)
    · refine .inr ⟨reversed, fun time => ?_⟩
      have outside : ¬ (start.text ≤ getCurrentTime time ∧ getCurrentTime time ≤ stop.text) := by
        have same := agrees time
        rw [Agrees, isTimeInInterval_iff] at same
        rw [same]
        omega
      rwa [not_and_or, not_le, not_le] at outside
  · rintro (⟨opens, closes⟩ | ⟨reversed, disjoint⟩) now
    · rw [Agrees, isTimeInInterval_iff, opens.le_iff, closes.le_iff]
    · rw [Agrees, isTimeInInterval_iff, ← not_iff_not, not_and_or, not_le, not_le]
      exact iff_of_true (disjoint now) (by omega)

end TimeSpelling

/-- The part of a padded time that is read as its number. -/
theorem parseInt_twoDigits : ∀ n < 100, parseInt (trim (twoDigits n)) = some (n : Int) := by
  decide +kernel

theorem colon_not_mem_twoDigits : ∀ n < 100, 0x3A ∉ twoDigits n := by
  decide +kernel

theorem split_getCurrentTime (time : TimeOfDay) :
    split (trim (getCurrentTime time)) 0x3A = [twoDigits time.hour, twoDigits time.minute, twoDigits time.second] := by
  have visible : ∀ n : Nat, 0x20 < 0x30 + n := by omega
  have untrimmed : trim (getCurrentTime time) = getCurrentTime time := by
    refine trim_eq_self ?_ ?_
    · rintro c ⟨⟩
      exact visible _
    · rintro c ⟨⟩
      exact visible _
  have joined : getCurrentTime time =
      [0x3A].intercalate [twoDigits time.hour, twoDigits time.minute, twoDigits time.second] := rfl
  rw [untrimmed, joined]
  refine split_intercalate ?_ (List.cons_ne_nil _ _) (List.cons_ne_nil _ _)
  simp only [List.forall_mem_cons, List.not_mem_nil, IsEmpty.forall_iff, implies_true, and_true]
  exact ⟨colon_not_mem_twoDigits _ (by omega), colon_not_mem_twoDigits _ (by omega),
    colon_not_mem_twoDigits _ (by omega)⟩

theorem timeInt_getCurrentTime (time : TimeOfDay) :
    AlarmUtil.timeInt (getCurrentTime time) = .ok (time.hour, time.minute, time.second) := by
  have hour := parseInt_twoDigits time.hour (by omega)
  have minute := parseInt_twoDigits time.minute (by omega)
  have second := parseInt_twoDigits time.second (by omega)
  rw [AlarmUtil.timeInt, split_getCurrentTime]
  simp only [AlarmUtil.hmsPart, List.getElem?_cons_zero, List.getElem?_cons_succ, hour, minute, second]
  rfl

namespace TimeSpelling

/-- A time as `getCurrentTime` writes it. -/
def padded (time : TimeOfDay) : TimeSpelling := ⟨getCurrentTime time, time, timeInt_getCurrentTime time⟩

theorem padded_opens (time : TimeOfDay) : (padded time).Opens :=
  ⟨le_rfl, fun _ next => getCurrentTime_lt.mpr (Nat.lt_of_succ_le next.le)⟩

theorem padded_closes (time : TimeOfDay) : (padded time).Closes :=
  ⟨le_rfl, fun _ next => getCurrentTime_lt.mpr (Nat.lt_of_succ_le next.ge)⟩

/-- Without the leading zero. -/
def eight : TimeSpelling where
  text := ofString "8:00:00"
  time := ⟨⟨8, by decide⟩, ⟨0, by decide⟩, ⟨0, by decide⟩⟩
  reads := by decide +kernel

def ten : TimeSpelling := padded ⟨⟨10, by decide⟩, ⟨0, by decide⟩, ⟨0, by decide⟩⟩

/-- At nine the alarm of eight has gone off, and its list is not selected. -/
theorem eight_disagrees : ¬ Agrees eight ten ⟨9, 0, 0⟩ := by
  unfold Agrees
  decide +kernel

end TimeSpelling

end AdTerminal.Schedule
