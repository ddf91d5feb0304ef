import Mathlib
import BoundedPrintf.Calendar

/-! Dates by the number of their day. The calendar is given by the lengths of its months, which say what
day comes after a date; days are counted from the first of March of the year 0, so that no leap day has
to be skipped inside a year. The formula for the date of a day undoes this count. -/
namespace BoundedPrintf.Date

/-- A year with a leap day. Full centuries are leap years only every 400 years. -/
def LeapYear (year : Nat) : Prop := 4 ∣ year ∧ (100 ∣ year → 400 ∣ year)

instance (year : Nat) : Decidable (LeapYear year) := inferInstanceAs (Decidable (_ ∧ _))

def monthLength (year month : Nat) : Nat :=
  if month = 2 then if LeapYear year then 29 else 28
  else if month = 4 ∨ month = 6 ∨ month = 9 ∨ month = 11 then 30
  else 31

/-- The day after a date. -/
def next (date : Date) : Date :=
  if date.day < monthLength date.year date.month then { date with day := date.day + 1 }
  else if date.month < 12 then { date with month := date.month + 1, day := 1 }
  else { year := date.year + 1, month := 1, day := 1 }

def epoch : Date := { year := 1970, month := 1, day := 1 }

/-- A date that the calendar has, from the year 1 on. -/
structure Proper (date : Date) : Prop where
  year : 1 ≤ date.year
  month : 1 ≤ date.month ∧ date.month ≤ 12
  day : 1 ≤ date.day ∧ date.day ≤ monthLength date.year date.month

/-- The days of the years before one, if years begin with March. -/
def daysBefore (year : Nat) : Nat := 365 * year + year / 4 - year / 100 + year / 400

def marchYear (date : Date) : Nat := if date.month ≤ 2 then date.year - 1 else date.year

/-- The number of a month, counted from March on and from 0. -/
def fromMarch (month : Nat) : Nat := if month ≤ 2 then month + 9 else month - 3

/-- How many days of a year have passed since its first of March. -/
def dayOfYear (date : Date) : Nat := (153 * fromMarch date.month + 2) / 5 + (date.day - 1)

/-- The number of a day, counted from the first of March of the year 0. -/
def number (date : Date) : Nat := daysBefore date.marchYear + date.dayOfYear

variable {date : Date} {days : Nat}

theorem daysBefore_succ (year : Nat) :
    daysBefore (year + 1) = daysBefore year + if LeapYear (year + 1) then 366 else 365 := by
  have fewer : year / 100 ≤ year / 4 := Nat.div_le_div_left (by decide) (by decide)
  simp only [daysBefore, LeapYear, Nat.succ_div]
  by_cases fourth : 4 ∣ year + 1
  · by_cases century : 100 ∣ year + 1
    · by_cases era : 400 ∣ year + 1
      · simp only [fourth, century, era, if_true, implies_true, and_self]
        omega
      · simp only [fourth, century, era, if_true, if_false, true_imp_iff, and_false]
        omega
    · have era : ¬ 400 ∣ year + 1 := fun era => century ((by decide : 100 ∣ 400).trans era)
      simp only [fourth, century, era, if_true, if_false, false_imp_iff, and_self]
      omega
  · have century : ¬ 100 ∣ year + 1 := fun century => fourth ((by decide : 4 ∣ 100).trans century)
    have era : ¬ 400 ∣ year + 1 := fun era => fourth ((by decide : 4 ∣ 400).trans era)
    simp only [fourth, century, era, if_false, false_and]
    omega

theorem daysBefore_era (era : Nat) {year : Nat} (inside : year < 400) :
    daysBefore (400 * era + year) = 146097 * era + (365 * year + year / 4 - year / 100) := by
  simp only [daysBefore]
  omega

theorem next_cases (date : Date) :
    (date.day < monthLength date.year date.month ∧ date.next = { date with day := date.day + 1 }) ∨
    (monthLength date.year date.month ≤ date.day ∧ date.month < 12 ∧
      date.next = { date with month := date.month + 1, day := 1 }) ∨
    (monthLength date.year date.month ≤ date.day ∧ 12 ≤ date.month ∧
      date.next = { year := date.year + 1, month := 1, day := 1 }) := by
  unfold next
  split
  · next inside => exact .inl ⟨inside, rfl⟩
  · next last =>
      split
      · next earlier => exact .inr (.inl ⟨by omega, earlier, rfl⟩)
      · next december => exact .inr (.inr ⟨by omega, by omega, rfl⟩)

theorem monthLength_bounds (year month : Nat) :
    28 ≤ monthLength year month ∧ monthLength year month ≤ 31 := by
  simp only [monthLength]
  split_ifs <;> omega

theorem proper_next (proper : date.Proper) : date.next.Proper := by
  obtain ⟨year, month, day⟩ := proper
  have first {year month : Nat} : 1 ≤ monthLength year month :=
    (by decide : 1 ≤ 28).trans (monthLength_bounds year month).1
  obtain ⟨inside, same⟩ | ⟨-, earlier, same⟩ | ⟨-, -, same⟩ := next_cases date
  · rw [same]
    exact ⟨year, month, by dsimp only; omega, inside⟩
  · rw [same]
    exact ⟨year, by dsimp only; omega, le_rfl, first⟩
  · rw [same]
    exact ⟨by dsimp only; omega, by dsimp only; omega, le_rfl, first⟩

section MonthEnds

variable {year month : Nat}

/-- Months from March on have 31, 30, 31, 30 and 31 days, again and again. -/
theorem daysBeforeMonth_succ (year : Nat) (bounds : 1 ≤ month ∧ month ≤ 12) (other : month ≠ 2) :
    (153 * (fromMarch month + 1) + 2) / 5 =
      (153 * fromMarch month + 2) / 5 + monthLength year month := by
  obtain ⟨least, most⟩ := bounds
  interval_cases month
  case «2» => exact absurd rfl other
  all_goals rfl

theorem number_month_end (bounds : 1 ≤ month ∧ month < 12) (other : month ≠ 2) :
    number ⟨year, month + 1, 1⟩ = number ⟨year, month, monthLength year month⟩ + 1 := by
  have before := daysBeforeMonth_succ year ⟨bounds.1, bounds.2.le⟩ other
  have length := (monthLength_bounds year month).1
  have later : fromMarch (month + 1) = fromMarch month + 1 := by
    simp only [fromMarch]
    split_ifs <;> omega
  have same : (month + 1 ≤ 2) = (month ≤ 2) := by
    rw [eq_iff_iff]
    omega
  simp only [number, dayOfYear, marchYear, later, same]
  omega

/-- The month with the leap day is the last one in the count from March. -/
theorem number_february_end (positive : 1 ≤ year) :
    number ⟨year, 3, 1⟩ = number ⟨year, 2, monthLength year 2⟩ + 1 := by
  obtain ⟨year, rfl⟩ := Nat.exists_eq_add_of_le' positive
  simp only [number, dayOfYear, marchYear, fromMarch, monthLength, Nat.add_sub_cancel,
    Nat.reduceLeDiff, if_true, if_false, daysBefore_succ]
  split_ifs <;> omega

theorem number_december_end :
    number ⟨year + 1, 1, 1⟩ = number ⟨year, 12, monthLength year 12⟩ + 1 := by
  simp [number, dayOfYear, marchYear, fromMarch, monthLength]

end MonthEnds

/-- The next date has the next number. -/
theorem number_next (proper : date.Proper) : date.next.number = date.number + 1 := by
  obtain ⟨positive, bounds, first, within⟩ := proper
  obtain ⟨inside, same⟩ | ⟨last, earlier, same⟩ | ⟨last, december, same⟩ := next_cases date
  · rw [same]
    simp only [number, dayOfYear, marchYear]
    omega
  · have whole : date = ⟨date.year, date.month, monthLength date.year date.month⟩ := by
      rw [← le_antisymm within last]
    rw [same, whole]
    by_cases february : date.month = 2
    · simp only [february]
      exact number_february_end positive
    · exact number_month_end ⟨bounds.1, earlier⟩ february
  · have twelfth : date.month = 12 := le_antisymm bounds.2 december
    have whole : date = ⟨date.year, 12, monthLength date.year 12⟩ := by
      rw [← twelfth, ← le_antisymm within last]
    rw [same, whole]
    exact number_december_end

theorem fromMarch_le {month : Nat} (bounds : 1 ≤ month ∧ month ≤ 12) (other : month ≠ 2) :
    fromMarch month ≤ 10 := by
  simp only [fromMarch]
  split_ifs <;> omega

/-- A year from March to February has its leap day at its end. -/
theorem dayOfYear_lt (proper : date.Proper) :
    date.dayOfYear < 365 ∨ date.dayOfYear = 365 ∧ LeapYear (date.marchYear + 1) := by
  obtain ⟨positive, bounds, first, last⟩ := proper
  by_cases february : date.month = 2
  · have next : date.year - 1 + 1 = date.year := Nat.sub_add_cancel positive
    simp only [february, monthLength, if_true] at last
    simp only [dayOfYear, marchYear, fromMarch, february, le_refl, if_true, next]
    split_ifs at last with leap
    · simp only [leap, and_true]
      omega
    · omega
  · have early := fromMarch_le bounds february
    have long := (monthLength_bounds date.year date.month).2
    simp only [dayOfYear]
    omega

theorem month_of_dayOfYear (proper : date.Proper) :
    (5 * date.dayOfYear + 2) / 153 = fromMarch date.month := by
  have within := dayOfYear_lt proper
  obtain ⟨positive, bounds, first, last⟩ := proper
  have lower : 153 * fromMarch date.month ≤ 5 * date.dayOfYear + 2 := by
    simp only [dayOfYear]
    omega
  have upper : 5 * date.dayOfYear + 2 < 153 * (fromMarch date.month + 1) := by
    by_cases february : date.month = 2
    · simp only [february, fromMarch, le_refl, if_true]
      omega
    · have before := daysBeforeMonth_succ date.year bounds february
      simp only [dayOfYear]
      omega
  omega

/-- Every year has 365 days once the leap days are taken off: one for every four years, but none for a
full century, other than the last one of an era. -/
theorem year_of_parts {century quad year day : Nat} (centuries : century < 4) (quads : quad < 25)
    (years : year < 4) (days : day < 365 ∨ day = 365 ∧ year = 3)
    (short : century = 3 ∨ 1461 * quad + 365 * year + day < 36524) :
    let dayOfEra := 36524 * century + 1461 * quad + 365 * year + day
    (dayOfEra - dayOfEra / 1460 + dayOfEra / 36524 - dayOfEra / 146096) / 365 =
      100 * century + 4 * quad + year := by
  intro dayOfEra
  have whole : dayOfEra / 36524 = dayOfEra / 146096 + century := by omega
  have fourth : dayOfEra / 1460 =
      25 * century + quad + (24 * century + quad + 365 * year + day) / 1460 := by omega
  rw [whole, fourth]
  omega

theorem year_of_dayOfEra {year day : Nat} (inside : year < 400)
    (within : day < 365 ∨ day = 365 ∧ LeapYear (year + 1)) :
    let dayOfEra := 365 * year + year / 4 - year / 100 + day
    dayOfEra < 146097 ∧
      (dayOfEra - dayOfEra / 1460 + dayOfEra / 36524 - dayOfEra / 146096) / 365 = year := by
  obtain ⟨century, quad, last, centuries, quads, years, rfl⟩ : ∃ century quad last,
      century < 4 ∧ quad < 25 ∧ last < 4 ∧ year = 100 * century + 4 * quad + last :=
    ⟨year / 100, year % 100 / 4, year % 4, by omega, by omega, by omega, by omega⟩
  have leap : LeapYear (100 * century + 4 * quad + last + 1) →
      last = 3 ∧ (quad = 24 → century = 3) := by
    rintro ⟨fourth, hundredth⟩
    omega
  have within : day < 365 ∨ day = 365 ∧ last = 3 ∧ (quad = 24 → century = 3) :=
    within.imp_right (And.imp_right leap)
  have parts : 365 * (100 * century + 4 * quad + last) + (100 * century + 4 * quad + last) / 4 -
      (100 * century + 4 * quad + last) / 100 + day =
        36524 * century + 1461 * quad + 365 * last + day := by
    omega
  rw [parts]
  exact ⟨by omega, year_of_parts centuries quads years (by omega) (by omega)⟩

/-- Leap years come again in every era. -/
theorem dayOfYear_lt_of_era (proper : date.Proper) :
    date.dayOfYear < 365 ∨ date.dayOfYear = 365 ∧ LeapYear (date.marchYear % 400 + 1) := by
  refine (dayOfYear_lt proper).imp_right (And.imp_right ?_)
  rintro ⟨fourth, hundredth⟩
  exact ⟨by omega, by omega⟩

/-- The steps from the number of a day to its date. -/
structure Reckoned (days : Nat) (date : Date) : Prop where
  era : (days + 719468) / 146097 = date.marchYear / 400
  yearOfEra : ((days + 719468) % 146097 - (days + 719468) % 146097 / 1460 +
    (days + 719468) % 146097 / 36524 - (days + 719468) % 146097 / 146096) / 365 = date.marchYear % 400
  begun : 365 * (date.marchYear % 400) + date.marchYear % 400 / 4 - date.marchYear % 400 / 100 ≤
    (days + 719468) % 146097
  dayOfYear : (days + 719468) % 146097 - (365 * (date.marchYear % 400) + date.marchYear % 400 / 4 -
    date.marchYear % 400 / 100) = date.dayOfYear
  month : (5 * date.dayOfYear + 2) / 153 = fromMarch date.month

theorem reckoned_of_number (proper : date.Proper) (counted : date.number = days + 719468) :
    Reckoned days date := by
  have inside : date.marchYear % 400 < 400 := Nat.mod_lt _ (by decide)
  obtain ⟨small, year⟩ := year_of_dayOfEra inside (dayOfYear_lt_of_era proper)
  have split : days + 719468 = 146097 * (date.marchYear / 400) + (365 * (date.marchYear % 400) +
      date.marchYear % 400 / 4 - date.marchYear % 400 / 100 + date.dayOfYear) := by
    rw [← counted, number, ← Nat.add_assoc, ← daysBefore_era _ inside, Nat.div_add_mod]
  have day : (days + 719468) % 146097 = 365 * (date.marchYear % 400) + date.marchYear % 400 / 4 -
      date.marchYear % 400 / 100 + date.dayOfYear := by
    rw [split, Nat.mul_add_mod, Nat.mod_eq_of_lt small]
  constructor
  case era => rw [split, Nat.mul_add_div (by decide), Nat.div_eq_of_lt small, Nat.add_zero]
  case yearOfEra =>
    rw [day]
    exact year
  case begun =>
    rw [day]
    exact Nat.le_add_right _ _
  case dayOfYear => rw [day, Nat.add_sub_cancel_left]
  case month => exact month_of_dayOfYear proper

/-- The date of a day is the one that has its number. -/
theorem ofDays_of_number (proper : date.Proper) (counted : date.number = days + 719468) :
    ofDays days = date := by
  have steps := reckoned_of_number proper counted
  obtain ⟨positive, bounds, first, last⟩ := proper
  have day : date.dayOfYear - (153 * fromMarch date.month + 2) / 5 + 1 = date.day := by
    rw [dayOfYear, Nat.add_sub_cancel_left, Nat.sub_add_cancel first]
  have month : (if fromMarch date.month < 10 then fromMarch date.month + 3
      else fromMarch date.month - 9) = date.month := by
    simp only [fromMarch]
    split_ifs <;> omega
  have year : date.marchYear % 400 + date.marchYear / 400 * 400 + (if date.month ≤ 2 then 1 else 0) =
      date.year := by
    rw [Nat.mod_add_div', marchYear]
    split_ifs <;> omega
  simp only [ofDays, steps.era, steps.yearOfEra, steps.dayOfYear, steps.month, day, month, year]

theorem number_epoch : epoch.number = 719468 := by decide

theorem proper_iterate_next (days : Nat) : (next^[days] epoch).Proper ∧
    (next^[days] epoch).number = days + 719468 := by
  induction days with
  | zero =>
      rw [Function.iterate_zero_apply, Nat.zero_add]
      exact ⟨⟨by decide, by decide, by decide⟩, number_epoch⟩
  | succ days ih =>
      obtain ⟨proper, counted⟩ := ih
      rw [Function.iterate_succ_apply']
      have following := number_next proper
      exact ⟨proper_next proper, by omega⟩

/-- The date of a day is found by going through the calendar from 1970 on, day by day. -/
theorem ofDays_eq_iterate (days : Nat) : ofDays days = next^[days] epoch := by
  obtain ⟨proper, counted⟩ := proper_iterate_next days
  exact ofDays_of_number proper counted

theorem ofDays_succ (days : Nat) : ofDays (days + 1) = (ofDays days).next := by
  rw [ofDays_eq_iterate, ofDays_eq_iterate, Function.iterate_succ_apply']

/-- Nothing on the way to the date of a day is taken from less than itself. -/
def WithoutBorrow (days : Nat) : Prop :=
  let dayOfEra := (days + 719468) % 146097
  let yearOfEra := (dayOfEra - dayOfEra / 1460 + dayOfEra / 36524 - dayOfEra / 146096) / 365
  let dayOfYear := dayOfEra - (365 * yearOfEra + yearOfEra / 4 - yearOfEra / 100)
  let monthFromMarch := (5 * dayOfYear + 2) / 153
  dayOfEra / 1460 ≤ dayOfEra ∧
    dayOfEra / 146096 ≤ dayOfEra - dayOfEra / 1460 + dayOfEra / 36524 ∧
    yearOfEra / 100 ≤ 365 * yearOfEra + yearOfEra / 4 ∧
    365 * yearOfEra + yearOfEra / 4 - yearOfEra / 100 ≤ dayOfEra ∧
    (153 * monthFromMarch + 2) / 5 ≤ dayOfYear

theorem withoutBorrow (days : Nat) : WithoutBorrow days := by
  obtain ⟨proper, counted⟩ := proper_iterate_next days
  have steps := reckoned_of_number proper counted
  have begun : (153 * fromMarch (next^[days] epoch).month + 2) / 5 ≤ (next^[days] epoch).dayOfYear :=
    Nat.le_add_right _ _
  simp only [WithoutBorrow, steps.yearOfEra, steps.dayOfYear, steps.month]
  refine ⟨Nat.div_le_self _ _, ?_, ?_, steps.begun, begun⟩ <;> omega

end BoundedPrintf.Date
