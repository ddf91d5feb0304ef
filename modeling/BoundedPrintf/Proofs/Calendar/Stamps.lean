import Mathlib
import BoundedPrintf.Bytes
import BoundedPrintf.Proofs.Calendar.Days

/-! Time stamps. A stamp is read field by field: the numerals between its marks tell a date and a time
of day, and these are as many days, seconds and milliseconds after the start of 1970 as the point in
time that was stamped. -/
namespace BoundedPrintf

/-- A numeral of a number that is filled up with zeros to a width. -/
structure Filled (width value : Nat) (text : List Char) : Prop where
  digits : ∀ c ∈ text, c.isDigit
  least : width ≤ text.length
  most : 0 < width → value < 10 ^ width → text.length = width
  number : Nat.ofDigitChars 10 text 0 = value

/-- A time of day. -/
structure TimeOfDay where
  hour : Nat
  minute : Nat
  second : Nat
  millis : Nat
  deriving DecidableEq, Repr

structure TimeOfDay.Proper (time : TimeOfDay) : Prop where
  hour : time.hour < 24
  minute : time.minute < 60
  second : time.second < 60
  millis : time.millis < 1000

/-- A text of the form `YYYY-MM-DDThh:mm:ss.mmmZ` that tells a date and a time of day. Years after 9999
have more digits. -/
def Tells (text : String) (date : Date) (time : TimeOfDay) : Prop :=
  ∃ year month day hour minute second millis : List Char,
    text.toList = year ++ '-' :: month ++ '-' :: day ++ 'T' :: hour ++ ':' :: minute ++
      ':' :: second ++ '.' :: millis ++ ['Z'] ∧
    Filled 4 date.year year ∧ Filled 2 date.month month ∧ Filled 2 date.day day ∧
    Filled 2 time.hour hour ∧ Filled 2 time.minute minute ∧ Filled 2 time.second second ∧
    Filled 3 time.millis millis

theorem filled_padded (width value : Nat) : Filled width value (padded width value).toList := by
  rw [padded, String.toList_ofList]
  constructor
  case digits =>
    intro c member
    rcases List.mem_append.mp member with zero | digit
    · rw [List.eq_of_mem_replicate zero]
      rfl
    · exact Nat.isDigit_of_mem_toDigits (by decide) (by decide) digit
  case least =>
    rw [List.length_append, List.length_replicate]
    omega
  case most =>
    intro positive small
    have fits := (Nat.length_toDigits_le_iff (by decide : 1 < 10) positive).mpr small
    rw [List.length_append, List.length_replicate]
    omega
  case number =>
    rw [Nat.ofDigitChars_append, Nat.ofDigitChars_replicate_zero, Nat.mul_zero,
      Nat.ofDigitChars_ten_toDigits]

theorem tells_written (date : Date) (time : TimeOfDay) :
    Tells (padded 4 date.year ++ "-" ++ padded 2 date.month ++ "-" ++ padded 2 date.day ++ "T" ++
      padded 2 time.hour ++ ":" ++ padded 2 time.minute ++ ":" ++ padded 2 time.second ++ "." ++
      padded 3 time.millis ++ "Z") date time := by
  refine ⟨_, _, _, _, _, _, _, ?_, filled_padded _ _, filled_padded _ _, filled_padded _ _,
    filled_padded _ _, filled_padded _ _, filled_padded _ _, filled_padded _ _⟩
  simp

namespace Instant

def timeOfDay (instant : Instant) : TimeOfDay where
  hour := instant.seconds % 86400 / 3600
  minute := instant.seconds % 3600 / 60
  second := instant.seconds % 60
  millis := instant.millis

theorem proper_timeOfDay {instant : Instant} (fraction : instant.millis < 1000) :
    instant.timeOfDay.Proper := by
  refine ⟨?_, ?_, Nat.mod_lt _ (by decide), fraction⟩ <;> simp only [timeOfDay] <;> omega

theorem tells_stamp (instant : Instant) :
    Tells instant.stamp (Date.ofDays (instant.seconds / 86400)) instant.timeOfDay := by
  have written := tells_written (Date.ofDays (instant.seconds / 86400)) instant.timeOfDay
  simp only [timeOfDay] at written ⊢
  rw [stamp]
  exact written

theorem seconds_eq (instant : Instant) : instant.seconds = 86400 * (instant.seconds / 86400) +
    3600 * instant.timeOfDay.hour + 60 * instant.timeOfDay.minute + instant.timeOfDay.second := by
  simp only [timeOfDay]
  omega

theorem ofDays_zero : Date.ofDays 0 = ⟨1970, 1, 1⟩ := by decide

/-- The calendar begins with 1970 and goes on day by day, and a stamp tells the date and the time of day
that are so many seconds and milliseconds after its beginning. -/
theorem stamps_tell_time {instant : Instant} (fraction : instant.millis < 1000) :
    (Date.ofDays 0 = ⟨1970, 1, 1⟩ ∧
      ∀ days, Date.ofDays (days + 1) = (Date.ofDays days).next ∧ Date.WithoutBorrow days) ∧
    ∃ (days : Nat) (time : TimeOfDay), time.Proper ∧
      Tells instant.stamp (Date.next^[days] ⟨1970, 1, 1⟩) time ∧
      instant.seconds = 86400 * days + 3600 * time.hour + 60 * time.minute + time.second ∧
      instant.millis = time.millis := by
  have told := tells_stamp instant
  rw [Date.ofDays_eq_iterate, Date.epoch] at told
  have steps (days : Nat) : Date.ofDays (days + 1) = (Date.ofDays days).next ∧
      Date.WithoutBorrow days := ⟨Date.ofDays_succ days, Date.withoutBorrow days⟩
  exact ⟨⟨ofDays_zero, steps⟩, instant.seconds / 86400, instant.timeOfDay,
    proper_timeOfDay fraction, told, seconds_eq instant, rfl⟩

/-- The last second that is counted in 64 bits, in a year of twelve digits. -/
theorem last_second_told :
    let last : Instant := ⟨2 ^ 64 - 1, 999⟩
    last.millis < 1000 ∧ last.stamp = "584554051223-11-09T07:00:15.999Z" ∧
      ∃ (days : Nat) (time : TimeOfDay), time.Proper ∧
        Tells last.stamp (Date.next^[days] ⟨1970, 1, 1⟩) time ∧
        2 ^ 64 - 1 = 86400 * days + 3600 * time.hour + 60 * time.minute + time.second ∧
        999 = time.millis := by
  intro last
  have fraction : last.millis < 1000 := by decide
  exact ⟨fraction, by decide +kernel, (stamps_tell_time fraction).2⟩

end Instant

end BoundedPrintf
