import GhostApi.Js.Calendar

/-!
# ISO weeks

The week of a time as the telemetry computes it: the Thursday of the week is
found in the calendar, and its distance from the new year is divided by seven.
A week from 1970 on is known by its distance from the week of day 0, and the
texts of weeks are in the order of these distances.
-/

namespace GhostApi.ProductTelemetry

open Js Js.Date

def ceilDiv (a b : Int) : Int := -(-a / b)

def isoWeek (date : Int) : String :=
  let utc := UTC (getUTCFullYear date) (getUTCMonth date) (getUTCDate date)
  let day := if getUTCDay utc = 0 then 7 else getUTCDay utc
  let thursday := setUTCDate utc (getUTCDate utc + 4 - day)
  let yearStart := UTC (getUTCFullYear thursday) 1 1
  let week := ceilDiv ((thursday - yearStart) / millisecondsPerDay + 1) 7
  toString (getUTCFullYear thursday) ++ "-W" ++ padStart 2 (toString week)

/-- A day in a week of a year by ISO 8601: the week belongs to the year of its Thursday, and the first week of a year
is the one with its first Thursday. -/
structure IsIsoWeek (day year number : Int) : Prop where
  thursday : ∃ thursday first, (thursday - 3 ≤ day ∧ day ≤ thursday + 3) ∧ weekday thursday = 4 ∧
    (yearStart year ≤ thursday ∧ thursday < yearStart (year + 1)) ∧
    weekday first = 4 ∧ (yearStart year ≤ first ∧ first < yearStart year + 7) ∧ thursday = first + 7 * (number - 1)

def weekText (year number : Int) : String := digits 4 year ++ "-W" ++ digits 2 number

/-- The weeks from the one of day 0 to the one of a time. -/
def weekOf (ms : Int) : Int := (ms / millisecondsPerDay + 3) / 7

def yearOfWeek (week : Int) : Int := (civilFromDays (7 * week)).year

def numberOfWeek (week : Int) : Int := (7 * week - yearStart (yearOfWeek week)) / 7 + 1

def thursdayOf (week : Int) : Int := 7 * week * millisecondsPerDay

/-- The weeks of the years 1970 to 9999. -/
def IsWeek (week : Int) : Prop := 0 ≤ week ∧ week ≤ 418985

theorem isWeek_weekOf {ms : Int} (h : InYears ms) : IsWeek (weekOf ms) := by
  obtain ⟨hLow, hHigh⟩ := h
  rw [IsWeek, weekOf, millisecondsPerDay]
  omega

theorem inYears_thursdayOf {week : Int} (h : IsWeek week) : InYears (thursdayOf week) := by
  obtain ⟨hLow, hHigh⟩ := h
  rw [InYears, thursdayOf, millisecondsPerDay]
  omega

theorem weekOf_thursdayOf (week : Int) : weekOf (thursdayOf week) = week := by
  rw [weekOf, thursdayOf, days_mul]
  omega

theorem year_range {week : Int} (h : IsWeek week) : 1970 ≤ yearOfWeek week ∧ yearOfWeek week ≤ 9999 := by
  have hYears := year_of_inYears (inYears_thursdayOf h)
  rwa [thursdayOf, days_mul] at hYears

theorem number_range (week : Int) : 1 ≤ numberOfWeek week ∧ numberOfWeek week ≤ 53 := by
  obtain ⟨hFrom, hBefore⟩ := year_bounds (7 * week)
  have hYear := yearStart_succ_le (yearOfWeek week)
  rw [numberOfWeek]
  rw [yearOfWeek] at *
  omega

theorem toString_natAbs {n : Int} (h : 0 ≤ n) : toString n = toString n.natAbs := by
  cases n with
  | ofNat k => rfl
  | negSucc k => exact absurd h (Int.negSucc_not_nonneg k).mp

theorem toString_year {year : Int} (h : 1000 ≤ year) : toString year = digits 4 year := by
  have hLong : ¬(Nat.toDigits 10 year.natAbs).length ≤ 3 := by
    rw [Nat.length_toDigits_le_iff (by decide) (by decide)]
    omega
  have hDigits : (toString year.natAbs).toList = Nat.toDigits 10 year.natAbs := Nat.toList_repr
  have hPad : 4 - (Nat.toDigits 10 year.natAbs).length = 0 := by omega
  rw [toString_natAbs (by omega), ← String.toList_inj, digits_toList, hDigits, hPad]
  rfl

theorem isoWeek_eq {ms : Int} (h : InYears ms) : isoWeek ms = weekText (yearOfWeek (weekOf ms)) (numberOfWeek (weekOf ms)) := by
  have hYears := year_of_inYears h
  have hWeek := isWeek_weekOf h
  have hYear := year_range hWeek
  have hNumber := number_range (weekOf ms)
  have hUtc : UTC (getUTCFullYear ms) (getUTCMonth ms) (getUTCDate ms) = ms / millisecondsPerDay * millisecondsPerDay :=
    UTC_of_date (by rw [getUTCFullYear]; omega)
  have hDay : ms / millisecondsPerDay + (4 - if weekday (ms / millisecondsPerDay) = 0 then 7 else weekday (ms / millisecondsPerDay)) =
      7 * weekOf ms := by
    rw [weekOf, weekday]
    generalize ms / millisecondsPerDay = days
    split <;> omega
  have hThursday : setUTCDate (ms / millisecondsPerDay * millisecondsPerDay)
      (getUTCDate (ms / millisecondsPerDay * millisecondsPerDay) + 4 -
        if weekday (ms / millisecondsPerDay) = 0 then 7 else weekday (ms / millisecondsPerDay)) =
      7 * weekOf ms * millisecondsPerDay := by
    rw [Int.add_sub_assoc, setUTCDate_add, hDay]
  have hThursdayYear : getUTCFullYear (7 * weekOf ms * millisecondsPerDay) = yearOfWeek (weekOf ms) := by
    rw [getUTCFullYear, days_mul, yearOfWeek]
  have hStart : UTC (yearOfWeek (weekOf ms)) 1 1 = yearStart (yearOfWeek (weekOf ms)) * millisecondsPerDay :=
    UTC_of_year (by omega)
  have hDistance : ceilDiv ((7 * weekOf ms * millisecondsPerDay - yearStart (yearOfWeek (weekOf ms)) * millisecondsPerDay) /
      millisecondsPerDay + 1) 7 = numberOfWeek (weekOf ms) := by
    rw [← Int.sub_mul, days_mul, ceilDiv, numberOfWeek]
    omega
  have hPadded : padStart 2 (toString (numberOfWeek (weekOf ms))) = digits 2 (numberOfWeek (weekOf ms)) := by
    rw [digits, toString_natAbs (by omega)]
  simp only [isoWeek, hUtc, getUTCDay, days_mul, hThursday, hThursdayYear, hStart, hDistance, hPadded]
  rw [toString_year (by omega), weekText]

-- The last day of 2026 and the first one of 2027.
example : isoWeek 1798675200000 = "2026-W53" ∧ isoWeek 1798761600000 = "2026-W53" := by decide +kernel

theorem isIsoWeek_weekOf (ms : Int) :
    IsIsoWeek (ms / millisecondsPerDay) (yearOfWeek (weekOf ms)) (numberOfWeek (weekOf ms)) where
  thursday := by
    obtain ⟨hFrom, hBefore⟩ := year_bounds (7 * weekOf ms)
    refine ⟨7 * weekOf ms, 7 * weekOf ms - 7 * (numberOfWeek (weekOf ms) - 1), ?_, ?_, ⟨hFrom, hBefore⟩, ?_, ?_, ?_⟩
    · rw [weekOf]
      omega
    · rw [weekday]
      omega
    · rw [weekday]
      omega
    · rw [numberOfWeek, yearOfWeek] at *
      omega
    · omega

theorem isoWeek_thursdayOf {ms : Int} (h : InYears ms) : isoWeek ms = isoWeek (thursdayOf (weekOf ms)) := by
  rw [isoWeek_eq h, isoWeek_eq (inYears_thursdayOf (isWeek_weekOf h)), weekOf_thursdayOf]

/-! ## The order of weeks -/

theorem weekText_units (year number : Int) : (weekText year number).toList.flatMap Json.utf16 =
    (digits 4 year).toList.map Char.toNat ++ ([45, 87] ++ (digits 2 number).toList.map Char.toNat) := by
  have hMark : "-W".toList.flatMap Json.utf16 = [45, 87] := by decide
  rw [weekText, String.toList_append, String.toList_append, List.flatMap_append, List.flatMap_append, hMark,
    flatMap_utf16_digits fun _ => isDigit_digits, flatMap_utf16_digits fun _ => isDigit_digits, List.append_assoc]

theorem lex_units {width : Nat} {m n : Int} (hWidth : 0 < width) (hm : 0 ≤ m ∧ m.natAbs < 10 ^ width)
    (hn : 0 ≤ n ∧ n.natAbs < 10 ^ width) :
    ((digits width m).toList.map Char.toNat).lex ((digits width n).toList.map Char.toNat) = true ↔ m < n := by
  rw [lex_digits ((digits_length hWidth hm.2).trans (digits_length hWidth hn.2).symm) (fun _ => isDigit_digits)
    fun _ => isDigit_digits, digits_number width hm.1, digits_number width hn.1]

theorem units_injective {width : Nat} {m n : Int} (hm : 0 ≤ m) (hn : 0 ≤ n)
    (h : (digits width m).toList.map Char.toNat = (digits width n).toList.map Char.toNat) : m = n := by
  have hChars : (digits width m).toList = (digits width n).toList :=
    List.map_injective_iff.mpr (fun _ _ hSame => Char.toNat_inj.mp hSame) h
  rw [← digits_number width hm, hChars, digits_number width hn]

theorem weekText_lt {year number year' number' : Int} (hYear : 0 ≤ year ∧ year ≤ 9999) (hNumber : 0 ≤ number ∧ number ≤ 99)
    (hYear' : 0 ≤ year' ∧ year' ≤ 9999) (hNumber' : 0 ≤ number' ∧ number' ≤ 99) :
    Json.keyLe (weekText year number) (weekText year' number') = false ↔ year' < year ∨ year' = year ∧ number' < number := by
  have hWidth : ((digits 4 year').toList.map Char.toNat).length = ((digits 4 year).toList.map Char.toNat).length := by
    rw [List.length_map, List.length_map, digits_length (by decide) (by omega), digits_length (by decide) (by omega)]
  rw [Json.keyLe, weekText_units, weekText_units, Bool.not_eq_false', lex_append hWidth, lex_append rfl,
    lex_units (by decide) (by omega) (by omega), lex_units (by decide) (by omega) (by omega)]
  constructor
  · rintro (hLess | ⟨hSame, hRest⟩)
    · exact .inl hLess
    · refine .inr ⟨units_injective hYear'.1 hYear.1 hSame, ?_⟩
      simpa using hRest
  · rintro (hLess | ⟨rfl, hRest⟩)
    · exact .inl hLess
    · exact .inr ⟨rfl, .inr ⟨rfl, hRest⟩⟩

theorem week_lt {week week' : Int} (h : week < week') : yearOfWeek week < yearOfWeek week' ∨
    yearOfWeek week = yearOfWeek week' ∧ numberOfWeek week < numberOfWeek week' := by
  have hYears : yearOfWeek week ≤ yearOfWeek week' := year_le_of_le (by omega)
  by_cases hSame : yearOfWeek week = yearOfWeek week'
  · right
    refine ⟨hSame, ?_⟩
    rw [numberOfWeek, numberOfWeek, hSame]
    omega
  · left
    omega

theorem isoWeek_keyLe {week week' : Int} (h : IsWeek week) (h' : IsWeek week') :
    Json.keyLe (isoWeek (thursdayOf week)) (isoWeek (thursdayOf week')) = true ↔ week ≤ week' := by
  have hYear := year_range h
  have hYear' := year_range h'
  have hNumber := number_range week
  have hNumber' := number_range week'
  have hLess : Json.keyLe (weekText (yearOfWeek week) (numberOfWeek week))
      (weekText (yearOfWeek week') (numberOfWeek week')) = false ↔ _ :=
    weekText_lt (by omega) (by omega) (by omega) (by omega)
  rw [isoWeek_eq (inYears_thursdayOf h), isoWeek_eq (inYears_thursdayOf h'), weekOf_thursdayOf, weekOf_thursdayOf,
    ← Bool.not_eq_false, hLess]
  constructor
  · intro hNot
    by_contra hLater
    exact hNot (week_lt (Int.not_le.mp hLater))
  · intro hLe hBefore
    cases Int.lt_or_eq_of_le hLe with
    | inl hEarlier =>
      have hOrder := week_lt hEarlier
      omega
    | inr hSame =>
      subst hSame
      omega

end GhostApi.ProductTelemetry
