import GhostApi.Js.Text

/-!
# Dates as milliseconds since the epoch

A clock reading is an integer number of milliseconds. toISOString prints the
proleptic Gregorian date in UTC, with a signed six-digit year outside of the
years 0 to 9999. Date.parse is given for the one format that the validators
of the program let through.
-/

namespace Js.Date

def millisecondsPerDay : Int := 86400000

structure Civil where
  year : Int
  month : Int
  day : Int
  deriving DecidableEq

/-- Days are counted from 0000-03-01 in eras of 400 years. -/
def civilFromDays (days : Int) : Civil :=
  let z := days + 719468
  let era := z / 146097
  let doe := z % 146097
  let yoe := (doe - doe / 1460 + doe / 36524 - doe / 146096) / 365
  let doy := doe - (365 * yoe + yoe / 4 - yoe / 100)
  let mp := (5 * doy + 2) / 153
  let month := if mp < 10 then mp + 3 else mp - 9
  ⟨yoe + era * 400 + (if month ≤ 2 then 1 else 0), month, doy - (153 * mp + 2) / 5 + 1⟩

def daysFromCivil (date : Civil) : Int :=
  let y := if date.month ≤ 2 then date.year - 1 else date.year
  let era := y / 400
  let yoe := y % 400
  let mp := if 2 < date.month then date.month - 3 else date.month + 9
  let doy := (153 * mp + 2) / 5 + date.day - 1
  era * 146097 + (yoe * 365 + yoe / 4 - yoe / 100 + doy) - 719468

def digits (width : Nat) (n : Int) : String := padStart width (toString n.natAbs)

def yearText (year : Int) : String :=
  if 0 ≤ year ∧ year ≤ 9999 then digits 4 year
  else (if year < 0 then "-" else "+") ++ digits 6 year

def toISOString (ms : Int) : String :=
  let date := civilFromDays (ms / millisecondsPerDay)
  let rest := ms % millisecondsPerDay
  yearText date.year ++ "-" ++ digits 2 date.month ++ "-" ++ digits 2 date.day ++ "T" ++
    digits 2 (rest / 3600000) ++ ":" ++ digits 2 (rest / 60000 % 60) ++ ":" ++
    digits 2 (rest / 1000 % 60) ++ "." ++ digits 3 (rest % 1000) ++ "Z"

def number (cs : List Char) : Int := cs.foldl (fun n c => n * 10 + (c.toNat - 48 : Nat)) 0

/-- A template character d stands for a digit, every other one for itself. -/
def fits (template cs : List Char) : Bool :=
  template.length == cs.length &&
    (template.zip cs).all fun (t, c) => if t == 'd' then isDigit c else t == c

def isoTemplate : List Char := "dddd-dd-ddTdd:dd:dd.dddZ".toList

def field (cs : List Char) (start width : Nat) : Int := number ((cs.drop start).take width)

/-- Date.parse on texts of the ISO template; none stands for NaN. -/
def parse (s : String) : Option Int :=
  let cs := s.toList
  let month := field cs 5 2
  let day := field cs 8 2
  let hour := field cs 11 2
  let minute := field cs 14 2
  let second := field cs 17 2
  let ms := field cs 20 3
  if fits isoTemplate cs ∧ 1 ≤ month ∧ month ≤ 12 ∧ 1 ≤ day ∧ day ≤ 31 ∧ minute ≤ 59 ∧ second ≤ 59 ∧
      (hour ≤ 23 ∨ hour = 24 ∧ minute = 0 ∧ second = 0 ∧ ms = 0) then
    some (daysFromCivil ⟨field cs 0 4, month, day⟩ * millisecondsPerDay +
      hour * 3600000 + minute * 60000 + second * 1000 + ms)
  else none

/-- The test of the timestamp validators: the ISO template and a finite Date.parse. -/
def isTimestamp (s : String) : Bool := fits isoTemplate s.toList && (parse s).isSome

example : toISOString 1786881600000 = "2026-08-16T12:00:00.000Z" := by decide +kernel

example : parse "2026-08-16T12:00:00.000Z" = some 1786881600000 := by decide +kernel

theorem mem_fits {template cs : List Char} (h : fits template cs = true) :
    cs.length = template.length ∧ ∀ c ∈ cs, isDigit c = true ∨ c ∈ template := by
  simp only [fits, Bool.and_eq_true, beq_iff_eq] at h
  obtain ⟨hLength, hAll⟩ := h
  refine ⟨hLength.symm, ?_⟩
  induction template generalizing cs with
  | nil =>
    obtain rfl : cs = [] := List.length_eq_zero_iff.mp hLength.symm
    simp
  | cons t template ih =>
    cases cs with
    | nil => simp
    | cons c cs =>
      simp only [List.zip_cons_cons, List.all_cons, Bool.and_eq_true] at hAll
      have hTail := ih (Nat.succ.inj hLength) hAll.2
      rw [List.forall_mem_cons]
      refine ⟨?_, fun d hd => (hTail d hd).imp_right (List.mem_cons_of_mem t)⟩
      have hHead := hAll.1
      split at hHead
      · exact .inl hHead
      · exact .inr (by simp_all)

theorem isTimestamp_chars {s : String} (h : isTimestamp s = true) :
    s.toList.length = 24 ∧ ∀ c ∈ s.toList, isControl c = false := by
  rw [isTimestamp, Bool.and_eq_true] at h
  obtain ⟨hLength, hChars⟩ := mem_fits h.1
  refine ⟨hLength.trans (by decide), fun c hc => ?_⟩
  rcases hChars c hc with hDigit | hTemplate
  · rw [isDigit, Bool.and_eq_true, decide_eq_true_eq] at hDigit
    rw [isControl, decide_eq_false_iff_not, UInt32.not_lt]
    exact UInt32.le_trans (by decide : 0x20 ≤ '0'.val) hDigit.1
  · have hAll : (isoTemplate.all fun c => !isControl c) = true := by decide
    simpa using List.all_eq_true.mp hAll c hTemplate

/-! ## The calendar -/

theorem ediv_eq {a b q : Int} (hPos : 0 < b) (hLow : b * q ≤ a) (hHigh : a < b * q + b) : a / b = q :=
  ((Int.ediv_emod_unique hPos (r := a - b * q)).mpr ⟨by omega, by omega, by omega⟩).1

/-- A day of an era in its century, its cycle of four years and its year. -/
structure Cycles (doe c k j e : Int) : Prop where
  sum : doe = 36524 * c + 1461 * k + 365 * j + e
  century : 0 ≤ c ∧ c ≤ 3
  cycle : 0 ≤ k ∧ k ≤ 24
  year : 0 ≤ j ∧ j ≤ 3
  day : 0 ≤ e ∧ e ≤ 365
  leap : e = 365 → j = 3 ∧ (k ≤ 23 ∨ c = 3)

theorem exists_cycles {doe : Int} (hLow : 0 ≤ doe) (hHigh : doe ≤ 146096) : ∃ c k j e, Cycles doe c k j e := by
  obtain ⟨c, r, hCentury, hRangeC, hRangeR, hLast⟩ : ∃ c r : Int, doe = 36524 * c + r ∧ (0 ≤ c ∧ c ≤ 3) ∧
      (0 ≤ r ∧ r ≤ 36524) ∧ (r = 36524 → c = 3) := by
    by_cases hEnd : doe = 146096
    · exact ⟨3, 36524, by omega, by omega, by omega, by omega⟩
    · exact ⟨doe / 36524, doe % 36524, by omega, by omega, by omega, by omega⟩
  obtain ⟨k, q, hCycle, hRangeK, hRangeQ⟩ : ∃ k q : Int, r = 1461 * k + q ∧ (0 ≤ k ∧ k ≤ 24) ∧ (0 ≤ q ∧ q ≤ 1460) :=
    ⟨r / 1461, r % 1461, by omega, by omega, by omega⟩
  by_cases hLeap : q = 1460
  · exact ⟨c, k, 3, 365, by omega, hRangeC, hRangeK, by omega, by omega, by omega⟩
  · exact ⟨c, k, q / 365, q % 365, by omega, hRangeC, hRangeK, by omega, by omega, by omega⟩

section Cycles

variable {doe c k j e : Int}

theorem Cycles.quarter (h : Cycles doe c k j e) : ∃ q : Int, doe / 1460 = 25 * c + k + q ∧ 0 ≤ e - q ∧ e - q ≤ 364 := by
  obtain ⟨hSum, hCentury, hCycle, hYear, hDay, hLeap⟩ := h
  by_cases hLate : 1460 ≤ 24 * c + k + 365 * j + e
  · exact ⟨1, ediv_eq (by decide) (by omega) (by omega), by omega, by omega⟩
  · refine ⟨0, ediv_eq (by decide) (by omega) (by omega), by omega, ?_⟩
    by_contra hLast
    obtain ⟨hThird, _⟩ := hLeap (by omega)
    omega

theorem Cycles.century_eq (h : Cycles doe c k j e) : doe / 36524 - doe / 146096 = c := by
  obtain ⟨hSum, hCentury, hCycle, hYear, hDay, hLeap⟩ := h
  by_cases hLast : doe = 146096
  · have hFour : doe / 36524 = 4 := by rw [hLast]; decide
    have hAll : doe / 146096 = 1 := by rw [hLast]; decide
    omega
  · have hBelow : 1461 * k + 365 * j + e < 36524 := by
      by_contra hFull
      have hEnd : e = 365 := by omega
      obtain ⟨hThird, hYears⟩ := hLeap hEnd
      omega
    have hFour : doe / 36524 = c := ediv_eq (by decide) (by omega) (by omega)
    have hAll : doe / 146096 = 0 := ediv_eq (by decide) (by omega) (by omega)
    omega

theorem Cycles.yearOfEra (h : Cycles doe c k j e) :
    (doe - doe / 1460 + doe / 36524 - doe / 146096) / 365 = 100 * c + 4 * k + j := by
  obtain ⟨q, hQuarter, hLow, hHigh⟩ := h.quarter
  have hSum := h.sum
  rw [Int.add_sub_assoc, h.century_eq, hQuarter]
  exact ediv_eq (by decide) (by omega) (by omega)

theorem Cycles.dayOfYear (h : Cycles doe c k j e) :
    doe - (365 * (100 * c + 4 * k + j) + (100 * c + 4 * k + j) / 4 - (100 * c + 4 * k + j) / 100) = e := by
  obtain ⟨hSum, hCentury, hCycle, hYear, hDay, _⟩ := h
  have hFour : (100 * c + 4 * k + j) / 4 = 25 * c + k := ediv_eq (by decide) (by omega) (by omega)
  have hHundred : (100 * c + 4 * k + j) / 100 = c := ediv_eq (by decide) (by omega) (by omega)
  rw [hFour, hHundred]
  omega

end Cycles

theorem yearOfEra_range {doe yoe doy : Int} (hLow : 0 ≤ doe) (hHigh : doe ≤ 146096)
    (hYear : yoe = (doe - doe / 1460 + doe / 36524 - doe / 146096) / 365)
    (hDay : doy = doe - (365 * yoe + yoe / 4 - yoe / 100)) :
    0 ≤ yoe ∧ yoe ≤ 399 ∧ 0 ≤ doy ∧ doy ≤ 365 := by
  obtain ⟨c, k, j, e, h⟩ := exists_cycles hLow hHigh
  rw [h.yearOfEra] at hYear
  rw [hYear, h.dayOfYear] at hDay
  obtain ⟨_, hCentury, hCycle, hYears, hDays, _⟩ := h
  omega

theorem daysFromCivil_of {era yoe doy mp : Int} (hLow : 0 ≤ yoe) (hHigh : yoe ≤ 399) (hMonth : 0 ≤ mp ∧ mp ≤ 11) :
    daysFromCivil ⟨yoe + era * 400 + (if (if mp < 10 then mp + 3 else mp - 9) ≤ 2 then 1 else 0),
      if mp < 10 then mp + 3 else mp - 9, doy - (153 * mp + 2) / 5 + 1⟩ =
      era * 146097 + (yoe * 365 + yoe / 4 - yoe / 100 + doy) - 719468 := by
  have hEra : (yoe + era * 400) / 400 = era := ediv_eq (by decide) (by omega) (by omega)
  have hYear : (yoe + era * 400) % 400 = yoe := by omega
  rw [daysFromCivil]
  by_cases hSpring : mp < 10
  · have hDay : (153 * mp + 2) / 5 + (doy - (153 * mp + 2) / 5 + 1) - 1 = doy := by omega
    have hLate : ¬mp + 3 ≤ 2 := by omega
    have hMarch : 2 < mp + 3 := by omega
    simp only [if_pos hSpring, if_neg hLate, if_pos hMarch, Int.add_zero, hEra, hYear, Int.add_sub_cancel, hDay]
  · have hDay : (153 * mp + 2) / 5 + (doy - (153 * mp + 2) / 5 + 1) - 1 = doy := by omega
    have hEarly : mp - 9 ≤ 2 := by omega
    have hWinter : ¬2 < mp - 9 := by omega
    simp only [if_neg hSpring, if_pos hEarly, if_neg hWinter, Int.add_sub_cancel, Int.sub_add_cancel, hEra, hYear, hDay]

theorem monthPart_range {doy : Int} (hLow : 0 ≤ doy) (hHigh : doy ≤ 365) :
    0 ≤ (5 * doy + 2) / 153 ∧ (5 * doy + 2) / 153 ≤ 11 := by omega

theorem era_sum {days era doe yoe q c : Int} (h : doe + 146097 * era = days + 719468) :
    era * 146097 + (yoe * 365 + q - c + (doe - (365 * yoe + q - c))) - 719468 = days := by omega

theorem civil_roundtrip (days : Int) : daysFromCivil (civilFromDays days) = days := by
  have hLow := Int.emod_nonneg (days + 719468) (by decide : (146097 : Int) ≠ 0)
  have hHigh := Int.emod_lt_of_pos (days + 719468) (by decide : (0 : Int) < 146097)
  obtain ⟨hLowY, hHighY, hLowD, hHighD⟩ := yearOfEra_range hLow (Int.le_of_lt_add_one hHigh) rfl rfl
  rw [civilFromDays]
  refine (daysFromCivil_of hLowY hHighY (monthPart_range hLowD hHighD)).trans ?_
  exact era_sum (Int.emod_add_mul_ediv (days + 719468) 146097)

/-! ## Digits -/

theorem number_eq (cs : List Char) : number cs = (Nat.ofDigitChars 10 cs 0 : Nat) := by
  have hFold : ∀ (n : Nat), cs.foldl (fun (n : Int) c => n * 10 + (c.toNat - 48 : Nat)) n =
      (Nat.ofDigitChars 10 cs n : Nat) := by
    induction cs with
    | nil => exact fun _ => rfl
    | cons c cs ih =>
      intro n
      rw [List.foldl_cons, Nat.ofDigitChars_cons, ← ih]
      refine congrArg (cs.foldl _) ?_
      have hZero : '0'.toNat = 48 := rfl
      rw [hZero]
      omega
  exact hFold 0

theorem digits_toList (width : Nat) (n : Int) : (digits width n).toList =
    List.replicate (width - (Nat.toDigits 10 n.natAbs).length) '0' ++ Nat.toDigits 10 n.natAbs := by
  have hDigits : (toString n.natAbs).toList = Nat.toDigits 10 n.natAbs := Nat.toList_repr
  rw [digits, padStart, String.toList_append, String.toList_ofList, hDigits]

theorem digits_number (width : Nat) {n : Int} (h : 0 ≤ n) : number (digits width n).toList = n := by
  rw [number_eq, digits_toList, Nat.ofDigitChars_append, Nat.ofDigitChars_replicate_zero, Nat.mul_zero,
    Nat.ofDigitChars_ten_toDigits]
  omega

theorem digits_length {width : Nat} (hPos : 0 < width) {n : Int} (h : n.natAbs < 10 ^ width) :
    (digits width n).toList.length = width := by
  have hLength := (Nat.length_toDigits_le_iff (by decide) hPos).mpr h
  rw [digits_toList, List.length_append, List.length_replicate]
  omega

theorem digits_length_le (width : Nat) (n : Int) : width ≤ (digits width n).toList.length := by
  rw [digits_toList, List.length_append, List.length_replicate]
  omega

/-! ## Printing and parsing -/

theorem dayPart_range (doy : Int) :
    1 ≤ doy - (153 * ((5 * doy + 2) / 153) + 2) / 5 + 1 ∧ doy - (153 * ((5 * doy + 2) / 153) + 2) / 5 + 1 ≤ 31 := by
  omega

theorem month_range {mp : Int} (h : 0 ≤ mp ∧ mp ≤ 11) :
    1 ≤ (if mp < 10 then mp + 3 else mp - 9) ∧ (if mp < 10 then mp + 3 else mp - 9) ≤ 12 := by
  split <;> omega

theorem civilFromDays_range (days : Int) : (1 ≤ (civilFromDays days).month ∧ (civilFromDays days).month ≤ 12) ∧
    1 ≤ (civilFromDays days).day ∧ (civilFromDays days).day ≤ 31 := by
  have hLow := Int.emod_nonneg (days + 719468) (by decide : (146097 : Int) ≠ 0)
  have hHigh := Int.emod_lt_of_pos (days + 719468) (by decide : (0 : Int) < 146097)
  obtain ⟨_, _, hLowD, hHighD⟩ := yearOfEra_range hLow (Int.le_of_lt_add_one hHigh) rfl rfl
  rw [civilFromDays]
  exact ⟨month_range (monthPart_range hLowD hHighD), dayPart_range _⟩

structure Parts where
  year : List Char
  month : List Char
  day : List Char
  hour : List Char
  minute : List Char
  second : List Char
  ms : List Char

def Parts.chars (parts : Parts) : List Char :=
  parts.year ++ '-' :: (parts.month ++ '-' :: (parts.day ++ 'T' :: (parts.hour ++ ':' :: (parts.minute ++ ':' ::
    (parts.second ++ '.' :: (parts.ms ++ ['Z']))))))

def partsOf (date : Civil) (rest : Int) : Parts where
  year := (yearText date.year).toList
  month := (digits 2 date.month).toList
  day := (digits 2 date.day).toList
  hour := (digits 2 (rest / 3600000)).toList
  minute := (digits 2 (rest / 60000 % 60)).toList
  second := (digits 2 (rest / 1000 % 60)).toList
  ms := (digits 3 (rest % 1000)).toList

theorem toISOString_toList (ms : Int) : (toISOString ms).toList =
    (partsOf (civilFromDays (ms / millisecondsPerDay)) (ms % millisecondsPerDay)).chars := by
  have hDash : "-".toList = ['-'] := rfl
  have hT : "T".toList = ['T'] := rfl
  have hColon : ":".toList = [':'] := rfl
  have hDot : ".".toList = ['.'] := rfl
  have hZ : "Z".toList = ['Z'] := rfl
  simp only [toISOString, String.toList_append, hDash, hT, hColon, hDot, hZ, partsOf, Parts.chars, List.append_assoc,
    List.cons_append, List.nil_append]

theorem field_of {cs before mid after : List Char} {start width : Nat} (h : cs = before ++ (mid ++ after))
    (hStart : before.length = start) (hWidth : mid.length = width) : field cs start width = number mid := by
  rw [field, h, ← hStart, ← hWidth, List.drop_left, List.take_left]

structure Parts.Fits (parts : Parts) : Prop where
  year : parts.year.length = 4
  month : parts.month.length = 2
  day : parts.day.length = 2
  hour : parts.hour.length = 2
  minute : parts.minute.length = 2
  second : parts.second.length = 2
  ms : parts.ms.length = 3

theorem Parts.fields {parts : Parts} (h : parts.Fits) :
    field parts.chars 0 4 = number parts.year ∧ field parts.chars 5 2 = number parts.month ∧
    field parts.chars 8 2 = number parts.day ∧ field parts.chars 11 2 = number parts.hour ∧
    field parts.chars 14 2 = number parts.minute ∧ field parts.chars 17 2 = number parts.second ∧
    field parts.chars 20 3 = number parts.ms := by
  obtain ⟨hYear, hMonth, hDay, hHour, hMinute, hSecond, hMs⟩ := h
  obtain ⟨year, month, day, hour, minute, second, ms⟩ := parts
  dsimp only at *
  refine ⟨?_, ?_, ?_, ?_, ?_, ?_, ?_⟩
  · exact @field_of _ [] year _ _ _ rfl rfl hYear
  · exact @field_of _ (year ++ ['-']) month _ _ _ (by simp [Parts.chars]; rfl) (by simp [hYear]) hMonth
  · exact @field_of _ (year ++ '-' :: (month ++ ['-'])) day _ _ _ (by simp [Parts.chars]; rfl)
      (by simp [hYear, hMonth]) hDay
  · exact @field_of _ (year ++ '-' :: (month ++ '-' :: (day ++ ['T']))) hour _ _ _ (by simp [Parts.chars]; rfl)
      (by simp [hYear, hMonth, hDay]) hHour
  · exact @field_of _ (year ++ '-' :: (month ++ '-' :: (day ++ 'T' :: (hour ++ [':'])))) minute _ _ _
      (by simp [Parts.chars]; rfl) (by simp [hYear, hMonth, hDay, hHour]) hMinute
  · exact @field_of _ (year ++ '-' :: (month ++ '-' :: (day ++ 'T' :: (hour ++ ':' :: (minute ++ [':']))))) second _ _ _
      (by simp [Parts.chars]; rfl) (by simp [hYear, hMonth, hDay, hHour, hMinute]) hSecond
  · exact @field_of _ (year ++ '-' :: (month ++ '-' :: (day ++ 'T' :: (hour ++ ':' :: (minute ++ ':' ::
      (second ++ ['.'])))))) ms ['Z'] _ _ (by simp [Parts.chars]) (by simp [hYear, hMonth, hDay, hHour, hMinute, hSecond]) hMs

/-- The parts of a date that exists and of a time of day. -/
structure Sound (date : Civil) (rest : Int) : Prop where
  month : 1 ≤ date.month ∧ date.month ≤ 12
  day : 1 ≤ date.day ∧ date.day ≤ 31
  rest : 0 ≤ rest ∧ rest < 86400000

theorem widths_of_sound {date : Civil} {rest : Int} (h : Sound date rest) :
    (digits 2 date.month).toList.length = 2 ∧ (digits 2 date.day).toList.length = 2 ∧
    (digits 2 (rest / 3600000)).toList.length = 2 ∧ (digits 2 (rest / 60000 % 60)).toList.length = 2 ∧
    (digits 2 (rest / 1000 % 60)).toList.length = 2 ∧ (digits 3 (rest % 1000)).toList.length = 3 := by
  obtain ⟨hMonths, hDays, hRest⟩ := h
  refine ⟨?_, ?_, ?_, ?_, ?_, ?_⟩ <;> exact digits_length (by decide) (by omega)

theorem partsOf_fits_of {date : Civil} {rest : Int} (h : Sound date rest) (hYear : (yearText date.year).toList.length = 4) :
    (partsOf date rest).Fits := by
  obtain ⟨hMonth, hDay, hHour, hMinute, hSecond, hMs⟩ := widths_of_sound h
  constructor <;> simp only [partsOf, hYear, hMonth, hDay, hHour, hMinute, hSecond, hMs]

theorem partsOf_length {date : Civil} {rest : Int} (h : Sound date rest) :
    (partsOf date rest).chars.length = (yearText date.year).toList.length + 20 := by
  obtain ⟨hMonth, hDay, hHour, hMinute, hSecond, hMs⟩ := widths_of_sound h
  simp only [partsOf, Parts.chars, List.length_append, List.length_cons, List.length_nil, hMonth, hDay, hHour, hMinute,
    hSecond, hMs]

theorem partsOf_fits {date : Civil} {rest : Int} (h : Sound date rest) (hLength : (partsOf date rest).chars.length = 24) :
    (partsOf date rest).Fits ∧ 0 ≤ date.year ∧ date.year ≤ 9999 := by
  have hYear : (yearText date.year).toList.length = 4 := by
    rw [partsOf_length h] at hLength
    omega
  refine ⟨partsOf_fits_of h hYear, ?_⟩
  rw [yearText] at hYear
  split at hYear
  · assumption
  · have hDigits := digits_length_le 6 date.year
    rw [String.toList_append, List.length_append] at hYear
    omega

theorem sound_civil (ms : Int) : Sound (civilFromDays (ms / millisecondsPerDay)) (ms % millisecondsPerDay) := by
  obtain ⟨hMonth, hDay⟩ := civilFromDays_range (ms / millisecondsPerDay)
  refine ⟨hMonth, hDay, ?_⟩
  rw [millisecondsPerDay]
  omega

theorem number_year {date : Civil} (h : 0 ≤ date.year ∧ date.year ≤ 9999) : number (yearText date.year).toList = date.year := by
  rw [yearText, if_pos h]
  exact digits_number 4 h.1

theorem parse_of_chars {s : String} {parts : Parts} (hChars : s.toList = parts.chars) (hFits : parts.Fits)
    (hSome : (parse s).isSome = true) : parse s = some (daysFromCivil ⟨number parts.year, number parts.month,
      number parts.day⟩ * millisecondsPerDay + number parts.hour * 3600000 + number parts.minute * 60000 +
      number parts.second * 1000 + number parts.ms) := by
  obtain ⟨hYear, hMonth, hDay, hHour, hMinute, hSecond, hMs⟩ := Parts.fields hFits
  rw [parse] at hSome ⊢
  simp only [hChars, hYear, hMonth, hDay, hHour, hMinute, hSecond, hMs] at hSome ⊢
  split at hSome
  · rw [if_pos ‹_›]
  · cases hSome

theorem clock_sum (rest : Int) :
    rest / 3600000 * 3600000 + rest / 60000 % 60 * 60000 + rest / 1000 % 60 * 1000 + rest % 1000 = rest := by
  have hMinutes : rest / 60000 = rest / 1000 / 60 := by omega
  have hHours : rest / 3600000 = rest / 1000 / 60 / 60 := by omega
  have hSeconds := Int.emod_add_mul_ediv rest 1000
  rw [hMinutes, hHours]
  generalize rest / 1000 = seconds at hSeconds ⊢
  omega

theorem parse_toISOString {ms : Int} (h : isTimestamp (toISOString ms) = true) : parse (toISOString ms) = some ms := by
  have hSound := sound_civil ms
  have hDate := civil_roundtrip (ms / millisecondsPerDay)
  have hSplit := Int.emod_add_mul_ediv ms millisecondsPerDay
  have hChars := toISOString_toList ms
  obtain ⟨hLength, _⟩ := isTimestamp_chars h
  rw [isTimestamp, Bool.and_eq_true] at h
  rw [hChars] at hLength
  generalize civilFromDays (ms / millisecondsPerDay) = date at hSound hDate hChars hLength
  generalize ms % millisecondsPerDay = rest at hSound hSplit hChars hLength
  obtain ⟨hFits, hYear⟩ := partsOf_fits hSound hLength
  obtain ⟨hMonth, hDay, hRest⟩ := hSound
  have hYears : number (yearText date.year).toList = date.year := number_year hYear
  have hMonths : number (digits 2 date.month).toList = date.month := digits_number 2 (by omega)
  have hDays : number (digits 2 date.day).toList = date.day := digits_number 2 (by omega)
  have hHours : number (digits 2 (rest / 3600000)).toList = rest / 3600000 := digits_number 2 (by omega)
  have hMinutes : number (digits 2 (rest / 60000 % 60)).toList = rest / 60000 % 60 := digits_number 2 (by omega)
  have hSeconds : number (digits 2 (rest / 1000 % 60)).toList = rest / 1000 % 60 := digits_number 2 (by omega)
  have hMs : number (digits 3 (rest % 1000)).toList = rest % 1000 := digits_number 3 (by omega)
  rw [parse_of_chars hChars hFits h.2]
  simp only [partsOf, hYears, hMonths, hDays, hHours, hMinutes, hSeconds, hMs]
  have hClock := clock_sum rest
  refine congrArg some ?_
  calc daysFromCivil date * millisecondsPerDay + rest / 3600000 * 3600000 + rest / 60000 % 60 * 60000 +
        rest / 1000 % 60 * 1000 + rest % 1000 = rest + millisecondsPerDay * daysFromCivil date := by
        rw [Int.mul_comm millisecondsPerDay]
        omega
    _ = ms := by rw [hDate, hSplit]

theorem daysFromCivil_range {date : Civil} (hYear : 0 ≤ date.year ∧ date.year ≤ 9999)
    (hMonth : 1 ≤ date.month ∧ date.month ≤ 12) (hDay : 1 ≤ date.day ∧ date.day ≤ 31) :
    -800000 ≤ daysFromCivil date ∧ daysFromCivil date ≤ 4000000 := by
  rw [daysFromCivil]
  constructor
  · split <;> split <;> omega
  · split <;> split <;> omega

theorem natAbs_le_of_isTimestamp {ms : Int} (h : isTimestamp (toISOString ms) = true) : ms.natAbs ≤ 8640000000000000 := by
  obtain ⟨hMonth, hDay, hRest⟩ := sound_civil ms
  obtain ⟨hLength, _⟩ := isTimestamp_chars h
  rw [toISOString_toList] at hLength
  obtain ⟨_, hYear⟩ := partsOf_fits (sound_civil ms) hLength
  have hDays := daysFromCivil_range hYear hMonth hDay
  rw [civil_roundtrip] at hDays
  have hSplit := Int.emod_add_mul_ediv ms millisecondsPerDay
  generalize ms % millisecondsPerDay = rest at hRest hSplit
  generalize ms / millisecondsPerDay = days at hDays hSplit
  rw [millisecondsPerDay] at hSplit
  omega
attribute [irreducible] toISOString isTimestamp

end Js.Date
