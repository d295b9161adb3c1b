import GhostApi.Js.Date
import GhostApi.Js.Objects

/-!
# Years and weeks

Years as intervals of days, the weeks of ISO 8601, and the order of texts that
are made of numbers of fixed widths. Day 0 is a Thursday.
-/

namespace Js.Date

def yearStart (year : Int) : Int := daysFromCivil ⟨year, 1, 1⟩

/-- The days from 0000-03-01 to the March of a year. -/
def marchStart (year : Int) : Int := 365 * year + year / 4 - year / 100 + year / 400

theorem daysFromCivil_late {date : Civil} (h : 2 < date.month) :
    daysFromCivil date = marchStart date.year + (153 * (date.month - 3) + 2) / 5 + date.day - 1 - 719468 := by
  have hLate : ¬date.month ≤ 2 := by omega
  simp only [daysFromCivil, marchStart, if_neg hLate, if_pos h]
  omega

theorem daysFromCivil_early {date : Civil} (h : date.month ≤ 2) :
    daysFromCivil date = marchStart (date.year - 1) + (153 * (date.month + 9) + 2) / 5 + date.day - 1 - 719468 := by
  have hEarly : ¬2 < date.month := by omega
  simp only [daysFromCivil, marchStart, if_pos h, if_neg hEarly]
  omega

theorem yearStart_eq (year : Int) : yearStart year = marchStart (year - 1) + 306 - 719468 := by
  have hEarly : daysFromCivil ⟨year, 1, 1⟩ = marchStart (year - 1) + (153 * (1 + 9) + 2) / 5 + 1 - 1 - 719468 :=
    daysFromCivil_early (by decide : (1 : Int) ≤ 2)
  rw [yearStart, hEarly]
  omega

theorem marchStart_succ (year : Int) : marchStart year + 365 ≤ marchStart (year + 1) ∧ marchStart (year + 1) ≤ marchStart year + 366 := by
  rw [marchStart, marchStart]
  omega

theorem marchStart_lt {year year' : Int} (h : year < year') : marchStart year + 365 ≤ marchStart year' := by
  rw [marchStart, marchStart]
  omega

theorem yearStart_lt {year year' : Int} (h : year < year') : yearStart year + 365 ≤ yearStart year' := by
  have hMarch := marchStart_lt (show year - 1 < year' - 1 by omega)
  rw [yearStart_eq, yearStart_eq]
  omega

theorem yearStart_succ_le (year : Int) : yearStart (year + 1) ≤ yearStart year + 366 := by
  have hMarch := marchStart_succ (year - 1)
  rw [yearStart_eq, yearStart_eq, show year + 1 - 1 = year - 1 + 1 by omega]
  omega

theorem year_bounds (days : Int) :
    yearStart (civilFromDays days).year ≤ days ∧ days < yearStart ((civilFromDays days).year + 1) := by
  have hDate := civil_roundtrip days
  obtain ⟨⟨hLowM, hHighM⟩, hLowD, hHighD⟩ := civilFromDays_range days
  generalize civilFromDays days = date at hDate hLowM hHighM hLowD hHighD ⊢
  have hBefore := marchStart_succ (date.year - 1)
  rw [Int.sub_add_cancel] at hBefore
  rw [yearStart_eq, yearStart_eq, Int.add_sub_cancel]
  by_cases hMonth : date.month ≤ 2
  · rw [daysFromCivil_early hMonth] at hDate
    omega
  · rw [daysFromCivil_late (by omega)] at hDate
    omega

theorem year_le_of_le {days days' : Int} (h : days ≤ days') : (civilFromDays days).year ≤ (civilFromDays days').year := by
  by_contra hLess
  have hEarlier := year_bounds days
  have hLater := year_bounds days'
  have hNext : (civilFromDays days').year + 1 ≤ (civilFromDays days).year := by omega
  by_cases hSame : (civilFromDays days').year + 1 = (civilFromDays days).year
  · rw [hSame] at hLater
    omega
  · have hYears := yearStart_lt (show (civilFromDays days').year + 1 < (civilFromDays days).year by omega)
    omega

theorem daysFromCivil_add (year month day k : Int) :
    daysFromCivil ⟨year, month, day + k⟩ = daysFromCivil ⟨year, month, day⟩ + k := by
  by_cases hMonth : month ≤ 2
  · rw [daysFromCivil_early hMonth, daysFromCivil_early hMonth]
    dsimp only
    omega
  · rw [daysFromCivil_late (Int.not_le.mp hMonth), daysFromCivil_late (Int.not_le.mp hMonth)]
    dsimp only
    omega

/-! ## The parts of a date in UTC -/

def getUTCFullYear (ms : Int) : Int := (civilFromDays (ms / millisecondsPerDay)).year

/-- The month from 1 on. -/
def getUTCMonth (ms : Int) : Int := (civilFromDays (ms / millisecondsPerDay)).month

def getUTCDate (ms : Int) : Int := (civilFromDays (ms / millisecondsPerDay)).day

def weekday (days : Int) : Int := (days + 4) % 7

def getUTCDay (ms : Int) : Int := weekday (ms / millisecondsPerDay)

/-- Date.UTC with a month from 1 on; a year of two digits is one of the twentieth century. -/
def UTC (year month day : Int) : Int :=
  daysFromCivil ⟨if 0 ≤ year ∧ year ≤ 99 then 1900 + year else year, month, day⟩ * millisecondsPerDay

def setUTCDate (ms day : Int) : Int :=
  daysFromCivil ⟨getUTCFullYear ms, getUTCMonth ms, day⟩ * millisecondsPerDay + ms % millisecondsPerDay

theorem days_mul (days : Int) : days * millisecondsPerDay / millisecondsPerDay = days :=
  Int.mul_ediv_cancel days (by decide)

theorem UTC_of_date {ms : Int} (h : 99 < getUTCFullYear ms) :
    UTC (getUTCFullYear ms) (getUTCMonth ms) (getUTCDate ms) = ms / millisecondsPerDay * millisecondsPerDay := by
  have hYear : ¬(0 ≤ getUTCFullYear ms ∧ getUTCFullYear ms ≤ 99) := by omega
  rw [UTC, if_neg hYear]
  exact congrArg (· * millisecondsPerDay) (civil_roundtrip _)

theorem UTC_of_year {year : Int} (h : 99 < year) : UTC year 1 1 = yearStart year * millisecondsPerDay := by
  rw [UTC, if_neg (by omega), yearStart]

theorem setUTCDate_add (days k : Int) : setUTCDate (days * millisecondsPerDay) (getUTCDate (days * millisecondsPerDay) + k) =
    (days + k) * millisecondsPerDay := by
  rw [setUTCDate, daysFromCivil_add, Int.mul_emod_left, Int.add_zero, getUTCFullYear, getUTCMonth, getUTCDate, days_mul]
  rw [show daysFromCivil ⟨(civilFromDays days).year, (civilFromDays days).month, (civilFromDays days).day⟩ = days from
    civil_roundtrip days]

/-! ## Printable times -/

/-- The years 1970 to 9999. -/
def InYears (ms : Int) : Prop := 0 ≤ ms ∧ ms < 253402300800000

theorem year_of_inYears {ms : Int} (h : InYears ms) :
    1970 ≤ (civilFromDays (ms / millisecondsPerDay)).year ∧ (civilFromDays (ms / millisecondsPerDay)).year ≤ 9999 := by
  obtain ⟨hLow, hHigh⟩ := h
  have hFirst : (civilFromDays 0).year = 1970 := by decide
  have hLast : (civilFromDays 2932896).year = 9999 := by decide
  have hDay : 0 ≤ ms / millisecondsPerDay ∧ ms / millisecondsPerDay ≤ 2932896 := by
    rw [millisecondsPerDay]
    omega
  constructor
  · rw [← hFirst]
    exact year_le_of_le hDay.1
  · rw [← hLast]
    exact year_le_of_le hDay.2

theorem isDigit_digits {width : Nat} {n : Int} {c : Char} (h : c ∈ (digits width n).toList) : isDigit c = true := by
  rw [digits_toList, List.mem_append, List.mem_replicate] at h
  cases h with
  | inl hZero =>
    rw [hZero.2]
    decide
  | inr hDigit =>
    have hRange := Nat.isDigit_of_mem_toDigits (by decide) (by decide) hDigit
    rw [Char.isDigit, Bool.and_eq_true, decide_eq_true_eq, decide_eq_true_eq] at hRange
    rw [isDigit, Bool.and_eq_true, decide_eq_true_eq, decide_eq_true_eq]
    exact hRange

theorem fits_append {t t' cs cs' : List Char} (h : fits t cs = true) (h' : fits t' cs' = true) :
    fits (t ++ t') (cs ++ cs') = true := by
  rw [fits, Bool.and_eq_true, beq_iff_eq] at h h' ⊢
  rw [List.length_append, List.length_append, List.zip_append h.1, List.all_append, Bool.and_eq_true]
  exact ⟨by omega, h.2, h'.2⟩

theorem fits_digits {width : Nat} {cs : List Char} (hLength : cs.length = width) (hDigits : ∀ c ∈ cs, isDigit c = true) :
    fits (List.replicate width 'd') cs = true := by
  subst hLength
  induction cs with
  | nil => rfl
  | cons c cs ih =>
    have hHead : fits ['d'] [c] = true := by
      rw [fits]
      simpa using hDigits c List.mem_cons_self
    exact fits_append hHead (ih fun d hd => hDigits d (List.mem_cons_of_mem c hd))

theorem isoTemplate_eq : isoTemplate = List.replicate 4 'd' ++ (['-'] ++ (List.replicate 2 'd' ++ (['-'] ++ (List.replicate 2 'd' ++
    (['T'] ++ (List.replicate 2 'd' ++ ([':'] ++ (List.replicate 2 'd' ++ ([':'] ++ (List.replicate 2 'd' ++ (['.'] ++
    (List.replicate 3 'd' ++ ['Z'])))))))))))) := by decide

theorem Parts.chars_eq (parts : Parts) : parts.chars = parts.year ++ (['-'] ++ (parts.month ++ (['-'] ++ (parts.day ++
    (['T'] ++ (parts.hour ++ ([':'] ++ (parts.minute ++ ([':'] ++ (parts.second ++ (['.'] ++ (parts.ms ++ ['Z'])))))))))))) := rfl

theorem Parts.fits_template {parts : Parts} (h : parts.Fits) (hDigits : ∀ part ∈ [parts.year, parts.month, parts.day, parts.hour,
    parts.minute, parts.second, parts.ms], ∀ c ∈ part, isDigit c = true) : fits isoTemplate parts.chars = true := by
  obtain ⟨hYear, hMonth, hDay, hHour, hMinute, hSecond, hMs⟩ := h
  simp only [List.forall_mem_cons] at hDigits
  obtain ⟨hYears, hMonths, hDays, hHours, hMinutes, hSeconds, hMillis, _⟩ := hDigits
  rw [isoTemplate_eq, Parts.chars_eq]
  refine fits_append (fits_digits hYear hYears) (fits_append (by decide) ?_)
  refine fits_append (fits_digits hMonth hMonths) (fits_append (by decide) ?_)
  refine fits_append (fits_digits hDay hDays) (fits_append (by decide) ?_)
  refine fits_append (fits_digits hHour hHours) (fits_append (by decide) ?_)
  refine fits_append (fits_digits hMinute hMinutes) (fits_append (by decide) ?_)
  refine fits_append (fits_digits hSecond hSeconds) (fits_append (by decide) ?_)
  exact fits_append (fits_digits hMs hMillis) (by decide)

theorem fits_parts {date : Civil} {rest : Int} (h : (partsOf date rest).Fits) (hYear : 0 ≤ date.year ∧ date.year ≤ 9999) :
    fits isoTemplate (partsOf date rest).chars = true := by
  refine Parts.fits_template h ?_
  simp only [List.forall_mem_cons, partsOf, yearText, if_pos hYear]
  refine ⟨?_, ?_, ?_, ?_, ?_, ?_, ?_, fun _ hMem => absurd hMem List.not_mem_nil⟩ <;> exact fun _ => isDigit_digits

theorem isTimestamp_toISOString {ms : Int} (h : InYears ms) : isTimestamp (toISOString ms) = true := by
  have hYear : 0 ≤ (civilFromDays (ms / millisecondsPerDay)).year ∧ (civilFromDays (ms / millisecondsPerDay)).year ≤ 9999 := by
    have hRange := year_of_inYears h
    omega
  have hSound := sound_civil ms
  have hChars := toISOString_toList ms
  generalize civilFromDays (ms / millisecondsPerDay) = date at hYear hSound hChars
  generalize ms % millisecondsPerDay = rest at hSound hChars
  have hWidth : (yearText date.year).toList.length = 4 := by
    rw [yearText, if_pos hYear]
    exact digits_length (by decide) (by omega)
  have hFits := partsOf_fits_of hSound hWidth
  have hTemplate := fits_parts hFits hYear
  obtain ⟨_, hMonth, hDay, hHour, hMinute, hSecond, hMs⟩ := Parts.fields hFits
  obtain ⟨hMonths, hDays, hRest⟩ := hSound
  have hMonthRange : number (digits 2 date.month).toList = date.month := digits_number 2 (by omega)
  have hDayRange : number (digits 2 date.day).toList = date.day := digits_number 2 (by omega)
  have hHourRange : number (digits 2 (rest / 3600000)).toList = rest / 3600000 := digits_number 2 (by omega)
  have hMinuteRange : number (digits 2 (rest / 60000 % 60)).toList = rest / 60000 % 60 := digits_number 2 (by omega)
  have hSecondRange : number (digits 2 (rest / 1000 % 60)).toList = rest / 1000 % 60 := digits_number 2 (by omega)
  rw [isTimestamp, hChars, hTemplate, Bool.true_and, parse]
  simp only [hChars, hTemplate, hMonth, hDay, hHour, hMinute, hSecond, true_and]
  simp only [partsOf, hMonthRange, hDayRange, hHourRange, hMinuteRange, hSecondRange]
  rw [if_pos ⟨hMonths.1, hMonths.2, hDays.1, hDays.2, by omega, by omega, .inl (by omega)⟩]
  rfl

/-! ## The order of texts -/

theorem flatMap_utf16_digits {cs : List Char} (h : ∀ c ∈ cs, isDigit c = true) : cs.flatMap Json.utf16 = cs.map Char.toNat := by
  induction cs with
  | nil => rfl
  | cons c cs ih =>
    have hDigit := h c List.mem_cons_self
    rw [isDigit, Bool.and_eq_true, decide_eq_true_eq, decide_eq_true_eq] at hDigit
    have hUnit : c.val < 0x10000 := UInt32.lt_of_le_of_lt hDigit.2 (by decide)
    rw [List.flatMap_cons, ih fun d hd => h d (List.mem_cons_of_mem c hd), Json.utf16, if_pos hUnit]
    rfl

theorem lex_append {xs ys us vs : List Nat} (h : xs.length = ys.length) :
    (xs ++ us).lex (ys ++ vs) = true ↔ xs.lex ys = true ∨ xs = ys ∧ us.lex vs = true := by
  induction xs generalizing ys with
  | nil =>
    cases List.length_eq_zero_iff.mp h.symm
    simp
  | cons x xs ih =>
    cases ys with
    | nil => cases h
    | cons y ys =>
      have hTail := ih (Nat.succ.inj h)
      simp only [List.cons_append, List.lex, Bool.or_eq_true, Bool.and_eq_true, decide_eq_true_eq, beq_iff_eq, hTail,
        List.cons.injEq]
      tauto

theorem value_cons {c : Char} {cs : List Char} : Nat.ofDigitChars 10 (c :: cs) 0 =
    10 ^ cs.length * (c.toNat - 48) + Nat.ofDigitChars 10 cs 0 := by
  rw [Nat.ofDigitChars_cons, Nat.ofDigitChars_eq_ofDigitChars_zero, Nat.mul_zero, Nat.zero_add]
  rfl

theorem digit_range {c : Char} (h : isDigit c = true) : 48 ≤ c.toNat ∧ c.toNat ≤ 57 := by
  rw [isDigit, Bool.and_eq_true, decide_eq_true_eq, decide_eq_true_eq] at h
  exact ⟨UInt32.le_iff_toNat_le.mp h.1, UInt32.le_iff_toNat_le.mp h.2⟩

theorem value_lt {cs : List Char} (h : ∀ c ∈ cs, isDigit c = true) : Nat.ofDigitChars 10 cs 0 < 10 ^ cs.length := by
  induction cs with
  | nil => decide
  | cons c cs ih =>
    have hRest := ih fun d hd => h d (List.mem_cons_of_mem c hd)
    have hDigit := digit_range (h c List.mem_cons_self)
    have hLead : 10 ^ cs.length * (c.toNat - 48) ≤ 10 ^ cs.length * 9 := Nat.mul_le_mul_left _ (by omega)
    rw [value_cons, List.length_cons, Nat.pow_succ]
    omega

theorem lex_digits {cs ds : List Char} (hLength : cs.length = ds.length) (hc : ∀ c ∈ cs, isDigit c = true)
    (hd : ∀ d ∈ ds, isDigit d = true) : (cs.map Char.toNat).lex (ds.map Char.toNat) = true ↔ number cs < number ds := by
  rw [number_eq, number_eq, Int.ofNat_lt]
  induction cs generalizing ds with
  | nil =>
    cases List.length_eq_zero_iff.mp hLength.symm
    simp
  | cons c cs ih =>
    cases ds with
    | nil => cases hLength
    | cons d ds =>
      have hTail := ih (Nat.succ.inj hLength) (fun x hx => hc x (List.mem_cons_of_mem c hx)) fun x hx =>
        hd x (List.mem_cons_of_mem d hx)
      have hLow := value_lt fun x hx => hc x (List.mem_cons_of_mem c hx)
      have hHigh := value_lt fun x hx => hd x (List.mem_cons_of_mem d hx)
      have hDigit := digit_range (hc c List.mem_cons_self)
      have hDigit' := digit_range (hd d List.mem_cons_self)
      have hSame : cs.length = ds.length := Nat.succ.inj hLength
      simp only [List.map_cons, List.lex, Bool.or_eq_true, Bool.and_eq_true, decide_eq_true_eq, beq_iff_eq, hTail]
      rw [value_cons, value_cons, hSame]
      rw [hSame] at hLow
      obtain hLess | hEqual | hMore := Nat.lt_trichotomy c.toNat d.toNat
      · have hStep : 10 ^ ds.length * (c.toNat - 48 + 1) ≤ 10 ^ ds.length * (d.toNat - 48) := Nat.mul_le_mul_left _ (by omega)
        rw [Nat.mul_succ] at hStep
        exact iff_of_true (.inl hLess) (by omega)
      · rw [hEqual]
        simp
      · have hStep : 10 ^ ds.length * (d.toNat - 48 + 1) ≤ 10 ^ ds.length * (c.toNat - 48) := Nat.mul_le_mul_left _ (by omega)
        rw [Nat.mul_succ] at hStep
        exact iff_of_false (by omega) (by omega)

end Js.Date
