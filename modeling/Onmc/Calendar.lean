import Onmc.JsonText

/-! Timezone-aware instants in UTC, as `datetime` represents them: microseconds in the
years 1 to 9999, the proleptic Gregorian calendar, and the ISO text form. Offsets other
than UTC never reach the text, so only `Z` is read. -/
namespace Onmc

/-- An instant counted in microseconds from 0001-01-01T00:00:00. -/
structure DateTime where
  micros : Nat
  inRange : micros < 315537897600000000
deriving DecidableEq

namespace DateTime
open Json (padded)

/-- Year of the era and day of the year, both counted from March, for a day of the 400-year era. -/
def yearDay (doe : Nat) : Nat × Nat :=
  let century := min (doe / 36524) 3
  let rest := doe - 36524 * century
  let year := min (rest % 1461 / 365) 3
  (100 * century + 4 * (rest / 1461) + year, rest % 1461 - 365 * year)

/-- Year, month and day of the `n`-th day after 0001-01-01. The year is counted from March,
so that the leap day comes last. -/
def civil (n : Nat) : Nat × Nat × Nat :=
  let (year, day) := yearDay ((n + 306) % 146097)
  let mp := (5 * day + 2) / 153
  let month := if mp < 10 then mp + 3 else mp - 9
  ((n + 306) / 146097 * 400 + year + (if month ≤ 2 then 1 else 0), month, day - (153 * mp + 2) / 5 + 1)

def daysBeforeYear (year : Nat) : Nat := 365 * year + year / 4 - year / 100

/-- Days from 0000-03-01 to a date. -/
def sinceMarch (year month day : Nat) : Nat :=
  let y := if month ≤ 2 then year - 1 else year
  let mp := if 2 < month then month - 3 else month + 9
  y / 400 * 146097 + daysBeforeYear (y % 400) + ((153 * mp + 2) / 5 + (day - 1))

/-- The day number of a date, inverse to `civil`. -/
def ordinal (year month day : Nat) : Nat := sinceMarch year month day - 306

theorem daysBeforeYear_split {century quad year : Nat} (hq : quad ≤ 24) (hy : year ≤ 3) :
    daysBeforeYear (100 * century + 4 * quad + year) =
      36524 * century + 1461 * quad + 365 * year := by
  have quarter : (100 * century + 4 * quad + year) / 4 = 25 * century + quad := by omega
  have hundred : (100 * century + 4 * quad + year) / 100 = century := by omega
  simp only [daysBeforeYear, quarter, hundred]
  omega

theorem yearDay_facts {doe : Nat} (h : doe < 146097) :
    (yearDay doe).1 < 400 ∧ (yearDay doe).2 < 366 ∧
      daysBeforeYear (yearDay doe).1 + (yearDay doe).2 = doe := by
  simp only [yearDay]
  have hc : min (doe / 36524) 3 ≤ 3 ∧ 36524 * min (doe / 36524) 3 ≤ doe ∧
      doe - 36524 * min (doe / 36524) 3 ≤ 36524 := by omega
  generalize min (doe / 36524) 3 = century at *
  generalize hr : doe - 36524 * century = rest at *
  have hq : rest / 1461 ≤ 24 := by omega
  have hy : min (rest % 1461 / 365) 3 ≤ 3 ∧ 365 * min (rest % 1461 / 365) 3 ≤ rest % 1461 ∧
      rest % 1461 - 365 * min (rest % 1461 / 365) 3 < 366 := by omega
  generalize min (rest % 1461 / 365) 3 = year at *
  rw [daysBeforeYear_split hq hy.1]
  omega

theorem month_facts {day : Nat} (h : day < 366) :
    let mp := (5 * day + 2) / 153
    mp < 12 ∧ (153 * mp + 2) / 5 ≤ day ∧ day - (153 * mp + 2) / 5 < 31 := by
  simp only
  omega

/-- The month is counted from March inside a year, so January and February belong to the
year before. -/
theorem sinceMarch_shift {era year mp : Nat} (day : Nat) (hy : year < 400) (hm : mp < 12) :
    sinceMarch (era * 400 + year + (if (if mp < 10 then mp + 3 else mp - 9) ≤ 2 then 1 else 0))
        (if mp < 10 then mp + 3 else mp - 9) (day + 1) =
      era * 146097 + daysBeforeYear year + ((153 * mp + 2) / 5 + day) := by
  have whole : (era * 400 + year) / 400 = era := by omega
  have part : (era * 400 + year) % 400 = year := by omega
  unfold sinceMarch
  dsimp only
  by_cases early : mp < 10
  · have late : ¬ mp + 3 ≤ 2 := by omega
    have later : 2 < mp + 3 := by omega
    rw [if_pos early, if_neg late, if_neg late, if_pos later]
    rw [Nat.add_zero, whole, part]
    rfl
  · have soon : mp - 9 ≤ 2 := by omega
    have sooner : ¬ 2 < mp - 9 := by omega
    have back : mp - 9 + 9 = mp := by omega
    rw [if_neg early, if_pos soon, if_pos soon, if_neg sooner, back]
    rw [Nat.add_sub_cancel, whole, part]
    rfl

theorem ordinal_civil (n : Nat) : ordinal (civil n).1 (civil n).2.1 (civil n).2.2 = n := by
  have bound : (n + 306) % 146097 < 146097 := Nat.mod_lt _ (by decide)
  have hy := yearDay_facts bound
  have hm := month_facts hy.2.1
  have span := Nat.div_add_mod (n + 306) 146097
  have date := @sinceMarch_shift ((n + 306) / 146097) _ _
    ((yearDay ((n + 306) % 146097)).2 - (153 * ((5 * (yearDay ((n + 306) % 146097)).2 + 2) / 153) + 2) / 5)
    hy.1 hm.1
  have shift : sinceMarch (civil n).1 (civil n).2.1 (civil n).2.2 = n + 306 := by
    refine date.trans ?_
    have := hm.2.1
    have := hy.2.2
    omega
  unfold ordinal
  rw [shift]
  exact Nat.add_sub_cancel n 306

/-- Every field fits the digits the text gives it. -/
theorem civil_bounds {n : Nat} (h : n < 3652059) :
    (civil n).1 < 10 ^ 4 ∧ (civil n).2.1 < 10 ^ 2 ∧ (civil n).2.2 < 10 ^ 2 := by
  have bound : (n + 306) % 146097 < 146097 := by omega
  have hy := yearDay_facts bound
  have hm := month_facts hy.2.1
  have span : 146097 * ((n + 306) / 146097) + (n + 306) % 146097 = n + 306 := by omega
  simp only [civil, daysBeforeYear] at hy hm ⊢
  generalize (n + 306) / 146097 = era at *
  generalize (n + 306) % 146097 = doe at *
  generalize (yearDay doe).1 = year at *
  generalize (yearDay doe).2 = day at *
  generalize (5 * day + 2) / 153 = mp at *
  by_cases early : mp < 10
  · have h2 : ¬ mp + 3 ≤ 2 := by omega
    simp only [if_pos early, if_neg h2]
    omega
  · have h2 : mp - 9 ≤ 2 := by omega
    simp only [if_neg early, if_pos h2]
    omega

/-! The text form `YYYY-MM-DDTHH:MM:SS[.ffffff]Z`. -/

def dayMicros : Nat := 86400000000

def isoformat (t : DateTime) : List Char :=
  let (year, month, day) := civil (t.micros / dayMicros)
  let time := t.micros % dayMicros
  let fraction := time % 1000000
  padded 4 year ++ '-' :: (padded 2 month ++ '-' :: (padded 2 day ++ 'T' ::
    (padded 2 (time / 3600000000) ++ ':' :: (padded 2 (time / 60000000 % 60) ++ ':' ::
      (padded 2 (time / 1000000 % 60) ++
        ((if fraction = 0 then [] else '.' :: padded 6 fraction) ++ ['Z']))))))

/-- Exactly `width` digits, then the rest of the text. -/
def readDigits (width : Nat) (cs : List Char) : Option (Nat × List Char) :=
  if (cs.take width).length = width ∧ (cs.take width).all Char.isDigit then
    some (Nat.ofDigitChars 10 (cs.take width) 0, cs.drop width)
  else none

def expect (c : Char) : List Char → Option (List Char)
  | x :: cs => if x = c then some cs else none
  | [] => none

/-- `width` digits followed by the separator `c`. -/
def readField (width : Nat) (c : Char) (cs : List Char) : Option (Nat × List Char) := do
  let (n, cs) ← readDigits width cs
  let cs ← expect c cs
  return (n, cs)

/-- The seconds' fraction, when it is written, and the closing `Z`. -/
def readFraction : List Char → Option Nat
  | ['Z'] => some 0
  | '.' :: cs => do
    let (n, cs) ← readField 6 'Z' cs
    if cs = [] then some n else none
  | _ => none

/-- The instant of the given fields, when they name one. -/
def ofFields (year month day hour minute second fraction : Nat) : Option DateTime :=
  let micros := ordinal year month day * dayMicros +
    (hour * 3600000000 + minute * 60000000 + second * 1000000 + fraction)
  if civil (ordinal year month day) = (year, month, day) ∧ hour < 24 ∧ minute < 60 ∧ second < 60 then
    if h : micros < 315537897600000000 then some ⟨micros, h⟩ else none
  else none

def fromisoformat (cs : List Char) : Option DateTime := do
  let (year, cs) ← readField 4 '-' cs
  let (month, cs) ← readField 2 '-' cs
  let (day, cs) ← readField 2 'T' cs
  let (hour, cs) ← readField 2 ':' cs
  let (minute, cs) ← readField 2 ':' cs
  let (second, cs) ← readDigits 2 cs
  let fraction ← readFraction cs
  ofFields year month day hour minute second fraction

theorem readDigits_padded {w n : Nat} (hw : 0 < w) (h : n < 10 ^ w) (cs : List Char) :
    readDigits w (padded w n ++ cs) = some (n, cs) := by
  have len := Json.padded_length hw h
  have take : (padded w n ++ cs).take w = padded w n := List.take_left' len
  have drop : (padded w n ++ cs).drop w = cs := List.drop_left' len
  have digits : (padded w n).all Char.isDigit = true :=
    List.all_eq_true.mpr (Json.padded_isDigit w n)
  simp only [readDigits, take, drop, len, digits, and_self, if_true, Json.ofDigitChars_padded]

theorem readField_padded {w n : Nat} (hw : 0 < w) (h : n < 10 ^ w) (c : Char) (cs : List Char) :
    readField w c (padded w n ++ c :: cs) = some (n, cs) := by
  simp [readField, readDigits_padded hw h, expect]

theorem readFraction_written {f : Nat} (h : f < 10 ^ 6) :
    readFraction ((if f = 0 then [] else '.' :: padded 6 f) ++ ['Z']) = some f := by
  by_cases zero : f = 0
  · simp [zero, readFraction]
  · rw [if_neg zero, List.cons_append]
    simp [readFraction, readField_padded (by decide) h]

theorem ofFields_micros (t : DateTime) :
    let date := civil (t.micros / dayMicros)
    let time := t.micros % dayMicros
    ofFields date.1 date.2.1 date.2.2 (time / 3600000000) (time / 60000000 % 60)
      (time / 1000000 % 60) (time % 1000000) = some t := by
  have htime : t.micros % dayMicros < dayMicros := Nat.mod_lt _ (by decide)
  have span := Nat.div_add_mod t.micros dayMicros
  have back := ordinal_civil (t.micros / dayMicros)
  simp only
  generalize t.micros % dayMicros = time at *
  have valid : time / 3600000000 < 24 ∧ time / 60000000 % 60 < 60 ∧ time / 1000000 % 60 < 60 := by
    simp only [dayMicros] at htime
    omega
  have whole : t.micros / dayMicros * dayMicros + (time / 3600000000 * 3600000000 +
      time / 60000000 % 60 * 60000000 + time / 1000000 % 60 * 1000000 + time % 1000000) =
      t.micros := by
    simp only [dayMicros] at *
    omega
  unfold ofFields
  rw [back]
  simp only [valid, and_self, if_true, whole, t.inRange, dite_true]

theorem fromisoformat_isoformat (t : DateTime) : fromisoformat (isoformat t) = some t := by
  have hdays : t.micros / dayMicros < 3652059 := by
    have := t.inRange
    simp only [dayMicros]
    omega
  obtain ⟨hyear, hmonth, hday⟩ := civil_bounds hdays
  have hhour : t.micros % dayMicros / 3600000000 < 10 ^ 2 := by
    simp only [dayMicros]
    omega
  have hminute : t.micros % dayMicros / 60000000 % 60 < 10 ^ 2 := by omega
  have hsecond : t.micros % dayMicros / 1000000 % 60 < 10 ^ 2 := by omega
  have hfraction : t.micros % dayMicros % 1000000 < 10 ^ 6 := by omega
  have fields := ofFields_micros t
  simp only at fields
  unfold fromisoformat isoformat
  rw [readField_padded (by decide) hyear, Option.bind_eq_bind, Option.bind_some]
  dsimp only
  rw [readField_padded (by decide) hmonth, Option.bind_some]
  dsimp only
  rw [readField_padded (by decide) hday, Option.bind_some]
  dsimp only
  rw [readField_padded (by decide) hhour, Option.bind_some]
  dsimp only
  rw [readField_padded (by decide) hminute, Option.bind_some]
  dsimp only
  rw [readDigits_padded (by decide) hsecond, Option.bind_some]
  dsimp only
  rw [readFraction_written hfraction, Option.bind_eq_bind, Option.bind_some]
  exact fields

/-! `datetime + timedelta(seconds=x)`. -/

/-- Division by a positive number, rounded to the nearest integer and to the even one at a tie. -/
def roundHalfEven (n : Int) (d : Nat) : Int :=
  let q := n / d
  let r := n % d
  if 2 * r < d then q else if d < 2 * r then q + 1 else if q % 2 = 0 then q else q + 1

theorem zero_inRange : 0 < 315537897600000000 := by decide

theorem zero_inDay : 0 < 86400 := by decide
theorem one_inDay : 1 < 86400 := by decide
theorem two_inDay : 2 < 86400 := by decide
theorem three_inDay : 3 < 86400 := by decide
theorem twenty_inDay : 20 < 86400 := by decide

theorem toNat_inRange {t : DateTime} {micros : Int}
    (h : 0 ≤ (t.micros : Int) + micros ∧ (t.micros : Int) + micros < 315537897600000000) :
    ((t.micros : Int) + micros).toNat < 315537897600000000 := by
  omega

def microsOf (seconds : Decimal) : Int :=
  roundHalfEven (seconds.coef * 1000000) (10 ^ seconds.scale)

/-- Nothing when the seconds are not finite or the sum leaves the years 1 to 9999. -/
def addSeconds (t : DateTime) (seconds : Num) : Option DateTime := do
  let seconds ← seconds.decimal?
  let sum := (t.micros : Int) + microsOf seconds
  if h : 0 ≤ sum ∧ sum < 315537897600000000 then some ⟨sum.toNat, by omega⟩ else none

/-- `_iso`: the text of an instant. -/
def iso (t : DateTime) : String := String.ofList (isoformat t)

/-- `_datetime`: the instant of a text. -/
def ofIso (text : String) : Option DateTime := fromisoformat text.toList

@[simp] theorem ofIso_iso (t : DateTime) : ofIso (iso t) = some t := by
  simp only [ofIso, iso, String.toList_ofList, fromisoformat_isoformat]

theorem iso_ne_empty (t : DateTime) : iso t ≠ "" := by
  intro h
  have read := ofIso_iso t
  have unread : ofIso "" = none := by decide
  rw [h, unread] at read
  cases read

end DateTime
end Onmc
