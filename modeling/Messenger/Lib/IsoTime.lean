import Mathlib.Tactic.Tauto
import Messenger.Lib.Digits

/-! Points of time in UTC as Python's `datetime` writes them. A point is a number of microseconds since
1970, and lies in the years 1 to 9999. -/

namespace IsoTime
open Digits

def isLeap (year : ℕ) : Bool := year % 4 = 0 && (year % 100 ≠ 0 || year % 400 = 0)

def daysBeforeYear (year : ℕ) : ℕ :=
  (year - 1) * 365 + (year - 1) / 4 - (year - 1) / 100 + (year - 1) / 400

def daysBeforeMonth (leap : Bool) (month : ℕ) : ℕ :=
  [0, 0, 31, 59, 90, 120, 151, 181, 212, 243, 273, 304, 334].getD month 0 +
    if 2 < month && leap then 1 else 0

def daysInMonth (leap : Bool) (month : ℕ) : ℕ :=
  [0, 31, 28, 31, 30, 31, 30, 31, 31, 30, 31, 30, 31].getD month 0 +
    if month = 2 && leap then 1 else 0

structure Date where
  year : ℕ
  month : ℕ
  day : ℕ
  deriving DecidableEq

/-- The days from the first of January of the year 1. -/
def Date.ordinal (d : Date) : ℕ :=
  daysBeforeYear d.year + daysBeforeMonth (isLeap d.year) d.month + (d.day - 1)

def Date.Valid (d : Date) : Prop :=
  1 ≤ d.year ∧ 1 ≤ d.month ∧ d.month ≤ 12 ∧ 1 ≤ d.day ∧ d.day ≤ daysInMonth (isLeap d.year) d.month

instance (d : Date) : Decidable d.Valid := inferInstanceAs (Decidable (_ ∧ _))

def monthAndDay (leap : Bool) (n : ℕ) : ℕ × ℕ :=
  -- an estimate that is exact or one too large
  let month := (n + 50) / 32
  if n < daysBeforeMonth leap month then (month - 1, n - daysBeforeMonth leap (month - 1) + 1)
  else (month, n - daysBeforeMonth leap month + 1)

/-- The date of an ordinal, by cycles of 400, 100, 4 and 1 years. -/
def Date.ofOrdinal (n : ℕ) : Date :=
  let n400 := n / 146097
  let n100 := n % 146097 / 36524
  let n4 := n % 146097 % 36524 / 1461
  let n1 := n % 146097 % 36524 % 1461 / 365
  let year := n400 * 400 + n100 * 100 + n4 * 4 + n1 + 1
  -- the last day of a leap year at the end of its cycle
  if n1 = 4 ∨ n100 = 4 then ⟨year - 1, 12, 31⟩
  else
    let (month, day) := monthAndDay (n1 = 3 && (n4 ≠ 24 || n100 = 3))
      (n % 146097 % 36524 % 1461 % 365)
    ⟨year, month, day⟩

theorem monthAndDay_spec : ∀ leap : Bool, ∀ n < 365,
    let (month, day) := monthAndDay leap n
    1 ≤ month ∧ month ≤ 12 ∧ 1 ≤ day ∧ day ≤ daysInMonth leap month ∧
      daysBeforeMonth leap month + (day - 1) = n := by
  decide +kernel

/-- The years of a date, counted in cycles. -/
theorem isLeap_cycles {a b c d : ℕ} (hb : b < 4) (hc : c < 25) (hd : d < 4) :
    isLeap (a * 400 + b * 100 + c * 4 + d + 1) = (d = 3 && (c ≠ 24 || b = 3)) := by
  have hfour : (a * 400 + b * 100 + c * 4 + d + 1) % 4 = 0 ↔ d = 3 := by omega
  have hhundred : (a * 400 + b * 100 + c * 4 + d + 1) % 100 = 0 ↔ c = 24 ∧ d = 3 := by omega
  have hcycle : (a * 400 + b * 100 + c * 4 + d + 1) % 400 = 0 ↔ b = 3 ∧ c = 24 ∧ d = 3 := by omega
  rw [Bool.eq_iff_iff]
  simp only [isLeap, ne_eq, hfour, hhundred, hcycle, Bool.and_eq_true, Bool.or_eq_true,
    decide_eq_true_eq]
  tauto

theorem daysBeforeYear_cycles {a b c d : ℕ} (hb : b < 4) (hc : c < 25) (hd : d < 4) :
    daysBeforeYear (a * 400 + b * 100 + c * 4 + d + 1) =
      146097 * a + 36524 * b + 1461 * c + 365 * d := by
  unfold daysBeforeYear
  omega

/-- The last day of a leap year. -/
theorem lastDay_spec {a b c : ℕ} (hb : b < 4) (hc : c < 25) (hleap : c ≠ 24 ∨ b = 3) :
    let date : Date := ⟨a * 400 + b * 100 + c * 4 + 4, 12, 31⟩
    date.Valid ∧ date.ordinal = 146097 * a + 36524 * b + 1461 * c + 1460 := by
  have hyear := isLeap_cycles (a := a) hb hc (d := 3) (by decide)
  have hdays := daysBeforeYear_cycles (a := a) hb hc (d := 3) (by decide)
  have htrue : isLeap (a * 400 + b * 100 + c * 4 + 3 + 1) = true := by
    rw [hyear]
    simpa using hleap
  refine ⟨⟨Nat.le_add_left _ _, by simp, by simp, by simp, by simp [daysInMonth]⟩, ?_⟩
  show daysBeforeYear (a * 400 + b * 100 + c * 4 + 3 + 1) +
    daysBeforeMonth (isLeap (a * 400 + b * 100 + c * 4 + 3 + 1)) 12 + 30 = _
  rw [htrue, hdays]
  show 146097 * a + 36524 * b + 1461 * c + 365 * 3 + 335 + 30 = _
  omega

theorem ofOrdinal_spec (n : ℕ) :
    (Date.ofOrdinal n).Valid ∧ (Date.ofOrdinal n).ordinal = n := by
  unfold Date.ofOrdinal
  generalize ha : n / 146097 = a
  generalize hm : n % 146097 = m
  generalize hb : m / 36524 = b
  generalize hm₁ : m % 36524 = m₁
  generalize hc : m₁ / 1461 = c
  generalize hm₂ : m₁ % 1461 = m₂
  generalize hd : m₂ / 365 = d
  generalize hr : m₂ % 365 = r
  dsimp only
  split
  · next hlast =>
    -- the day is the 366th of its year
    have hcycles : (b < 4 ∧ c < 24 ∧ d = 4 ∧ r = 0) ∨ (b = 4 ∧ c = 0 ∧ d = 0 ∧ r = 0) := by omega
    rcases hcycles with ⟨hb, hc, rfl, rfl⟩ | ⟨rfl, rfl, rfl, rfl⟩
    · have hspec := lastDay_spec (a := a) hb (hc.trans (by decide)) (.inl hc.ne)
      refine ⟨hspec.1, hspec.2.trans ?_⟩
      omega
    · have hspec := lastDay_spec (a := a) (b := 3) (c := 24) (by decide) (by decide) (.inr rfl)
      refine ⟨hspec.1, hspec.2.trans ?_⟩
      omega
  · next hlast =>
    have hbound : b < 4 ∧ c < 25 ∧ d < 4 ∧ r < 365 := by omega
    obtain ⟨hb', hc', hd', hr'⟩ := hbound
    have hleap := isLeap_cycles (a := a) hb' hc' hd'
    have hdays := daysBeforeYear_cycles (a := a) hb' hc' hd'
    have hspec := monthAndDay_spec (d = 3 && (c ≠ 24 || b = 3)) r hr'
    dsimp only at hspec
    rw [← hleap] at hspec ⊢
    obtain ⟨hmonth, hmonth', hday, hday', hordinal⟩ := hspec
    refine ⟨⟨Nat.le_add_left _ _, hmonth, hmonth', hday, hday'⟩, ?_⟩
    show daysBeforeYear _ + daysBeforeMonth _ _ + _ = n
    rw [hdays, Nat.add_assoc, hordinal]
    omega

/-! ### Texts -/

def microsecondsPerDay : ℕ := 86400000000

/-- The midnight before the first of January of the year 1. -/
def origin : ℤ := -62135596800000000

/-- The years 1 to 9999. -/
def InRange (t : ℤ) : Prop := origin ≤ t ∧ t < origin + 3652059 * microsecondsPerDay

instance (t : ℤ) : Decidable (InRange t) := inferInstanceAs (Decidable (_ ∧ _))

def dateText (d : Date) (rest : List Char) : List Char :=
  digits 10 4 d.year ++ '-' :: (digits 10 2 d.month ++ '-' :: (digits 10 2 d.day ++ rest))

/-- The time of the day, whose microseconds are left out where there are none. -/
def timeText (n : ℕ) (rest : List Char) : List Char :=
  digits 10 2 (n / 3600000000) ++ ':' :: (digits 10 2 (n / 60000000 % 60) ++ ':' ::
    (digits 10 2 (n / 1000000 % 60) ++
      if n % 1000000 = 0 then rest else '.' :: (digits 10 6 (n % 1000000) ++ rest)))

/-- `datetime.isoformat()`. -/
def isoformat (t : ℤ) : String :=
  let n := (t - origin).toNat
  String.ofList (dateText (.ofOrdinal (n / microsecondsPerDay))
    ('T' :: timeText (n % microsecondsPerDay) "+00:00".toList))

def expect (c : Char) : List Char → Option (List Char)
  | c' :: cs => if c' = c then some cs else none
  | [] => none

def scanDate (cs : List Char) : Option (Date × List Char) := do
  let (year, cs) ← field 10 4 cs
  let (month, cs) ← field 10 2 (← expect '-' cs)
  let (day, cs) ← field 10 2 (← expect '-' cs)
  if (Date.mk year month day).Valid then some (⟨year, month, day⟩, cs) else none

def scanMicroseconds : List Char → Option (ℕ × List Char)
  | '.' :: cs => field 10 6 cs
  | cs => some (0, cs)

def scanTime (cs : List Char) : Option (ℕ × List Char) := do
  let (hour, cs) ← field 10 2 cs
  let (minute, cs) ← field 10 2 (← expect ':' cs)
  let (second, cs) ← field 10 2 (← expect ':' cs)
  let (microsecond, cs) ← scanMicroseconds cs
  if hour < 24 ∧ minute < 60 ∧ second < 60 then
    some (((hour * 60 + minute) * 60 + second) * 1000000 + microsecond, cs)
  else none

/-- `datetime.fromisoformat`, of the texts that name a time of the day and are in UTC. -/
def fromisoformat (s : String) : Option ℤ := do
  let (date, cs) ← scanDate s.toList
  let (time, cs) ← scanTime (← expect 'T' cs)
  if cs = "+00:00".toList then some (origin + (date.ordinal * microsecondsPerDay + time : ℕ)) else none

variable {c : Char} {cs rest : List Char}

@[simp] theorem expect_cons : expect c (c :: cs) = some cs := if_pos rfl

theorem field_ten {width n : ℕ} (hn : n < 10 ^ width) :
    field 10 width (digits 10 width n ++ rest) = some (n, rest) :=
  field_digits (by decide) (by decide) hn

theorem scanDate_dateText {d : Date} (hvalid : d.Valid) (hyear : d.year < 10000) :
    scanDate (dateText d rest) = some (d, rest) := by
  obtain ⟨year, month, day⟩ := d
  obtain ⟨-, -, hmonth, -, hday⟩ := id hvalid
  have hlong : ∀ leap : Bool, ∀ m ≤ 12, daysInMonth leap m ≤ 31 := by decide
  have hbound : day ≤ 31 := hday.trans (hlong _ _ hmonth)
  dsimp only at hyear hmonth
  simp (disch := omega) only [scanDate, dateText, field_ten, expect_cons, Option.bind_eq_bind,
    Option.bind_some, if_pos hvalid]

theorem scanMicroseconds_eq {n : ℕ} (hn : n < 1000000) :
    scanMicroseconds (if n = 0 then '+' :: rest else '.' :: (digits 10 6 n ++ '+' :: rest)) =
      some (n, '+' :: rest) := by
  split
  · next hzero =>
    subst hzero
    rfl
  · exact field_ten hn

theorem scanTime_timeText {n : ℕ} (hn : n < microsecondsPerDay) :
    scanTime (timeText n ('+' :: rest)) = some (n, '+' :: rest) := by
  have hday : n < 86400000000 := hn
  have hmicroseconds : n % 1000000 < 1000000 := Nat.mod_lt _ (by decide)
  have hvalid : n / 3600000000 < 24 ∧ n / 60000000 % 60 < 60 ∧ n / 1000000 % 60 < 60 := by omega
  have hvalue : ((n / 3600000000 * 60 + n / 60000000 % 60) * 60 + n / 1000000 % 60) * 1000000 +
      n % 1000000 = n := by omega
  simp (disch := omega) only [scanTime, timeText, field_ten, expect_cons, Option.bind_eq_bind,
    Option.bind_some, scanMicroseconds_eq hmicroseconds, if_pos hvalid, hvalue]

theorem year_ofOrdinal {n : ℕ} (hn : n < 3652059) : (Date.ofOrdinal n).year < 10000 := by
  have hordinal := (ofOrdinal_spec n).2
  unfold Date.ordinal daysBeforeYear at hordinal
  omega

/-- A point of time is read back from its text. -/
theorem fromisoformat_isoformat {t : ℤ} (h : InRange t) : fromisoformat (isoformat t) = some t := by
  obtain ⟨hlower, hupper⟩ := h
  obtain ⟨n, rfl⟩ : ∃ n : ℕ, t = origin + n := Int.le.dest hlower |>.imp fun _ => Eq.symm
  have hdays : n / microsecondsPerDay < 3652059 := by
    unfold microsecondsPerDay at hupper ⊢
    omega
  have htime : n % microsecondsPerDay < microsecondsPerDay := Nat.mod_lt _ (by decide)
  obtain ⟨hvalid, hordinal⟩ := ofOrdinal_spec (n / microsecondsPerDay)
  have hzone : "+00:00".toList = '+' :: "00:00".toList := by decide
  have hnat : (origin + n - origin).toNat = n := by omega
  have hvalue : n / microsecondsPerDay * microsecondsPerDay + n % microsecondsPerDay = n :=
    Nat.div_add_mod' _ _
  unfold fromisoformat isoformat
  simp only [hnat, String.toList_ofList, hzone, scanDate_dateText hvalid (year_ofOrdinal hdays),
    expect_cons, scanTime_timeText htime, Option.bind_eq_bind, Option.bind_some, hordinal, hvalue,
    if_true]

end IsoTime
