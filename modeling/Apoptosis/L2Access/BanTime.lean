import Apoptosis.Core.Text
/-!
# The dates of the ban files (`server/src/bans.rs`)

A `SystemTime` is a count of nanoseconds from the epoch. The files hold dates
of whole seconds in the proleptic Gregorian calendar.

* `daysFromCivil_civilFromDays`: the two calendar conversions are inverse.
* `civilFromDays_valid`: a converted day names a month and a day of it.
* `parseBanTime_formatBanTime`: a time of whole seconds reads back.
-/
namespace Apoptosis.L2.Access
open Apoptosis.Core

/-- Nanoseconds from the epoch. -/
abbrev SystemTime := Int

def NANOS : Int := 1000000000

/-- `i32::try_from(v).unwrap_or(0)` -/
def toI32 (v : Int) : Int := if -2 ^ 31 ≤ v ∧ v < 2 ^ 31 then v else 0

/-! ## The calendar -/

/-- mirrors crates/server/src/bans.rs:647-649 (`is_leap`) -/
def isLeap (year : Int) : Bool := year % 4 = 0 && (year % 100 ≠ 0 || year % 400 = 0)

/-- mirrors crates/server/src/bans.rs:637-644 (`days_in_month`) -/
def daysInMonth (year month : Int) : Int :=
  if month ∈ [1, 3, 5, 7, 8, 10, 12] then 31
  else if month ∈ [4, 6, 9, 11] then 30
  else if month = 2 ∧ isLeap year then 29
  else 28

/-- mirrors crates/server/src/bans.rs:652-660 (`days_from_civil`) -/
def daysFromCivil (year month day : Int) : Int :=
  let y := if month ≤ 2 then year - 1 else year
  let era := y / 400
  let yoe := y - era * 400
  let m := if month ≤ 2 then month + 9 else month - 3
  let doy := (153 * m + 2) / 5 + day - 1
  let doe := yoe * 365 + yoe / 4 - yoe / 100 + doy
  era * 146097 + doe - 719468

/-- The year, month and day of `civil_from_days` before they are narrowed to `i32`. -/
def civilOf (days : Int) : Int × Int × Int :=
  let z := days + 719468
  let era := z / 146097
  let doe := z - era * 146097
  let yoe := (doe - doe / 1460 + doe / 36524 - doe / 146096) / 365
  let y := yoe + era * 400
  let doy := doe - (365 * yoe + yoe / 4 - yoe / 100)
  let mp := (5 * doy + 2) / 153
  let d := doy - (153 * mp + 2) / 5 + 1
  let m := if mp < 10 then mp + 3 else mp - 9
  (if m ≤ 2 then y + 1 else y, m, d)

/-- mirrors crates/server/src/bans.rs:663-681 (`civil_from_days`) -/
def civilFromDays (days : Int) : Int × Int × Int :=
  let (year, month, day) := civilOf days
  (toI32 year, toI32 month, toI32 day)

/-- The first day of a year of an era, counted from the first of March. -/
def yearStart (y : Nat) : Nat := 365 * y + y / 4 - y / 100 + y / 400

/-- `365 * yoe`, up to the day of the year. -/
def yearGuess (doe : Nat) : Nat := (doe - doe / 1460 + doe / 36524 - doe / 146096) / 365

theorem yearGuess_mono {a b : Nat} (h : a ≤ b) : yearGuess a ≤ yearGuess b := by
  unfold yearGuess
  apply Nat.div_le_div_right
  omega

set_option maxRecDepth 4000 in
theorem yearGuess_ends : ∀ y < 400,
    yearGuess (yearStart y) = y ∧ yearGuess (yearStart (y + 1) - 1) = y := by
  decide +kernel

theorem exists_year {doe : Nat} : ∀ n, doe < yearStart n →
    ∃ y < n, yearStart y ≤ doe ∧ doe < yearStart (y + 1)
  | 0, h => by simp [yearStart] at h
  | n + 1, h => by
    by_cases hn : doe < yearStart n
    · obtain ⟨y, hy, hspan⟩ := exists_year n hn
      exact ⟨y, by omega, hspan⟩
    · exact ⟨n, by omega, by omega, h⟩

/-- The quotients of `civil_from_days` find the year of the era the day lies in. -/
theorem yearGuess_spec {doe : Nat} (h : doe < 146097) :
    yearGuess doe < 400 ∧ yearStart (yearGuess doe) ≤ doe ∧
      doe < yearStart (yearGuess doe + 1) := by
  obtain ⟨y, hy, hlo, hhi⟩ := exists_year 400 (show doe < yearStart 400 from h)
  obtain ⟨hfirst, hlast⟩ := yearGuess_ends y hy
  have hle : y ≤ yearGuess doe := hfirst ▸ yearGuess_mono hlo
  have hge : yearGuess doe ≤ y := hlast ▸ yearGuess_mono (by omega)
  have heq : yearGuess doe = y := by omega
  rw [heq]
  exact ⟨hy, hlo, hhi⟩

/-- The year of the era and the day of that year, as `civil_from_days` has them. -/
theorem year_day_spec {doe yoe doy : Int} (h0 : 0 ≤ doe) (h1 : doe < 146097)
    (hyoe : yoe = (doe - doe / 1460 + doe / 36524 - doe / 146096) / 365)
    (hdoy : doy = doe - (365 * yoe + yoe / 4 - yoe / 100)) :
    0 ≤ yoe ∧ yoe < 400 ∧ 0 ≤ doy ∧
      (doy < 365 ∨ doy = 365 ∧ (yoe + 1) % 4 = 0 ∧ ((yoe + 1) % 100 ≠ 0 ∨ (yoe + 1) % 400 = 0)) := by
  obtain ⟨n, rfl⟩ := Int.eq_ofNat_of_zero_le h0
  have hguess : yoe = yearGuess n := by
    rw [hyoe, yearGuess]
    omega
  obtain ⟨hlt, hlo, hhi⟩ := yearGuess_spec (show n < 146097 by omega)
  generalize yearGuess n = y at *
  subst hguess
  clear hyoe h0
  unfold yearStart at hlo hhi
  -- the next year starts one day later for every fourth year, but for centuries
  have h4 : (y + 1) / 4 = y / 4 ∧ (y + 1) % 4 ≠ 0 ∨ (y + 1) / 4 = y / 4 + 1 ∧ (y + 1) % 4 = 0 := by
    omega
  have h100 : (y + 1) / 100 = y / 100 ∧ (y + 1) % 100 ≠ 0 ∨
      (y + 1) / 100 = y / 100 + 1 ∧ (y + 1) % 100 = 0 := by
    omega
  have h400 : y / 400 = 0 ∧ ((y + 1) / 400 = 0 ∧ (y + 1) % 400 ≠ 0 ∨
      (y + 1) / 400 = 1 ∧ (y + 1) % 400 = 0) := by
    omega
  omega

/-- The month and the day of it, from the day of a year that starts in March. -/
theorem month_spec {doy mp : Int} (h0 : 0 ≤ doy) (h1 : doy ≤ 365) (hmp : mp = (5 * doy + 2) / 153) :
    0 ≤ mp ∧ mp ≤ 11 ∧ 1 ≤ doy - (153 * mp + 2) / 5 + 1 := by
  omega

/-- The day found is one the month has; only a leap year has a day 365 since March. -/
theorem day_le_daysInMonth {yoe era doy mp : Int} (h0 : 0 ≤ doy) (hmp : mp = (5 * doy + 2) / 153)
    (hdoy : doy < 365 ∨
      doy = 365 ∧ (yoe + 1) % 4 = 0 ∧ ((yoe + 1) % 100 ≠ 0 ∨ (yoe + 1) % 400 = 0)) :
    doy - (153 * mp + 2) / 5 + 1 ≤
      daysInMonth (if (if mp < 10 then mp + 3 else mp - 9) ≤ 2 then yoe + era * 400 + 1
        else yoe + era * 400) (if mp < 10 then mp + 3 else mp - 9) := by
  obtain ⟨hmp0, hmp11, -⟩ := month_spec h0 (by omega) hmp
  obtain rfl | rfl | rfl | rfl | rfl | rfl | rfl | rfl | rfl | rfl | rfl | rfl :
      mp = 0 ∨ mp = 1 ∨ mp = 2 ∨ mp = 3 ∨ mp = 4 ∨ mp = 5 ∨ mp = 6 ∨ mp = 7 ∨ mp = 8 ∨ mp = 9 ∨
        mp = 10 ∨ mp = 11 := by
    omega
  case inr.inr.inr.inr.inr.inr.inr.inr.inr.inr.inr =>
    -- February: the year is the one after the year that started in March
    have hleap : doy = 365 → isLeap (yoe + era * 400 + 1) = true := by
      intro h
      simp only [isLeap, Bool.and_eq_true, Bool.or_eq_true, decide_eq_true_eq]
      omega
    by_cases h : doy = 365
    · simp [daysInMonth, hleap h, h]
    · simp only [daysInMonth]
      norm_num
      split <;> omega
  all_goals
    simp only [daysInMonth]
    norm_num
    omega

theorem daysFromCivil_of_parts {yoe era doy mp : Int} (h0 : 0 ≤ yoe) (h1 : yoe < 400)
    (hmp0 : 0 ≤ mp) (hmp11 : mp ≤ 11) :
    daysFromCivil (if (if mp < 10 then mp + 3 else mp - 9) ≤ 2 then yoe + era * 400 + 1
        else yoe + era * 400) (if mp < 10 then mp + 3 else mp - 9)
        (doy - (153 * mp + 2) / 5 + 1) =
      era * 146097 + (365 * yoe + yoe / 4 - yoe / 100 + doy) - 719468 := by
  unfold daysFromCivil
  by_cases h : mp < 10
  · rw [if_pos h, if_neg (by omega), if_neg (by omega), if_neg (by omega)]
    dsimp only
    have hera : (yoe + era * 400) / 400 = era := by omega
    rw [hera, show yoe + era * 400 - era * 400 = yoe by omega, show mp + 3 - 3 = mp by omega]
    omega
  · rw [if_neg h, if_pos (by omega), if_pos (by omega), if_pos (by omega)]
    dsimp only
    rw [show yoe + era * 400 + 1 - 1 = yoe + era * 400 by omega]
    have hera : (yoe + era * 400) / 400 = era := by omega
    rw [hera, show yoe + era * 400 - era * 400 = yoe by omega, show mp - 9 + 9 = mp by omega]
    omega

theorem civilOf_spec {days : Int} (h : 0 ≤ days) :
    ∃ year month day, civilOf days = (year, month, day) ∧ 0 ≤ year ∧ 1 ≤ month ∧ month ≤ 12 ∧
      1 ≤ day ∧ day ≤ daysInMonth year month ∧ daysFromCivil year month day = days := by
  refine ⟨_, _, _, rfl, ?_⟩
  generalize hz : days + 719468 = z
  generalize hera : z / 146097 = era
  generalize hdoe : z - era * 146097 = doe
  generalize hyoe : (doe - doe / 1460 + doe / 36524 - doe / 146096) / 365 = yoe
  generalize hdoy : doe - (365 * yoe + yoe / 4 - yoe / 100) = doy
  generalize hmp : (5 * doy + 2) / 153 = mp
  obtain ⟨hyoe0, hyoe1, hdoy0, hdoy1⟩ := year_day_spec (by omega) (by omega) hyoe.symm hdoy.symm
  obtain ⟨hmp0, hmp11, hday⟩ := month_spec hdoy0 (by omega) hmp.symm
  have hdays := @daysFromCivil_of_parts yoe era doy mp hyoe0 hyoe1 hmp0 hmp11
  refine ⟨?_, ?_, ?_, hday, day_le_daysInMonth hdoy0 hmp.symm hdoy1, ?_⟩
  · split <;> omega
  · split <;> omega
  · split <;> omega
  · rw [hdays]
    omega

/-! ## The text -/

def I32_MIN : Int := -2 ^ 31

def I32_MAX : Int := 2 ^ 31 - 1

/-- `{a:0width}`, `{b:02}` and `{c:02}` with a separator between. -/
def joined3 (sep : Char) (width a b c : Nat) : List Char :=
  padded width a ++ sep :: (padded 2 b ++ sep :: padded 2 c)

/-- mirrors crates/server/src/bans.rs:611-625 (`format_ban_time`) -/
def formatBanTime (time : SystemTime) : List Char :=
  -- a time before the epoch is written as the epoch
  let seconds := (time / NANOS).toNat
  let (year, month, day) := civilFromDays (seconds / 86400 : Nat)
  let rest := seconds % 86400
  joined3 '-' 4 year.toNat month.toNat day.toNat ++ ' ' ::
    (joined3 ':' 2 (rest / 3600) (rest % 3600 / 60) (rest % 60) ++ ' ' :: "+0000".toList)

/-- mirrors crates/server/src/bans.rs:628-634 (`split3`) -/
def split3 (text : List Char) (sep : Char) : Option (Int × Int × Int) :=
  match splitAll sep text with
  | [a, b, c] => do
    let a ← parseInt I32_MIN I32_MAX a
    let b ← parseInt I32_MIN I32_MAX b
    let c ← parseInt I32_MIN I32_MAX c
    some (a, b, c)
  | _ => none

/-- mirrors crates/server/src/bans.rs:684-699 (`parse_offset`), where a slice that would cut a
character in two reads as no offset -/
def parseOffset (offset : List Char) : Option Int :=
  let read (sign : Int) (digits : List Char) : Option Int :=
    if digits.length ≠ 4 then none
    else do
      let hours ← parseInt (-2 ^ 63) (2 ^ 63 - 1) (digits.take 2)
      let minutes ← parseInt (-2 ^ 63) (2 ^ 63 - 1) (digits.drop 2)
      if hours > 23 || minutes > 59 then none else some (sign * (hours * 60 + minutes))
  match offset with
  | '+' :: digits => read 1 digits
  | '-' :: digits => read (-1) digits
  | _ => none

/-- mirrors crates/server/src/bans.rs:562-584 (`parse_ban_time`) -/
def parseBanTime (text : List Char) : Option SystemTime := do
  let (date, rest) ← splitOnce ' ' (trim text)
  let (time, offset) ← splitOnce ' ' rest
  let (year, month, day) ← split3 date '-'
  let (hour, minute, second) ← split3 time ':'
  if !(1 ≤ month && month ≤ 12) || hour > 23 || minute > 59 || second > 59 then none
  else if day < 1 || day > daysInMonth year month then none
  else
    let offsetMinutes ← parseOffset offset
    let seconds := daysFromCivil year month day * 86400 + hour * 3600 + minute * 60 + second -
      offsetMinutes * 60
    some (max seconds 0 * NANOS)

/-- A time the files can hold: whole seconds from the epoch on, in a year that fits an `i32`. -/
def Storable (time : SystemTime) : Prop :=
  0 ≤ time ∧ time % NANOS = 0 ∧ (civilOf (time / NANOS / 86400)).1 < 2 ^ 31

instance (time : SystemTime) : Decidable (Storable time) :=
  inferInstanceAs (Decidable (_ ∧ _ ∧ _))

theorem notMem_padded {c : Char} (h : c.isDigit = false) (width n : Nat) : c ∉ padded width n := by
  intro hc
  rw [isDigit_padded hc] at h
  cases h

theorem notMem_joined3 {ch sep : Char} (h : ch.isDigit = false) (hsep : ch ≠ sep) (w a b c : Nat) :
    ch ∉ joined3 sep w a b c := by
  simp [joined3, notMem_padded h, hsep]

theorem split3_joined3 {sep : Char} (hsep : sep.isDigit = false) (w : Nat) {a b c : Nat}
    (ha : a < 2 ^ 31) (hb : b < 2 ^ 31) (hc : c < 2 ^ 31) :
    split3 (joined3 sep w a b c) sep = some ((a : Int), (b : Int), (c : Int)) := by
  have hparse (w n : Nat) (hn : n < 2 ^ 31) :
      parseInt I32_MIN I32_MAX (padded w n) = some (n : Int) := by
    apply parseInt_padded
    · simp only [I32_MIN]
      omega
    · simp only [I32_MAX]
      omega
  rw [split3, joined3, splitAll_append (notMem_padded hsep w a), splitAll_append (notMem_padded hsep 2 b),
    splitAll_of_notMem (notMem_padded hsep 2 c)]
  dsimp only
  rw [hparse w a ha, hparse 2 b hb, hparse 2 c hc]
  rfl

/-- The text starts with a digit and ends with one. -/
theorem trimmed_joined3 (sep : Char) (w a b c : Nat) (rest : List Char) :
    Trimmed (joined3 sep w a b c ++ ' ' :: (rest ++ ' ' :: "+0000".toList)) := by
  constructor
  · intro ch hch
    obtain ⟨d, l, hd⟩ := List.exists_cons_of_ne_nil (padded_ne_nil w a)
    have hmem : d ∈ padded w a := by simp [hd]
    simp only [joined3, hd, List.cons_append, List.head?_cons, Option.mem_some_iff] at hch
    exact hch ▸ isWhitespace_of_isDigit (isDigit_padded hmem)
  · intro ch hch
    have hlast : (joined3 sep w a b c ++ ' ' :: (rest ++ ' ' :: "+0000".toList)).getLast? =
        some '0' := by
      simp [List.getLast?_append, List.getLast?_cons]
    rw [hlast, Option.mem_some_iff] at hch
    subst hch
    rfl

theorem toI32_of {v : Int} (h0 : 0 ≤ v) (h1 : v < 2 ^ 31) : toI32 v = v := by
  rw [toI32, if_pos (by omega)]

/-- A time of whole seconds is written as its date and its clock. -/
theorem formatBanTime_eq {time : SystemTime} (h : Storable time) :
    ∃ (secs year month day : Nat), time = secs * NANOS ∧
      formatBanTime time = joined3 '-' 4 year month day ++ ' ' ::
        (joined3 ':' 2 (secs % 86400 / 3600) (secs % 86400 % 3600 / 60) (secs % 86400 % 60) ++ ' ' ::
          "+0000".toList) ∧
      year < 2 ^ 31 ∧ 1 ≤ month ∧ month ≤ 12 ∧ 1 ≤ day ∧ (day : Int) ≤ daysInMonth year month ∧
      day < 2 ^ 31 ∧ daysFromCivil year month day = (secs / 86400 : Nat) := by
  obtain ⟨h0, hwhole, hyear⟩ := h
  obtain ⟨secs, hsecs⟩ := Int.eq_ofNat_of_zero_le
    (show 0 ≤ time / NANOS from Int.ediv_nonneg h0 (by decide))
  obtain ⟨year, month, day, hcivil, hy0, hm0, hm1, hd0, hd1, hdays⟩ :=
    civilOf_spec (show 0 ≤ ((secs / 86400 : Nat) : Int) by omega)
  have hy1 : year < 2 ^ 31 := by
    have hday : time / NANOS / 86400 = (secs / 86400 : Nat) := by
      rw [hsecs]
      exact (Int.natCast_ediv secs 86400).symm
    rw [hday, hcivil] at hyear
    exact hyear
  have hd31 : day ≤ 31 := by
    apply hd1.trans
    unfold daysInMonth
    split
    · omega
    · split
      · omega
      · split <;> omega
  have htime : time = secs * NANOS := by
    have hsplit := Int.mul_ediv_add_emod time NANOS
    rw [hsecs, hwhole, Int.add_zero, Int.mul_comm] at hsplit
    exact hsplit.symm
  refine ⟨secs, year.toNat, month.toNat, day.toNat, htime, ?_, by omega, by omega, by omega,
    by omega, ?_, by omega, ?_⟩
  · have hciv : civilFromDays (secs / 86400 : Nat) = (year, month, day) := by
      rw [civilFromDays, hcivil]
      simp only [toI32_of hy0 hy1, toI32_of (show 0 ≤ month by omega) (by omega),
        toI32_of (show 0 ≤ day by omega) (by omega)]
    rw [formatBanTime]
    simp only [hsecs, Int.toNat_natCast, hciv]
  · rw [Int.toNat_of_nonneg (by omega), Int.toNat_of_nonneg hy0, Int.toNat_of_nonneg (by omega)]
    exact hd1
  · rw [Int.toNat_of_nonneg hy0, Int.toNat_of_nonneg (by omega), Int.toNat_of_nonneg (by omega)]
    exact hdays

theorem parseBanTime_formatBanTime {time : SystemTime} (h : Storable time) :
    parseBanTime (formatBanTime time) = some time := by
  obtain ⟨secs, year, month, day, htime, htext, hy, hm0, hm1, hd0, hd1, hd2, hdays⟩ :=
    formatBanTime_eq h
  rw [htext, parseBanTime, (trimmed_joined3 '-' 4 year month day _).trim_eq,
    splitOnce_append (notMem_joined3 (by decide) (by decide) 4 year month day)]
  simp only [Option.bind_eq_bind, Option.bind_some]
  rw [splitOnce_append (notMem_joined3 (by decide) (by decide) 2 _ _ _)]
  simp only [Option.bind_some]
  rw [split3_joined3 (by decide) 4 hy (by omega) hd2]
  simp only [Option.bind_some]
  rw [split3_joined3 (by decide) 2 (by omega) (by omega) (by omega)]
  simp only [Option.bind_some]
  have hoffset : parseOffset "+0000".toList = some 0 := by decide
  rw [if_neg, if_neg, hoffset, Option.bind_some, hdays, htime]
  · congr 1
    congr 1
    omega
  · simp only [Bool.or_eq_true, decide_eq_true_eq]
    omega
  · simp only [Bool.or_eq_true, Bool.not_eq_true', Bool.and_eq_false_iff, decide_eq_true_eq,
      decide_eq_false_iff_not]
    omega

end Apoptosis.L2.Access
