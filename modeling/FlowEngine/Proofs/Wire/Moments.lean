import FlowEngine.Text.Natural
import FlowEngine.Time.Timestamp
import Mathlib.Algebra.Group.Nat.Defs

/-!
# Moments are read back

The text of a moment consists of numbers of fixed width with separators between them, so its reader
finds each number by counting digits. What remains is the calendar: the date of a day is a day that
its month has, and has the number of that day again. An era of four hundred years is four centuries,
a century is twenty-five cycles of four years, and a leap day is the last day of its year if years
start with March; `Date.EraDay` is a day of an era counted like this.

A moment is read back if its date has a year of four digits. A leap second is one that runs on after
the last second of a minute, and any other second is over after its nanoseconds.

## Main definitions

* `Date.EraDay`: a day of an era in centuries, cycles, years and days.
* `Timestamp.Regular`: a moment of a day, in a year of four digits.

## Main results

* `Date.toDay_ofDay`, `Date.valid_ofDay`: dates of days.
* `Timestamp.ofText_text`: the text of a regular moment is read back.
-/

namespace FlowEngine

namespace Date

/-! ## The calendar -/

/-- A day of an era, counted in centuries, cycles of four years, years, and days from the first of
March. A year has more than 365 days only at the end of a cycle, except for the last of a century
that is not the last of the era. -/
structure EraDay (dayOfEra century cycle year day : Int) : Prop where
  century_bounds : 0 ≤ century ∧ century ≤ 3
  cycle_bounds : 0 ≤ cycle ∧ cycle ≤ 24
  year_bounds : 0 ≤ year ∧ year ≤ 3
  day_bounds : 0 ≤ day ∧ day ≤ 365
  leap : day = 365 → year = 3 ∧ (cycle = 24 → century = 3)
  dayOfEra_eq : dayOfEra = 36524 * century + 1461 * cycle + 365 * year + day

theorem exists_eraDay {dayOfEra : Int} (h : 0 ≤ dayOfEra) (hlt : dayOfEra < eraDays) :
    ∃ century cycle year day, EraDay dayOfEra century cycle year day := by
  have hera : eraDays = 146097 := rfl
  let century := min (dayOfEra / 36524) 3
  let rest := dayOfEra - 36524 * century
  let cycle := rest / 1461
  let year := min (rest % 1461 / 365) 3
  have hcentury : 0 ≤ century ∧ century ≤ 3 := by omega
  have hrest : 0 ≤ rest ∧ rest ≤ 36524 ∧ (rest = 36524 → century = 3) := by omega
  have hcycle : 0 ≤ cycle ∧ cycle ≤ 24 := by omega
  exact ⟨century, cycle, year, rest % 1461 - 365 * year, hcentury, hcycle, by omega, by omega, by omega,
    by omega⟩

section EraDay

variable {dayOfEra century cycle year day : Int}

/-- The year of the era, as it is computed from the day. -/
theorem EraDay.yearOfEra_eq (h : EraDay dayOfEra century cycle year day) :
    (dayOfEra - dayOfEra / 1460 + dayOfEra / 36524 - dayOfEra / 146096) / 365 =
      100 * century + 4 * cycle + year := by
  obtain ⟨hcentury, hcycle, hyear, hday, hleap, heq⟩ := h
  have hcenturies : dayOfEra / 36524 - dayOfEra / 146096 = century := by
    have hlast : dayOfEra = 146096 ∧ century = 3 ∨
        36524 * century ≤ dayOfEra ∧ dayOfEra ≤ 36524 * century + 36523 := by omega
    rcases hlast with ⟨rfl, rfl⟩ | hlast
    · rfl
    · omega
  -- Leap days so far, of which that of the last day is counted a little early.
  have hleaps : dayOfEra / 1460 = 25 * century + cycle ∧ day ≠ 365 ∨
      dayOfEra / 1460 = 25 * century + cycle + 1 ∧ 1 ≤ day := by omega
  omega

/-- The days before a year of the era. -/
theorem EraDay.daysBefore_eq (h : EraDay dayOfEra century cycle year day) :
    365 * (100 * century + 4 * cycle + year) + (100 * century + 4 * cycle + year) / 4 -
      (100 * century + 4 * cycle + year) / 100 = dayOfEra - day := by
  obtain ⟨hcentury, hcycle, hyear, hday, hleap, rfl⟩ := h
  omega

/-- The date of a day, in the year that starts with March. -/
theorem EraDay.ofDay_eq {n : Int} (h : EraDay ((n + epochOffset) % eraDays) century cycle year day) :
    let march := (5 * day + 2) / 153
    let start := 100 * century + 4 * cycle + year + (n + epochOffset) / eraDays * 400
    let dayOfMonth := (day - (153 * march + 2) / 5 + 1).toNat
    ofDay n = if march < 10 then ⟨start, (march + 3).toNat, dayOfMonth⟩
      else ⟨start + 1, (march - 9).toNat, dayOfMonth⟩ := by
  have hbounds := h.day_bounds
  have hday : (n + epochOffset) % eraDays - (365 * (100 * century + 4 * cycle + year) +
      (100 * century + 4 * cycle + year) / 4 - (100 * century + 4 * cycle + year) / 100) = day := by
    rw [h.daysBefore_eq]
    omega
  simp only [ofDay, h.yearOfEra_eq, hday]
  split
  · rw [if_neg (by omega)]
  · rw [if_pos (by omega)]

end EraDay

theorem exists_eraDay_of_day (n : Int) :
    ∃ century cycle year day, EraDay ((n + epochOffset) % eraDays) century cycle year day :=
  exists_eraDay (Int.emod_nonneg _ (by decide)) (Int.emod_lt_of_pos _ (by decide))

/-- The date of a day has the number of that day. -/
theorem toDay_ofDay (n : Int) : (ofDay n).toDay = n := by
  obtain ⟨century, cycle, year, day, h⟩ := exists_eraDay_of_day n
  have hbounds := h.day_bounds
  have hbefore := h.daysBefore_eq
  have hera : (n + epochOffset) / eraDays * eraDays + (n + epochOffset) % eraDays = n + epochOffset :=
    Int.ediv_mul_add_emod _ _
  have hyear : 0 ≤ 100 * century + 4 * cycle + year ∧ 100 * century + 4 * cycle + year < 400 := by
    obtain ⟨hcentury, hcycle, hyear, -⟩ := h
    omega
  rw [h.ofDay_eq]
  generalize (n + epochOffset) / eraDays = era at *
  generalize 100 * century + 4 * cycle + year = yearOfEra at *
  have hsum : (yearOfEra + era * 400) % 400 = yearOfEra ∧ (yearOfEra + era * 400) / 400 = era := by
    omega
  split
  · have hmonth : (((5 * day + 2) / 153 + 3).toNat + 9 : Int) % 12 = (5 * day + 2) / 153 := by omega
    simp only [toDay]
    rw [if_neg (by omega), hmonth, hsum.1, hsum.2]
    omega
  · have hmonth : (((5 * day + 2) / 153 - 9).toNat + 9 : Int) % 12 = (5 * day + 2) / 153 := by omega
    have hstart : yearOfEra + era * 400 + 1 - 1 = yearOfEra + era * 400 := by omega
    simp only [toDay]
    rw [if_pos (by omega), hmonth, hstart, hsum.1, hsum.2]
    omega

/-- The year in which a year of more than 365 days ends has a leap day. -/
theorem EraDay.isLeap {dayOfEra century cycle year : Int}
    (h : EraDay dayOfEra century cycle year 365) (era : Int) :
    isLeap (100 * century + 4 * cycle + year + era * 400 + 1) := by
  obtain ⟨hyear, hlast⟩ := h.leap rfl
  have hcentury := h.century_bounds
  have hcycle := h.cycle_bounds
  simp only [Date.isLeap, decide_eq_true_eq]
  omega

/-- The date of a day is a day that its month has. -/
theorem valid_ofDay (n : Int) : (ofDay n).Valid := by
  obtain ⟨century, cycle, year, day, h⟩ := exists_eraDay_of_day n
  have hbounds := h.day_bounds
  rw [h.ofDay_eq]
  split
  · refine ⟨by dsimp only; omega, by dsimp only; omega, by dsimp only; omega, ?_⟩
    simp only [monthLength]
    split
    · omega
    · split <;> omega
  · refine ⟨by dsimp only; omega, by dsimp only; omega, by dsimp only; omega, ?_⟩
    by_cases hlast : day = 365
    · subst hlast
      have hfebruary : ((5 * 365 + 2 : Int) / 153 - 9).toNat = 2 := by decide
      simp only [monthLength]
      rw [if_pos hfebruary, if_pos (h.isLeap _)]
      decide
    · simp only [monthLength]
      split
      · split <;> omega
      · split <;> omega

theorem day_le_of_valid {d : Date} (h : d.Valid) : d.day ≤ 31 := by
  have hlength : monthLength d.year d.month ≤ 31 := by
    rw [monthLength]
    split
    · split <;> omega
    · split <;> omega
  exact Nat.le_trans h.2.2.2 hlength

end Date

/-! ## Numbers of fixed width -/

namespace Text

theorem toList_padded (width n : Nat) :
    (padded width n).toList =
      List.replicate (width - (Nat.toDigits 10 n).length) '0' ++ Nat.toDigits 10 n := by
  rw [padded, Nat.toString_eq_repr, Nat.toList_repr, String.toList_ofList]

theorem isDigit_of_mem_padded {width n : Nat} {c : Char} (h : c ∈ (padded width n).toList) :
    c.isDigit := by
  rw [toList_padded] at h
  rcases List.mem_append.mp h with h | h
  · rw [List.eq_of_mem_replicate h]
    rfl
  · exact isDigit_toDigits c h

theorem length_padded {width n : Nat} (hwidth : 0 < width) (h : n < 10 ^ width) :
    (padded width n).toList.length = width := by
  have hle : (Nat.toDigits 10 n).length ≤ width :=
    (Nat.length_toDigits_le_iff (by decide) hwidth).mpr h
  rw [toList_padded, List.length_append, List.length_replicate, Nat.sub_add_cancel hle]

theorem ofDigitChars_padded (width n : Nat) : Nat.ofDigitChars 10 (padded width n).toList 0 = n := by
  rw [toList_padded, Nat.ofDigitChars_append, Nat.ofDigitChars_replicate_zero, Nat.mul_zero,
    Nat.ofDigitChars_ten_toDigits]

theorem exists_head_padded (width n : Nat) :
    ∃ c cs, (padded width n).toList = c :: cs ∧ c.isDigit := by
  have hne : (padded width n).toList ≠ [] := by
    rw [toList_padded]
    exact List.append_ne_nil_of_right_ne_nil _ Nat.toDigits_ne_nil
  obtain ⟨c, cs, hcs⟩ := List.exists_cons_of_ne_nil hne
  exact ⟨c, cs, hcs, isDigit_of_mem_padded (hcs ▸ List.mem_cons_self)⟩

theorem isBlank_of_isDigit {c : Char} (h : c.isDigit) : isBlank c = false := by
  have hbounds := Char.isDigit_iff_toNat.mp h
  have hfirst : '0'.toNat = 48 := rfl
  have hlast : '9'.toNat = 57 := rfl
  simp only [isBlank]
  simp
  omega

theorem trimStart_padded (width n : Nat) (rest : List Char) :
    trimStart ((padded width n).toList ++ rest) = (padded width n).toList ++ rest := by
  obtain ⟨c, cs, hcs, hc⟩ := exists_head_padded width n
  rw [hcs, List.cons_append, trimStart_cons_of_not_blank (isBlank_of_isDigit hc)]

end Text

namespace Timestamp

/-- Digits are read up to the greatest number of digits, or up to what is no digit. -/
theorem digits_append {cs rest : List Char} (h : ∀ c ∈ cs, c.isDigit) {most : Nat}
    (hmost : cs.length ≤ most) (hrest : cs.length = most ∨ ∀ c ∈ rest.head?, Text.digitValue? c = none)
    (value : Nat) :
    digits most value (cs ++ rest) = (Nat.ofDigitChars 10 cs value, cs.length, rest) := by
  induction cs generalizing most value with
  | nil =>
    cases rest with
    | nil =>
      rw [List.nil_append, digits]
      rfl
    | cons c rest =>
      rw [List.nil_append, digits]
      · rfl
      · rintro most d rfl hc
        rcases hrest with h | h
        · cases h
        · rw [h c rfl] at hc
          cases hc
  | cons c cs ih =>
    obtain ⟨most, rfl⟩ := Nat.exists_eq_add_of_le' (Nat.lt_of_lt_of_le (Nat.zero_lt_succ _) hmost)
    have hc : Text.digitValue? c = some (c.toNat - 48) :=
      Text.digitValue?_of_isDigit (h c List.mem_cons_self)
    have hcs := ih (fun c hc => h c (List.mem_cons_of_mem _ hc)) (Nat.le_of_succ_le_succ hmost)
      (hrest.imp_left Nat.succ.inj) (10 * value + (c.toNat - 48))
    rw [List.cons_append, digits, hcs, Nat.ofDigitChars_cons]
    · rfl
    · exact hc

theorem number_padded {most width n : Nat} (hwidth : 0 < width) (hmost : width ≤ most)
    (hn : n < 10 ^ width) (hword : n < UInt64.size / 2) {rest : List Char}
    (hrest : width = most ∨ ∀ c ∈ rest.head?, Text.digitValue? c = none) :
    number most ((Text.padded width n).toList ++ rest) = .ok (n, width, rest) := by
  have hlength := Text.length_padded hwidth hn
  have hdigits := digits_append (fun c hc => Text.isDigit_of_mem_padded hc)
    (Nat.le_trans (Nat.le_of_eq hlength) hmost) (hrest.imp_left hlength.trans) 0
  rw [Text.ofDigitChars_padded, hlength] at hdigits
  obtain ⟨width, rfl⟩ := Nat.exists_eq_add_of_lt hwidth
  obtain ⟨c, cs, hcs, -⟩ := Text.exists_head_padded (0 + width + 1) n
  rw [number]
  · rw [hdigits]
    exact if_pos hword
  · rw [hcs, List.cons_append]
    exact List.cons_ne_nil _ _

/-! ## Parts of a text -/

theorem field_padded {least most n : Nat} (hleast : least ≤ n) (hmost : n ≤ most) (hn : n < 100)
    (rest : List Char) : field least most ((Text.padded 2 n).toList ++ rest) = .ok (n, rest) := by
  have hword : n < UInt64.size / 2 := Nat.lt_trans hn (by decide)
  rw [field, Text.trimStart_padded, number_padded (by decide) (Nat.le_refl 2) hn hword (.inl rfl)]
  exact if_pos ⟨hleast, hmost⟩

theorem year_padded {n : Nat} (h : n < 10000) (rest : List Char) :
    year ((Text.padded 4 n).toList ++ rest) = .ok ((n : Int), rest) := by
  have hword : n < UInt64.size / 2 := Nat.lt_trans h (by decide)
  have hleast : Int32.minValue.toInt = -2147483648 := rfl
  have hgreatest : Int32.maxValue.toInt = 2147483647 := rfl
  have hnumber : number 4 ((Text.padded 4 n).toList ++ rest) = .ok (n, 4, rest) :=
    number_padded (by decide) (Nat.le_refl 4) h hword (.inl rfl)
  obtain ⟨c, cs, hcs, hc⟩ := Text.exists_head_padded 4 n
  have hsign : c ≠ '-' ∧ c ≠ '+' := by
    constructor <;> rintro rfl <;> exact absurd hc (by decide)
  rw [year, Text.trimStart_padded]
  rw [hcs, List.cons_append] at hnumber ⊢
  split
  · rename_i heq
    exact absurd (List.cons.inj heq).1 hsign.1
  · rename_i heq
    exact absurd (List.cons.inj heq).1 hsign.2
  · rw [hnumber]
    exact if_pos ⟨by omega, by omega⟩

theorem separator_cons {c : Char} (h : Text.isBlank c = false) (cs : List Char) :
    separator c (c :: cs) = .ok cs := by
  rw [separator, Text.trimStart_cons_of_not_blank h]
  exact if_pos rfl

theorem fraction_padded {width n : Nat} (hwidth : 0 < width) (hmost : width ≤ 9) (hn : n < 10 ^ width) :
    fraction ('.' :: ((Text.padded width n).toList ++ ['Z'])) = .ok (n * 10 ^ (9 - width), ['Z']) := by
  have hword : n < UInt64.size / 2 :=
    Nat.lt_of_lt_of_le hn (Nat.le_trans (Nat.pow_le_pow_right (by decide) hmost) (by decide))
  have hrest : ∀ c ∈ ['Z'].head?, Text.digitValue? c = none := by
    rintro c ⟨⟩
    rfl
  rw [fraction, number_padded hwidth hmost hn hword (.inr hrest)]
  rfl

/-- The fraction of a second is read back, however many groups of digits it takes. -/
theorem fraction_fractionText {nano : Nat} (h : nano < nanosPerSecond) :
    fraction ((fractionText nano).toList ++ ['Z']) = .ok (nano, ['Z']) := by
  have hsecond : nanosPerSecond = 1000000000 := rfl
  have hpoint (width n : Nat) : ("." ++ Text.padded width n).toList ++ ['Z'] =
      '.' :: ((Text.padded width n).toList ++ ['Z']) := by
    rw [String.toList_append]
    rfl
  rw [fractionText]
  split
  · subst nano
    rfl
  · split
    · have hnano : nano / 1000000 * 10 ^ (9 - 3) = nano := by omega
      rw [hpoint, fraction_padded (by decide) (by decide) (by omega), hnano]
    · split
      · have hnano : nano / 1000 * 10 ^ (9 - 6) = nano := by omega
        rw [hpoint, fraction_padded (by decide) (by decide) (by omega), hnano]
      · have hnano : nano * 10 ^ (9 - 9) = nano := by omega
        rw [hpoint, fraction_padded (by decide) (by decide) (by omega), hnano]

/-! ## Moments -/

/-- A moment of a day in a year of four digits. Its second runs on only at the end of a minute. -/
structure Regular (t : Timestamp) : Prop where
  year : 0 ≤ (Date.ofDay t.day).year ∧ (Date.ofDay t.day).year ≤ 9999
  second : t.second < secondsPerDay
  nano : t.nano < nanosPerSecond ∨ t.nano < 2 * nanosPerSecond ∧ t.second % 60 = 59

/-- The moment of its own date and time of day. -/
theorem ofLocal_ofDay {t : Timestamp} (hyear : InRange (Date.ofDay t.day).year)
    (hsecond : t.second < secondsPerDay) :
    ofLocal (Date.ofDay t.day) t.second t.nano 0 = .ok t := by
  have hday : (t.day * secondsPerDay + t.second - 0) / (secondsPerDay : Int) = t.day := by
    simp only [secondsPerDay] at hsecond ⊢
    omega
  have hrest : ((t.day * secondsPerDay + t.second - 0) % (secondsPerDay : Int)).toNat = t.second := by
    simp only [secondsPerDay] at hsecond ⊢
    omega
  have hvalid : ¬ ¬ (InRange (Date.ofDay t.day).year ∧ (Date.ofDay t.day).Valid) :=
    not_not_intro ⟨hyear, Date.valid_ofDay t.day⟩
  rw [ofLocal, if_neg hvalid, if_neg (by decide)]
  simp only [Date.toDay_ofDay, hday, hrest]
  exact if_pos hyear

/-- The characters of a moment's text. -/
theorem toList_text {t : Timestamp} {year : Nat} (hyear : (Date.ofDay t.day).year = year)
    (hle : year ≤ 9999) :
    t.text.toList = (Text.padded 4 year).toList ++ '-' ::
      ((Text.padded 2 (Date.ofDay t.day).month).toList ++ '-' ::
      ((Text.padded 2 (Date.ofDay t.day).day).toList ++ 'T' ::
      ((Text.padded 2 (t.second / 3600)).toList ++ ':' ::
      ((Text.padded 2 (t.second / 60 % 60)).toList ++ ':' ::
      ((Text.padded 2 (t.second % 60 + t.nano / nanosPerSecond)).toList ++
      ((fractionText (t.nano % nanosPerSecond)).toList ++ ['Z'])))))) := by
  have hyearText : yearText (Date.ofDay t.day).year = Text.padded 4 year := by
    rw [hyear, yearText, if_pos ⟨by omega, by omega⟩, Int.toNat_natCast]
  simp [text, textWith, hyearText, String.toList_append]

/-- Seconds of a day and nanoseconds, put together from what is written of them. -/
theorem time_eq {second nano : Nat}
    (h : nano < nanosPerSecond ∨ nano < 2 * nanosPerSecond ∧ second % 60 = 59) :
    second / 3600 * 3600 + second / 60 % 60 * 60 + min (second % 60 + nano / nanosPerSecond) 59 = second ∧
      nano % nanosPerSecond +
        (if second % 60 + nano / nanosPerSecond = 60 then nanosPerSecond else 0) = nano := by
  have hleap : nano / nanosPerSecond = 0 ∧ nano % nanosPerSecond = nano ∨
      nano / nanosPerSecond = 1 ∧ nano % nanosPerSecond + nanosPerSecond = nano ∧ second % 60 = 59 := by
    simp only [nanosPerSecond] at h ⊢
    omega
  rcases hleap with ⟨hleap, hnano⟩ | ⟨hleap, hnano, hlast⟩
  · rw [hleap, hnano, if_neg (by omega)]
    omega
  · rw [hleap, if_pos (by omega), hnano]
    omega

/-- The text of a regular moment is read back. -/
theorem ofText_text {t : Timestamp} (h : t.Regular) : ofText t.text = .ok t := by
  obtain ⟨⟨hzero, hle⟩, hday, hnano⟩ := h
  obtain ⟨year, hyear⟩ := Int.eq_ofNat_of_zero_le hzero
  have hvalid : (Date.ofDay t.day).Valid := Date.valid_ofDay t.day
  have hrange : InRange (Date.ofDay t.day).year := ⟨by omega, by omega⟩
  have hdate := field_padded hvalid.2.2.1 (Date.day_le_of_valid hvalid)
    (Nat.lt_of_le_of_lt (Date.day_le_of_valid hvalid) (by decide))
  have hmonth := field_padded hvalid.1 hvalid.2.1 (Nat.lt_of_le_of_lt hvalid.2.1 (by decide))
  have hhour : t.second / 3600 ≤ 23 := by
    simp only [secondsPerDay] at hday
    omega
  have hminute : t.second / 60 % 60 ≤ 59 := by omega
  have hsecond : t.second % 60 + t.nano / nanosPerSecond ≤ 60 := by
    simp only [nanosPerSecond] at hnano ⊢
    omega
  have htime (most n : Nat) (hn : n ≤ most) (hmost : most < 100) :=
    field_padded (Nat.zero_le n) hn (Nat.lt_of_le_of_lt hn hmost)
  obtain ⟨hseconds, hnanos⟩ := time_eq hnano
  rw [ofText, toList_text hyear (by omega)]
  simp only [bind, Except.bind, pure, Except.pure, separator_cons (c := '-') rfl,
    separator_cons (c := ':') rfl, year_padded (n := year) (by omega), hmonth, hdate,
    htime 23 _ hhour (by decide), htime 59 _ hminute (by decide), htime 60 _ hsecond (by decide),
    fraction_fractionText (Nat.mod_lt t.nano (by decide))]
  change ofLocal ⟨year, _, _⟩ (t.second / 3600 * 3600 + t.second / 60 % 60 * 60 +
    min (t.second % 60 + t.nano / nanosPerSecond) 59) (t.nano % nanosPerSecond +
      (if t.second % 60 + t.nano / nanosPerSecond = 60 then nanosPerSecond else 0)) 0 = _
  rw [hseconds, hnanos, ← hyear]
  exact ofLocal_ofDay hrange hday

end Timestamp

end FlowEngine
