import SliceScheduler.Proofs.Numerals
import SliceScheduler.Time.Timestamp
/-!
# Reading back time stamps

1. `Date.count_ofDay` and `Date.toDay?_ofDay` say that the date of a day counts up to the day, for
   every day before or after 1970;
2. `Instant.ofTimestamp?_timestamp` says that the time stamp of an instant stands for that instant,
   also in a leap second and in a year with more or fewer than four digits.
-/
namespace SliceScheduler

/-! ## The calendar -/

namespace Date

/-- The year of the cycle is the one that its day lies in: the years before it take no more days
than have passed, and leave one year at most. -/
theorem yearOfEra_bounds {ofEra year : Nat} (inEra : ofEra < 146097)
    (is : year = (ofEra - ofEra / 1460 + ofEra / 36524 - ofEra / 146096) / 365) :
    year < 400 ∧ 365 * year + year / 4 - year / 100 ≤ ofEra ∧
      ofEra ≤ 365 * year + year / 4 - year / 100 + 365 := by
  -- the cycle has one day more than its four centuries, the leap day that ends it
  by_cases last : ofEra = 146096
  · rw [last] at is
    rw [is, last]
    decide
  have noLast : ofEra / 146096 = 0 := by omega
  obtain ⟨century, isCentury⟩ : ∃ n, n = ofEra / 36524 := ⟨_, rfl⟩
  have : century < 4 := by omega
  rw [← isCentury, noLast] at is
  have sameCentury : year / 100 = century := by interval_cases century <;> omega
  rw [sameCentury]
  interval_cases century <;> omega

theorem marchMonth_bounds {ofYear march : Nat} (inYear : ofYear ≤ 365)
    (is : march = (5 * ofYear + 2) / 153) :
    march < 12 ∧ (153 * march + 2) / 5 ≤ ofYear ∧ ofYear - (153 * march + 2) / 5 < 31 := by
  have : march < 12 := by omega
  interval_cases march <;> omega

theorem count_mk {era : Int} {year march ofYear day : Nat} (inCycle : year < 400)
    (inYear : march < 12) (starts : (153 * march + 2) / 5 ≤ ofYear)
    (is : day = ofYear - (153 * march + 2) / 5 + 1) :
    let month := if march < 10 then march + 3 else march - 9
    let shown : Int := year + era * 400
    (Date.mk (if month ≤ 2 then shown + 1 else shown) month day).count
      = era * daysPerEra + (365 * year + year / 4 - year / 100 + ofYear : Nat) - epochShift := by
  have back : ((year : Int) + era * 400) / 400 = era := by omega
  have back' : (((year : Int) + era * 400) % 400).toNat = year := by omega
  by_cases early : march < 10
  · have later : ¬ march + 3 ≤ 2 := by omega
    have months : march + 3 - 3 = march := by omega
    simp only [count, if_pos early, if_neg later, back, back', months]
    omega
  · have first : march - 9 ≤ 2 := by omega
    have months : march - 9 + 9 = march := by omega
    have years : ((year : Int) + era * 400 + 1 - 1) = year + era * 400 := by omega
    simp only [count, if_neg early, if_pos first, years, back, back', months]
    omega

/-- The parts that a day is shown by: the month from March and the day of that month. -/
theorem ofDay_parts (n : Int) : ∃ (era : Int) (year march ofYear : Nat), year < 400 ∧
    march < 12 ∧ (153 * march + 2) / 5 ≤ ofYear ∧ ofYear - (153 * march + 2) / 5 < 31 ∧
    era * daysPerEra + (365 * year + year / 4 - year / 100 + ofYear : Nat) = n + epochShift ∧
    ofDay n =
      let month := if march < 10 then march + 3 else march - 9
      let shown : Int := year + era * 400
      ⟨if month ≤ 2 then shown + 1 else shown, month, ofYear - (153 * march + 2) / 5 + 1⟩ := by
  have inEra : ((n + epochShift) % daysPerEra).toNat < 146097 := by
    simp only [daysPerEra]; omega
  have split : (n + epochShift) / daysPerEra * daysPerEra +
      ((n + epochShift) % daysPerEra).toNat = n + epochShift := by
    simp only [daysPerEra]; omega
  obtain ⟨inCycle, starts, ends⟩ := yearOfEra_bounds inEra rfl
  obtain ⟨inYear, monthStarts, inMonth⟩ := marchMonth_bounds (Nat.sub_le_iff_le_add'.mpr ends) rfl
  exact ⟨_, _, _, _, inCycle, inYear, monthStarts, inMonth, by omega, rfl⟩

/-- The date of a day counts up to the day. -/
theorem count_ofDay (n : Int) : (ofDay n).count = n := by
  obtain ⟨era, year, march, ofYear, inCycle, inYear, monthStarts, -, days, shown⟩ := ofDay_parts n
  rw [shown, count_mk inCycle inYear monthStarts rfl, days]
  omega

theorem toDay?_ofDay (n : Int) : (ofDay n).toDay? = some n := by
  rw [toDay?, count_ofDay, if_pos rfl]

theorem month_le (n : Int) : (ofDay n).month ≤ 12 := by
  obtain ⟨era, year, march, ofYear, -, inYear, -, -, -, shown⟩ := ofDay_parts n
  rw [shown]
  dsimp only
  split <;> omega

theorem day_le (n : Int) : (ofDay n).day ≤ 31 := by
  obtain ⟨era, year, march, ofYear, -, -, -, inMonth, -, shown⟩ := ofDay_parts n
  rw [shown]
  exact inMonth

end Date

/-! ## Time stamps -/

namespace Instant

open Text Text.Reader

theorem readPart_padded {n : Nat} (small : n < 100) (rest : List Char) :
    readPart (padded 2 n ++ rest) = some (n, rest) := by
  rw [readPart, bind_apply (blanks_padded 2 n rest)]
  exact number_append (by decide) small

theorem readMark_cons {c : Char} (plain : isBlank c = false) (rest : List Char) :
    readMark c (c :: rest) = some ((), rest) := by
  rw [readMark, bind_apply (blanks_cons plain rest), Text.Reader.char, if_pos rfl]

/-- The year of a date as it is written. -/
theorem readYear_signed (year : Int) (rest : List Char) :
    readYear ((if year < 0 then '-' :: padded 4 year.natAbs
        else if 9999 < year then '+' :: padded 4 year.natAbs
        else padded 4 year.natAbs) ++ '-' :: rest) = some (year, '-' :: rest) := by
  have ends : EndsDigits ('-' :: rest) := by rintro c ⟨⟩; decide
  have long := longNumber_append 4 year.natAbs ends
  split
  case isTrue negative =>
    have value : -((year.natAbs : Nat) : Int) = year := by omega
    rw [readYear, List.cons_append, bind_apply (blanks_cons (by decide) _),
      bind_apply (rest_apply _)]
    show (do char '-'; return -((← longNumber : Nat) : Int) : Reader Int) _ = _
    rw [bind_apply (char_cons _ _), bind_apply long, value]
    rfl
  split
  case isTrue large =>
    have value : ((year.natAbs : Nat) : Int) = year := by omega
    rw [readYear, List.cons_append, bind_apply (blanks_cons (by decide) _),
      bind_apply (rest_apply _)]
    show (do char '+'; return ((← longNumber : Nat) : Int) : Reader Int) _ = _
    rw [bind_apply (char_cons _ _), bind_apply long, value]
    rfl
  case isFalse =>
    have value : ((year.natAbs : Nat) : Int) = year := by omega
    have four : number 4 (padded 4 year.natAbs ++ '-' :: rest) = some (year.natAbs, '-' :: rest) :=
      number_append (by decide) (by omega)
    rw [readYear, bind_apply (blanks_padded _ _ _), bind_apply (rest_apply _)]
    obtain ⟨d, ds, shape, digit⟩ := exists_cons_padded 4 year.natAbs
    rw [shape, List.cons_append] at four ⊢
    generalize text : d :: (ds ++ '-' :: rest) = cs at *
    split
    case h_1 =>
      rw [(List.cons.inj text).1] at digit
      exact absurd digit (by decide)
    case h_2 =>
      rw [(List.cons.inj text).1] at digit
      exact absurd digit (by decide)
    case h_3 =>
      rw [bind_apply four, value]
      rfl

theorem readFraction_padded {width n : Nat} (positive : 0 < width) (fits : width ≤ 9)
    (small : n < 10 ^ width) (rest : List Char) :
    readFraction ('.' :: padded width n ++ 'Z' :: rest)
      = some (n * 10 ^ (9 - width), 'Z' :: rest) := by
  have ends : EndsDigits ('Z' :: rest) := by rintro c ⟨⟩; decide
  have length := length_padded positive small
  have taken : digits 9 (padded width n ++ 'Z' :: rest) = some (padded width n, 'Z' :: rest) :=
    digits_append (padded_ne_nil width n) (fun _ => isDigit_of_mem_padded) (by omega) (.inr ends)
  rw [readFraction, List.cons_append, bind_apply (rest_apply _)]
  show (do
    char '.'
    let taken ← digits 9
    modify (·.dropWhile Char.isDigit)
    return digitsValue taken * Nat.pow 10 (9 - taken.length) : Reader Nat) _ = _
  rw [bind_apply (char_cons _ _), bind_apply taken, digitsValue_padded, length]
  show some (_, ('Z' :: rest).dropWhile Char.isDigit) = _
  rw [dropWhile_isDigit ends]
  rfl

theorem readFraction_fractionChars (t : Instant) (rest : List Char) :
    readFraction (t.fractionChars ++ 'Z' :: rest) = some (t.nano % nanosPerSecond, 'Z' :: rest) := by
  have := Nat.mod_lt t.nano (show 0 < nanosPerSecond by decide)
  simp only [fractionChars]
  generalize t.nano % nanosPerSecond = nano at *
  simp only [nanosPerSecond] at this
  split
  case isTrue whole => rw [whole]; rfl
  split
  case isTrue millis =>
    rw [readFraction_padded (by decide) (by decide) (by omega)]
    simp; omega
  split
  case isTrue micros =>
    rw [readFraction_padded (by decide) (by decide) (by omega)]
    simp; omega
  case isFalse nanos =>
    rw [readFraction_padded (by decide) (by decide) (by omega)]
    simp

theorem ofLocal?_parts (t : Instant) :
    ofLocal? (Date.ofDay (t.second / 86400)) (t.secondOfDay.toNat / 3600)
      (t.secondOfDay.toNat / 60 % 60) (t.secondOfDay.toNat % 60 + t.nano / nanosPerSecond)
      (t.nano % nanosPerSecond) 0 = some t := by
  have inRange := (⟨t.second_ge, t.second_le, t.nano_lt, t.leap_ends_minute⟩ : _ ∧ _ ∧ _ ∧ _)
  obtain ⟨ofDay, isOfDay⟩ : ∃ n : Nat, t.secondOfDay = n :=
    ⟨t.secondOfDay.toNat, by simp only [secondOfDay]; omega⟩
  have second : t.second = t.second / 86400 * 86400 + ofDay := by
    rw [← isOfDay, secondOfDay]; omega
  have short : ofDay < 86400 := by
    have : t.secondOfDay < 86400 := by simp only [secondOfDay]; omega
    omega
  -- only a leap second is written as second 60
  have leap : (ofDay % 60 + t.nano / nanosPerSecond = 60 ∧ nanosPerSecond ≤ t.nano) ∨
      (ofDay % 60 + t.nano / nanosPerSecond < 60 ∧ t.nano < nanosPerSecond) := by
    simp only [nanosPerSecond] at inRange ⊢
    omega
  have back : t.second / 86400 * 86400 + ((ofDay / 3600 * 3600 + ofDay / 60 % 60 * 60 +
      min (ofDay % 60 + t.nano / nanosPerSecond) 59 : Nat) : Int) = t.second := by
    simp only [nanosPerSecond] at *
    omega
  have nano : (if ofDay % 60 + t.nano / nanosPerSecond = 60 then
      nanosPerSecond + t.nano % nanosPerSecond else t.nano % nanosPerSecond) = t.nano := by
    simp only [nanosPerSecond] at *
    rcases leap with ⟨last, long⟩ | ⟨before, short⟩
    · rw [if_pos last]; omega
    · rw [if_neg (by omega)]; omega
  rw [ofLocal?, Date.toDay?_ofDay, isOfDay]
  simp only [Option.bind_eq_bind, Option.bind_some, Int.toNat_natCast]
  rw [if_neg (by omega), back, if_neg (by omega), nano, Int.sub_zero, ofParts?, dif_pos inRange]

theorem readOffset_Z : readOffset ['Z'] = some (0, []) := by decide

/-- The mark between the date and the time of day may be one of several. -/
theorem discard_satisfy_T (rest : List Char) :
    (discard (satisfy fun c => c == 'T' || c == 't' || c == ' ') : Reader Unit) ('T' :: rest)
      = some ((), rest) := rfl

theorem blanks_nil : blanks [] = some ((), []) := rfl

/-- A time stamp stands for the instant that it was made of. -/
theorem ofTimestamp?_timestamp (t : Instant) : ofTimestamp? t.timestamp = some t := by
  have month := Date.month_le (t.second / 86400)
  have day := Date.day_le (t.second / 86400)
  have short : t.secondOfDay.toNat < 86400 := by simp only [secondOfDay]; omega
  have leap : t.nano / nanosPerSecond < 2 := by
    rw [Nat.div_lt_iff_lt_mul (by decide)]
    exact t.nano_lt
  -- the parts are read one after the other, each of them up to the mark after it
  have read : readTimestamp t.timestampChars = some (some t, []) := by
    simp only [timestampChars, dateChars, clockChars, List.append_assoc, List.cons_append]
    rw [readTimestamp, bind_apply (readYear_signed _ _), bind_apply (readMark_cons (by decide) _),
      bind_apply (readPart_padded (by omega) _), bind_apply (readMark_cons (by decide) _),
      bind_apply (readPart_padded (by omega) _), bind_apply (discard_satisfy_T _),
      bind_apply (readPart_padded (by omega) _), bind_apply (readMark_cons (by decide) _),
      bind_apply (readPart_padded (by omega) _), bind_apply (readMark_cons (by decide) _),
      bind_apply (readPart_padded (by omega) _), bind_apply (readFraction_fractionChars t _),
      bind_apply readOffset_Z, bind_apply blanks_nil, ofLocal?_parts]
    rfl
  simp only [ofTimestamp?, timestamp, String.toList_ofList, run?, read]
  rfl

end Instant

end SliceScheduler
