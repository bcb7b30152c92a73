import WorkStealing.Text.Timestamp

/-!
# Reading points in time as they were written

The lenient reader of points in time brings back what their written form says (`parse?_text`), which
is the point in time itself unless it lies in a leap second before the last second of a minute
(`parse?_text_eq_some_iff`). Every number of the written form is a row of decimal digits
(`Numeral`) that ends before a character that is none, so the reader takes each part whole: the year
with its sign or without, the fraction in any of its four lengths, the second 60 of a leap second.
-/

namespace WorkStealing

namespace Text

variable {c : Char} {cs rest : List Char} {n w : Nat}

/-! ### Rows of digits -/

theorem digit_bounds (h : c.isDigit = true) : '0' ≤ c ∧ c ≤ '9' := by
  rw [Char.isDigit, Bool.and_eq_true, decide_eq_true_eq, decide_eq_true_eq] at h
  exact h

theorem decimalValue?_of_isDigit (h : c.isDigit = true) :
    decimalValue? c = some (c.toNat - '0'.toNat) :=
  if_pos (digit_bounds h)

theorem isDecimal_of_isDigit (h : c.isDigit = true) : isDecimal c = true := by
  rw [isDecimal, decimalValue?_of_isDigit h, Option.isSome_some]

theorem isDigit_of_isDecimal (h : isDecimal c = true) : c.isDigit = true := by
  rw [isDecimal, decimalValue?] at h
  split at h
  next hbounds =>
    rw [Char.isDigit, Bool.and_eq_true, decide_eq_true_eq, decide_eq_true_eq]
    exact hbounds
  next => cases h

/-- No digit is white space. -/
theorem isBlank_of_isDecimal (h : isDecimal c = true) : isBlank c = false := by
  obtain ⟨hlow, hhigh⟩ := digit_bounds (isDigit_of_isDecimal h)
  have hlow : 48 ≤ c.toNat := hlow
  have hhigh : c.toNat ≤ 57 := hhigh
  rw [isBlank, List.any_eq_false]
  intro r hr
  rw [Bool.and_eq_true, decide_eq_true_eq, decide_eq_true_eq]
  -- all ranges end below the digits or begin above them
  have hranges : ∀ r ∈ blankRanges, r.2 < 48 ∨ 57 < r.1 := by decide
  have hside := hranges r hr
  omega

theorem ofDecimal_eq_ofDigitChars (h : ∀ c ∈ cs, c.isDigit = true) :
    ofDecimal cs = Nat.ofDigitChars 10 cs 0 := by
  have hvalues : cs.map (fun c => (decimalValue? c).getD 0) =
      cs.map fun c => c.toNat - '0'.toNat := by
    apply List.map_congr_left
    intro c hc
    rw [decimalValue?_of_isDigit (h c hc), Option.getD_some]
  rw [ofDecimal, hvalues, ofDigits, List.foldl_map, Nat.ofDigitChars_eq_foldl]
  congr 1
  funext n c
  rw [Nat.mul_comm]

/-- A row of decimal digits, at least one, that writes a number. -/
structure Numeral (cs : List Char) (n : Nat) : Prop where
  decimal : ∀ c ∈ cs, isDecimal c = true
  ne_nil : cs ≠ []
  value : ofDecimal cs = n

theorem toList_padded (w n : Nat) :
    (padded w n).toList =
      List.replicate (w - (Nat.toDigits 10 n).length) '0' ++ Nat.toDigits 10 n := by
  rw [padded, String.toList_append, String.toList_ofList, Nat.toList_repr, ← String.length_toList,
    Nat.toList_repr]

theorem length_padded (w n : Nat) :
    (padded w n).toList.length = max w (Nat.toDigits 10 n).length := by
  rw [toList_padded, List.length_append, List.length_replicate]
  omega

/-- A number that has at most the wanted digits is written with exactly so many. -/
theorem length_padded_of_lt (hw : 0 < w) (h : n < Nat.pow 10 w) :
    (padded w n).toList.length = w := by
  rw [length_padded]
  exact Nat.max_eq_left ((Nat.length_toDigits_le_iff (by decide) hw).2 h)

theorem numeral_padded (w n : Nat) : Numeral (padded w n).toList n := by
  have hdigit : ∀ c ∈ (padded w n).toList, c.isDigit = true := by
    intro c hc
    rw [toList_padded, List.mem_append] at hc
    rcases hc with hzero | hdigits
    · rw [List.eq_of_mem_replicate hzero]
      decide
    · exact Nat.isDigit_of_mem_toDigits (by decide) (by decide) hdigits
  constructor
  · intro c hc
    exact isDecimal_of_isDigit (hdigit c hc)
  · rw [toList_padded]
    exact List.append_ne_nil_of_right_ne_nil _ Nat.toDigits_ne_nil
  · -- zeros in front do not count
    rw [ofDecimal_eq_ofDigitChars hdigit, toList_padded, Nat.ofDigitChars_append,
      Nat.ofDigitChars_replicate_zero, Nat.mul_zero, Nat.ofDigitChars_ten_toDigits]

namespace Numeral

variable (h : Numeral cs n)

include h

/-- The digits that start a text are the row, when no digit follows it. -/
theorem takeWhile_append (hc : isDecimal c = false) (rest : List Char) :
    (cs ++ c :: rest).takeWhile isDecimal = cs := by
  rw [List.takeWhile_append_of_pos h.decimal, List.takeWhile_cons, hc]
  exact List.append_nil cs

theorem skipBlanks_append (rest : List Char) : skipBlanks (cs ++ rest) = cs ++ rest := by
  cases cs with
  | nil => exact absurd rfl h.ne_nil
  | cons d ds =>
      have hd := isBlank_of_isDecimal (h.decimal d List.mem_cons_self)
      rw [List.cons_append, skipBlanks, List.dropWhile_cons, hd]
      rfl

theorem head_append (rest : List Char) :
    ∃ d ds, cs ++ rest = d :: ds ∧ isDecimal d = true := by
  cases cs with
  | nil => exact absurd rfl h.ne_nil
  | cons d ds => exact ⟨d, ds ++ rest, rfl, h.decimal d List.mem_cons_self⟩

end Numeral

end Text

theorem CalendarDay.daysIn_le (year : Int) (month : Nat) : CalendarDay.daysIn year month ≤ 31 := by
  unfold CalendarDay.daysIn
  split
  · by_cases hleap : CalendarDay.isLeapYear year = true
    · rw [if_pos hleap]
      decide
    · rw [if_neg hleap]
      decide
  all_goals decide

open Text

namespace Timestamp

variable {c : Char} {cs rest : List Char} {n w : Nat}

/-! ### The parts of the written form -/

/-- A number of the full width is read, whatever follows it. -/
theorem shortNumber_append (h : Numeral cs n) (hlen : cs.length = w) (rest : List Char) :
    shortNumber w (cs ++ rest) = some (n, rest) := by
  have htaken : ((cs ++ rest).take w).takeWhile isDecimal = cs := by
    rw [← hlen, List.take_left]
    have hwhole : (cs ++ []).takeWhile isDecimal = cs ++ [].takeWhile isDecimal :=
      List.takeWhile_append_of_pos h.decimal
    rw [List.append_nil, List.takeWhile_nil, List.append_nil] at hwhole
    exact hwhole
  have hfull : cs.isEmpty = false := List.isEmpty_eq_false_iff.2 h.ne_nil
  simp only [shortNumber, h.skipBlanks_append, htaken, hfull, h.value, List.drop_left]
  rfl

theorem shortNumber_padded (hw : 0 < w) (h : n < Nat.pow 10 w) (rest : List Char) :
    shortNumber w ((padded w n).toList ++ rest) = some (n, rest) :=
  shortNumber_append (numeral_padded w n) (length_padded_of_lt hw h) rest

/-- A number of any width is read up to the character behind it. -/
theorem allDigits_append (h : Numeral cs n) (hc : isDecimal c = false) (rest : List Char) :
    year.allDigits (cs ++ c :: rest) = some (n, c :: rest) := by
  have hfull : cs.isEmpty = false := List.isEmpty_eq_false_iff.2 h.ne_nil
  simp only [year.allDigits, h.takeWhile_append hc, hfull, h.value, List.drop_left]
  rfl

theorem mark_cons (hc : isBlank c = false) (rest : List Char) :
    mark c (c :: rest) = some rest := by
  have hskip : skipBlanks (c :: rest) = c :: rest := by
    rw [skipBlanks, List.dropWhile_cons, hc]
    rfl
  rw [mark, hskip]
  exact if_pos rfl

/-- A year that starts with a digit has no sign, and so at most four digits. -/
theorem year_of_isDecimal (hc : isDecimal c = true) (rest : List Char) :
    year (c :: rest) = (shortNumber 4 (c :: rest)).map fun r => ((r.1 : Int), r.2) := by
  have hskip : skipBlanks (c :: rest) = c :: rest := by
    rw [skipBlanks, List.dropWhile_cons, isBlank_of_isDecimal hc]
    rfl
  rw [year, hskip]
  split
  next hminus =>
    obtain ⟨rfl, -⟩ := List.cons.inj hminus
    exact absurd hc (by decide)
  next hplus =>
    obtain ⟨rfl, -⟩ := List.cons.inj hplus
    exact absurd hc (by decide)
  next => rfl

theorem year_minus (rest : List Char) :
    year ('-' :: rest) = (year.allDigits rest).map fun r => (-(r.1 : Int), r.2) := rfl

theorem year_plus (rest : List Char) :
    year ('+' :: rest) = (year.allDigits rest).map fun r => ((r.1 : Int), r.2) := rfl

/-- Every year is read as it was written, with a sign or without. -/
theorem year_yearText (y : Int) (rest : List Char) :
    year ((yearText y).toList ++ '-' :: rest) = some (y, '-' :: rest) := by
  rw [yearText]
  by_cases hplain : 0 ≤ y ∧ y ≤ 9999
  · have hlt : y.toNat < 10000 := by omega
    have hread := shortNumber_padded (n := y.toNat) (w := 4) (by decide) hlt ('-' :: rest)
    obtain ⟨d, ds, hcons, hd⟩ := (numeral_padded 4 y.toNat).head_append ('-' :: rest)
    rw [if_pos hplain, hcons, year_of_isDecimal hd, ← hcons, hread, Option.map_some,
      Int.toNat_of_nonneg hplain.1]
  rw [if_neg hplain, String.toList_append, List.append_assoc]
  -- behind a sign the digits go on up to the hyphen before the month
  have hread := allDigits_append (numeral_padded 4 y.natAbs) (c := '-') (by decide) rest
  by_cases hneg : y < 0
  · have habs : -(y.natAbs : Int) = y := by omega
    have hsign : "-".toList = ['-'] := rfl
    rw [if_pos hneg, hsign, List.singleton_append, year_minus, hread, Option.map_some, habs]
  · have habs : (y.natAbs : Int) = y := by omega
    have hsign : "+".toList = ['+'] := rfl
    rw [if_neg hneg, hsign, List.singleton_append, year_plus, hread, Option.map_some, habs]

/-- Digits after the point count as many nanoseconds as their places say. -/
theorem fraction_padded (hw : 0 < w) (hw9 : w ≤ 9) (h : n < Nat.pow 10 w) (rest : List Char) :
    fraction ('.' :: ((padded w n).toList ++ 'Z' :: rest)) =
      some (n * Nat.pow 10 (9 - w), 'Z' :: rest) := by
  have hnumeral := numeral_padded w n
  have hlen := length_padded_of_lt hw h
  have hrest : ((padded w n).toList ++ 'Z' :: rest).drop w = 'Z' :: rest := by
    rw [List.drop_append_of_le_length (Nat.le_of_eq hlen.symm), List.drop_of_length_le
      (Nat.le_of_eq hlen), List.nil_append]
  have hfull : (padded w n).toList.isEmpty = false := List.isEmpty_eq_false_iff.2 hnumeral.ne_nil
  have hkept : (padded w n).toList.take 9 = (padded w n).toList :=
    List.take_of_length_le (by omega)
  simp only [fraction, hnumeral.takeWhile_append (c := 'Z') (by decide), hfull, hkept,
    hnumeral.value, hlen, hrest]
  rfl

/-- A fraction is read as it was written, in the shortest of its four lengths that is exact. -/
theorem fraction_fractionText (h : n < 1000000000) (rest : List Char) :
    fraction ((fractionText n).toList ++ 'Z' :: rest) = some (n, 'Z' :: rest) := by
  have hpoint : ".".toList = ['.'] := rfl
  rw [fractionText]
  by_cases hzero : n = 0
  · rw [if_pos hzero, hzero]
    rfl
  rw [if_neg hzero]
  by_cases hmillis : n % 1000000 = 0
  · have hlt : n / 1000000 < 1000 := by omega
    have hvalue : n / 1000000 * Nat.pow 10 (9 - 3) = n :=
      Nat.div_mul_cancel (Nat.dvd_of_mod_eq_zero hmillis)
    rw [if_pos hmillis, String.toList_append, hpoint, List.singleton_append, List.cons_append,
      fraction_padded (by decide) (by decide) hlt, hvalue]
  rw [if_neg hmillis]
  by_cases hmicros : n % 1000 = 0
  · have hlt : n / 1000 < 1000000 := by omega
    have hvalue : n / 1000 * Nat.pow 10 (9 - 6) = n :=
      Nat.div_mul_cancel (Nat.dvd_of_mod_eq_zero hmicros)
    rw [if_pos hmicros, String.toList_append, hpoint, List.singleton_append, List.cons_append,
      fraction_padded (by decide) (by decide) hlt, hvalue]
  have hvalue : n * Nat.pow 10 (9 - 9) = n := Nat.mul_one n
  rw [if_neg hmicros, String.toList_append, hpoint, List.singleton_append, List.cons_append,
    fraction_padded (by decide) (by decide) h, hvalue]

/-! ### The whole -/

theorem atOffset_zero {t : Timestamp} (h : t.second < 86400) : t.atOffset 0 = t := by
  have hneg : ¬ ((t.second : Int) - 0 * 60 < 0) := by omega
  have hday : ¬ (86400 ≤ (t.second : Int) - 0 * 60) := by omega
  have hsecond : ((t.second : Int) - 0 * 60).toNat = t.second := by omega
  rw [atOffset]
  simp only [if_neg hneg, if_neg hday, hsecond]

/-- The written form as a row of characters, each number in front of the mark that ends it. -/
theorem toList_text (t : Timestamp) (leap : Nat)
    (hleap : leap = if 1000000000 ≤ t.nanos then 1 else 0) :
    t.text.toList =
      (yearText t.date.year).toList ++ '-' :: ((padded 2 t.date.month).toList ++
        '-' :: ((padded 2 t.date.day).toList ++
          'T' :: ((padded 2 (t.second / 3600)).toList ++
            ':' :: ((padded 2 (t.second / 60 % 60)).toList ++
              ':' :: ((padded 2 (t.second % 60 + leap)).toList ++
                ((fractionText (t.nanos - leap * 1000000000)).toList ++ ['Z'])))))) := by
  subst hleap
  have hhyphen : "-".toList = ['-'] := rfl
  have hday : "T".toList = ['T'] := rfl
  have hcolon : ":".toList = [':'] := rfl
  have hzulu : "Z".toList = ['Z'] := rfl
  simp only [text, String.toList_append, List.append_assoc, hhyphen, hday, hcolon, hzulu,
    List.cons_append, List.nil_append]

/-- What `isValid` asks of the parts, as numbers. -/
theorem isValid_facts {t : Timestamp} (h : t.isValid = true) :
    t.date.isValid = true ∧ t.date.month < 100 ∧ t.date.day < 100 ∧ t.second < 86400 ∧
      t.nanos < 2000000000 := by
  simp only [isValid, Bool.and_eq_true, decide_eq_true_eq] at h
  obtain ⟨⟨hdate, hsecond⟩, hnanos⟩ := h
  have hparts := hdate
  simp only [CalendarDay.isValid, Bool.and_eq_true, decide_eq_true_eq] at hparts
  obtain ⟨⟨⟨-, hmonth⟩, -⟩, hday⟩ := hparts
  have hdays := CalendarDay.daysIn_le t.date.year t.date.month
  exact ⟨hdate, by omega, by omega, hsecond, hnanos⟩

/-- Whether the written form says this very point in time: a leap second, if it lies in one, is the
last second of its minute. -/
def isWritable (t : Timestamp) : Bool := t.nanos < 1000000000 || t.second % 60 = 59

/-- The point in time that the written form says. A leap second that cannot be written is the second
after it. -/
def written (t : Timestamp) : Timestamp :=
  if t.isWritable then t
  else { t with second := t.second + 1, nanos := t.nanos - 1000000000 }

theorem isWritable_iff {t : Timestamp} :
    t.isWritable = true ↔ t.nanos < 1000000000 ∨ t.second % 60 = 59 := by
  rw [isWritable, Bool.or_eq_true, decide_eq_true_eq, decide_eq_true_eq]

/-- A point in time is what its written form says exactly if it can be written. -/
theorem written_eq_self_iff {t : Timestamp} : t.written = t ↔ t.isWritable = true := by
  rw [written]
  split
  next hwritable => exact iff_of_true rfl hwritable
  next hmoved =>
    refine iff_of_false ?_ hmoved
    intro heq
    exact Nat.succ_ne_self t.second (congrArg Timestamp.second heq)

/-- The second after an unwritable leap second is one of the same minute. -/
theorem written_facts {t : Timestamp} (h : t.second < 86400) :
    t.written.date = t.date ∧ t.written.second < 86400 := by
  rw [written]
  split
  next => exact ⟨rfl, h⟩
  next hmoved =>
    rw [isWritable_iff] at hmoved
    have hsecond : t.second + 1 < 86400 := by omega
    exact ⟨rfl, hsecond⟩

/-- The second and the nanoseconds of the written form, where only a second 60 counts as a leap
second, make up what it says. -/
theorem written_eq (t : Timestamp) {leap : Nat}
    (hleap : leap = if 1000000000 ≤ t.nanos then 1 else 0) :
    { date := t.date
      second := t.second / 3600 * 3600 + t.second / 60 % 60 * 60 +
        (t.second % 60 + leap - if t.second % 60 + leap = 60 then 1 else 0)
      nanos := t.nanos - leap * 1000000000 +
        (if t.second % 60 + leap = 60 then 1 else 0) * 1000000000 } = t.written := by
  have hparts : t.second / 3600 * 3600 + t.second / 60 % 60 * 60 + t.second % 60 = t.second := by
    omega
  by_cases hwritable : t.isWritable = true
  · rw [written, if_pos hwritable]
    rw [isWritable_iff] at hwritable
    -- the second 60 is written exactly for a leap second
    have hsixty : (if t.second % 60 + leap = 60 then 1 else 0) = leap := by
      split at hleap <;> split <;> omega
    have hnanos : t.nanos - leap * 1000000000 + leap * 1000000000 = t.nanos := by
      split at hleap <;> omega
    rw [hsixty, Nat.add_sub_cancel, hparts, hnanos]
  · rw [written, if_neg hwritable]
    rw [isWritable_iff] at hwritable
    have hone : leap = 1 := by
      split at hleap <;> omega
    have hsixty : ¬ t.second % 60 + 1 = 60 := by omega
    rw [hone, if_neg hsixty, Nat.sub_zero, ← Nat.add_assoc, hparts, Nat.one_mul, Nat.zero_mul,
      Nat.add_zero (t.nanos - 1000000000)]

theorem readLocal_text {t : Timestamp} (h : t.isValid = true) :
    readLocal t.text.toList = some (t.written, 0, []) := by
  obtain ⟨-, hmonth, hday, hsecond, hnanos⟩ := isValid_facts h
  -- a leap second adds one to the second that is written and a billion to the fraction
  obtain ⟨leap, hleap⟩ : ∃ leap, leap = if 1000000000 ≤ t.nanos then 1 else 0 := ⟨_, rfl⟩
  have hfraction : t.nanos - leap * 1000000000 < 1000000000 ∧ leap ≤ 1 := by
    split at hleap <;> omega
  have hhyphen : isBlank '-' = false := by decide
  have hcolon : isBlank ':' = false := by decide
  have hhour : t.second / 3600 < 100 := by omega
  have hminute : t.second / 60 % 60 < 100 := by omega
  have hlast : t.second % 60 + leap < 100 := by omega
  have hzone : offset (skipBlanks ['Z']) = some (0, []) := rfl
  rw [toList_text t leap hleap, readLocal]
  dsimp only [Option.bind_eq_bind]
  -- each part is read up to the mark behind it, and the mark in front of the next part
  rw [year_yearText, Option.bind_some, mark_cons hhyphen, Option.bind_some,
    shortNumber_padded (by decide) hmonth, Option.bind_some, mark_cons hhyphen, Option.bind_some,
    shortNumber_padded (by decide) hday, Option.bind_some]
  dsimp only
  rw [if_pos (.inl rfl), Option.bind_some, shortNumber_padded (by decide) hhour, Option.bind_some,
    mark_cons hcolon, Option.bind_some, shortNumber_padded (by decide) hminute, Option.bind_some,
    mark_cons hcolon, Option.bind_some, shortNumber_padded (by decide) hlast, Option.bind_some,
    fraction_fractionText hfraction.1, Option.bind_some, hzone, Option.bind_some]
  dsimp only
  have hrange : t.second / 3600 < 24 ∧ t.second / 60 % 60 < 60 ∧ t.second % 60 + leap ≤ 60 ∧
      (0 : Int).natAbs < 1440 := by
    refine ⟨by omega, by omega, by omega, by decide⟩
  rw [if_pos hrange, written_eq t hleap]
  rfl

/-- Every point in time is read as its written form says. -/
theorem parse?_text {t : Timestamp} (h : t.isValid = true) : parse? t.text = some t.written := by
  obtain ⟨hdate, -, -, hsecond, -⟩ := isValid_facts h
  obtain ⟨hsame, hwithin⟩ := written_facts hsecond
  simp only [parse?, readLocal_text h, atOffset_zero hwithin, hsame, hdate]
  rfl

/-- A point in time is read as it was exactly if it can be written. -/
theorem parse?_text_eq_some_iff {t : Timestamp} (h : t.isValid = true) :
    parse? t.text = some t ↔ t.isWritable = true := by
  rw [parse?_text h, Option.some_inj, written_eq_self_iff]

/-! ### The length of the written form -/

theorem length_yearText_le {y : Int} (hfirst : CalendarDay.firstYear ≤ y)
    (hlast : y ≤ CalendarDay.lastYear) : (yearText y).toList.length ≤ 7 := by
  have hfirst : -262143 ≤ y := hfirst
  have hlast : y ≤ 262142 := hlast
  rw [yearText]
  by_cases hplain : 0 ≤ y ∧ y ≤ 9999
  · have hlt : y.toNat < 10000 := by omega
    rw [if_pos hplain, length_padded_of_lt (by decide) hlt]
    decide
  rw [if_neg hplain, String.toList_append, List.length_append, length_padded]
  have hdigits : (Nat.toDigits 10 y.natAbs).length ≤ 6 :=
    (Nat.length_toDigits_le_iff (by decide) (by decide)).2 (by omega)
  have hsign : (if y < 0 then "-" else "+").toList.length = 1 := by
    by_cases hneg : y < 0
    · rw [if_pos hneg]
      rfl
    · rw [if_neg hneg]
      rfl
  omega

theorem length_point_padded (hw : 0 < w) (h : n < Nat.pow 10 w) :
    ("." ++ padded w n).toList.length = w + 1 := by
  have hpoint : ".".toList.length = 1 := rfl
  have hdigits := length_padded_of_lt hw h
  have hboth : ("." ++ padded w n).toList.length =
      ".".toList.length + (padded w n).toList.length := by
    rw [String.toList_append, List.length_append]
  omega

theorem length_fractionText_le (h : n < 1000000000) : (fractionText n).toList.length ≤ 10 := by
  rw [fractionText]
  split
  · exact Nat.zero_le 10
  split
  · have hlt : n / 1000000 < 1000 := by omega
    have hmillis : ("." ++ padded 3 (n / 1000000)).toList.length = 4 :=
      length_point_padded (by decide) hlt
    omega
  split
  · have hlt : n / 1000 < 1000000 := by omega
    have hmicros : ("." ++ padded 6 (n / 1000)).toList.length = 7 :=
      length_point_padded (by decide) hlt
    omega
  · exact Nat.le_of_eq (length_point_padded (by decide) h)

theorem length_text_le {t : Timestamp} (h : t.isValid = true) : t.text.toList.length ≤ 33 := by
  obtain ⟨hdate, hmonth, hday, hsecond, hnanos⟩ := isValid_facts h
  simp only [CalendarDay.isValid, Bool.and_eq_true, decide_eq_true_eq] at hdate
  have hyear := length_yearText_le hdate.1.1.1.1.1 hdate.1.1.1.1.2
  obtain ⟨leap, hleap⟩ : ∃ leap, leap = if 1000000000 ≤ t.nanos then 1 else 0 := ⟨_, rfl⟩
  have hfraction : t.nanos - leap * 1000000000 < 1000000000 ∧ leap ≤ 1 := by
    split at hleap <;> omega
  have hlength := length_fractionText_le hfraction.1
  have hhour : t.second / 3600 < 100 := by omega
  have hminute : t.second / 60 % 60 < 100 := by omega
  have hlast : t.second % 60 + leap < 100 := by omega
  rw [toList_text t leap hleap]
  simp only [List.length_append, List.length_cons, List.length_nil]
  rw [length_padded_of_lt (by decide) hmonth, length_padded_of_lt (by decide) hday,
    length_padded_of_lt (by decide) hhour, length_padded_of_lt (by decide) hminute,
    length_padded_of_lt (by decide) hlast]
  omega

end Timestamp

end WorkStealing
