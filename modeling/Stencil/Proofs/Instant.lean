import Mathlib.Data.List.TakeWhile
import Mathlib.Tactic.IntervalCases
import Stencil.Instant
import Stencil.Proofs.Decimal.Digits

/-!
# Texts and stamps that are read back

The text of an instant of the calendar is read as the instant (`ofText?_text`), and its stamp can be read back iff
its year has four digits (`legible_iff`): the date of every day is a date of the calendar and of no other day, and
numbers that are written with a fixed number of digits are read as they were.
-/

namespace Stencil

theorem bind_of {α β : Type} {x : Option α} {f : α → Option β} {a : α} {b : β} (found : x = some a)
    (next : f a = some b) : (x >>= f) = some b := by
  rw [found]
  exact next

namespace Instant

/-! ### Dates -/

/-- A day of an era of four hundred years, by century, cycle of four years, year, and day of the year. -/
structure DayOfEra (b k i r : Int) : Prop where
  century : 0 ≤ b ∧ b ≤ 3
  cycle : 0 ≤ k ∧ k ≤ 24
  year : 0 ≤ i ∧ i ≤ 3
  day : 0 ≤ r ∧ r ≤ 365
  leap : r = 365 → i = 3 ∧ (k = 24 → b = 3)

theorem exists_dayOfEra {e : Int} (nonneg : 0 ≤ e) (inside : e < 146097) :
    ∃ b k i r, DayOfEra b k i r ∧ e = 36524 * b + 1461 * k + 365 * i + r := by
  obtain ⟨b, low, high, century⟩ :
      ∃ b, 0 ≤ b ∧ b ≤ 3 ∧ 36524 * b ≤ e ∧ (e < 36524 * (b + 1) ∨ b = 3) := by
    by_cases last : e = 146096
    · exact ⟨3, by omega⟩
    · exact ⟨e / 36524, by omega⟩
  obtain ⟨d, rfl⟩ : ∃ d, e = 36524 * b + d := ⟨e - 36524 * b, by omega⟩
  obtain ⟨k, low', high', cycle⟩ : ∃ k, 0 ≤ k ∧ k ≤ 24 ∧ 1461 * k ≤ d ∧ d < 1461 * (k + 1) :=
    ⟨d / 1461, by omega⟩
  obtain ⟨i, low'', high'', year⟩ :
      ∃ i, 0 ≤ i ∧ i ≤ 3 ∧ 1461 * k + 365 * i ≤ d ∧ (d < 1461 * k + 365 * (i + 1) ∨ i = 3) := by
    by_cases last : d = 1461 * k + 1460
    · exact ⟨3, by omega⟩
    · exact ⟨(d - 1461 * k) / 365, by omega⟩
  refine ⟨b, k, i, d - 1461 * k - 365 * i, ⟨⟨low, high⟩, ⟨low', high'⟩, ⟨low'', high''⟩, ?_, ?_⟩, ?_⟩ <;> omega

/-- A day by its era, its place there, and the months of its year that are over. -/
theorem exists_parts (days : Int) : ∃ era b k i r m, DayOfEra b k i r ∧ (5 * r + 2) / 153 = m ∧
    days + 719468 = era * 146097 + (36524 * b + 1461 * k + 365 * i + r) := by
  obtain ⟨era, e, split, nonneg, inside⟩ :
      ∃ era e : Int, days + 719468 = era * 146097 + e ∧ 0 ≤ e ∧ e < 146097 :=
    ⟨(days + 719468) / 146097, (days + 719468) % 146097, by omega⟩
  obtain ⟨b, k, i, r, parts, rfl⟩ := exists_dayOfEra nonneg inside
  exact ⟨era, b, k, i, r, _, parts, rfl, split⟩

theorem DayOfEra.yearOfEra {b k i r e : Int} (h : DayOfEra b k i r)
    (day : e = 36524 * b + 1461 * k + 365 * i + r) :
    (e - e / 1460 + e / 36524 - e / 146096) / 365 = 100 * b + 4 * k + i := by
  obtain ⟨⟨_, _⟩, ⟨_, _⟩, ⟨_, _⟩, ⟨_, _⟩, leap⟩ := h
  by_cases last : e = 146096
  · obtain ⟨rfl, rfl, rfl⟩ : b = 3 ∧ k = 24 ∧ i = 3 := by omega
    rw [last]
    rfl
  · have century : e / 36524 = b := by omega
    have era : e / 146096 = 0 := by omega
    rw [century, era]
    -- One day too many is taken off only at the end of the fourth year of a cycle.
    rcases (by omega : e / 1460 = 25 * b + k ∨
        e / 1460 = 25 * b + k + 1 ∧ 1460 ≤ 24 * b + k + 365 * i + r) with cycles | ⟨cycles, late⟩
    · rw [cycles]
      omega
    · rw [cycles]
      omega

/-- The date of a day of an era, when the year begins in March and `m` months of it are over. -/
theorem DayOfEra.date {era b k i r m days : Int} (h : DayOfEra b k i r)
    (day : days + 719468 = era * 146097 + (36524 * b + 1461 * k + 365 * i + r))
    (months : (5 * r + 2) / 153 = m) :
    dateOfDays days =
      (100 * b + 4 * k + i + era * 400 + (if (if m < 10 then m + 3 else m - 9) ≤ 2 then 1 else 0),
        (if m < 10 then m + 3 else m - 9).toNat, (r - (153 * m + 2) / 5 + 1).toNat) := by
  have eras : ∀ e, 0 ≤ e → e < 146097 → (era * 146097 + e).fdiv 146097 = era := by
    intro e nonneg inside
    rw [Int.fdiv_eq_ediv_of_nonneg _ (by decide : (0 : Int) ≤ 146097)]
    omega
  have year := h.yearOfEra rfl
  obtain ⟨⟨_, _⟩, ⟨_, _⟩, ⟨_, _⟩, ⟨_, _⟩, _⟩ := h
  have ofYear : 36524 * b + 1461 * k + 365 * i + r - (365 * (100 * b + 4 * k + i) +
      (100 * b + 4 * k + i) / 4 - (100 * b + 4 * k + i) / 100) = r := by
    clear year
    omega
  have eras := eras (36524 * b + 1461 * k + 365 * i + r) (by clear year; omega) (by clear year; omega)
  dsimp only [dateOfDays]
  simp only [day, eras, add_sub_cancel_left, year, ofYear, months]

/-- Whether a date is one of the calendar. -/
def IsDate (date : Int × Nat × Nat) : Prop :=
  1 ≤ date.2.1 ∧ date.2.1 ≤ 12 ∧ 1 ≤ date.2.2 ∧ date.2.2 ≤ monthLength date.1 date.2.1

theorem isDate_dateOfDays (days : Int) : IsDate (dateOfDays days) := by
  obtain ⟨era, b, k, i, r, m, parts, months, split⟩ := exists_parts days
  rw [parts.date split months]
  obtain ⟨⟨_, _⟩, ⟨_, _⟩, ⟨_, _⟩, ⟨_, _⟩, leap⟩ := parts
  have low : 0 ≤ m := by omega
  have high : m ≤ 11 := by omega
  unfold IsDate
  by_cases february : m = 11
  · subst february
    show 1 ≤ 2 ∧ 2 ≤ 12 ∧ 1 ≤ (r - 337 + 1).toNat ∧ (r - 337 + 1).toNat ≤
      if isLeap (100 * b + 4 * k + i + era * 400 + 1) then 29 else 28
    split
    · omega
    · next common =>
      have short : r ≠ 365 := by
        intro last
        simp only [isLeap, Bool.and_eq_true, Bool.or_eq_true, beq_iff_eq, bne_iff_ne] at common
        omega
      omega
  · have length : ∀ year, monthLength year (if m < 10 then m + 3 else m - 9).toNat =
        ((153 * (m + 1) + 2) / 5 - (153 * m + 2) / 5).toNat := by
      intro year
      interval_cases m
      all_goals first | rfl | exact absurd rfl february
    refine ⟨?_, ?_, ?_, ?_⟩ <;> dsimp only
    · split <;> omega
    · split <;> omega
    · omega
    · rw [length]
      omega

theorem DayOfEra.days {era b k i r m : Int} (h : DayOfEra b k i r) (months : (5 * r + 2) / 153 = m) :
    daysOfDate (100 * b + 4 * k + i + era * 400 + (if (if m < 10 then m + 3 else m - 9) ≤ 2 then 1 else 0))
      (if m < 10 then m + 3 else m - 9).toNat (r - (153 * m + 2) / 5 + 1).toNat =
        era * 146097 + (36524 * b + 1461 * k + 365 * i + r) - 719468 := by
  have eras : ∀ y, 0 ≤ y → y < 400 → (y + era * 400).fdiv 400 = era := by
    intro y nonneg inside
    rw [Int.fdiv_eq_ediv_of_nonneg _ (by decide : (0 : Int) ≤ 400)]
    omega
  obtain ⟨⟨_, _⟩, ⟨_, _⟩, ⟨_, _⟩, ⟨_, _⟩, _⟩ := h
  have low : 0 ≤ m := by omega
  have high : m ≤ 11 := by omega
  have eras := eras (100 * b + 4 * k + i) (by omega) (by omega)
  have day : ((r - (153 * m + 2) / 5 + 1).toNat : Int) = r - (153 * m + 2) / 5 + 1 := by omega
  unfold daysOfDate
  dsimp only
  by_cases early : m < 10
  · have month : ((m + 3).toNat : Int) = m + 3 := by omega
    rw [if_pos early, if_neg (by omega : ¬m + 3 ≤ 2), if_neg (by omega : ¬(m + 3).toNat ≤ 2),
      if_pos (by omega : (m + 3).toNat > 2), month, day, add_zero, eras]
    omega
  · have month : ((m - 9).toNat : Int) = m - 9 := by omega
    rw [if_neg early, if_pos (by omega : m - 9 ≤ 2), if_pos (by omega : (m - 9).toNat ≤ 2),
      if_neg (by omega : ¬(m - 9).toNat > 2), month, day, add_sub_cancel_right, eras]
    omega

/-- The date of a day is that of no other day. -/
theorem daysOfDate_dateOfDays (days : Int) :
    daysOfDate (dateOfDays days).1 (dateOfDays days).2.1 (dateOfDays days).2.2 = days := by
  obtain ⟨era, b, k, i, r, m, parts, months, split⟩ := exists_parts days
  rw [parts.date split months, parts.days months]
  omega

/-! ### Digits -/

theorem not_isBlank_of_isDigit {c : Char} (h : c.isDigit = true) : Text.isBlank c = false := by
  have bounds : 48 ≤ c.toNat ∧ c.toNat ≤ 57 := by
    simpa [Char.isDigit, UInt32.le_iff_toNat_le] using h
  simp only [Text.isBlank, Bool.or_eq_false_iff, Bool.and_eq_false_iff, decide_eq_false_iff_not,
    beq_eq_false_iff_ne]
  omega

theorem length_padded {width n : Nat} (some : 0 < width) (small : n < 10 ^ width) :
    (padded width n).length = width := by
  have short : (Nat.toDigits 10 n).length ≤ width :=
    (Nat.length_toDigits_le_iff (by decide) some).2 small
  rw [padded, Decimal.digitsOf, List.length_append, List.length_replicate]
  omega

theorem isDigit_of_mem_padded {width n : Nat} {c : Char} (h : c ∈ padded width n) : c.isDigit = true := by
  rcases List.mem_append.1 h with zero | digit
  · rw [List.eq_of_mem_replicate zero]
    rfl
  · exact Decimal.isDigit_of_mem_digitsOf digit

theorem exists_padded (width n : Nat) : ∃ c ds, padded width n = c :: ds ∧ c.isDigit = true := by
  cases written : padded width n with
  | nil => exact absurd (List.append_eq_nil_iff.1 written).2 (Decimal.digitsOf_ne_nil n)
  | cons c ds => exact ⟨c, ds, rfl, isDigit_of_mem_padded (written ▸ List.mem_cons_self)⟩

theorem isEmpty_padded (width n : Nat) : (padded width n).isEmpty = false := by
  obtain ⟨c, ds, written, -⟩ := exists_padded width n
  rw [written]
  rfl

theorem foldl_padded (width n : Nat) :
    (padded width n).foldl (fun n d => n * 10 + (d.toNat - 48)) 0 = n := by
  rw [padded, List.foldl_append, Decimal.foldl_zeros, Decimal.foldl_digitsOf]

theorem trimStart_padded (width n : Nat) (rest : List Char) :
    Text.trimStart (padded width n ++ rest) = padded width n ++ rest := by
  obtain ⟨c, ds, written, digit⟩ := exists_padded width n
  rw [written, List.cons_append, Text.trimStart_of_not_isBlank (not_isBlank_of_isDigit digit)]

theorem number?_of_takeWhile {width k n : Nat} {rest : List Char}
    (digits : ((padded k n ++ rest).take width).takeWhile Char.isDigit = padded k n) :
    number? width (padded k n ++ rest) = some (n, rest) := by
  unfold number?
  simp only [trimStart_padded, digits, isEmpty_padded, Bool.false_eq_true, if_false, foldl_padded,
    List.drop_left]

theorem takeWhile_padded (width n : Nat) {c : Char} (other : c.isDigit = false) (rest : List Char) :
    (padded width n ++ c :: rest).takeWhile Char.isDigit = padded width n := by
  rw [List.takeWhile_append_of_pos fun c among => isDigit_of_mem_padded among,
    List.takeWhile_cons_of_neg (by simp [other]), List.append_nil]

theorem number?_padded {width n : Nat} (some : 0 < width) (small : n < 10 ^ width) (rest : List Char) :
    number? width (padded width n ++ rest) = .some (n, rest) := by
  refine number?_of_takeWhile ?_
  rw [List.take_left' (length_padded some small)]
  exact List.takeWhile_eq_self_iff.2 fun c among => isDigit_of_mem_padded among

/-- A year as it is written: with four digits, or with a sign. -/
def writtenYear (year : Int) : List Char :=
  if 0 ≤ year ∧ year ≤ 9999 then padded 4 year.toNat
  else (if year < 0 then '-' else '+') :: padded 4 year.natAbs

theorem year?_padded {n : Nat} (small : n < 10 ^ 4) (rest : List Char) :
    year? (padded 4 n ++ rest) = some ((n : Int), rest) := by
  obtain ⟨c, ds, written, digit⟩ := exists_padded 4 n
  have start := trimStart_padded 4 n rest
  have read := number?_padded (by decide) small rest
  rw [written, List.cons_append] at start read ⊢
  unfold year?
  rw [start]
  split
  · next same =>
    rw [(List.cons.inj same).1] at digit
    cases digit
  · next same =>
    rw [(List.cons.inj same).1] at digit
    cases digit
  · rw [read]
    rfl

theorem year?_written (year : Int) (rest : List Char) :
    year? (writtenYear year ++ '-' :: rest) = some (year, '-' :: rest) := by
  unfold writtenYear
  split
  · next inside =>
    rw [year?_padded (by omega), Int.toNat_of_nonneg inside.1]
  · next outside =>
    have front : ((padded 4 year.natAbs ++ '-' :: rest).head?.map Char.isDigit) = some true := by
      obtain ⟨c, ds, written, digit⟩ := exists_padded 4 year.natAbs
      rw [written, List.cons_append, List.head?_cons, Option.map_some, digit]
    have read : number? (padded 4 year.natAbs ++ '-' :: rest).length (padded 4 year.natAbs ++ '-' :: rest) =
        some (year.natAbs, '-' :: rest) := by
      refine number?_of_takeWhile ?_
      rw [List.take_length, takeWhile_padded _ _ rfl]
    rw [List.cons_append]
    by_cases negative : year < 0
    · rw [if_pos negative]
      unfold year?
      rw [Text.trimStart_of_not_isBlank rfl]
      have value : -(year.natAbs : Int) = year := by omega
      exact bind_of (if_pos front) (bind_of read (congrArg (fun y => some (y, _)) value))
    · rw [if_neg negative]
      unfold year?
      rw [Text.trimStart_of_not_isBlank rfl]
      have value : (year.natAbs : Int) = year := by omega
      exact bind_of (if_pos front) (bind_of read (congrArg (fun y => some (y, _)) value))

/-! ### Instants -/

theorem decimals?_padded {width n : Nat} (some : 0 < width) (nine : width ≤ 9) (small : n < 10 ^ width)
    {c : Char} (other : c.isDigit = false) (rest : List Char) :
    decimals? ('.' :: (padded width n ++ c :: rest)) = .some (n * 10 ^ (9 - width), c :: rest) := by
  have length := length_padded some small
  have all : (padded width n).take 9 = padded width n := List.take_of_length_le (by omega)
  unfold decimals?
  simp only [takeWhile_padded _ _ other, isEmpty_padded, Bool.false_eq_true, if_false, all, foldl_padded,
    length, List.drop_left' length, Nat.pow_eq]

theorem decimals?_decimals {n : Nat} (small : n < 1000000000) (rest : List Char) :
    decimals? (decimals n ++ 'Z' :: rest) = some (n, 'Z' :: rest) := by
  unfold decimals
  split
  · next zero =>
    rw [zero]
    rfl
  split
  · next millis =>
    have whole : n / 1000000 * 10 ^ (9 - 3) = n := by omega
    rw [List.cons_append, decimals?_padded (by decide) (by decide) (by omega) rfl, whole]
  split
  · next micros =>
    have whole : n / 1000 * 10 ^ (9 - 6) = n := by omega
    rw [List.cons_append, decimals?_padded (by decide) (by decide) (by omega) rfl, whole]
  · rw [List.cons_append, decimals?_padded (by decide) (by decide) (by omega) rfl]
    exact congrArg (fun n => some (n, _)) (Nat.mul_one n)

theorem mark?_cons {c : Char} (h : Text.isBlank c = false) (rest : List Char) :
    mark? c (c :: rest) = some rest := by
  rw [mark?, Text.trimStart_of_not_isBlank h]
  exact if_pos rfl

theorem monthLength_le (year : Int) (month : Nat) : monthLength year month ≤ 31 := by
  unfold monthLength
  split
  · split <;> decide
  all_goals omega

/-- A date and a time of day as they are written in UTC. -/
def written (date : Int × Nat × Nat) (hour minute second : Nat) (fraction : List Char) : List Char :=
  writtenYear date.1 ++ '-' :: (padded 2 date.2.1 ++ '-' :: (padded 2 date.2.2 ++
    'T' :: (padded 2 hour ++ ':' :: (padded 2 minute ++ ':' :: (padded 2 second ++ (fraction ++ ['Z']))))))

/-- A written date and time is read as the instant that it says. -/
theorem ofText?_written {date : Int × Nat × Nat} {hour minute second nanos : Nat} {fraction : List Char}
    (isDate : IsDate date) (era : -262143 ≤ date.1 ∧ date.1 ≤ 262142) (hours : hour ≤ 23)
    (minutes : minute ≤ 59) (seconds : second ≤ 60)
    (decimals : decimals? (fraction ++ ['Z']) = some (nanos, ['Z'])) :
    ofText? (String.ofList (written date hour minute second fraction)) =
      some ⟨daysOfDate date.1 date.2.1 date.2.2 * 86400 + (hour * 3600 + minute * 60 + min second 59 : Nat),
        nanos + if second = 60 then 1000000000 else 0⟩ := by
  obtain ⟨first, months, first', days⟩ := isDate
  have length := monthLength_le date.1 date.2.1
  have zone : offset? ['Z'] = some (0, []) := rfl
  have two : ∀ {n : Nat}, n < 100 → ∀ rest, number? 2 (padded 2 n ++ rest) = some (n, rest) := fun small =>
    number?_padded (by decide) small
  unfold ofText? written
  rw [String.toList_ofList]
  refine bind_of (year?_written date.1 _) ?_
  refine bind_of (mark?_cons rfl _) ?_
  refine bind_of (two (by omega) _) ?_
  refine bind_of (mark?_cons rfl _) ?_
  refine bind_of (two (by omega) _) ?_
  refine bind_of rfl ?_
  refine bind_of (two (by omega) _) ?_
  refine bind_of (mark?_cons rfl _) ?_
  refine bind_of (two (by omega) _) ?_
  refine bind_of (mark?_cons rfl _) ?_
  refine bind_of (two (by omega) _) ?_
  refine bind_of decimals ?_
  refine bind_of zone ?_
  refine bind_of (if_pos rfl) ?_
  refine bind_of (if_pos (by omega)) ?_
  dsimp only
  rw [Int.sub_zero]
  rfl

/-- The day of an instant, from the start of 1970. -/
def days (t : Instant) : Int := t.seconds.fdiv 86400

def second (t : Instant) : Nat := (t.seconds - t.days * 86400).toNat

def year (t : Instant) : Int := (dateOfDays t.days).1

theorem second_lt (t : Instant) : t.second < 86400 ∧ t.days * 86400 + t.second = t.seconds := by
  unfold second days
  rw [Int.fdiv_eq_ediv_of_nonneg _ (by decide : (0 : Int) ≤ 86400)]
  omega

theorem textWith_eq (fraction : Nat → List Char) (t : Instant) :
    t.textWith fraction = String.ofList (written (dateOfDays t.days) (t.second / 3600) (t.second / 60 % 60)
      (t.second % 60 + t.nanoseconds / 1000000000) (fraction (t.nanoseconds % 1000000000))) := by
  unfold textWith written writtenYear
  simp only [List.append_assoc, List.cons_append]
  rfl

theorem ofText?_textWith {t : Instant} (small : t.nanoseconds < 2000000000)
    (era : -262143 ≤ t.year ∧ t.year ≤ 262142) {fraction : Nat → List Char} {nanos : Nat}
    (decimals : decimals? (fraction (t.nanoseconds % 1000000000) ++ ['Z']) = some (nanos, ['Z'])) :
    ofText? (t.textWith fraction) =
      some ⟨t.days * 86400 + (t.second / 3600 * 3600 + t.second / 60 % 60 * 60 +
          min (t.second % 60 + t.nanoseconds / 1000000000) 59 : Nat),
        nanos + if t.second % 60 + t.nanoseconds / 1000000000 = 60 then 1000000000 else 0⟩ := by
  have inside := t.second_lt.1
  rw [textWith_eq, ofText?_written (isDate_dateOfDays t.days) era (by omega) (by omega) (by omega) decimals,
    daysOfDate_dateOfDays]

/-- An instant of the calendar: its year is within bounds, and only the last second of a minute can be a leap
second. -/
structure IsTime (t : Instant) : Prop where
  year : -262143 ≤ t.year ∧ t.year ≤ 262142
  nanoseconds : t.nanoseconds < 1000000000 ∨ t.seconds % 60 = 59 ∧ t.nanoseconds < 2000000000

/-- The text of an instant of the calendar is read as the instant. -/
theorem ofText?_text {t : Instant} (time : t.IsTime) : ofText? t.text = some t := by
  have small : t.nanoseconds < 2000000000 := by
    have := time.nanoseconds
    omega
  rw [text, ofText?_textWith small time.year (decimals?_decimals (Nat.mod_lt _ (by decide)) [])]
  obtain ⟨inside, whole⟩ := t.second_lt
  have leap : t.nanoseconds < 1000000000 ∨ t.second % 60 = 59 := by
    have := time.nanoseconds
    omega
  have clock : t.second / 3600 * 3600 + t.second / 60 % 60 * 60 +
      min (t.second % 60 + t.nanoseconds / 1000000000) 59 = t.second := by omega
  have nanos : t.nanoseconds % 1000000000 +
      (if t.second % 60 + t.nanoseconds / 1000000000 = 60 then 1000000000 else 0) = t.nanoseconds := by
    split <;> omega
  rw [clock, nanos, whole]

/-! ### Stamps -/

/-- An instant whose stamp can be read back. -/
def Legible (t : Instant) : Prop := ofStamp? t.stamp ≠ none

theorem ofStamp?_padded (n : Nat) (rest : List Char) :
    ofStamp? (String.ofList (padded 4 n ++ rest)) = ofText? (String.ofList (padded 4 n ++ rest)) := by
  obtain ⟨c, ds, written, digit⟩ := exists_padded 4 n
  unfold ofStamp?
  rw [String.toList_ofList, written, List.cons_append]
  split
  · next same =>
    rw [(List.cons.inj same).1] at digit
    cases digit
  · next same =>
    rw [(List.cons.inj same).1] at digit
    cases digit
  · rfl

theorem legible_iff {t : Instant} (small : t.nanoseconds < 2000000000) :
    t.Legible ↔ 0 ≤ t.year ∧ t.year ≤ 9999 := by
  unfold Legible stamp
  by_cases inside : 0 ≤ t.year ∧ t.year ≤ 9999
  · refine iff_of_true ?_ inside
    have front : writtenYear (dateOfDays t.days).1 = padded 4 t.year.toNat := if_pos inside
    have micros : t.nanoseconds % 1000000000 / 1000 < 10 ^ 6 := by omega
    have decimals := decimals?_padded (by decide) (by decide : 6 ≤ 9) micros (rfl : 'Z'.isDigit = false) []
    have same : ofStamp? (t.textWith fun n => '.' :: padded 6 (n / 1000)) =
        ofText? (t.textWith fun n => '.' :: padded 6 (n / 1000)) := by
      rw [textWith_eq, written, front]
      exact ofStamp?_padded _ _
    rw [same, ofText?_textWith small (by omega) decimals]
    exact Option.some_ne_none _
  · refine iff_of_false (not_not.2 ?_) inside
    have front : writtenYear (dateOfDays t.days).1 =
        (if t.year < 0 then '-' else '+') :: padded 4 t.year.natAbs := if_neg inside
    unfold ofStamp?
    rw [textWith_eq, String.toList_ofList, written, front]
    by_cases negative : t.year < 0
    · rw [if_pos negative]
      rfl
    · rw [if_neg negative]
      rfl

end Instant

end Stencil
