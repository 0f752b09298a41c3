/-
  Instants and their ISO 8601 text, as `Date.prototype.toISOString` writes it.

  An instant is a number of milliseconds since 1970-01-01T00:00:00.000Z. `civil` finds the
  proleptic Gregorian date of a day in eras of 400 years that start on 1 March, so that a
  leap day is the last day of a year, of four years, of a century or of the era.
  `toISOString` writes date and time in UTC, the year with four digits where they suffice
  and with a sign and six digits otherwise.

  `parse` reads the fields by their place and accepts a text exactly if `toISOString` writes
  it for the instant read. `parse_toISOString` says that nothing is lost on the instants a
  `Date` can hold.
-/
import Mathlib.Tactic.IntervalCases

namespace PovDeposit.Lib.IsoDate

/-- The latest instant of a `Date`; the earliest is its negative. -/
def maxTime : Nat := 8640000000000000

/-! ## Dates -/

/-- A date; months count from March, and a year lasts from March to February. -/
structure Civil where
  year : Int
  month : Nat
  day : Nat
  deriving DecidableEq, Repr

/-- A day of an era, as century, four years, year and day of the year. -/
def splitEra (n : Nat) : Nat × Nat × Nat × Nat :=
  let century := min 3 (n / 36524)
  let n := n - 36524 * century
  let n' := n % 1461
  let year := min 3 (n' / 365)
  (century, n / 1461, year, n' - 365 * year)

/-- The date `z` days after 0000-03-01. -/
def civil (z : Int) : Civil :=
  let (century, quad, year, day) := splitEra (z % 146097).toNat
  let month := (5 * day + 2) / 153
  { year := 400 * (z / 146097) + (100 * century + 4 * quad + year : Nat)
    month := month
    day := day - (153 * month + 2) / 5 }

/-- The number of days from 0000-03-01 to a date. -/
def daysOf (c : Civil) : Int :=
  let year := (c.year % 400).toNat
  c.year / 400 * 146097 +
    (365 * year + year / 4 - year / 100 + (153 * c.month + 2) / 5 + c.day : Nat)

theorem splitEra_spec {n : Nat} (hn : n < 146097) {century quad year day : Nat}
    (h : splitEra n = (century, quad, year, day)) :
    century ≤ 3 ∧ quad ≤ 24 ∧ year ≤ 3 ∧ day ≤ 365 ∧
      n = 36524 * century + 1461 * quad + 365 * year + day := by
  simp only [splitEra, Prod.mk.injEq] at h
  obtain ⟨hc, hq, hy, hd⟩ := h
  have hcentury : century ≤ 3 ∧ 36524 * century ≤ n ∧ n - 36524 * century ≤ 36524 := by omega
  rw [hc] at hq hy hd
  rw [hy] at hd
  have hyear : year ≤ 3 ∧ 365 * year ≤ (n - 36524 * century) % 1461 ∧ day ≤ 365 := by omega
  have hquad := Nat.div_add_mod (n - 36524 * century) 1461
  rw [hq] at hquad
  omega

/-- The months of a year from March on, at most 31 days long. -/
theorem month_spec {day month : Nat} (hday : day ≤ 365) (hmonth : month = (5 * day + 2) / 153) :
    month ≤ 11 ∧ (153 * month + 2) / 5 ≤ day ∧ day - (153 * month + 2) / 5 ≤ 30 := by
  omega

theorem civil_bounds (z : Int) : (civil z).month ≤ 11 ∧ (civil z).day ≤ 30 := by
  unfold civil
  have hn : (z % 146097).toNat < 146097 := by omega
  rcases hsplit : splitEra (z % 146097).toNat with ⟨century, quad, year, day⟩
  obtain ⟨-, -, -, hday, -⟩ := splitEra_spec hn hsplit
  have hmonth := month_spec hday rfl
  exact ⟨hmonth.1, hmonth.2.2⟩

theorem daysOf_civil (z : Int) : daysOf (civil z) = z := by
  unfold civil
  have hn : (z % 146097).toNat < 146097 := by omega
  rcases hsplit : splitEra (z % 146097).toNat with ⟨century, quad, year, day⟩
  obtain ⟨hcentury, hquad, hyear, hday, hsum⟩ := splitEra_spec hn hsplit
  have hmonth := month_spec hday rfl
  obtain ⟨y, hy⟩ : ∃ y, y = 100 * century + 4 * quad + year := ⟨_, rfl⟩
  have hlt : y < 400 ∧ y / 4 = 25 * century + quad ∧ y / 100 = century := by omega
  have hera : (400 * (z / 146097) + (y : Int)) / 400 = z / 146097 := by omega
  have hrest : ((400 * (z / 146097) + (y : Int)) % 400).toNat = y := by omega
  simp only [daysOf, ← hy, hera, hrest, hlt.2.1, hlt.2.2]
  omega

/-- Within 10000 eras, years have six digits. -/
theorem civil_year (z : Int) (h : z.natAbs ≤ 200000000) : (civil z).year.natAbs ≤ 900000 := by
  unfold civil
  have hn : (z % 146097).toNat < 146097 := by omega
  rcases hsplit : splitEra (z % 146097).toNat with ⟨century, quad, year, day⟩
  obtain ⟨hcentury, hquad, hyear, -, -⟩ := splitEra_spec hn hsplit
  dsimp only
  omega

/-! ## Fields -/

/-- The fields of an instant in UTC, months and days counted from 1. -/
structure Fields where
  year : Int
  month : Nat
  day : Nat
  hour : Nat
  minute : Nat
  second : Nat
  milli : Nat
  deriving DecidableEq, Repr

/-- The day 1970-01-01, counted from 0000-03-01. -/
def epoch : Int := 719468

def fields (t : Int) : Fields :=
  let c := civil (t / 86400000 + epoch)
  let ms := (t % 86400000).toNat
  { year := if c.month < 10 then c.year else c.year + 1
    month := if c.month < 10 then c.month + 3 else c.month - 9
    day := c.day + 1
    hour := ms / 3600000
    minute := ms / 60000 % 60
    second := ms / 1000 % 60
    milli := ms % 1000 }

def Fields.civil (f : Fields) : Civil where
  year := if 3 ≤ f.month then f.year else f.year - 1
  month := if 3 ≤ f.month then f.month - 3 else f.month + 9
  day := f.day - 1

def instant (f : Fields) : Int :=
  (daysOf f.civil - epoch) * 86400000 +
    (3600000 * f.hour + 60000 * f.minute + 1000 * f.second + f.milli : Nat)

theorem fields_civil (t : Int) : (fields t).civil = civil (t / 86400000 + epoch) := by
  obtain ⟨hmonth, -⟩ := civil_bounds (t / 86400000 + epoch)
  unfold fields Fields.civil
  generalize civil (t / 86400000 + epoch) = c at *
  obtain ⟨year, month, day⟩ := c
  dsimp only at hmonth ⊢
  by_cases hm : month < 10
  · simp [hm]
  · have hjan : ¬ 3 ≤ month - 9 := by omega
    have hback : month - 9 + 9 = month := by omega
    simp [hm, hjan, hback]

theorem instant_fields (t : Int) : instant (fields t) = t := by
  unfold instant
  rw [fields_civil, daysOf_civil]
  simp only [fields]
  omega

/-- The ranges the fields of a `Date` stay in. -/
structure Fields.InRange (f : Fields) : Prop where
  year : f.year.natAbs < 10 ^ 6
  month : f.month < 10 ^ 2
  day : f.day < 10 ^ 2
  hour : f.hour < 10 ^ 2
  minute : f.minute < 10 ^ 2
  second : f.second < 10 ^ 2
  milli : f.milli < 10 ^ 3

theorem fields_inRange {t : Int} (ht : t.natAbs ≤ maxTime) : (fields t).InRange := by
  have hz : (t / 86400000 + epoch).natAbs ≤ 200000000 := by
    unfold maxTime epoch at *
    omega
  have hyear := civil_year _ hz
  obtain ⟨hmonth, hday⟩ := civil_bounds (t / 86400000 + epoch)
  unfold fields
  generalize civil (t / 86400000 + epoch) = c at *
  constructor
  all_goals dsimp only
  · split <;> omega
  · split <;> omega
  all_goals omega

/-! ## Text -/

/-- The last `k` decimal digits of a number. -/
def pad : Nat → Nat → List Char
  | 0, _ => []
  | k + 1, n => pad k (n / 10) ++ [Nat.digitChar (n % 10)]

/-- The number that decimal digits write. -/
def readNum (l : List Char) : Nat := l.foldl (fun n c => 10 * n + (c.toNat - '0'.toNat)) 0

@[simp] theorem length_pad (k n : Nat) : (pad k n).length = k := by
  induction k generalizing n with
  | zero => rfl
  | succ k ih => simp [pad, ih]

theorem readNum_pad {k n : Nat} (h : n < 10 ^ k) : readNum (pad k n) = n := by
  induction k generalizing n with
  | zero =>
    obtain rfl : n = 0 := by omega
    rfl
  | succ k ih =>
    have hdiv : n / 10 < 10 ^ k := by
      rw [Nat.pow_succ] at h
      omega
    have hdigit : (Nat.digitChar (n % 10)).toNat = '0'.toNat + n % 10 := by
      rw [Nat.toNat_digitChar_of_lt_ten (by omega)]
      rfl
    have hrest := ih hdiv
    unfold readNum at hrest ⊢
    rw [pad, List.foldl_append, hrest, List.foldl_cons, List.foldl_nil, hdigit]
    omega

/-- `YYYY`, or a sign and six digits. -/
def yearText (y : Int) : List Char :=
  if 0 ≤ y ∧ y ≤ 9999 then pad 4 y.toNat
  else if y < 0 then '-' :: pad 6 y.natAbs
  else '+' :: pad 6 y.natAbs

def readYear : List Char → Int
  | '-' :: l => -readNum l
  | '+' :: l => readNum l
  | l => readNum l

theorem readYear_yearText {y : Int} (h : y.natAbs < 10 ^ 6) : readYear (yearText y) = y := by
  unfold yearText
  split
  · rename_i hy
    have hnum : readNum (pad 4 y.toNat) = y.toNat := readNum_pad (by omega)
    have hdigits : readYear (pad 4 y.toNat) = readNum (pad 4 y.toNat) := by
      have hlt : y.toNat / 10 / 10 / 10 % 10 < 10 := Nat.mod_lt _ (by decide)
      simp only [pad, List.nil_append, List.cons_append]
      generalize y.toNat / 10 / 10 / 10 % 10 = d at hlt
      interval_cases d <;> rfl
    rw [hdigits, hnum]
    omega
  · have hnum : readNum (pad 6 y.natAbs) = y.natAbs := readNum_pad h
    split
    · simp only [readYear, hnum]
      omega
    · simp only [readYear, hnum]
      omega

/-- What follows the year: always twenty characters. -/
def writeRest (f : Fields) : List Char :=
  '-' :: pad 2 f.month ++ '-' :: pad 2 f.day ++ 'T' :: pad 2 f.hour ++ ':' :: pad 2 f.minute ++
    ':' :: pad 2 f.second ++ '.' :: pad 3 f.milli ++ ['Z']

/-- `new Date(t).toISOString()` -/
def toISOString (t : Int) : String :=
  String.ofList (yearText (fields t).year ++ writeRest (fields t))

def read (l : List Char) : Fields :=
  let rest := l.drop (l.length - 20)
  { year := readYear (l.take (l.length - 20))
    month := readNum ((rest.drop 1).take 2)
    day := readNum ((rest.drop 4).take 2)
    hour := readNum ((rest.drop 7).take 2)
    minute := readNum ((rest.drop 10).take 2)
    second := readNum ((rest.drop 13).take 2)
    milli := readNum ((rest.drop 16).take 3) }

theorem read_write {f : Fields} (hf : f.InRange) :
    read (yearText f.year ++ writeRest f) = f := by
  have hrest : (writeRest f).length = 20 := by simp [writeRest]
  have hlen : (yearText f.year ++ writeRest f).length - 20 = (yearText f.year).length := by
    rw [List.length_append, hrest]
    omega
  have hmonth := readNum_pad hf.month
  have hday := readNum_pad hf.day
  have hhour := readNum_pad hf.hour
  have hminute := readNum_pad hf.minute
  have hsecond := readNum_pad hf.second
  have hmilli := readNum_pad hf.milli
  unfold read
  simp only [hlen, List.drop_left, List.take_left, readYear_yearText hf.year]
  obtain ⟨year, month, day, hour, minute, second, milli⟩ := f
  simp only [pad, List.nil_append, List.cons_append] at *
  simp [writeRest, pad, hmonth, hday, hhour, hminute, hsecond, hmilli]

/-- The instant that a text of `toISOString` names. -/
def parse (s : String) : Option Int :=
  let t := instant (read s.toList)
  if t.natAbs ≤ maxTime ∧ toISOString t = s then some t else none

theorem parse_toISOString {t : Int} (ht : t.natAbs ≤ maxTime) : parse (toISOString t) = some t := by
  have hread : instant (read (toISOString t).toList) = t := by
    rw [toISOString, String.toList_ofList, read_write (fields_inRange ht), instant_fields]
  simp only [parse, hread, ht, true_and, if_true]

theorem parse_le {s : String} {t : Int} (h : parse s = some t) : t.natAbs ≤ maxTime := by
  unfold parse at h
  simp only [Option.ite_none_right_eq_some, Option.some.injEq] at h
  obtain ⟨⟨hle, -⟩, rfl⟩ := h
  exact hle

/-! ## Dates that may be invalid -/

/-- `new Date(s)`: an instant in range, or `none` for an invalid date. Which texts are dates is
    up to the runtime, but it reads back what `toISOString` writes. -/
structure Dates where
  date : String → Option Int
  valid : ∀ s t, date s = some t → t.natAbs ≤ maxTime
  iso : ∀ t, t.natAbs ≤ maxTime → date (toISOString t) = some t

/-- The runtime that reads nothing else. -/
def isoDates : Dates := ⟨parse, fun _ _ => parse_le, fun _ => parse_toISOString⟩

/-- `new Date(t)` -/
def ofTime (t : Int) : Option Int := if t.natAbs ≤ maxTime then some t else none

/-- `a < b`; an invalid date is not comparable. -/
def before (a b : Option Int) : Bool := a.any fun x => b.any fun y => x < y

/-- `a <= b` -/
def notAfter (a b : Option Int) : Bool := a.any fun x => b.any fun y => x ≤ y

/-- `toISOString` of a date, which throws a `RangeError` if it is invalid. -/
def isoText : Option Int → Except String String
  | none => .error "Invalid time value"
  | some t => .ok (toISOString t)

@[simp] theorem before_some (x y : Int) : before (some x) (some y) = decide (x < y) := rfl

@[simp] theorem notAfter_some (x y : Int) : notAfter (some x) (some y) = decide (x ≤ y) := rfl

theorem isoText_eq_ok {d : Option Int} {s : String} :
    isoText d = .ok s ↔ ∃ t, d = some t ∧ s = toISOString t := by
  cases d with
  | none => simp [isoText]
  | some t => simp [isoText, eq_comm]

theorem ofTime_eq_some {t u : Int} : ofTime t = some u ↔ t.natAbs ≤ maxTime ∧ t = u := by
  simp [ofTime]

example : toISOString 1893492000000 = "2030-01-01T10:00:00.000Z" := by decide
example : toISOString (-62198755200001) = "-000002-12-31T23:59:59.999Z" := by decide

end PovDeposit.Lib.IsoDate
