import Storefront.Number.Decimal

namespace Storefront

/-- A day of the proleptic Gregorian calendar; months and days count from one. -/
structure Civil where
  year : Int
  month : Nat
  day : Nat
  deriving Repr, DecidableEq

namespace Civil

def isLeap (year : Int) : Bool :=
  year % 4 == 0 && (year % 100 != 0 || year % 400 == 0)

def monthLengths (year : Int) : List Nat :=
  [31, if isLeap year then 29 else 28, 31, 30, 31, 30, 31, 31, 30, 31, 30, 31]

def daysInMonth (year : Int) (month : Nat) : Nat :=
  ((monthLengths year)[month - 1]?).getD 0

def valid (d : Civil) : Bool :=
  1 ≤ d.month && d.month ≤ 12 && 1 ≤ d.day && d.day ≤ daysInMonth d.year d.month

def daysBeforeYear (year : Int) : Int :=
  365 * (year - 1) + (year - 1) / 4 - (year - 1) / 100 + (year - 1) / 400

def total (lengths : List Nat) : Nat :=
  lengths.foldr (fun length sum ↦ length + sum) 0

def daysBeforeMonth (year : Int) (month : Nat) : Nat :=
  total ((monthLengths year).take (month - 1))

def epoch : Int := 719162

/-- The number of a day; the first day of 1970 has number zero. -/
def toDays (d : Civil) : Int :=
  daysBeforeYear d.year + daysBeforeMonth d.year d.month + d.day - 1 - epoch

def monthAndDay (month : Nat) : List Nat → Nat → Nat × Nat
  | [], rest => (month, rest + 1)
  | length :: lengths, rest =>
    if rest < length then (month, rest + 1) else monthAndDay (month + 1) lengths (rest - length)

/-- The day with a number: four hundred years repeat, and within them the last of every four
centuries, and of every four years, is the longer one. -/
def ofDays (n : Int) : Civil :=
  let n := n + epoch
  let cycle := n / 146097
  let rest := (n % 146097).toNat
  let century := min 3 (rest / 36524)
  let rest := rest - century * 36524
  let fours := rest / 1461
  let rest := rest % 1461
  let single := min 3 (rest / 365)
  let year := 400 * cycle + (100 * century + 4 * fours + single + 1 : Nat)
  let (month, day) := monthAndDay 1 (monthLengths year) (rest - single * 365)
  ⟨year, month, day⟩

end Civil

/-- A moment of universal time: seconds from the start of 1970, rounded down, and nanoseconds
within the second. Past a thousand million they stand for a leap second after the second. -/
structure Instant where
  seconds : Int
  nanos : Nat
  nanos_lt : nanos < 2000000000
  first_le : -8334601228800 ≤ seconds
  le_last : seconds ≤ 8210266876799
  deriving DecidableEq

namespace Instant

def firstYear : Int := -262143

def lastYear : Int := 262142

/-- Only a second that ends a minute is given a leap second here. -/
def make? (seconds : Int) (nanos : Nat) : Option Instant :=
  if h : nanos < 2000000000 ∧ (1000000000 ≤ nanos → seconds % 60 = 59) ∧
      -8334601228800 ≤ seconds ∧ seconds ≤ 8210266876799 then
    some ⟨seconds, nanos, h.1, h.2.2.1, h.2.2.2⟩
  else none

def civil (i : Instant) : Civil :=
  Civil.ofDays (i.seconds / 86400)

def secondOfDay (i : Instant) : Nat :=
  (i.seconds % 86400).toNat

def isLeap (i : Instant) : Bool :=
  1000000000 ≤ i.nanos

def fraction (i : Instant) : Nat :=
  i.nanos % 1000000000

open Number

def yearText (year : Int) : List Char :=
  if 0 ≤ year ∧ year ≤ 9999 then padded 4 year.toNat
  else
    (if year < 0 then '-' else '+') ::
      (if year.natAbs ≤ 9999 then padded 4 year.natAbs else Nat.toDigits 10 year.natAbs)

def textWith (fraction : List Char) (i : Instant) : String :=
  let d := i.civil
  let s := i.secondOfDay
  let second := if i.isLeap then s % 60 + 1 else s % 60
  String.ofList <|
    yearText d.year ++ '-' :: padded 2 d.month ++ '-' :: padded 2 d.day ++
    'T' :: padded 2 (s / 3600) ++ ':' :: padded 2 (s / 60 % 60) ++ ':' :: padded 2 second ++
    fraction ++ ['Z']

/-- The wire text of an instant: whole milliseconds, the rest is cut off. -/
def text (i : Instant) : String :=
  i.textWith ('.' :: padded 3 (i.fraction / 1000000))

/-- The text of an instant in a record: none, three, six or nine digits, the fewest that are
exact. -/
def exactText (i : Instant) : String :=
  let f := i.fraction
  i.textWith <|
    if f = 0 then []
    else if f % 1000000 = 0 then '.' :: padded 3 (f / 1000000)
    else if f % 1000 = 0 then '.' :: padded 6 (f / 1000)
    else '.' :: padded 9 f

end Instant

end Storefront
