import Storefront.Number.Decimal

namespace Storefront.Number

def infinity : Nat := 2047 * Nat.pow 2 52

/-- A binary number of double precision: a sign, and the place of the magnitude in the increasing
list of all magnitudes, which ends with infinity. -/
structure Double where
  negative : Bool
  place : Nat
  place_le : place ≤ infinity
  deriving DecidableEq

namespace Double

def isInfinite (x : Double) : Bool :=
  x.place == infinity

def isZero (x : Double) : Bool :=
  x.place == 0

def unitsAt (place : Nat) : Nat :=
  if place < Nat.pow 2 52 then place
  else (Nat.pow 2 52 + place % Nat.pow 2 52) * Nat.pow 2 (place / Nat.pow 2 52 - 1)

def units (x : Double) : Nat :=
  unitsAt x.place

/-- The place of the magnitude nearest to `num / den` units; of two equally near the even place. -/
def nearestPlace (num den : Nat) : Nat :=
  let shift := (num / den).log2 - 52
  let step := den * Nat.pow 2 shift
  let place := shift * Nat.pow 2 52 + num / step
  let rest := num % step
  if 2 * rest > step ∨ (2 * rest = step ∧ place % 2 = 1) then place + 1 else place

def ofPlace (negative : Bool) (place : Nat) : Double :=
  ⟨negative, min place infinity, Nat.min_le_right _ _⟩

/-- The double nearest to a decimal. Beyond the first two tests the powers stay small. -/
def ofDecimal (d : Decimal) : Double :=
  if d.digits = 0 ∨ d.exponent + d.digits.log2 + 1 < -330 then ofPlace d.negative 0
  else if 310 < d.exponent then ofPlace d.negative infinity
  else if 0 ≤ d.exponent then
    ofPlace d.negative (nearestPlace (d.digits * Nat.pow 10 d.exponent.toNat * Nat.pow 2 1074) 1)
  else ofPlace d.negative (nearestPlace (d.digits * Nat.pow 2 1074) (Nat.pow 10 (-d.exponent).toNat))

def ofLexeme? (s : String) : Option Double :=
  (Decimal.ofLexeme? s.toList).map ofDecimal

def toInt? (x : Double) : Option Int :=
  if x.isInfinite || x.units % Nat.pow 2 1074 ≠ 0 then none
  else
    let n : Int := (x.units / Nat.pow 2 1074 : Nat)
    some (if x.negative then -n else n)

def toDecimal (x : Double) : Decimal :=
  ⟨x.negative, x.units * Nat.pow 5 1074, -1074⟩

/-- Which decimal is taken of two that are equally near: the one whose last digit is even, or the
larger one. -/
inductive Tie
  | even
  | larger

def Tie.takesBelow : Tie → (below : Nat) → Bool
  | .even, below => below % 2 = 0
  | .larger, _ => false

/-- Of the two multiples of `10 ^ (k - 1074)` around a double, one that reads back as the double:
the nearer one, and by the tie rule if both are equally near. -/
def onGrid? (tie : Tie) (x : Double) (k : Nat) : Option Decimal :=
  let exact := x.toDecimal
  let below := { exact with digits := exact.digits / Nat.pow 10 k, exponent := exact.exponent + k }
  let above := { below with digits := below.digits + 1 }
  let rest := exact.digits % Nat.pow 10 k
  let preferBelow := 2 * rest < Nat.pow 10 k ∨ (2 * rest = Nat.pow 10 k ∧ tie.takesBelow below.digits)
  if ofDecimal below = x ∧ (preferBelow ∨ ofDecimal above ≠ x) then some below
  else if ofDecimal above = x then some above
  else none

def shortestFrom (tie : Tie) (x : Double) : Nat → Decimal
  | 0 => x.toDecimal
  | k + 1 => (onGrid? tie x (k + 1)).getD (shortestFrom tie x k)

def shortest (tie : Tie) (x : Double) : Decimal :=
  shortestFrom tie x ((Nat.toDigits 10 x.toDecimal.digits).length - 1)

def pointed (digits : List Char) (n : Nat) : List Char :=
  let whole := digits.take n ++ List.replicate (n - digits.length) '0'
  let fraction := digits.drop n
  whole ++ '.' :: (if fraction.isEmpty then ['0'] else fraction)

/-- Digits whose first one counts `10 ^ e`: written out with a point when `e` is from -5 to 15,
else with one digit before the point and an exponent. -/
def layout (digits : List Char) (e : Int) : List Char :=
  if 0 ≤ e ∧ e ≤ 15 then pointed digits (e.toNat + 1)
  else if -5 ≤ e ∧ e < 0 then '0' :: '.' :: (List.replicate (-e - 1).toNat '0' ++ digits)
  else
    let mantissa := if digits.length = 1 then digits else digits.take 1 ++ '.' :: digits.drop 1
    let sign := if 0 ≤ e then '+' else '-'
    mantissa ++ 'e' :: sign :: Nat.toDigits 10 e.natAbs

def significant (tie : Tie) (x : Double) : List Char × Int :=
  let d := x.shortest tie
  let digits := Nat.toDigits 10 d.digits
  (dropTrailingZeros digits, d.exponent + digits.length - 1)

def signed (x : Double) (magnitude : List Char) : String :=
  String.ofList (if x.negative then '-' :: magnitude else magnitude)

/-- The text of a finite double; ties go to the even digit. -/
def text (x : Double) : String :=
  x.signed <|
    if x.isZero then ['0', '.', '0']
    else
      let (digits, e) := x.significant .even
      layout digits e

def spread (digits : List Char) (e : Int) : List Char :=
  if e < 0 then '0' :: '.' :: (List.replicate (-e - 1).toNat '0' ++ digits)
  else
    let n := e.toNat + 1
    if digits.length ≤ n then digits ++ List.replicate (n - digits.length) '0'
    else digits.take n ++ '.' :: digits.drop n

/-- The text of a finite double without an exponent, however long it is; ties go to the larger
decimal. -/
def plainText (x : Double) : String :=
  x.signed <|
    if x.isZero then ['0']
    else
      let (digits, e) := x.significant .larger
      spread digits e

end Double

end Storefront.Number
