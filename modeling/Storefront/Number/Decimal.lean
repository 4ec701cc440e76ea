namespace Storefront.Number

def allDigits (cs : List Char) : Bool :=
  !cs.isEmpty && cs.all Char.isDigit

def wholeNumber? : List Char → Option Int
  | '-' :: cs => if allDigits cs then some (-(Nat.ofDigitChars 10 cs 0 : Int)) else none
  | '+' :: cs => if allDigits cs then some (Nat.ofDigitChars 10 cs 0 : Int) else none
  | cs => if allDigits cs then some (Nat.ofDigitChars 10 cs 0 : Int) else none

def int64? (s : String) : Option Int64 :=
  match wholeNumber? s.toList with
  | some n => if -(Nat.pow 2 63 : Int) ≤ n ∧ n < (Nat.pow 2 63 : Int) then some (Int64.ofInt n) else none
  | none => none

def intText (n : Int) : List Char :=
  if n < 0 then '-' :: Nat.toDigits 10 n.natAbs else Nat.toDigits 10 n.natAbs

def padded : Nat → Nat → List Char
  | 0, _ => []
  | width + 1, n => padded width (n / 10) ++ [Nat.digitChar (n % 10)]

theorem length_padded (width n : Nat) : (padded width n).length = width := by
  induction width generalizing n with
  | zero => rfl
  | succ width ih => simp [padded, ih]

def dropTrailingZeros (cs : List Char) : List Char :=
  (cs.reverse.dropWhile (· = '0')).reverse

/-- The number `± digits · 10 ^ exponent`. -/
structure Decimal where
  negative : Bool
  digits : Nat
  exponent : Int
  deriving Repr, DecidableEq

namespace Decimal

def exponentPart? : List Char → Option Int
  | [] => some 0
  | c :: cs => if c = 'e' || c = 'E' then wholeNumber? cs else none

def fractionPart : List Char → List Char × List Char
  | '.' :: cs => cs.span Char.isDigit
  | cs => ([], cs)

def unsigned? (negative : Bool) (cs : List Char) : Option Decimal :=
  let (whole, rest) := cs.span Char.isDigit
  let (fraction, rest) := fractionPart rest
  if whole.isEmpty then none
  else (exponentPart? rest).map fun e ↦
    ⟨negative, Nat.ofDigitChars 10 (whole ++ fraction) 0, e - fraction.length⟩

def ofLexeme? : List Char → Option Decimal
  | '-' :: cs => unsigned? true cs
  | cs => unsigned? false cs

end Decimal

end Storefront.Number
