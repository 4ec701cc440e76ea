import Storefront.Instant.Basic
import Storefront.Text.Basic

namespace Storefront.Instant

inductive Fault where
  | invalid
  | tooShort
  | outOfRange
  | trailing
  | impossible
  deriving Repr, DecidableEq

def Fault.message : Fault → String
  | .invalid => "input contains invalid characters"
  | .tooShort => "premature end of input"
  | .outOfRange => "input is out of range"
  | .trailing => "trailing input"
  | .impossible => "no possible date and time matching input"

abbrev Scan := StateT (List Char) (Except Fault)

namespace Scan

def blanks : Scan Unit :=
  modify Text.trimStart

def tight : Scan Unit :=
  pure ()

def literal (c : Char) : Scan Unit := fun cs ↦
  match cs with
  | [] => .error .tooShort
  | d :: rest => if d = c then .ok ((), rest) else .error .invalid

/-- At least one digit and at most so many; the digits themselves are the result. -/
def digits (limit : Nat) : Scan (List Char) := fun cs ↦
  match cs with
  | [] => .error .tooShort
  | c :: _ =>
    if c.isDigit then
      let found := (cs.take limit).takeWhile Char.isDigit
      .ok (found, cs.drop found.length)
    else .error .invalid

def number (limit : Nat) : Scan Nat :=
  return Nat.ofDigitChars 10 (← digits limit) 0

def exactly (width : Nat) : Scan Nat := do
  let found ← digits width
  if found.length = width then return Nat.ofDigitChars 10 found 0 else throw .invalid

def inRange (low high n : Nat) : Scan Nat :=
  if low ≤ n ∧ n ≤ high then pure n else throw .outOfRange

def field (low high : Nat) : Scan Nat := do
  blanks
  inRange low high (← number 2)

def year : Scan Int := do
  blanks
  let cs ← get
  match cs with
  | '-' :: rest =>
    set rest
    let n ← number rest.length
    if n ≤ Nat.pow 2 31 then return -(n : Int) else throw .outOfRange
  | '+' :: rest =>
    set rest
    let n ← number rest.length
    if n < Nat.pow 2 31 then return n else throw .outOfRange
  | _ => return (← number 4)

def date (gap : Scan Unit) : Scan Civil := do
  let y ← year
  gap
  literal '-'
  let m ← field 1 12
  gap
  literal '-'
  return ⟨y, m, ← field 1 31⟩

structure Clock where
  second : Nat
  leap : Bool

def Clock.ofFields (hour minute second : Nat) : Clock :=
  ⟨hour * 3600 + minute * 60 + min second 59, second = 60⟩

def clock (gap : Scan Unit) : Scan Clock := do
  let hour ← field 0 23
  gap
  literal ':'
  let minute ← field 0 59
  gap
  literal ':'
  return .ofFields hour minute (← field 0 60)

/-- An optional fraction of a second, in nanoseconds; digits after the ninth do not count. -/
def fraction : Scan Nat := do
  match ← get with
  | '.' :: rest =>
    set rest
    let found ← digits 9
    modify (List.dropWhile Char.isDigit)
    return Nat.ofDigitChars 10 found 0 * Nat.pow 10 (9 - found.length)
  | _ => return 0

def pair : Scan (Char × Char) := do
  match ← get with
  | [] => throw .tooShort
  | [c] => throw (if c.utf8Size = 1 then .tooShort else .invalid)
  | c :: d :: rest =>
    if c.isDigit && d.isDigit then
      set rest
      return (c, d)
    else throw .invalid

def pairValue (p : Char × Char) : Nat :=
  Nat.ofDigitChars 10 [p.1, p.2] 0

def offset (between : Scan Unit) : Scan Int := do
  match ← get with
  | [] => throw .tooShort
  | c :: rest =>
    set rest
    if c = 'Z' || c = 'z' then return 0
    else if c = '+' || c = '-' || c = '\u2212' then
      let hours := pairValue (← pair)
      between
      let minutes := pairValue (← pair)
      if 59 < minutes then throw .outOfRange
      let n : Int := (hours * 3600 + minutes * 60 : Nat)
      return if c = '+' then n else -n
    else throw .invalid

def finish : Scan Unit := do
  unless (← get).isEmpty do throw .trailing

end Scan

open Scan

def ofLocal (d : Civil) (clock : Clock) (nanos : Nat) (offset : Int) : Except Fault Instant :=
  if !d.valid || d.year < firstYear || lastYear < d.year || 86400 ≤ offset.natAbs then
    .error .outOfRange
  else
    match make? (d.toDays * 86400 + clock.second - offset)
        (if clock.leap then nanos + 1000000000 else nanos) with
    | some i => .ok i
    | none => .error .impossible

def internet : Scan Instant := do
  let y ← exactly 4
  literal '-'
  let m ← exactly 2
  literal '-'
  let d ← exactly 2
  match ← get with
  | c :: rest => if c = 'T' || c = 't' || c = ' ' then set rest else throw .invalid
  | [] => throw .tooShort
  let hour ← inRange 0 23 (← exactly 2)
  literal ':'
  let minute ← inRange 0 59 (← exactly 2)
  literal ':'
  let second ← inRange 0 60 (← exactly 2)
  let nanos ← Scan.fraction
  let off ← offset (literal ':')
  finish
  ofLocal ⟨y, m, d⟩ (.ofFields hour minute second) nanos off

def spaced : Scan Instant := do
  let d ← date tight
  blanks
  let t ← clock tight
  finish
  ofLocal d t 0 0

def dateOnly : Scan Instant := do
  let d ← date tight
  finish
  ofLocal d ⟨0, false⟩ 0 0

/-- The loose form: like the internet form, with blanks and short fields allowed. -/
def loose : Scan Instant := do
  let d ← date blanks
  match ← get with
  | c :: rest => if c = 'T' || c = 't' || c = ' ' then set rest else throw .invalid
  | [] => throw .tooShort
  let t ← clock blanks
  let nanos ← Scan.fraction
  blanks
  let off ← zone
  blanks
  finish
  ofLocal d t nanos off
where
  zone : Scan Int := do
    match ← get with
    | a :: b :: c :: rest =>
      if a.toLower = 'u' && b.toLower = 't' && c.toLower = 'c' then
        set rest
        return 0
      else offset (modify (List.dropWhile fun c ↦ c = ':' || Text.isBlank c))
    | _ => offset (modify (List.dropWhile fun c ↦ c = ':' || Text.isBlank c))

def scan? (s : Scan Instant) (text : List Char) : Option Instant :=
  (s.run' text).toOption

/-- Read a wire text: the internet form, then date and time, then a date. -/
def parse? (text : String) : Option Instant :=
  let cs := text.toList
  scan? internet cs <|> scan? spaced cs <|> scan? dateOnly cs

def read (text : String) : Except Fault Instant :=
  loose.run' text.toList

end Storefront.Instant
