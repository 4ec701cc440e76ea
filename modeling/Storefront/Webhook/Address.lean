import Storefront.Text.Basic

namespace Storefront.Webhook

inductive Address where
  | short (bits : BitVec 32)
  | long (bits : BitVec 128)
  deriving Repr, DecidableEq

namespace Address

def ofDigits (base : Nat) (digits : List Nat) : Nat :=
  digits.foldl (fun n d ↦ n * base + d) 0

/-- One to three decimal digits without a leading zero, for at most 255. -/
def part? (cs : List Char) : Option Nat :=
  if cs.isEmpty || 3 < cs.length || !cs.all Char.isDigit || (cs.head? = some '0' && cs ≠ ['0']) then
    none
  else
    let n := Nat.ofDigitChars 10 cs 0
    if n < 256 then some n else none

def quad? (cs : List Char) : Option (List Nat) :=
  let pieces := Text.pieces '.' cs
  if pieces.length = 4 then pieces.mapM part? else none

def group? (cs : List Char) : Option Nat :=
  if cs.isEmpty || 4 < cs.length then none else (cs.mapM Text.hexValue?).map (ofDigits 16)

/-- The groups of some pieces; the last two may be written together as a quad. -/
def groups? : List (List Char) → Option (List Nat)
  | [] => some []
  | [piece] =>
    match group? piece with
    | some g => some [g]
    | none =>
      match quad? piece with
      | some [a, b, c, d] => some [a * 256 + b, c * 256 + d]
      | _ => none
  | piece :: more => do
    let g ← group? piece
    let gs ← groups? more
    return g :: gs

def side (cs : List Char) : List (List Char) :=
  if cs.isEmpty then [] else Text.pieces ':' cs

/-- Eight groups between colons. A double colon is a gap, which stands for the groups of zero that
are missing, at least one; no quad stands before it. -/
def octet? (cs : List Char) : Option (List Nat) :=
  match Text.cut? [':', ':'] cs with
  | some (front, back) => do
    let front ← (side front).mapM group?
    let back ← groups? (side back)
    if front.length + back.length < 8 then
      some (front ++ List.replicate (8 - (front.length + back.length)) 0 ++ back)
    else none
  | none => do
    let groups ← groups? (Text.pieces ':' cs)
    if groups.length = 8 then some groups else none

def read? (cs : List Char) : Option Address :=
  match quad? cs with
  | some parts => some (short (BitVec.ofNat 32 (ofDigits 256 parts)))
  | none => (octet? cs).map fun groups ↦ long (BitVec.ofNat 128 (ofDigits 65536 groups))

/-- A short address may be written as the end of a long one, after the bits `ffff`. -/
def canonical : Address → Address
  | short bits => short bits
  | long bits => if bits >>> 32 = 0xffff then short (bits.setWidth 32) else long bits

end Address

namespace Origin

def allowed : List String :=
  ["18.209.80.3", "54.87.231.232"]

def addresses : List Address :=
  allowed.filterMap fun s ↦ Address.read? s.toList

def isAllowed (s : String) : Bool :=
  match Address.read? (Text.trim s.toList) with
  | some a => a.canonical ∈ addresses
  | none => false

theorem addresses_eq : addresses = [.short 0x12d15003, .short 0x3657e7e8] := by
  decide

end Origin

end Storefront.Webhook
