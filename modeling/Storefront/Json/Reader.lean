import Storefront.Json.Basic
import Storefront.Json.Fault
import Storefront.Text.Basic

namespace Storefront.Json

/-- A container whose next value is being read: the items so far, last first, or the members so
far and the key of the next one. -/
inductive Frame where
  | array (done : List Json)
  | object (done : List (String × Json)) (key : String)
  deriving Repr

inductive Purpose where
  | value
  | key (done : List (String × Json))
  | numeral
  deriving Repr

inductive NumberPart where
  | minus
  | zero
  | whole
  | point
  | fraction
  | mark
  | sign
  | exponent
  deriving Repr, DecidableEq

/-- How far a string has come. Inside a hexadecimal escape `need` bytes are owed and `code` is the
value so far, none once a byte was no digit; `high` is a leading surrogate that wants its pair. -/
inductive StringPart where
  | plain
  | escape
  | hex (high : Option Nat) (need : Nat) (code : Option Nat)
  | pairSlash (high : Nat)
  | pairLetter (high : Nat)
  deriving Repr, DecidableEq

/-- Something that stands where the text of a number is wanted. It is refused, a word or a number
only when all of it has been read. -/
inductive Misfit where
  | word (rest : List Char) (found : Found)
  | number (part : NumberPart)
  deriving Repr

inductive Mode where
  | value
  | firstItem
  | item (done : List Json)
  | itemEnd (done : List Json)
  | firstKey
  | key (done : List (String × Json))
  | colon (done : List (String × Json)) (key : String)
  | memberEnd (done : List (String × Json))
  | numeral
  | misfit (m : Misfit)
  | numeralEnd (v : Json)
  | word (rest : List Char) (v : Json)
  | number (part : NumberPart) (seen : List Char)
  | string (part : StringPart) (seen : List Char) (purpose : Purpose)
  | ended (v : Json)
  deriving Repr

/-- The reader is a machine over characters. Its state holds the open containers, innermost
first, and what may come next. -/
structure State where
  frames : List Frame
  mode : Mode
  deriving Repr

def State.start : State :=
  ⟨[], .value⟩

/-- Why reading stops. The place is so many bytes further on, or it is a place in a string that
should be the text of a number. -/
inductive Stop where
  | ahead (cause : Cause) (bytes : Nat)
  | inside (fault : Fault)
  deriving Repr, DecidableEq

namespace Stop

def shift (read : Nat) : Stop → Stop
  | .ahead cause bytes => .ahead cause (read + bytes)
  | .inside fault => .inside fault

def fault (text : List Char) : Stop → Fault
  | .ahead cause bytes =>
    let (line, column) := locate 1 0 text bytes
    ⟨cause, line, column⟩
  | .inside fault => fault

end Stop

def depthLimit : Nat := 127

def isSpace (c : Char) : Bool :=
  c = ' ' || c = '\n' || c = '\t' || c = '\r'

def isHighSurrogate (n : Nat) : Bool :=
  0xD800 ≤ n && n ≤ 0xDBFF

def isLowSurrogate (n : Nat) : Bool :=
  0xDC00 ≤ n && n ≤ 0xDFFF

def deliver (v : Json) : List Frame → State
  | [] => ⟨[], .ended v⟩
  | .array done :: frames => ⟨frames, .itemEnd (v :: done)⟩
  | .object done key :: frames => ⟨frames, .memberEnd (Entries.put key v done)⟩

def stop {α : Type} (cause : Cause) : Except Stop α :=
  .error (.ahead cause 1)

def beginValue (frames : List Frame) (c : Char) : Except Stop State :=
  if c = 'n' then .ok ⟨frames, .word ['u', 'l', 'l'] .null⟩
  else if c = 't' then .ok ⟨frames, .word ['r', 'u', 'e'] (.boolean true)⟩
  else if c = 'f' then .ok ⟨frames, .word ['a', 'l', 's', 'e'] (.boolean false)⟩
  else if c = '"' then .ok ⟨frames, .string .plain [] .value⟩
  else if c = '-' then .ok ⟨frames, .number .minus [c]⟩
  else if c = '0' then .ok ⟨frames, .number .zero [c]⟩
  else if c.isDigit then .ok ⟨frames, .number .whole [c]⟩
  else if c = '[' then
    if frames.length < depthLimit then .ok ⟨frames, .firstItem⟩ else stop .tooDeep
  else if c = '\x7b' then
    if frames.length < depthLimit then .ok ⟨frames, .firstKey⟩ else stop .tooDeep
  else stop .expectedValue

def NumberPart.first? (c : Char) : Option NumberPart :=
  if c = '-' then some .minus
  else if c = '0' then some .zero
  else if c.isDigit then some .whole
  else none

def beginMisfit (c : Char) : Except Stop Misfit :=
  if c = 'n' then .ok (.word ['u', 'l', 'l'] .null)
  else if c = 't' then .ok (.word ['r', 'u', 'e'] (.boolean true))
  else if c = 'f' then .ok (.word ['a', 'l', 's', 'e'] (.boolean false))
  else if c = '[' then .error (.ahead (.notNumeral .array) 0)
  else if c = '\x7b' then .error (.ahead (.notNumeral .object) 0)
  else match NumberPart.first? c with
  | some part => .ok (.number part)
  | none => stop .expectedValue

def stepBetween (frames : List Frame) (mode : Mode) (c : Char) : Except Stop State :=
  if isSpace c then .ok ⟨frames, mode⟩
  else match mode with
  | .value => beginValue frames c
  | .firstItem =>
    if c = ']' then .ok (deliver (.array []) frames) else beginValue (.array [] :: frames) c
  | .item done =>
    if c = ']' then stop .trailingComma else beginValue (.array done :: frames) c
  | .itemEnd done =>
    if c = ',' then .ok ⟨frames, .item done⟩
    else if c = ']' then .ok (deliver (.array done.reverse) frames)
    else stop .expectedItemEnd
  | .firstKey =>
    if c = '"' then .ok ⟨frames, .string .plain [] (.key [])⟩
    else if c = '\x7d' then .ok (deliver (.object []) frames)
    else stop .keyNotString
  | .key done =>
    if c = '"' then .ok ⟨frames, .string .plain [] (.key done)⟩
    else if c = '\x7d' then stop .trailingComma
    else stop .keyNotString
  | .colon done key =>
    if c = ':' then
      if done.isEmpty && key = numberMark then .ok ⟨frames, .numeral⟩
      else .ok ⟨.object done key :: frames, .value⟩
    else stop .expectedColon
  | .memberEnd done =>
    if c = ',' then .ok ⟨frames, .key done⟩
    else if c = '\x7d' then .ok (deliver (.object done) frames)
    else stop .expectedMemberEnd
  | .numeral =>
    if c = '"' then .ok ⟨frames, .string .plain [] .numeral⟩
    else (beginMisfit c).map fun m ↦ ⟨frames, .misfit m⟩
  | .numeralEnd v =>
    if c = ',' then stop .trailingComma
    else if c = '\x7d' then .ok (deliver v frames)
    else stop .trailingText
  | _ => stop .trailingText

/-- The part of a number that a character leads to: none where it cannot stand there, and some
none where it no longer belongs to the number. -/
def NumberPart.next (c : Char) : NumberPart → Option (Option NumberPart)
  | .minus => if c = '0' then some (some .zero) else if c.isDigit then some (some .whole) else none
  | .zero => if c.isDigit then none else some (afterWhole c)
  | .whole => if c.isDigit then some (some .whole) else some (afterWhole c)
  | .point => if c.isDigit then some (some .fraction) else none
  | .fraction => if c.isDigit then some (some .fraction) else some (afterFraction c)
  | .mark => if c = '+' || c = '-' then some (some .sign) else digitOfExponent c
  | .sign => digitOfExponent c
  | .exponent => some (if c.isDigit then some .exponent else none)
where
  afterFraction (c : Char) : Option NumberPart :=
    if c = 'e' || c = 'E' then some .mark else none
  afterWhole (c : Char) : Option NumberPart :=
    if c = '.' then some .point else afterFraction c
  digitOfExponent (c : Char) : Option (Option NumberPart) :=
    if c.isDigit then some (some .exponent) else none

def NumberPart.complete : NumberPart → Bool
  | .zero | .whole | .fraction | .exponent => true
  | .minus | .point | .mark | .sign => false

/-- The lexeme, last character first, after one more character: the exponent mark is a small `e`,
and an exponent always has a sign. -/
def NumberPart.write (part : NumberPart) (c : Char) (seen : List Char) : List Char :=
  match part with
  | .mark => if c = '+' || c = '-' then c :: seen else c :: '+' :: seen
  | _ => if c = 'E' then 'e' :: seen else c :: seen

def numberOf (seen : List Char) : Json :=
  .number (String.ofList seen.reverse)

def stepNumber (frames : List Frame) (part : NumberPart) (seen : List Char) (c : Char) :
    Except Stop State :=
  match part.next c with
  | none => stop .invalidNumber
  | some (some part') => .ok ⟨frames, .number part' (part.write c seen)⟩
  | some none =>
    let s := deliver (numberOf seen) frames
    stepBetween s.frames s.mode c

def NumberPart.swallows : NumberPart → Bool
  | .minus | .mark | .sign => true
  | .zero | .whole | .point | .fraction | .exponent => false

/-- The rest of a number with which a text ends. What is left over is refused at its first byte. -/
def scanNumeral (part : NumberPart) (seen : List Char) (read : Nat) :
    List Char → Except Stop Json
  | [] => if part.complete then .ok (numberOf seen) else .error (.ahead .endInValue read)
  | c :: cs =>
    match part.next c with
    | some (some part') => scanNumeral part' (part.write c seen) (read + c.utf8Size) cs
    | _ =>
      let more := 1 < c.utf8Size || !cs.isEmpty
      .error (.ahead .invalidNumber (read + if part.swallows && more then 2 else 1))

def readNumeral (text : String) : Except Fault Json :=
  let cs := text.toList
  (scan cs).mapError (Stop.fault cs)
where
  scan : List Char → Except Stop Json
    | [] => .error (.ahead .endInValue 0)
    | c :: cs =>
      match NumberPart.first? c with
      | some part => scanNumeral part [c] 1 cs
      | none => stop .invalidNumber

def shortEscape? (c : Char) : Option Char :=
  if c = '"' || c = '\\' || c = '/' then some c
  else if c = 'b' then some (Char.ofNat 8)
  else if c = 'f' then some (Char.ofNat 12)
  else if c = 'n' then some '\n'
  else if c = 'r' then some '\r'
  else if c = 't' then some '\t'
  else none

def endHex (high : Option Nat) (code : Nat) (seen : List Char) :
    Except Stop (StringPart × List Char) :=
  match high with
  | none =>
    if isLowSurrogate code then stop .loneSurrogate
    else if isHighSurrogate code then .ok (.pairSlash code, seen)
    else .ok (.plain, Char.ofNat code :: seen)
  | some high =>
    if isLowSurrogate code then
      .ok (.plain, Char.ofNat (0x10000 + (high - 0xD800) * 0x400 + (code - 0xDC00)) :: seen)
    else stop .loneSurrogate

def stepStringPart (part : StringPart) (seen : List Char) (c : Char) :
    Except Stop (StringPart × List Char) :=
  match part with
  | .plain =>
    if c = '\\' then .ok (.escape, seen)
    else if c.toNat < 0x20 then stop .controlCharacter
    else .ok (.plain, c :: seen)
  | .escape =>
    if c = 'u' then .ok (.hex none 4 (some 0), seen)
    else match shortEscape? c with
    | some d => .ok (.plain, d :: seen)
    | none => stop .invalidEscape
  | .hex high need code =>
    let code := do return (← code) * 16 + (← Text.hexValue? c)
    if c.utf8Size < need then .ok (.hex high (need - c.utf8Size) code, seen)
    else match code with
    | some n => endHex high n seen
    | none => .error (.ahead .invalidEscape need)
  | .pairSlash high => if c = '\\' then .ok (.pairLetter high, seen) else stop .unpairedSurrogate
  | .pairLetter high =>
    if c = 'u' then .ok (.hex (some high) 4 (some 0), seen) else stop .unpairedSurrogate

def endString (frames : List Frame) (seen : List Char) : Purpose → Except Stop State
  | .value => .ok (deliver (.string (String.ofList seen.reverse)) frames)
  | .key done => .ok ⟨frames, .colon done (String.ofList seen.reverse)⟩
  | .numeral =>
    match readNumeral (String.ofList seen.reverse) with
    | .ok v => .ok ⟨frames, .numeralEnd v⟩
    | .error fault => .error (.inside fault)

def stepString (frames : List Frame) (part : StringPart) (seen : List Char) (purpose : Purpose)
    (c : Char) : Except Stop State :=
  if part = .plain ∧ c = '"' then endString frames seen purpose
  else do
    let (part', seen') ← stepStringPart part seen c
    return ⟨frames, .string part' seen' purpose⟩

def stepMisfit (c : Char) : Misfit → Except Stop Misfit
  | .word [] found => stop (.notNumeral found)
  | .word (r :: rest) found =>
    if c ≠ r then stop .expectedWord
    else if rest.isEmpty then stop (.notNumeral found)
    else .ok (.word rest found)
  | .number part =>
    match part.next c with
    | none => stop .invalidNumber
    | some (some part') => .ok (.number part')
    | some none => .error (.ahead (.notNumeral .number) 0)

def step (s : State) (c : Char) : Except Stop State :=
  match s.mode with
  | .misfit m => (stepMisfit c m).map fun m ↦ ⟨s.frames, .misfit m⟩
  | .word (r :: rest) v =>
    if c ≠ r then stop .expectedWord
    else if rest.isEmpty then .ok (deliver v s.frames)
    else .ok ⟨s.frames, .word rest v⟩
  | .number part seen => stepNumber s.frames part seen c
  | .string part seen purpose => stepString s.frames part seen purpose c
  | mode => stepBetween s.frames mode c

def finishBetween : Mode → Except Cause Json
  | .value => .error .endInValue
  | .firstItem => .error .endInList
  | .item _ => .error .endInValue
  | .itemEnd _ => .error .endInList
  | .firstKey => .error .endInObject
  | .key _ => .error .endInValue
  | .colon _ _ => .error .endInObject
  | .memberEnd _ => .error .endInObject
  | .numeral => .error .endInValue
  | .misfit (.number part) =>
    .error (if part.complete then .notNumeral .number else .endInValue)
  | .misfit (.word _ _) => .error .endInValue
  | .numeralEnd _ => .error .endInObject
  | .word _ _ => .error .endInValue
  | .number _ _ => .error .endInValue
  | .string _ _ _ => .error .endInString
  | .ended v => .ok v

def finish (s : State) : Except Cause Json :=
  match s.mode with
  | .number part seen =>
    if part.complete then finishBetween (deliver (numberOf seen) s.frames).mode
    else .error .endInValue
  | mode => finishBetween mode

def run (s : State) (bytes : Nat) : List Char → Except Stop Json
  | [] => (finish s).mapError (.ahead · bytes)
  | c :: cs =>
    match step s c with
    | .ok s' => run s' (bytes + c.utf8Size) cs
    | .error e => .error (e.shift bytes)

/-- Read a JSON text. Of members with one key the first keeps its place and the last its value. -/
def parse (text : String) : Except Fault Json :=
  let cs := text.toList
  (run .start 0 cs).mapError (Stop.fault cs)

end Storefront.Json
