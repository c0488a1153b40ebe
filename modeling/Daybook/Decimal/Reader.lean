import Daybook.Decimal.Arithmetic

/-!
# Reading decimals

A number is an optional sign, digits, and an optional point with more digits; underscores may stand
after a digit. Digits after the point that a decimal has no room for are cut, and the first of them
rounds the rest half up. An exponent after `e` or `E` moves the point, and places that it moves past
the last one are rounded away in the same manner.

`Decimal.read` is the reader, and `Decimal.ReadError` says what is wrong with a text that it refuses.
-/

namespace Daybook

namespace Decimal

inductive ReadError where
  | empty
  | noDigits
  | twoPoints
  | leadingUnderscore
  | unknownCharacter
  | tooManyDigits
  | overflowAfterRounding
  | exponent
  | scaleTooLarge (scale : Nat)
  | tooLarge
  deriving DecidableEq, Repr

def ReadError.message : ReadError → String
  | .empty => "Invalid decimal: empty"
  | .noDigits => "Invalid decimal: no digits found"
  | .twoPoints => "Invalid decimal: two decimal points"
  | .leadingUnderscore => "Invalid decimal: must start lead with a number"
  | .unknownCharacter => "Invalid decimal: unknown character"
  | .tooManyDigits => "Invalid decimal: overflow from too many digits"
  | .overflowAfterRounding => "Invalid decimal: overflow from mantissa after rounding"
  | .exponent => "Failed to parse"
  | .scaleTooLarge scale => "Scale exceeds the maximum precision allowed: " ++ toString scale ++ " > 28"
  | .tooLarge => "Number exceeds maximum value that can be represented."

def digit? (c : Char) : Option Nat :=
  if '0' ≤ c ∧ c ≤ '9' then some (c.toNat - '0'.toNat) else none

/-- The digits read so far. -/
structure Digits where
  mantissa : Nat
  scale : Nat
  fraction : Bool
  begun : Bool

def Digits.start : Digits := ⟨0, 0, false, false⟩

/-- The whole number nearest to `n / d`, the larger of two equally near, for a power of ten `d`. -/
def halfUp (n d : Nat) : Nat := (n + d / 2) / d

/-- Digits short enough for a word of 64 bits, with a margin of 2556. -/
def Digits.isShort (ds : Digits) : Bool := decide (ds.mantissa < 18446744073709549060)

/-- Whether what is cut off rounds the digits up. Underscores before the first digit of it do not count,
except that one right behind short digits stands for a digit that does not round up. -/
def Digits.roundsUp (ds : Digits) (tail : List Char) : Bool :=
  match if ds.isShort then tail else tail.dropWhile (· = '_') with
  | [] => false
  | c :: _ => (digit? c).any fun d => decide (d ≥ 5)

/-- What is wrong with a tail that has more than digits and underscores. -/
def tailError? (tail : List Char) : Option ReadError :=
  (tail.find? fun c => (digit? c).isNone && c != '_').map fun c =>
    if c = '.' then .twoPoints else .unknownCharacter

/-- The mantissa and scale after rounding half up on a tail that is cut off. That the rounding does not fit
is told before what is wrong with the tail. -/
def Digits.cut (ds : Digits) (tail : List Char) : Except ReadError (Nat × Nat) := do
  let rounded ←
    if !ds.roundsUp tail then .ok (ds.mantissa, ds.scale)
    else if ds.mantissa + 1 < limit then .ok (ds.mantissa + 1, ds.scale)
    else if ds.scale = 0 then .error .overflowAfterRounding
    else .ok (halfUp ds.mantissa 10, ds.scale - 1)
  match tailError? tail with
  | some e => .error e
  | none => .ok rounded

/-- Mantissa and scale of an unsigned number. -/
def Digits.read (ds : Digits) : List Char → Except ReadError (Nat × Nat)
  | [] => if ds.begun then .ok (ds.mantissa, ds.scale) else .error .noDigits
  | c :: cs =>
    if ds.fraction && decide (ds.scale ≥ 28) then
      ds.cut (c :: cs)
    else
      match digit? c with
      | some d =>
        let mantissa := ds.mantissa * 10 + d
        if mantissa < limit then
          read ⟨mantissa, if ds.fraction then ds.scale + 1 else 0, ds.fraction, true⟩ cs
        else if ds.fraction then
          ds.cut (c :: cs)
        else
          .error .tooManyDigits
      | none =>
        if c = '.' then
          if ds.fraction then .error .twoPoints else read { ds with fraction := true } cs
        else if c = '_' then
          if ds.begun then read ds cs else .error .leadingUnderscore
        else
          .error .unknownCharacter

/-- A number without exponent. A zero has no sign. -/
def readPlain (cs : List Char) : Except ReadError Decimal := do
  let (negative, body) ← match cs with
    | [] => .error .empty
    | '-' :: rest => .ok (true, rest)
    | '+' :: rest => .ok (false, rest)
    | body => .ok (false, body)
  let (mantissa, scale) ← Digits.start.read body
  match fit? (negative && mantissa != 0) mantissa scale with
  | some d => .ok d
  | none => .error .tooLarge

/-- The whole number of an exponent, with an optional `+` and below `2 ^ 32`. -/
def readExponent (cs : List Char) : Except ReadError Nat :=
  let body := match cs with
    | '+' :: rest => rest
    | body => body
  match body, body.mapM digit? with
  | _ :: _, some ds =>
    let n := ds.foldl (fun n d => n * 10 + d) 0
    if n < 4294967296 then .ok n else .error .exponent
  | _, _ => .error .exponent

/-- The same value without zeros at the end of the fraction. -/
def normalized (d : Decimal) : Decimal :=
  (List.range (d.scale + 1)).reverse.findSome? (fun dropped =>
    if d.mantissa % powerOfTen dropped = 0 then
      fit? (d.negative && d.mantissa != 0) (d.mantissa / powerOfTen dropped) (d.scale - dropped)
    else
      none)
  |>.getD d

/-- The value times `10 ^ exponent`, in factors of at most `10 ^ 19`. -/
def shifted (d : Decimal) (exponent : Nat) : Option Decimal := do
  let first ← fit? false (powerOfTen (min exponent 19)) 0
  let second ← fit? false (powerOfTen (exponent - 19)) 0
  (← d.mul first).mul second

/-- The number with its point moved to the left, by at most as many places as there can be. What is
rounded to zero keeps its sign. -/
def movedLeft (d : Decimal) (places : Nat) : Except ReadError Decimal :=
  let scale := min (d.scale + places) maxScale
  let dropped := d.scale + places - scale
  if places > maxScale then
    .error (.scaleTooLarge places)
  else
    match fit? d.negative (halfUp d.mantissa (powerOfTen dropped)) scale with
    | some d => .ok d
    | none => .error .tooLarge

/-- The number with its point moved to the right: first over the places that it has, and beyond them by
as many as there can be. -/
def movedRight (d : Decimal) (places : Nat) : Except ReadError Decimal :=
  if places ≤ d.scale then
    .ok { d with scale := d.scale - places, scale_le := Nat.le_trans (Nat.sub_le ..) d.scale_le }
  else if places > maxScale then
    .error (.scaleTooLarge places)
  else
    match d.shifted places with
    | some d => .ok d.normalized
    | none => .error .tooLarge

def readScientific (base exponent : List Char) : Except ReadError Decimal := do
  let d ← readPlain base
  match exponent with
  | '-' :: rest => d.movedLeft (← readExponent rest)
  | _ => d.movedRight (← readExponent exponent)

def readChars (cs : List Char) : Except ReadError Decimal :=
  let isMark := fun c => c = 'e' || c = 'E'
  match cs.dropWhile (!isMark ·) with
  | [] => readPlain cs
  | _ :: exponent => readScientific (cs.takeWhile (!isMark ·)) exponent

def read (text : String) : Except ReadError Decimal := readChars text.toList

end Decimal

end Daybook
