import Daybook.Text.Blank
import Daybook.Timestamp.Basic

/-!
# Reading timestamps

A timestamp is written as a day, `YYYY-MM-DD`, or as a day and a time, `YYYY-MM-DDTHH:MM`. A day stands
for its first minute. Blanks may stand before each number, and a year may have a sign.
-/

namespace Daybook

namespace Timestamp

inductive ReadError where
  | tooShort
  | invalidCharacters
  | outOfRange
  | trailing
  deriving DecidableEq, Repr

def ReadError.message : ReadError → String
  | .tooShort => "premature end of input"
  | .invalidCharacters => "input contains invalid characters"
  | .outOfRange => "input is out of range"
  | .trailing => "trailing input"

/-- The digits at the start of a text, at most so many. -/
def leadingDigits (limit : Nat) (cs : List Char) : List Char :=
  (cs.take limit).takeWhile Char.isDigit

def valueOf (digits : List Char) : Nat :=
  digits.foldl (fun n c => n * 10 + (c.toNat - '0'.toNat)) 0

/-- A number of at most so many digits, and the text after it. -/
def readDigits (limit : Nat) (cs : List Char) : Except ReadError (Nat × List Char) :=
  match cs, leadingDigits limit cs with
  | [], _ => .error .tooShort
  | _ :: _, [] => .error .invalidCharacters
  | _ :: _, digits => .ok (valueOf digits, cs.drop digits.length)

/-- A two digit number between two bounds, after blanks. -/
def readField (low high : Nat) (cs : List Char) : Except ReadError (Nat × List Char) := do
  let (n, rest) ← readDigits 2 (Text.trimLeft cs)
  if low ≤ n ∧ n ≤ high then .ok (n, rest) else .error .outOfRange

/-- A year that 32 bits hold, if the number is one. -/
def yearInRange (year : Int) (rest : List Char) : Except ReadError (Int × List Char) :=
  if -2147483648 ≤ year ∧ year ≤ 2147483647 then .ok (year, rest) else .error .outOfRange

/-- A year, after blanks: up to four digits, or with a sign any number of them. -/
def readYear (cs : List Char) : Except ReadError (Int × List Char) :=
  match Text.trimLeft cs with
  | '-' :: rest => do
    let (n, rest) ← readDigits rest.length rest
    yearInRange (-(n : Int)) rest
  | '+' :: rest => do
    let (n, rest) ← readDigits rest.length rest
    yearInRange n rest
  | rest => do
    let (n, rest) ← readDigits 4 rest
    .ok ((n : Int), rest)

/-- The text after a separator. -/
def readMark (mark : Char) : List Char → Except ReadError (List Char)
  | [] => .error .tooShort
  | c :: rest => if c = mark then .ok rest else .error .invalidCharacters

/-- The parts of a day, and the text after it. -/
def readDay (cs : List Char) : Except ReadError ((Int × Nat × Nat) × List Char) := do
  let (year, cs) ← readYear cs
  let cs ← readMark '-' cs
  let (month, cs) ← readField 1 12 cs
  let cs ← readMark '-' cs
  let (day, cs) ← readField 1 31 cs
  .ok ((year, month, day), cs)

/-- The end of the text, and then a day that the calendar has. -/
def finish (parts : Int × Nat × Nat) (rest : List Char) : Except ReadError Date :=
  match rest, Date.ofParts? parts.1 parts.2.1 parts.2.2 with
  | _ :: _, _ => .error .trailing
  | [], none => .error .outOfRange
  | [], some date => .ok date

def readDate (cs : List Char) : Except ReadError Date := do
  let (parts, rest) ← readDay cs
  finish parts rest

def readMinute (cs : List Char) : Except ReadError Timestamp := do
  let (parts, cs) ← readDay cs
  let cs ← readMark 'T' cs
  let (hour, cs) ← readField 0 23 cs
  let cs ← readMark ':' cs
  let (minute, cs) ← readField 0 59 cs
  let date ← finish parts cs
  match ofParts? date hour minute with
  | some t => .ok t
  | none => .error .outOfRange

/-- Reads a timestamp. What is wrong is told of the text as a day. -/
def read (text : String) : Except ReadError Timestamp :=
  match readMinute text.toList with
  | .ok t => .ok t
  | .error _ => (readDate text.toList).map midnight

end Timestamp

end Daybook
