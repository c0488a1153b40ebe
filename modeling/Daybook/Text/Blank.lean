import Daybook.Text.Ranges

/-!
# Blank characters and lines

The blanks are the characters with the Unicode property White_Space. Texts are cut into lines at line
feeds only; a carriage return in front of one is a blank, and so goes with the trimming.
-/

namespace Daybook.Text

/-- The code points of the Unicode property White_Space. -/
def blankRanges : Ranges :=
  [(0x9, 0xD), (0x20, 0x20), (0x85, 0x85), (0xA0, 0xA0), (0x1680, 0x1680), (0x2000, 0x200A),
    (0x2028, 0x2029), (0x202F, 0x202F), (0x205F, 0x205F), (0x3000, 0x3000)]

/-- A character with the Unicode property White_Space. -/
def isBlank (c : Char) : Bool := blankRanges.contain c

/-- Every blank that the core library knows is one here. -/
theorem isBlank_of_isWhitespace {c : Char} (h : c.isWhitespace = true) : isBlank c = true := by
  simp only [Char.isWhitespace, Bool.or_eq_true, decide_eq_true_eq] at h
  rcases h with ((rfl | rfl) | rfl) | rfl <;> rfl

/-- Drops the blanks at the start. -/
def trimLeft (cs : List Char) : List Char := cs.dropWhile isBlank

def trimRight (cs : List Char) : List Char := (cs.reverse.dropWhile isBlank).reverse

/-- Drops the blanks on both sides. -/
def trim (cs : List Char) : List Char := trimRight (trimLeft cs)

def trimmed (s : String) : String := String.ofList (trim s.toList)

/-- The pieces between the characters of a class; one more piece than there are such characters. -/
def splitAt (cut : Char → Bool) : List Char → List (List Char)
  | [] => [[]]
  | c :: cs =>
    match splitAt cut cs with
    | [] => [[c]]
    | piece :: pieces => if cut c then [] :: piece :: pieces else (c :: piece) :: pieces

def lines (cs : List Char) : List (List Char) := splitAt (· == '\n') cs

/-- What stands before and after the first character of a class. -/
def splitFirst? (cut : Char → Bool) : List Char → Option (List Char × List Char)
  | [] => none
  | c :: cs => if cut c then some ([], cs) else (splitFirst? cut cs).map fun (a, b) => (c :: a, b)

/-- The text after a given beginning. -/
def after? : List Char → List Char → Option (List Char)
  | [], cs => some cs
  | _ :: _, [] => none
  | x :: xs, c :: cs => if x = c then after? xs cs else none

end Daybook.Text
