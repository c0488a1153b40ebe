import Daybook.Text.Blank

/-!
# Paths

Paths are texts with `/` between their components. Empty components, and `.` anywhere but at the
start, stand for nothing. A path keeps its spelling when it is taken apart and joined, since it is
shown in messages.
-/

namespace Daybook.Path

/-- The components of a path as they are spelled. -/
def pieces (path : String) : List (List Char) := Text.splitAt (· == '/') path.toList

def ofPieces (pieces : List (List Char)) : String := String.ofList (['/'].intercalate pieces)

def isAbsolute (path : String) : Bool := path.toList.head? == some '/'

/-- A path with a NUL character, which no file can have in its name. -/
def hasNul (path : String) : Bool := path.toList.any (· == '\x00')

/-- A component of more bytes than the name of a file can have. -/
def isTooLong (component : String) : Bool := decide (component.utf8ByteSize > 255)

/-- Drops the components at the end, last one first, that stand for nothing. -/
def dropVoid : List (List Char) → List (List Char)
  | [] => []
  | [c] => if c = [] then [] else [c]
  | c :: rest => if c = [] ∨ c = ['.'] then dropVoid rest else c :: rest

/-- The directory of a path: the path without its last component, as it is spelled. A path of one
component, or of none, has the empty directory. -/
def parent (path : String) : String :=
  if isAbsolute path then
    match dropVoid (pieces path).reverse with
    | _ :: rest =>
      match dropVoid rest with
      | [] => "/"
      | kept => ofPieces kept.reverse
    | [] => ""
  else
    match dropVoid (pieces path).reverse with
    | _ :: rest => ofPieces (dropVoid rest).reverse
    | [] => ""

/-- A path taken relative to a directory; an absolute one stands for itself. -/
def join (base target : String) : String :=
  if isAbsolute target || base.isEmpty then target
  else if base.toList.getLast? == some '/' then base ++ target
  else base ++ "/" ++ target

end Daybook.Path
