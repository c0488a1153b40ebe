import Daybook.Grammar.Rule

/-!
# Parsing expressions

A parsing expression either refuses a text or reads a beginning of it. Choice is ordered: once an
alternative has read something, the later ones are not tried. Repetition is greedy. A named rule leaves
a node in the tree of the reading, with the nodes of its parts below it, except that a token has none.

No rule of the language refers to itself, so an expression holds the bodies of its rules, and
`Expr.read` is recursive on the expression alone.
-/

namespace Daybook.Grammar

/-! ### Expressions -/

/-- How a rule treats what is inside it. -/
inductive RuleKind where
  /-- Blanks may stand between the parts, and the parts leave nodes. -/
  | loose
  /-- No blanks between the parts, and the parts leave nodes. -/
  | tight
  /-- No blanks between the parts, and the parts leave no nodes. -/
  | token
  deriving DecidableEq, Repr

/-- A parsing expression. -/
inductive Expr where
  /-- One character of a class. -/
  | char (accepts : Char → Bool)
  | word (text : List Char)
  | done
  /-- One after the other, with nothing between. -/
  | seq (first second : Expr)
  /-- The first that reads something. -/
  | alt (first second : Expr)
  | star (body : Expr)
  | opt (body : Expr)
  /-- Reads nothing, where the body would read something. -/
  | ahead (body : Expr)
  /-- Reads nothing, where the body would be refused. -/
  | unless (body : Expr)
  | rule (name : Rule) (kind : RuleKind) (body : Expr)

/-! ### Readings -/

/-- A place in a text: how many characters and lines are before it, and the rest. -/
structure Cursor where
  offset : Nat
  /-- Counted from one; a line feed ends a line. -/
  line : Nat
  rest : List Char
  deriving DecidableEq, Repr

def Cursor.start (text : List Char) : Cursor := ⟨0, 1, text⟩

def Cursor.next (c : Cursor) (x : Char) (rest : List Char) : Cursor :=
  ⟨c.offset + 1, if x = '\n' then c.line + 1 else c.line, rest⟩

/-- The place after a given beginning, if the text goes on with it. -/
def Cursor.after? (c : Cursor) : List Char → Option Cursor
  | [] => some c
  | x :: xs =>
    match c.rest with
    | [] => none
    | y :: rest => if x = y then (c.next y rest).after? xs else none

/-- The characters between a place and a later one. -/
def Cursor.upTo (start stop : Cursor) : List Char :=
  start.rest.take (stop.offset - start.offset)

/-- A part of a text that a rule has read: the rule, the line it starts on, the characters, and the
parts that the rules inside have read. -/
inductive Node where
  | mk (rule : Rule) (line : Nat) (text : String) (children : List Node)
  deriving Repr

namespace Node

def rule : Node → Rule
  | mk rule _ _ _ => rule

def line : Node → Nat
  | mk _ line _ _ => line

def text : Node → String
  | mk _ _ text _ => text

def children : Node → List Node
  | mk _ _ _ children => children

end Node

/-- What a reading leaves: the nodes, and the place after them. -/
abbrev Reading := List Node × Cursor

/-- Repeats a reader until it refuses, at most once more than there are characters in a text. -/
def iterate (read : Cursor → Option Reading) : List Char → Cursor → Reading
  | [], c => (read c).getD ([], c)
  | _ :: left, c =>
    match read c with
    | none => ([], c)
    | some (nodes, c) =>
      let (more, stop) := iterate read left c
      (nodes ++ more, stop)

/-- What an expression reads at a place. A repetition reads a character each time, so it is refused at
last after as many times as there are characters left. -/
def Expr.read : Expr → Cursor → Option Reading
  | .char accepts, c =>
    match c.rest with
    | [] => none
    | x :: rest => if accepts x then some ([], c.next x rest) else none
  | .word text, c => (c.after? text).map fun stop => ([], stop)
  | .done, c => if c.rest.isEmpty then some ([], c) else none
  | .seq first second, c =>
    match first.read c with
    | none => none
    | some (nodes, middle) =>
      match second.read middle with
      | none => none
      | some (more, stop) => some (nodes ++ more, stop)
  | .alt first second, c =>
    match first.read c with
    | none => second.read c
    | some reading => some reading
  | .star body, c => some (iterate (body.read ·) c.rest c)
  | .opt body, c => some ((body.read c).getD ([], c))
  | .ahead body, c =>
    match body.read c with
    | none => none
    | some _ => some ([], c)
  | .unless body, c =>
    match body.read c with
    | none => some ([], c)
    | some _ => none
  | .rule name kind body, c =>
    match body.read c with
    | none => none
    | some (nodes, stop) =>
      let inside := if kind = .token then [] else nodes
      some ([.mk name c.line (String.ofList (c.upTo stop)) inside], stop)

end Daybook.Grammar
