import Daybook.Grammar.Peg

/-!
# What was expected where

When a text is refused, the refusal names the rules that were tried in vain at the farthest place where
any was (and those that were found where they must not be). `Expr.attempt` reads as `Expr.read` does and
keeps these rules as it goes.

A rule stands for the rules tried inside it at the same place, unless it was a single one: then that one
is the better name for what was missing. Inside tokens nothing is kept.
-/

namespace Daybook.Grammar

/-- The rules tried at the farthest place so far. -/
structure Attempts where
  place : Cursor
  /-- Rules that were refused there. -/
  missing : List Rule
  /-- Rules that were read there and must not be. -/
  unwanted : List Rule
  deriving Repr

namespace Attempts

def start (text : List Char) : Attempts := ⟨Cursor.start text, [], []⟩

def countAt (a : Attempts) (c : Cursor) : Nat :=
  if a.place.offset = c.offset then a.missing.length + a.unwanted.length else 0

end Attempts

/-- Whether a reading is part of a look ahead, and if what it reads is wanted there. -/
inductive Look where
  | none
  | wanted
  | unwanted
  deriving DecidableEq, Repr

def Look.negated : Look → Look
  | .unwanted => .wanted
  | .none | .wanted => .unwanted

def Look.affirmed : Look → Look
  | .unwanted => .unwanted
  | .none | .wanted => .wanted

/-- Keeps a rule that was tried at a place. `before` is what was kept when it was first tried: the
counts of missing and unwanted rules at that place. -/
def Attempts.keep (a : Attempts) (rule : Rule) (c : Cursor) (look : Look) (before : Nat × Nat) :
    Attempts :=
  if a.countAt c = before.1 + before.2 + 1 then
    a
  else
    let a : Attempts :=
      if c.offset = a.place.offset then
        { a with missing := a.missing.take before.1, unwanted := a.unwanted.take before.2 }
      else if a.place.offset < c.offset then
        ⟨c, [], []⟩
      else
        a
    if c.offset = a.place.offset then
      if look = .unwanted then
        { a with unwanted := a.unwanted ++ [rule] }
      else
        { a with missing := a.missing ++ [rule] }
    else
      a

/-- What an attempt leaves: the place after it unless it was refused, and the rules tried so far. -/
abbrev Attempt := Option Cursor × Attempts

/-- Repeats an attempt until it is refused, at most once more than there are characters in a text. -/
def iterateAttempt (attempt : Cursor → Attempts → Attempt) :
    List Char → Cursor → Attempts → Cursor × Attempts
  | [], c, a =>
    match attempt c a with
    | (none, a) => (c, a)
    | (some c, a) => (c, a)
  | _ :: left, c, a =>
    match attempt c a with
    | (none, a) => (c, a)
    | (some c, a) => iterateAttempt attempt left c a

/-- Reads an expression at a place and keeps the rules tried. `inToken` says that the expression is
part of a token. -/
def Expr.attempt : Expr → Look → Bool → Cursor → Attempts → Attempt
  | .char accepts, _, _, c, a => ((Expr.char accepts).read c |>.map (·.2), a)
  | .word text, _, _, c, a => (c.after? text, a)
  | .done, _, _, c, a => (if c.rest.isEmpty then some c else none, a)
  | .seq first second, look, inToken, c, a =>
    match first.attempt look inToken c a with
    | (none, a) => (none, a)
    | (some c, a) => second.attempt look inToken c a
  | .alt first second, look, inToken, c, a =>
    match first.attempt look inToken c a with
    | (none, a) => second.attempt look inToken c a
    | (some c, a) => (some c, a)
  | .star body, look, inToken, c, a =>
    let (c, a) := iterateAttempt (body.attempt look inToken · ·) c.rest c a
    (some c, a)
  | .opt body, look, inToken, c, a =>
    match body.attempt look inToken c a with
    | (none, a) => (some c, a)
    | (some c, a) => (some c, a)
  | .ahead body, look, inToken, c, a =>
    match body.attempt look.affirmed inToken c a with
    | (none, a) => (none, a)
    | (some _, a) => (some c, a)
  | .unless body, look, inToken, c, a =>
    match body.attempt look.negated inToken c a with
    | (none, a) => (some c, a)
    | (some _, a) => (none, a)
  | .rule name kind body, look, inToken, c, a =>
    let before := if a.place.offset = c.offset then (a.missing.length, a.unwanted.length) else (0, 0)
    match body.attempt look (inToken || kind == .token) c a with
    | (none, a) => (none, if inToken || look = .unwanted then a else a.keep name c look before)
    | (some stop, a) =>
      (some stop, if !inToken && look = .unwanted then a.keep name c look before else a)

/-! ### Refusals -/

/-- Why a text is refused: the rules tried in vain on a line, sorted, each once. -/
structure Refusal where
  line : Nat
  missing : List Rule
  unwanted : List Rule
  deriving DecidableEq, Repr

/-- The rules of a list in their order, each once. -/
def inOrder (rules : List Rule) : List Rule :=
  (rules.mergeSort fun a b => a.rank ≤ b.rank).eraseReps

def Expr.refusal (e : Expr) (text : List Char) : Refusal :=
  let (_, a) := e.attempt .none false (Cursor.start text) (Attempts.start text)
  ⟨a.place.line, inOrder a.missing, inOrder a.unwanted⟩

/-- A list in words: `a`, `a or b`, `a, b, or c`. -/
def alternatives : List String → String
  | [] => ""
  | [a] => a
  | [a, b] => a ++ " or " ++ b
  | names => ", ".intercalate names.dropLast ++ ", or " ++ names.getLastD ""

def Refusal.message (r : Refusal) : String :=
  let expected := "expected " ++ alternatives (r.missing.map Rule.name)
  let unexpected := "unexpected " ++ alternatives (r.unwanted.map Rule.name)
  match r.missing, r.unwanted with
  | [], [] => "unknown parsing error"
  | _, [] => expected
  | [], _ => unexpected
  | _, _ => unexpected ++ "; " ++ expected

end Daybook.Grammar
