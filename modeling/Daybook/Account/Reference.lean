import Daybook.Text.Blank

/-!
# Account references

An account is known by its kind and its name within that kind, written `<kind>/<name>`.
-/

namespace Daybook

/-- What an account holds. Asset and liability accounts hold cash only, equity accounts also shares. -/
inductive AccountKind where
  | asset
  | liability
  | equity
  deriving DecidableEq, Repr

namespace AccountKind

def text : AccountKind → String
  | asset => "asset"
  | liability => "liability"
  | equity => "equity"

def ofText? : String → Option AccountKind
  | "asset" => some asset
  | "liability" => some liability
  | "equity" => some equity
  | _ => none

def isCash : AccountKind → Bool
  | equity => false
  | asset | liability => true

end AccountKind

/-- The kind of an account, and its name within that kind. -/
structure AccountRef where
  kind : AccountKind
  name : String
  deriving DecidableEq, Repr

namespace AccountRef

def text (a : AccountRef) : String := a.kind.text ++ "/" ++ a.name

/-- What keeps a text from being an account. -/
inductive ReadError where
  | noAccount (text : String)
  | noKind (text : String)
  deriving DecidableEq, Repr

def ReadError.message : ReadError → String
  | .noAccount text => "input `" ++ text ++ "' is not a valid account"
  | .noKind text => "input `" ++ text ++ "' is not a valid account kind"

def sides? (text : String) : Option (String × String) :=
  (Text.splitFirst? (· == '/') text.toList).map fun (a, b) => (String.ofList a, String.ofList b)

/-- Whether a text names a tracked account: it starts with a kind and a slash. -/
def isOwned (text : String) : Bool :=
  match sides? text with
  | some (kind, _) => (AccountKind.ofText? kind).isSome
  | none => false

/-- Reads an account. A missing name is told before an unknown kind. -/
def read (text : String) : Except ReadError AccountRef :=
  match sides? text with
  | none => .error (.noAccount text)
  | some (kind, name) =>
    if name.isEmpty then
      .error (.noAccount text)
    else
      match AccountKind.ofText? kind with
      | some kind => .ok ⟨kind, name⟩
      | none => .error (.noKind kind)

end AccountRef

end Daybook
