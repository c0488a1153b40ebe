import Daybook.Proofs.Journal.Cut

/-!
# The lines of a statement that may have tags

A statement that may have tags is laid out in lines: those of its front, maybe a line `with` and tag lines,
and a line `end` (`exists_layout`). With more tag lines after its own, it is the same statement with more
tags (`statements_giving`).
-/

namespace Daybook

open Grammar Grammar.Expr

/-! ### Editing lines -/

namespace Journal

/-- The tag lines of a statement: those between its lines `with` and `end`. -/
def tagLines (s : List Line) : List Line := ((s.dropWhile fun l => l.text != "with").drop 1).dropLast

/-- The lines of a statement with more tag lines at the end of its `with` part. If there is none, there is
now, where the `end` is. -/
def giving (more s : List Line) : List Line :=
  match more, s.getLast? with
  | _ :: _, some last =>
    let keyword := if s.any (·.text == "with") then [] else [⟨"with", last.location⟩]
    s.dropLast ++ (keyword ++ more) ++ [last]
  | _, _ => s

end Journal

/-- The lines of a statement that may have tags. -/
structure Layout where
  head : List Line
  /-- The line `with` and the tag lines. -/
  own : Option (Line × List Line)
  last : Line

namespace Layout

def tags (t : Layout) : List Line := (t.own.map Prod.snd).getD []

/-- The `with` part. -/
def ownLines (t : Layout) : List Line :=
  match t.own with
  | none => []
  | some (keyword, tags) => keyword :: tags

def lines (t : Layout) : List Line := t.head ++ t.ownLines ++ [t.last]

/-- The keyword lines are where they belong. -/
structure IsProper (t : Layout) : Prop where
  head : ∀ l ∈ t.head, l.text ≠ "with"
  keyword : ∀ p ∈ t.own, p.1.text = "with"
  last : t.last.text = "end"

/-- The layout with more tag lines. -/
def giving (more : List Line) (t : Layout) : Layout :=
  { t with own := some ((t.own.map Prod.fst).getD ⟨"with", t.last.location⟩, t.tags ++ more) }

variable {t : Layout} {more : List Line}

theorem IsProper.giving (proper : t.IsProper) (more : List Line) : (t.giving more).IsProper where
  head := proper.head
  keyword := by
    rintro _ ⟨⟩
    cases own : t.own with
    | none => rfl
    | some p => exact proper.keyword p own
  last := proper.last

end Layout

/-! ### What is read -/

/-- The parts that a text of tags makes up: one, or none if there is no text. -/
inductive TagPart : List Char → List Node → Prop where
  | none : TagPart [] []
  | some {text : List Char} {w : Node} (isTags : w.rule = .withBlock)
      (alike : List.Forall₂ Node.Same (tagNodes text) w.children) : TagPart text [w]

variable {s ls more : List Line} {f : Form} {fn nodes : List Node} {n : Node} {t : Layout} {c m stop : Cursor}
  {tags : Tags}

theorem TagPart.rule {text : List Char} {wn : List Node} (part : TagPart text wn) :
    ∀ {w : Node}, w ∈ wn → w.rule = .withBlock := by
  intro w mem
  cases part with
  | none => cases mem
  | some isTags =>
    obtain rfl := List.mem_singleton.1 mem
    exact isTags

namespace Layout

/-- The lines are read as a statement with these parts in front. -/
structure Reads (t : Layout) (f : Form) (fn : List Node) (n : Node) : Prop where
  heads : f.Heads (Journal.joined t.head) fn
  isTags : IsTags (Journal.joined t.tags)
  node : ∃ text wn, TagPart (Journal.joined t.tags) wn ∧
    n = .mk f.rule (Cursor.start (Journal.joined t.head)).afterGap.line text (fn ++ wn)

end Layout

end Daybook
