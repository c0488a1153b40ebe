import Daybook.Grammar.Ledger
import Daybook.Proofs.Grammar.Reading

/-!
# Which parts a part has

The grammar says which parts stand in a part, before any text is read. The parts that an expression leaves side
by side fit its frame (`fits_of_read`), and every part of a reading, however deep, has one of the shapes that the
rules of the expression have (`hasShape_of_read`). So what the parts of a statement are is a matter of looking
at the grammar (`inside_of_hasShape`).
-/

namespace Daybook.Grammar

open Cursor (Leads)

/-! ### Frames -/

/-- The rules of parts side by side: those at the start, and those that any later part has one of. -/
structure Frame where
  first : List Rule
  more : List Rule
  deriving DecidableEq

namespace Frame

def rules (f : Frame) : List Rule := f.first ++ f.more

/-- Any number of parts with these rules. -/
def anyOf (rules : List Rule) : Frame := ⟨[], rules⟩

def none : Frame := anyOf []

/-- The frame of parts with parts after them. -/
def seq (f g : Frame) : Frame :=
  if f.more = [] then ⟨f.first ++ g.first, g.more⟩ else ⟨f.first, f.more ++ g.rules⟩

def Fits (f : Frame) (rules : List Rule) : Prop := ∃ rest, rules = f.first ++ rest ∧ ∀ r ∈ rest, r ∈ f.more

variable {f g : Frame} {rules before after : List Rule}

theorem Fits.mem (h : f.Fits rules) : ∀ r ∈ rules, r ∈ f.rules := by
  obtain ⟨rest, rfl, others⟩ := h
  intro r mem
  rcases List.mem_append.1 mem with mem | mem
  · exact List.mem_append_left _ mem
  · exact List.mem_append_right _ (others r mem)

theorem fits_anyOf {all : List Rule} (h : ∀ r ∈ rules, r ∈ all) : (anyOf all).Fits rules := ⟨rules, rfl, h⟩

theorem fits_none : none.Fits [] := fits_anyOf fun _ mem => mem

theorem Fits.seq (h : f.Fits before) (h' : g.Fits after) : (f.seq g).Fits (before ++ after) := by
  rw [Frame.seq]
  split
  · next last =>
    obtain ⟨rest, rfl, others⟩ := h
    obtain ⟨rest', rfl, others'⟩ := h'
    obtain rfl : rest = [] := by
      apply List.eq_nil_iff_forall_not_mem.2
      intro r mem
      have := others r mem
      rw [last] at this
      cases this
    exact ⟨rest', by rw [List.append_nil, List.append_assoc], others'⟩
  · next open' =>
    obtain ⟨rest, rfl, others⟩ := h
    refine ⟨rest ++ after, List.append_assoc .., fun r mem => ?_⟩
    rcases List.mem_append.1 mem with mem | mem
    · exact List.mem_append_left _ (others r mem)
    · exact List.mem_append_right _ (h'.mem r mem)

end Frame

/-! ### Shapes -/

/-- What the grammar says of a part by its rule. -/
structure Shape where
  rule : Rule
  /-- There is a character in the part at least. -/
  filled : Bool
  /-- The parts inside. -/
  inside : Frame
  deriving DecidableEq

/-- The part has one of the shapes, and so does every part inside it. -/
inductive Node.HasShape (shapes : List Shape) : Node → Prop where
  | mk {rule : Rule} {line : Nat} {text : String} {children : List Node} (filled : Bool) (inside : Frame)
      (mem : ⟨rule, filled, inside⟩ ∈ shapes) (some : filled = true → text.toList ≠ [])
      (fits : inside.Fits (children.map Node.rule)) (each : ∀ n ∈ children, n.HasShape shapes) :
      (Node.mk rule line text children).HasShape shapes

namespace Expr

/-- The frame of the parts that an expression leaves. -/
def frame : Expr → Frame
  | char _ | word _ | done | ahead _ | «unless» _ => .none
  | seq first second => first.frame.seq second.frame
  | alt first second => .anyOf (first.frame.rules ++ second.frame.rules)
  | star body | opt body => .anyOf body.frame.rules
  | rule name _ _ => ⟨[name], []⟩

/-- The shapes of the parts that an expression leaves, and of the parts inside them. -/
def shapes : Expr → List Shape
  | char _ | word _ | done | ahead _ | «unless» _ => []
  | seq first second | alt first second => first.shapes ++ second.shapes
  | star body | opt body => body.shapes
  | rule name kind body => ⟨name, body.consumes, if kind = .token then .none else body.frame⟩ :: body.shapes

variable {e body : Expr} {c stop : Cursor} {nodes : List Node} {shapes : List Shape}

/-! ### What readings leave -/

/-- What holds of the nodes of each round holds of those of a repetition. -/
theorem forall_of_iterate {P : Node → Prop} {read : Cursor → Option Reading}
    (each : ∀ c nodes stop, read c = some (nodes, stop) → ∀ n ∈ nodes, P n) (left : List Char) (c : Cursor) :
    ∀ n ∈ (iterate read left c).1, P n := by
  induction left generalizing c with
  | nil =>
    rw [iterate]
    cases taken : read c with
    | none =>
      intro n mem
      cases mem
    | some reading => exact each c _ _ taken
  | cons _ left ih =>
    rw [iterate]
    split
    · intro n mem
      cases mem
    · next nodes m taken =>
      intro n mem
      rcases List.mem_append.1 mem with mem | mem
      · exact each c nodes m taken n mem
      · exact ih m n mem

/-- **The parts that a reading leaves fit the frame of the expression.** -/
theorem fits_of_read (h : e.read c = some (nodes, stop)) : e.frame.Fits (nodes.map Node.rule) := by
  induction e generalizing c nodes stop with
  | char accepts =>
    obtain ⟨_, _, _, _, rfl, _⟩ := read_char_eq_some_iff.1 h
    exact Frame.fits_none
  | word text =>
    obtain ⟨_, rfl⟩ := read_word_eq_some_iff.1 h
    exact Frame.fits_none
  | done =>
    obtain ⟨_, rfl, _⟩ := read_done_eq_some_iff.1 h
    exact Frame.fits_none
  | seq first second ih ih' =>
    obtain ⟨before, m, after, begun, later, rfl⟩ := read_seq_eq_some_iff.1 h
    rw [List.map_append]
    exact (ih begun).seq (ih' later)
  | alt first second ih ih' =>
    apply Frame.fits_anyOf
    intro r mem
    rcases read_alt_eq_some_iff.1 h with taken | ⟨_, taken⟩
    · exact List.mem_append_left _ ((ih taken).mem r mem)
    · exact List.mem_append_right _ ((ih' taken).mem r mem)
  | star body ih =>
    have each (c nodes stop) (taken : body.read c = some (nodes, stop)) :
        ∀ n ∈ nodes, n.rule ∈ body.frame.rules :=
      fun n mem => (ih taken).mem n.rule (List.mem_map_of_mem mem)
    obtain rfl : nodes = (body.readAll c).1 := congrArg Prod.fst (Option.some.inj h).symm
    apply Frame.fits_anyOf
    intro r mem
    obtain ⟨n, inRound, rfl⟩ := List.mem_map.1 mem
    exact forall_of_iterate each c.rest c n inRound
  | opt body ih =>
    apply Frame.fits_anyOf
    rcases read_opt_eq_some_iff.1 h with taken | ⟨_, same⟩
    · exact (ih taken).mem
    · cases same
      exact nofun
  | ahead body =>
    obtain ⟨_, rfl, _⟩ := read_ahead_eq_some_iff.1 h
    exact Frame.fits_none
  | «unless» body =>
    obtain ⟨_, rfl, _⟩ := read_unless_eq_some_iff.1 h
    exact Frame.fits_none
  | rule name kind body =>
    obtain ⟨_, _, rfl⟩ := read_rule_eq_some_iff.1 h
    exact ⟨[], rfl, nofun⟩

/-- What is read has a character at least, where the expression reads one. -/
theorem upTo_ne_nil_of_consumes (h : e.consumes = true) (taken : e.read c = some (nodes, stop)) :
    c.upTo stop ≠ [] := by
  obtain ⟨passed, led⟩ := leads_of_read taken
  rw [led.upTo]
  rintro rfl
  have := length_lt_of_consumes h taken
  have := led.length
  simp at this
  omega

/-- **Every part of a reading has one of the shapes of the expression.** -/
theorem hasShape_of_read (known : e.shapes ⊆ shapes) (h : e.read c = some (nodes, stop)) :
    ∀ n ∈ nodes, n.HasShape shapes := by
  induction e generalizing c nodes stop with
  | char accepts =>
    obtain ⟨_, _, _, _, rfl, _⟩ := read_char_eq_some_iff.1 h
    exact nofun
  | word text =>
    obtain ⟨_, rfl⟩ := read_word_eq_some_iff.1 h
    exact nofun
  | done =>
    obtain ⟨_, rfl, _⟩ := read_done_eq_some_iff.1 h
    exact nofun
  | seq first second ih ih' =>
    obtain ⟨before, m, after, begun, later, rfl⟩ := read_seq_eq_some_iff.1 h
    obtain ⟨known, known'⟩ := List.append_subset.1 known
    intro n mem
    rcases List.mem_append.1 mem with mem | mem
    · exact ih known begun n mem
    · exact ih' known' later n mem
  | alt first second ih ih' =>
    obtain ⟨known, known'⟩ := List.append_subset.1 known
    rcases read_alt_eq_some_iff.1 h with taken | ⟨_, taken⟩
    · exact ih known taken
    · exact ih' known' taken
  | star body ih =>
    obtain rfl : nodes = (body.readAll c).1 := congrArg Prod.fst (Option.some.inj h).symm
    exact forall_of_iterate (fun _ _ _ taken => ih known taken) c.rest c
  | opt body ih =>
    rcases read_opt_eq_some_iff.1 h with taken | ⟨_, same⟩
    · exact ih known taken
    · cases same
      exact nofun
  | ahead body =>
    obtain ⟨_, rfl, _⟩ := read_ahead_eq_some_iff.1 h
    exact nofun
  | «unless» body =>
    obtain ⟨_, rfl, _⟩ := read_unless_eq_some_iff.1 h
    exact nofun
  | rule name kind body ih =>
    obtain ⟨inside, taken, rfl⟩ := read_rule_eq_some_iff.1 h
    obtain ⟨here, known⟩ := List.cons_subset.1 known
    intro n mem
    obtain rfl := List.mem_singleton.1 mem
    refine .mk _ _ here (fun consumes => ?_) ?_ ?_
    · rw [String.toList_ofList]
      exact upTo_ne_nil_of_consumes consumes taken
    · split
      · exact Frame.fits_none
      · exact fits_of_read taken
    · split
      · exact nofun
      · exact ih known taken

end Expr

/-! ### The parts of a ledger -/

/-- The part has one of the shapes of the language. -/
def Node.IsPart (n : Node) : Prop := n.HasShape ledger.shapes

/-- The language has these parts inside every part with the rule. -/
def Rule.Holds (r : Rule) (inside : Frame) : Prop :=
  ∀ s ∈ Grammar.ledger.shapes, s.rule = r → s.inside.first = inside.first ∧ ∀ r' ∈ s.inside.more, r' ∈ inside.more

instance (r : Rule) (inside : Frame) : Decidable (r.Holds inside) :=
  inferInstanceAs (Decidable (∀ s ∈ Grammar.ledger.shapes, _))

/-- The rules whose parts may be without any character. -/
def Rule.mayBeEmpty (r : Rule) : Bool := decide (r ∈ [.legs, .endOfInput, .ledger])

theorem filled_of_mem_shapes : ∀ s ∈ ledger.shapes, s.filled = true ∨ s.rule.mayBeEmpty = true := by
  decide +kernel

variable {n : Node} {inside : Frame}

namespace Node.IsPart

theorem of_mem (h : n.IsPart) {m : Node} (mem : m ∈ n.children) : m.IsPart := by
  obtain ⟨_, _, _, _, _, each⟩ := h
  exact each m mem

theorem text_ne_nil (h : n.IsPart) (filled : n.rule.mayBeEmpty = false) : n.text.toList ≠ [] := by
  obtain ⟨_, _, mem, some, _, _⟩ := h
  rcases filled_of_mem_shapes _ mem with isFilled | isEmpty
  · exact some isFilled
  · cases isEmpty.symm.trans filled

/-- **What the language has inside a rule, a part with that rule has inside it.** -/
theorem fits (h : n.IsPart) (holds : n.rule.Holds inside) : inside.Fits (n.children.map Node.rule) := by
  obtain ⟨_, inside', mem, _, ⟨rest, rules, others⟩, _⟩ := h
  obtain ⟨first, more⟩ := holds _ mem rfl
  exact ⟨rest, first ▸ rules, fun r mem => more r (others r mem)⟩

end Node.IsPart

/-- The keywords that a block of legs stands under. -/
def Rule.hasLegs (r : Rule) : Bool :=
  decide (r ∈ [.expenseStatement, .revenueStatement, .transferStatement])

theorem mayBeEmpty_of_hasLegs {r : Rule} (h : r.hasLegs = true) : r.mayBeEmpty = false := by
  cases r <;> first | rfl | cases h

theorem holds_of_hasLegs {r : Rule} (h : r.hasLegs = true) : r.Holds ⟨[.timestamp, .legs], [.withBlock]⟩ := by
  have all : ∀ r ∈ [Rule.expenseStatement, .revenueStatement, .transferStatement],
      r.Holds ⟨[.timestamp, .legs], [.withBlock]⟩ := by decide +kernel
  exact all r (of_decide_eq_true h)

theorem holds_dividendStatement :
    Rule.dividendStatement.Holds ⟨[.timestamp, .dividendSource, .ownedLeg], [.withBlock]⟩ := by decide +kernel

theorem holds_balanceStatement : Rule.balanceStatement.Holds ⟨[.timestamp], [.balanceEntry]⟩ := by
  decide +kernel

end Daybook.Grammar
