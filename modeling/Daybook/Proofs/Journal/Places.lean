import Daybook.Proofs.Grammar.Frames
import Daybook.Proofs.Grammar.Places
import Daybook.Proofs.Journal.Composition

/-!
# Where the parts of a journal stand

The text of a journal is its lines, one after the other. `lineAt?` finds the line that a character of the text is
on by counting characters, and reading finds it by counting line feeds; on single lines they agree
(`exists_lineAt?`). So the location that reading gives to a part is that of the line with its first character
(`Part.Found.isAt`), and the number of a line is never past the last one.
-/

namespace Daybook

open Grammar (Cursor Laid Node Part)

variable {lines : List Line}

/-! ### Characters on lines -/

/-- The line that a character of the text of lines is on. A line feed is on the line that it ends. -/
def Journal.lineAt? : List Line → Nat → Option Line
  | [], _ => none
  | l :: rest, offset =>
    if offset ≤ l.text.toList.length then some l else lineAt? rest (offset - (l.text.toList.length + 1))

/-- **The line of a character is the one with as many lines before it as there are line feeds.** -/
theorem exists_lineAt? (single : ∀ l ∈ lines, l.IsSingle) {before after : List Char}
    (cut : Journal.joined lines = before ++ after) (more : after ≠ []) :
    ∃ l, Journal.lineAt? lines before.length = some l ∧ lines[before.count '\n']? = some l := by
  induction lines generalizing before with
  | nil =>
    obtain ⟨_, rfl⟩ := List.append_eq_nil_iff.1 cut.symm
    exact absurd rfl more
  | cons l rest ih =>
    have inLine : '\n' ∉ l.text.toList := single l List.mem_cons_self
    have later := fun l' mem => single l' (List.mem_cons_of_mem l mem)
    rw [joined_cons] at cut
    rcases List.append_eq_append_iff.1 cut with ⟨passed, rfl, rests⟩ | ⟨left, text, _⟩
    · cases passed with
      | nil =>
        -- The character is the line feed after the line.
        refine ⟨l, ?_, ?_⟩
        · rw [Journal.lineAt?, List.append_nil, if_pos (Nat.le_refl _)]
        · rw [List.append_nil, List.count_eq_zero.2 inLine]
          rfl
      | cons feed passed =>
        obtain ⟨rfl, tails⟩ := List.cons.inj rests
        obtain ⟨l', isLine, isLine'⟩ := ih later tails
        have length : (l.text.toList ++ '\n' :: passed).length = passed.length + (l.text.toList.length + 1) := by
          rw [List.length_append, List.length_cons]
          omega
        have count : (l.text.toList ++ '\n' :: passed).count '\n' = passed.count '\n' + 1 := by
          rw [List.count_append, List.count_eq_zero.2 inLine, List.count_cons_self, Nat.zero_add]
        refine ⟨l', ?_, ?_⟩
        · rw [Journal.lineAt?, length, if_neg (by omega), Nat.add_sub_cancel]
          exact isLine
        · rw [count, List.getElem?_cons_succ]
          exact isLine'
    · have inBefore : '\n' ∉ before := by
        intro mem
        apply inLine
        rw [text]
        exact List.mem_append_left _ mem
      have short : before.length ≤ l.text.toList.length := by
        rw [text, List.length_append]
        exact Nat.le_add_right _ _
      refine ⟨l, ?_, ?_⟩
      · rw [Journal.lineAt?, if_pos short]
      · rw [List.count_eq_zero.2 inBefore]
        rfl

theorem locationOf_of_getElem? {l : Line} {index : Nat} (h : lines[index]? = some l) :
    locationOf lines.toArray (index + 1) = l.location := by
  obtain ⟨inside, -⟩ := List.getElem?_eq_some_iff.1 h
  have isLast : min (index + 1 - 1) (lines.toArray.size - 1) = index := by
    rw [List.size_toArray]
    omega
  rw [locationOf, isLast, List.getElem?_toArray, h]

/-! ### Parts of the text -/

/-- The location is that of the line with the first character of the part. -/
structure Grammar.Part.IsAt (lines : List Line) (p : Part) (location : Location) : Prop where
  some : p.text ≠ []
  stands : p.text <+: (Journal.joined lines).drop p.start.offset
  line : (Journal.lineAt? lines p.start.offset).map Line.location = .some location

/-- The part is one of the text of the lines. -/
structure Grammar.Part.Found (lines : List Line) (p : Part) : Prop where
  laid : ∃ before stop, (Cursor.start (Journal.joined lines)).Leads before p.start ∧
    p.start.Leads p.text stop ∧ Laid p.start p.parts stop
  isPart : p.node.IsPart

namespace Grammar.Part.Found

variable {p q : Part}

theorem of_mem (h : p.Found lines) (mem : q ∈ p.parts) : q.Found lines := by
  obtain ⟨before, stop, led, _, inside⟩ := h.laid
  obtain ⟨further, stop', led', spans, inside'⟩ := inside.of_mem mem
  refine ⟨⟨_, stop', led.trans led', spans, inside'⟩, h.isPart.of_mem ?_⟩
  rw [children_node]
  exact List.mem_map_of_mem mem

/-- **The location of a part is that of the line with its first character.** -/
theorem isAt (single : ∀ l ∈ lines, l.IsSingle) (h : p.Found lines) (filled : p.rule.mayBeEmpty = false) :
    p.IsAt lines (p.node.location lines.toArray) := by
  obtain ⟨before, stop, led, spans, _⟩ := h.laid
  have some : p.text ≠ [] := by
    have := h.isPart.text_ne_nil (by rwa [rule_node])
    rwa [text_node, String.toList_ofList] at this
  have cut : Journal.joined lines = before ++ (p.text ++ stop.rest) := by
    rw [← spans.rest]
    exact led.rest
  have offset : p.start.offset = before.length := led.offset.trans (Nat.zero_add _)
  have number : p.start.line = before.count '\n' + 1 := led.line.trans (Nat.add_comm _ _)
  obtain ⟨l, isLine, isLine'⟩ := exists_lineAt? single cut fun empty => some (List.append_eq_nil_iff.1 empty).1
  refine ⟨some, ?_, ?_⟩
  · rw [offset, cut, List.drop_left]
    exact List.prefix_append _ _
  · rw [offset, isLine, Option.map_some, Node.location, line_node, number, locationOf_of_getElem? isLine']

end Grammar.Part.Found

/-! ### The statements of a journal -/

namespace Journal

/-- The statements that lines hold, with their places. -/
def parts (lines : List Line) : List Part :=
  match Grammar.ledger.place (Cursor.start (joined lines)) with
  | some ([ledger], _) => ledger.parts.filter fun p => decide (p.rule ≠ .endOfInput)
  | _ => []

theorem exists_ledger_of_statements {nodes : List Node} (h : statements lines = .ok nodes) :
    ∃ ledger stop, Grammar.ledger.read (Cursor.start (joined lines)) = some ([ledger], stop) ∧
      nodes = ledger.children.filter fun n => decide (n.rule ≠ .endOfInput) := by
  unfold statements at h
  split at h
  · next ledger stop read => exact ⟨ledger, stop, read, (Except.ok.inj h).symm⟩
  · cases h

/-- **The parts of a journal are its statements.** -/
theorem map_node_parts {nodes : List Node} (h : statements lines = .ok nodes) :
    (parts lines).map Part.node = nodes := by
  obtain ⟨ledger, stop, read, rfl⟩ := exists_ledger_of_statements h
  obtain ⟨ps, placed, isLedger⟩ := Grammar.place_of_read read
  obtain ⟨p, rfl, rfl⟩ := List.map_eq_singleton_iff.1 isLedger
  unfold parts
  rw [placed, Part.children_node, List.filter_map]
  refine congrArg (List.map Part.node) (List.filter_congr fun q _ => ?_)
  rw [Function.comp_apply, Part.rule_node]

theorem found_of_mem_parts {p : Part} (mem : p ∈ parts lines) : p.Found lines := by
  unfold parts at mem
  split at mem
  · next ledger stop placed =>
    have isPart : ledger.node.IsPart :=
      Grammar.Expr.hasShape_of_read (fun _ known => known) (Grammar.read_of_place placed) ledger.node
        List.mem_cons_self
    have found : ledger.Found lines := ⟨(Grammar.laid_of_place placed).of_mem List.mem_cons_self, isPart⟩
    exact found.of_mem (List.mem_filter.1 mem).1
  · cases mem

end Journal

end Daybook
