import Daybook.Proofs.Grammar.Tokens

/-!
# Lines of legs

What the block of legs makes of one line. A line that spells an account with an amount (`SpellsLeg`) is read as
such a leg, and every other line that is not a keyword is read as a label, whole (`exists_leg_of_read`). Legs do
not read line breaks (`inLine_leg`), so each leg ends on the line that it starts on, and every line in the block
that has no carriage return is one leg (`exists_leg_of_readAll`).
-/

namespace Daybook.Grammar

open Daybook.Grammar.Expr
open Cursor (Leads)

variable {c m stop : Cursor} {text blanks rest more : List Char} {e body : Expr} {nodes : List Node} {n : Node}

/-! ### Reading within a line -/

namespace Expr

/-- The expression reads no line break. -/
def inLine : Expr → Bool
  | char accepts => !accepts '\n' && !accepts '\r'
  | word text => text.all isInLine
  | done | ahead _ | «unless» _ => true
  | seq first second | alt first second => first.inLine && second.inLine
  | star body | opt body => body.inLine
  | rule _ _ body => body.inLine

theorem exists_inLine_of_iterate {read : Cursor → Option Reading}
    (each : ∀ c nodes stop, read c = some (nodes, stop) →
      ∃ passed, c.Leads passed stop ∧ ∀ x ∈ passed, isInLine x = true)
    (left : List Char) (c : Cursor) :
    ∃ passed, c.Leads passed (iterate read left c).2 ∧ ∀ x ∈ passed, isInLine x = true := by
  induction left generalizing c with
  | nil =>
    rw [iterate]
    cases taken : read c with
    | none => exact ⟨[], .refl c, List.forall_mem_nil _⟩
    | some reading => exact each c _ _ taken
  | cons _ left ih =>
    rw [iterate]
    split
    · exact ⟨[], .refl c, List.forall_mem_nil _⟩
    · next nodes m taken =>
      obtain ⟨passed, first, all⟩ := each c nodes m taken
      obtain ⟨further, second, all'⟩ := ih m
      exact ⟨passed ++ further, first.trans second, List.forall_mem_append.2 ⟨all, all'⟩⟩

/-- **What reads no line break stays on its line.** -/
theorem exists_inLine_of_read (h : e.inLine = true) (taken : e.read c = some (nodes, stop)) :
    ∃ passed, c.Leads passed stop ∧ ∀ x ∈ passed, isInLine x = true := by
  induction e generalizing c nodes stop with
  | char accepts =>
    obtain ⟨x, rest, isRest, accepted, _, rfl⟩ := read_char_eq_some_iff.1 taken
    refine ⟨[x], Cursor.leads_next isRest, ?_⟩
    simp only [inLine, Bool.and_eq_true, Bool.not_eq_true'] at h
    intro y mem
    obtain rfl := List.mem_singleton.1 mem
    have noFeed : y ≠ '\n' := by
      rintro rfl
      rw [h.1] at accepted
      cases accepted
    have noReturn : y ≠ '\r' := by
      rintro rfl
      rw [h.2] at accepted
      cases accepted
    simp [isInLine, noFeed, noReturn]
  | word text =>
    exact ⟨text, Cursor.leads_of_after? (read_word_eq_some_iff.1 taken).1, List.all_eq_true.1 h⟩
  | done =>
    obtain ⟨_, _, rfl⟩ := read_done_eq_some_iff.1 taken
    exact ⟨[], .refl _, List.forall_mem_nil _⟩
  | seq first second ih ih' =>
    rw [inLine, Bool.and_eq_true] at h
    obtain ⟨_, m, _, begun, later, _⟩ := read_seq_eq_some_iff.1 taken
    obtain ⟨passed, led, all⟩ := ih h.1 begun
    obtain ⟨further, led', all'⟩ := ih' h.2 later
    exact ⟨passed ++ further, led.trans led', List.forall_mem_append.2 ⟨all, all'⟩⟩
  | alt first second ih ih' =>
    rw [inLine, Bool.and_eq_true] at h
    rcases read_alt_eq_some_iff.1 taken with taken | ⟨_, taken⟩
    · exact ih h.1 taken
    · exact ih' h.2 taken
  | star body ih =>
    have all := exists_inLine_of_iterate (fun _ _ _ taken => ih h taken) c.rest c
    rw [Option.some.inj taken] at all
    exact all
  | opt body ih =>
    rcases read_opt_eq_some_iff.1 taken with taken | ⟨_, same⟩
    · exact ih h taken
    · cases same
      exact ⟨[], .refl c, List.forall_mem_nil _⟩
  | ahead body =>
    obtain ⟨_, _, rfl⟩ := read_ahead_eq_some_iff.1 taken
    exact ⟨[], .refl _, List.forall_mem_nil _⟩
  | «unless» body =>
    obtain ⟨_, _, rfl⟩ := read_unless_eq_some_iff.1 taken
    exact ⟨[], .refl _, List.forall_mem_nil _⟩
  | rule name kind body ih =>
    obtain ⟨inside, taken, _⟩ := read_rule_eq_some_iff.1 taken
    exact ih h taken

end Expr

theorem inLine_leg : leg.inLine = true := by decide

theorem inLine_ownedLeg : ownedLeg.inLine = true := by decide

/-- The first line break of a text is the end of its first line. -/
theorem eq_of_append_break {line before more more' : List Char} {x : Char} (inLine : ∀ y ∈ line, isInLine y = true)
    (inLine' : ∀ y ∈ before, isInLine y = true) (isBreak : isInLine x = false)
    (same : before ++ x :: more = line ++ '\n' :: more') : before = line ∧ x = '\n' ∧ more = more' := by
  induction line generalizing before with
  | nil =>
    cases before with
    | nil =>
      cases same
      exact ⟨rfl, rfl, rfl⟩
    | cons y before =>
      cases same
      cases inLine' '\n' List.mem_cons_self
  | cons y line ih =>
    cases before with
    | nil =>
      cases same
      rw [inLine x List.mem_cons_self] at isBreak
      cases isBreak
    | cons z before =>
      simp only [List.cons_append, List.cons.injEq] at same
      obtain ⟨rfl, same⟩ := same
      obtain ⟨rfl, feed, rfl⟩ := ih (List.forall_mem_cons.1 inLine).2 (List.forall_mem_cons.1 inLine').2 same
      exact ⟨rfl, feed, rfl⟩

theorem exists_of_read_newline (taken : newline.read c = some (nodes, stop)) :
    nodes = [] ∧ ∃ feed, c.Leads feed stop ∧ (feed = ['\n'] ∨ feed = ['\r', '\n'] ∨ feed = ['\r']) := by
  obtain ⟨e, mem, taken⟩ := exists_of_read_oneOf taken
  have mem : e ∈ [['\n'], ['\r', '\n'], ['\r']].map Expr.word := mem
  obtain ⟨feed, mem, rfl⟩ := List.mem_map.1 mem
  obtain ⟨after, rfl⟩ := read_word_eq_some_iff.1 taken
  exact ⟨rfl, feed, Cursor.leads_of_after? after, by simpa using mem⟩

theorem read_newline (isRest : c.rest = '\n' :: more) : newline.read c = some ([], c.next '\n' more) := by
  have led : c.Leads ['\n'] (c.next '\n' more) := Cursor.leads_next isRest
  exact read_alt_eq_some_iff.2 (.inl (read_word led))

/-! ### Accounts with amounts -/

/-- The text is `<kind>/<name> <number> <code>`, with gaps between. A name goes on as long as there are
characters of names. -/
structure SpellsLeg (kind name number code text : List Char) : Prop where
  parts : ∃ blanks blanks', text = (kind ++ '/' :: name) ++ (blanks ++ (number ++ (blanks' ++ code))) ∧
    (∀ x ∈ blanks, isGap x = true) ∧ (∀ x ∈ blanks', isGap x = true) ∧ EndsAt isNameChar (blanks ++ number)
  kind : kind ∈ kindWords
  name : IsRun isNameChar name
  number : IsNumber number
  code : IsRun isUpper code

/-- The part of a leg on an account. -/
structure IsOwnedLeg (kind name number code : List Char) (n : Node) : Prop where
  rule : n.rule = .ownedLeg
  children : ∃ account money, n.children = [account, money] ∧ IsOwned kind name account ∧ IsAmount number code money

variable {kind name number code : List Char}

/-- **A leg on an account is read of what spells it**, if the code ends there. -/
theorem read_ownedLeg (led : c.Leads text stop) (spells : SpellsLeg kind name number code text)
    (ends : EndsAt isUpper stop.rest) :
    ∃ n, ownedLeg.read c = some ([n], stop) ∧ IsOwnedLeg kind name number code n := by
  obtain ⟨blanks, blanks', rfl, all, all', nameEnds⟩ := spells.parts
  obtain ⟨m, toName, later⟩ := led.split
  obtain ⟨k, toNumber, toStop⟩ := later.split
  have filled : blanks ++ number ≠ [] := List.append_ne_nil_of_right_ne_nil _ spells.number.ne_nil
  have nameEnds' : EndsAt isNameChar m.rest := by
    rw [later.rest, List.append_assoc, List.append_assoc, ← List.append_assoc]
    exact nameEnds.append filled _
  have gapEnds : EndsAt isGap k.rest := by
    rw [toStop.rest, List.append_assoc]
    exact spells.number.endsAt spells.number.noGap _
  obtain ⟨account, isAccount, owner⟩ := read_owned toName spells.kind spells.name nameEnds'
  obtain ⟨money, isMoney, value⟩ := read_amount toStop spells.number all' spells.code ends
  have parts : (loose [owned, amount]).read c = some ([account, money], stop) := by
    refine read_seq_eq_some_iff.2 ⟨_, m, _, isAccount, ?_, rfl⟩
    rw [read_seq_gap, afterGap_of_leads toNumber all gapEnds]
    exact isMoney
  exact ⟨_, read_rule_eq_some_iff.2 ⟨_, parts, rfl⟩, rfl, account, money, rfl, owner, value⟩

/-- **Only what spells a leg on an account is read as one.** -/
theorem exists_of_read_ownedLeg (taken : ownedLeg.read c = some (nodes, stop)) :
    ∃ kind name number code text n, c.Leads text stop ∧ SpellsLeg kind name number code text ∧ nodes = [n] ∧
      n.line = c.line ∧ IsOwnedLeg kind name number code n := by
  obtain ⟨_, parts, rfl⟩ := read_rule_eq_some_iff.1 taken
  obtain ⟨_, m, _, begun, later, rfl⟩ := read_seq_eq_some_iff.1 parts
  rw [read_seq_gap] at later
  obtain ⟨kind, name, account, toName, isKind, isName, nameEnds, rfl, owner⟩ := exists_of_read_owned begun
  obtain ⟨blanks, toNumber, all, _⟩ := exists_leads_afterGap m
  obtain ⟨number, blanks', code, money, toStop, isNumber, all', isCode, rfl, value⟩ := exists_of_read_amount later
  have led := toName.trans (toNumber.trans toStop)
  have ends : EndsAt isNameChar (blanks ++ number) := by
    intro x head
    apply nameEnds
    rw [(toNumber.trans toStop).rest, List.append_assoc, List.append_assoc, ← List.append_assoc, List.head?_append,
      head]
    rfl
  exact ⟨kind, name, number, code, _, _, led, ⟨⟨blanks, blanks', rfl, all, all', ends⟩, isKind, isName, isNumber,
    isCode⟩, rfl, rfl, rfl, account, money, rfl, owner, value⟩

/-! ### One line -/

/-- A line of a block and the line break after it, with the gap before it. -/
def lineItem (line : Expr) : Expr := .seq gap (loose [line, newline])

def legItem : Expr := lineItem leg

theorem consumes_legItem : legItem.consumes = true := rfl

/-- A line as the loader leaves it: without a line break in it, and without a gap at either end. -/
structure IsPlainText (text : List Char) : Prop where
  inLine : ∀ x ∈ text, isInLine x = true
  starts : EndsAt isGap text
  ends : ∀ x ∈ text.getLast?, isGap x = false

/-- The part of the leg that a line is: on an account, if the line spells that, or else a label. -/
inductive IsLegOf (text : List Char) (n : Node) : Prop
  | owned {kind name number code : List Char} (spells : SpellsLeg kind name number code text)
      (isLeg : IsOwnedLeg kind name number code n)
  | label (other : ∀ kind name number code, ¬ SpellsLeg kind name number code text)
      (rule : n.rule = .externalLeg) (text_eq : n.text = String.ofList text)

theorem IsPlainText.eq_nil_of_blanks (plain : IsPlainText (text ++ blanks)) (all : ∀ x ∈ blanks, isGap x = true) :
    blanks = [] := by
  refine Classical.byContradiction fun left => ?_
  obtain ⟨x, last⟩ := Option.isSome_iff_exists.1 (List.getLast?_isSome.2 left)
  have ends := plain.ends x (by rw [List.getLast?_append, last]; rfl)
  rw [all x (List.mem_of_getLast? last)] at ends
  cases ends

theorem IsPlainText.afterGap_eq (plain : IsPlainText text) (isRest : c.rest = text ++ '\n' :: more) :
    c.afterGap = c := by
  apply afterGap_of_endsAt
  rw [isRest]
  cases text with
  | nil =>
    rintro _ ⟨⟩
    rfl
  | cons y ys => exact plain.starts.append (List.cons_ne_nil _ _) _

/-- What is read at the start of a plain line, up to a line break, is the line. -/
theorem IsPlainText.eq_of_read (plain : IsPlainText text) (isRest : c.rest = text ++ '\n' :: more)
    {passed : List Char} (led : c.Leads passed m) (inLine : ∀ x ∈ passed, isInLine x = true)
    (ended : newline.read m.afterGap = some (nodes, stop)) :
    passed = text ∧ m.afterGap = m ∧ nodes = [] ∧ c.Leads (text ++ ['\n']) stop := by
  obtain ⟨blanks, led', all, _⟩ := exists_leads_afterGap m
  obtain ⟨rfl, feed, toStop, isFeed⟩ := exists_of_read_newline ended
  have inLine' : ∀ x ∈ passed ++ blanks, isInLine x = true := by
    apply List.forall_mem_append.2 ⟨inLine, ?_⟩
    intro x mem
    rcases isGap_iff.1 (all x mem) with rfl | rfl <;> rfl
  have cut := ((led.trans led').trans toStop).rest
  rw [isRest, List.append_assoc] at cut
  have breaks {x : Char} {others : List Char} (isBreak : isInLine x = false) (same : feed = x :: others) :
      passed ++ blanks = text ∧ x = '\n' := by
    subst same
    obtain ⟨same, feed, _⟩ := eq_of_append_break plain.inLine inLine' isBreak cut.symm
    exact ⟨same, feed⟩
  rcases isFeed with same | same | same
  · obtain ⟨rfl, _⟩ := breaks rfl same
    obtain rfl := plain.eq_nil_of_blanks all
    rw [List.append_nil]
    exact ⟨rfl, (led'.unique (.refl m)), rfl, led.trans (same ▸ led'.trans toStop)⟩
  · cases (breaks rfl same).2
  · cases (breaks rfl same).2

/-- What is read of a plain line of a block is the line. -/
theorem IsPlainText.exists_of_read_lineItem {line : Expr} (plain : IsPlainText text) (inLine : line.inLine = true)
    (isRest : c.rest = text ++ '\n' :: more) (taken : (lineItem line).read c = some (nodes, stop)) :
    ∃ m, line.read c = some (nodes, m) ∧ c.Leads text m ∧ c.Leads (text ++ ['\n']) stop := by
  rw [lineItem, read_seq_gap, plain.afterGap_eq isRest] at taken
  obtain ⟨ns, m, _, isLine, ended, rfl⟩ := read_seq_eq_some_iff.1 taken
  rw [read_seq_gap] at ended
  obtain ⟨passed, led, all⟩ := exists_inLine_of_read inLine isLine
  obtain ⟨rfl, _, rfl, toStop⟩ := plain.eq_of_read isRest led all ended
  rw [List.append_nil]
  exact ⟨m, isLine, led, toStop⟩

/-- A line that spells an account with an amount is read as that, up to its end. -/
theorem exists_of_read_onAccount (plain : IsPlainText text) (isRest : c.rest = text ++ '\n' :: more)
    (taken : (loose [ownedLeg, .ahead newline]).read c = some (nodes, m)) :
    ∃ kind name number code n, nodes = [n] ∧ n.line = c.line ∧ SpellsLeg kind name number code text ∧
      IsOwnedLeg kind name number code n := by
  obtain ⟨_, k, _, isLeg, follows, rfl⟩ := read_seq_eq_some_iff.1 taken
  rw [read_seq_gap] at follows
  obtain ⟨⟨⟨_, stop⟩, ended⟩, rfl, _⟩ := read_ahead_eq_some_iff.1 follows
  obtain ⟨passed, led, inLine⟩ := exists_inLine_of_read inLine_ownedLeg isLeg
  obtain ⟨rfl, _⟩ := plain.eq_of_read isRest led inLine ended
  obtain ⟨kind, name, number, code, text, n, led', spells, rfl, line, owned⟩ := exists_of_read_ownedLeg isLeg
  obtain rfl : passed = text := led.upTo.symm.trans led'.upTo
  exact ⟨kind, name, number, code, n, List.append_nil _, line, spells, owned⟩

theorem read_onAccount (isRest : c.rest = text ++ '\n' :: more) (spells : SpellsLeg kind name number code text) :
    ∃ n k, (loose [ownedLeg, .ahead newline]).read c = some ([n], k) := by
  obtain ⟨k, led, isRest'⟩ := Cursor.exists_leads isRest
  have ends : EndsAt isUpper k.rest := by
    rw [isRest']
    rintro _ ⟨⟩
    rfl
  have noGap : EndsAt isGap k.rest := by
    rw [isRest']
    rintro _ ⟨⟩
    rfl
  obtain ⟨n, isLeg, _⟩ := read_ownedLeg led spells ends
  refine ⟨n, k, read_seq_eq_some_iff.2 ⟨[n], k, [], isLeg, ?_, rfl⟩⟩
  rw [read_seq_gap, afterGap_of_endsAt noGap]
  exact read_ahead_eq_some_iff.2 ⟨⟨_, read_newline isRest'⟩, rfl, rfl⟩

/-- **A line is one leg**, if it is read as legs at all. -/
theorem exists_leg_of_read (plain : IsPlainText text) (isRest : c.rest = text ++ '\n' :: more)
    (taken : legItem.read c = some (nodes, stop)) :
    ∃ n, nodes = [n] ∧ n.line = c.line ∧ c.Leads (text ++ ['\n']) stop ∧ IsLegOf text n := by
  obtain ⟨m, isLeg, led, toStop⟩ := plain.exists_of_read_lineItem inLine_leg isRest taken
  rcases read_alt_eq_some_iff.1 isLeg with onAccount | ⟨refused, isLabel⟩
  · obtain ⟨kind, name, number, code, n, rfl, line, spells, owned⟩ := exists_of_read_onAccount plain isRest onAccount
    exact ⟨n, rfl, line, toStop, .owned spells owned⟩
  · obtain ⟨_, _, rfl⟩ := read_rule_eq_some_iff.1 isLabel
    refine ⟨_, rfl, rfl, toStop, .label ?_ rfl ?_⟩
    · intro kind name number code spells
      obtain ⟨_, _, onAccount⟩ := read_onAccount isRest spells
      rw [refused] at onAccount
      cases onAccount
    · rw [Node.text, led.upTo]

/-! ### Many lines -/

theorem feed_notMem_of_gap (all : ∀ x ∈ blanks, isGap x = true) : '\n' ∉ blanks :=
  fun mem => Bool.false_ne_true (all _ mem)

theorem exists_of_read_leg (taken : leg.read c = some (nodes, stop)) : ∃ n, nodes = [n] ∧ n.line = c.line := by
  rcases read_alt_eq_some_iff.1 taken with onAccount | ⟨_, isLabel⟩
  · obtain ⟨_, k, _, isLeg, follows, rfl⟩ := read_seq_eq_some_iff.1 onAccount
    rw [read_seq_gap] at follows
    obtain ⟨_, rfl, _⟩ := read_ahead_eq_some_iff.1 follows
    obtain ⟨_, _, rfl⟩ := read_rule_eq_some_iff.1 isLeg
    exact ⟨_, List.append_nil _, rfl⟩
  · obtain ⟨_, _, rfl⟩ := read_rule_eq_some_iff.1 isLabel
    exact ⟨_, rfl, rfl⟩

/-- A leg is on the line that its item starts on, and at most the last character of the item is a line feed. -/
theorem exists_of_read_legItem (taken : legItem.read c = some (nodes, stop)) :
    ∃ n passed last, nodes = [n] ∧ n.line = c.line ∧ c.Leads (passed ++ [last]) stop ∧ '\n' ∉ passed := by
  rw [legItem, lineItem, read_seq_gap] at taken
  obtain ⟨ns, m, _, isLeg, ended, rfl⟩ := read_seq_eq_some_iff.1 taken
  rw [read_seq_gap] at ended
  obtain ⟨n, rfl, line⟩ := exists_of_read_leg isLeg
  obtain ⟨first, toLeg, all, _⟩ := exists_leads_afterGap c
  obtain ⟨passed, toGap, inLine⟩ := exists_inLine_of_read inLine_leg isLeg
  obtain ⟨blanks, toFeed, all', _⟩ := exists_leads_afterGap m
  obtain ⟨rfl, feed, toStop, isFeed⟩ := exists_of_read_newline ended
  have noFeed : '\n' ∉ first ++ (passed ++ blanks) := by
    simp only [List.mem_append, not_or]
    exact ⟨feed_notMem_of_gap all, fun mem => Bool.false_ne_true (inLine _ mem), feed_notMem_of_gap all'⟩
  have led := ((toLeg.trans (toGap.trans toFeed)).trans toStop)
  have sameLine : n.line = c.line := by
    rw [line, toLeg.line, List.count_eq_zero.2 (feed_notMem_of_gap all), Nat.add_zero]
  rcases isFeed with rfl | rfl | rfl
  · exact ⟨n, _, _, List.append_nil _, sameLine, led, noFeed⟩
  · refine ⟨n, first ++ (passed ++ blanks) ++ ['\r'], '\n', List.append_nil _, sameLine, ?_, ?_⟩
    · rw [List.append_assoc]
      exact led
    · rw [List.mem_append, not_or]
      exact ⟨noFeed, by decide⟩
  · exact ⟨n, _, _, List.append_nil _, sameLine, led, noFeed⟩

/-- Legs are on the lines from where they start. -/
theorem line_le_of_mem_readAll (c : Cursor) : ∀ n ∈ (legItem.readAll c).1, c.line ≤ n.line := by
  induction c using readAll_induction consumes_legItem with
  | none c refused =>
    rw [readAll_of_none refused]
    exact List.forall_mem_nil _
  | some c nodes m taken ih =>
    obtain ⟨n, _, _, rfl, line, led, _⟩ := exists_of_read_legItem taken
    rw [readAll_of_some consumes_legItem taken]
    intro n' mem
    rcases List.mem_cons.1 mem with rfl | mem
    · exact Nat.le_of_eq line.symm
    · have := led.line
      have := ih n' mem
      omega

/-- What stands before a line goes on to a line break. -/
def UpToLine (before : List Char) : Prop := ∀ x ∈ before.getLast?, x = '\n'

theorem UpToLine.of_append {before after : List Char} (upTo : UpToLine (before ++ after)) : UpToLine after := by
  intro x last
  apply upTo
  rw [List.getLast?_append, last]
  rfl

theorem UpToLine.feed_mem {before : List Char} (upTo : UpToLine before) (some : before ≠ []) : '\n' ∈ before := by
  obtain ⟨x, isLast⟩ := Option.isSome_iff_exists.1 (List.getLast?_isSome.2 some)
  obtain rfl := upTo x isLast
  exact List.mem_of_getLast? isLast

/-- What is read up to at most one line break does not go past a line that starts later. -/
theorem UpToLine.exists_append {before passed rest rest' : List Char} {last : Char} (upTo : UpToLine before)
    (some : before ≠ []) (same : before ++ rest = (passed ++ [last]) ++ rest') (noFeed : '\n' ∉ passed) :
    ∃ left, before = (passed ++ [last]) ++ left ∧ rest' = left ++ rest := by
  rcases List.append_eq_append_iff.1 same with ⟨left, isPassed, isRest⟩ | ⟨left, isBefore, isRest⟩
  · rcases List.eq_nil_or_concat left with rfl | ⟨left, y, rfl⟩
    · exact ⟨[], by rw [isPassed, List.append_nil, List.append_nil], isRest.symm⟩
    · -- The line break before the line would be inside of what is read.
      rw [List.concat_eq_append, ← List.append_assoc] at isPassed
      obtain ⟨rfl, _⟩ := List.append_inj' isPassed rfl
      exact absurd (List.mem_append_left _ (upTo.feed_mem some)) noFeed
  · exact ⟨left, isBefore, isRest⟩

/-- **Each line of a block of legs is one leg of it.** -/
theorem exists_leg_of_readAll (plain : IsPlainText text) {before : List Char}
    (isRest : c.rest = before ++ (text ++ '\n' :: more)) (upTo : UpToLine before)
    (inside : (legItem.readAll c).2.rest.length < (text ++ '\n' :: more).length) :
    ∃ n, (legItem.readAll c).1.filter (fun n => decide (n.line = c.line + before.count '\n')) = [n] ∧
      IsLegOf text n := by
  induction c using readAll_induction consumes_legItem generalizing before with
  | none c refused =>
    -- The block would be over at the line, or before it.
    rw [readAll_of_none refused, isRest, List.length_append] at inside
    omega
  | some c nodes m taken ih =>
    rw [readAll_of_some consumes_legItem taken] at inside ⊢
    by_cases here : before = []
    · subst here
      obtain ⟨n, rfl, line, led, isLeg⟩ := exists_leg_of_read plain isRest taken
      refine ⟨n, ?_, isLeg⟩
      have lines : m.line = c.line + ((text ++ ['\n']).count '\n') := led.line
      rw [List.count_append, List.count_singleton_self] at lines
      have later : (legItem.readAll m).1.filter (fun n => decide (n.line = c.line)) = [] := by
        refine List.filter_eq_nil_iff.2 fun n' mem same => ?_
        have := line_le_of_mem_readAll m n' mem
        have := of_decide_eq_true same
        omega
      change List.filter (fun n' => decide (n'.line = c.line)) (n :: (legItem.readAll m).1) = [n]
      rw [List.filter_cons_of_pos (by exact decide_eq_true line), later]
    · obtain ⟨n, passed, last, rfl, line, led, noFeed⟩ := exists_of_read_legItem taken
      have same := isRest.symm.trans led.rest
      obtain ⟨left, rfl, isRest'⟩ := upTo.exists_append here same noFeed
      obtain ⟨leg, only, isLeg⟩ := ih isRest' upTo.of_append inside
      refine ⟨leg, ?_, isLeg⟩
      have lines : c.line + ((passed ++ [last]) ++ left).count '\n' = m.line + left.count '\n' := by
        rw [List.count_append, led.line, Nat.add_assoc]
      have later : ¬ n.line = m.line + left.count '\n' := by
        have := List.count_pos_iff.2 (upTo.feed_mem here)
        omega
      rw [lines]
      exact (List.filter_cons_of_neg (by rwa [decide_eq_true_eq])).trans only

end Daybook.Grammar
