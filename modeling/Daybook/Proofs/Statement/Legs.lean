import Daybook.Proofs.Checked
import Daybook.Proofs.Grammar.LegLines
import Daybook.Proofs.Source.Lines
import Daybook.Statement.Reading

/-!
# What a leg means

A text may be the one of a leg on an account (`SpellsPosting`), and in one way only (`SpellsLeg.unique`). A
leg of a line is on an account if the line spells that; it is refused on its line if the line begins like an
account and does not; and else the line is a label (`Line.IsReadAs`). So a label never looks like an account
(`Owner.IsClear`), and the text of an owner tells the owner (`Owner.eq_of_text_eq`).
-/

namespace Daybook

open Grammar

variable {lines : Array Line} {kind name number code kind' name' number' code' text : List Char} {n : Node}
  {l : Line}

/-! ### Texts of accounts -/

theorem splitFirst?_append {cut : Char → Bool} {before after : List Char} {x : Char}
    (others : ∀ y ∈ before, cut y = false) (isCut : cut x = true) :
    Text.splitFirst? cut (before ++ x :: after) = some (before, after) := by
  induction before with
  | nil => rw [List.nil_append, Text.splitFirst?, if_pos isCut]
  | cons y before ih =>
    obtain ⟨other, others⟩ := List.forall_mem_cons.1 others
    rw [List.cons_append, Text.splitFirst?, other, ih others]
    rfl

namespace AccountKind

theorem noSlash_text (k : AccountKind) : ∀ x ∈ k.text.toList, (x == '/') = false := by
  have none : k.text.toList.all (fun x => !(x == '/')) = true := by cases k <;> decide
  intro x mem
  simpa using List.all_eq_true.1 none x mem

theorem ofText?_text (k : AccountKind) : ofText? k.text = some k := by cases k <;> rfl

theorem text_injective {k k' : AccountKind} (same : k.text = k'.text) : k = k' := by
  have kinds := congrArg ofText? same
  rw [ofText?_text, ofText?_text] at kinds
  exact Option.some.inj kinds

theorem exists_of_mem_kindWords (known : kind ∈ kindWords) : ∃ k : AccountKind, kind = k.text.toList := by
  simp only [kindWords, List.map_cons, List.map_nil, List.mem_cons, List.not_mem_nil, or_false] at known
  rcases known with rfl | rfl | rfl
  · exact ⟨.asset, rfl⟩
  · exact ⟨.liability, rfl⟩
  · exact ⟨.equity, rfl⟩

end AccountKind

namespace AccountRef

theorem sides?_of_toList {s : String} {k : AccountKind} (h : s.toList = k.text.toList ++ '/' :: text) :
    sides? s = some (k.text, String.ofList text) := by
  rw [sides?, h, splitFirst?_append k.noSlash_text rfl, Option.map_some]
  simp only [String.ofList_toList]

theorem toList_text (a : AccountRef) : a.text.toList = a.kind.text.toList ++ '/' :: a.name.toList := by
  simp [AccountRef.text, String.toList_append]

theorem isOwned_of_toList {s : String} {k : AccountKind} (h : s.toList = k.text.toList ++ '/' :: text) :
    isOwned s = true := by
  rw [isOwned, sides?_of_toList h]
  simp [k.ofText?_text]

theorem isOwned_text (a : AccountRef) : isOwned a.text = true := isOwned_of_toList a.toList_text

theorem text_injective {a b : AccountRef} (same : a.text = b.text) : a = b := by
  have sides := congrArg sides? same
  rw [sides?_of_toList a.toList_text, sides?_of_toList b.toList_text] at sides
  simp only [Option.some.injEq, Prod.mk.injEq, String.ofList_toList] at sides
  obtain ⟨kinds, names⟩ := sides
  obtain ⟨kind, name⟩ := a
  obtain rfl := AccountKind.text_injective kinds
  obtain rfl : name = b.name := names
  rfl

end AccountRef

/-! ### Owners -/

/-- The owner is an account, or a label that does not begin like one. -/
def Owner.IsClear (o : Owner) : Prop := ∀ label, o = .external label → AccountRef.isOwned label = false

namespace Owner

variable {o o' : Owner}

theorem isOwned_text_iff (clear : o.IsClear) : AccountRef.isOwned o.text = true ↔ ∃ a, o = .owned a := by
  cases o with
  | owned a => exact ⟨fun _ => ⟨a, rfl⟩, fun _ => a.isOwned_text⟩
  | external label =>
    rw [show (external label).text = label from rfl, clear label rfl]
    constructor
    · intro h
      cases h
    · rintro ⟨_, h⟩
      cases h

/-- **The text of an owner tells the owner.** -/
theorem eq_of_text_eq (clear : o.IsClear) (clear' : o'.IsClear) (same : o.text = o'.text) : o = o' := by
  have isOwned := isOwned_text_iff clear
  rw [same, isOwned_text_iff clear'] at isOwned
  cases o with
  | owned a =>
    obtain ⟨b, rfl⟩ := isOwned.2 ⟨a, rfl⟩
    exact congrArg owned (AccountRef.text_injective same)
  | external label =>
    cases o' with
    | owned b => cases (isOwned.1 ⟨b, rfl⟩).choose_spec
    | external label' => exact congrArg external same

end Owner

/-- **A pattern matches accounts by texts of accounts, and labels by other texts.** -/
theorem Pattern.isFor_eq_true_iff {p : Pattern} {keyword : Keyword} {owners : List Owner}
    (clear : ∀ o ∈ owners, o.IsClear) :
    p.isFor keyword owners = true ↔ p.keyword = keyword ∧ ∃ o ∈ owners, ∃ text, p.accounts.contains text = true ∧
      o.text = text ∧ (AccountRef.isOwned text = true ↔ ∃ a, o = .owned a) := by
  rw [Pattern.isFor, Bool.and_eq_true, decide_eq_true_eq, List.any_eq_true]
  refine and_congr_right fun _ => exists_congr fun o => and_congr_right fun mem => ?_
  constructor
  · intro h
    exact ⟨o.text, h, rfl, Owner.isOwned_text_iff (clear o mem)⟩
  · rintro ⟨_, h, rfl, _⟩
    exact h

/-- **No label begins like an account.** -/
theorem isClear_of_readLeg {leg : Leg} (read : Statement.readLeg lines n = .ok leg) : leg.owner.IsClear := by
  intro label isLabel
  rw [Statement.readLeg] at read
  split at read
  · simp only [bind_eq_ok_iff, Except.ok.injEq] at read
    obtain ⟨a, _, m, _, rfl⟩ := read
    cases isLabel
  · dsimp only at read
    split at read
    · cases read
    · next other =>
      cases read
      cases isLabel
      exact Bool.eq_false_iff.2 other
  · cases read

/-! ### Postings -/

/-- The decimal that a number of a ledger is, with or without a plus sign. -/
def Decimal.ofNumber (number : List Char) : Except Decimal.ReadError Decimal :=
  Decimal.readChars <|
    match number with
    | '+' :: digits => digits
    | digits => digits

/-- The text reads `<kind>/<name> <number> <code>` to its end, for this account and this amount. -/
def SpellsPosting (text : String) (a : AccountRef) (m : Money) : Prop :=
  ∃ number, SpellsLeg a.kind.text.toList a.name.toList number m.currency.code.toList text.toList ∧
    Decimal.ofNumber number = .ok m.amount

theorem Grammar.IsOwnedLeg.unique (isLeg : IsOwnedLeg kind name number code n)
    (isLeg' : IsOwnedLeg kind' name' number' code' n) :
    kind = kind' ∧ name = name' ∧ number = number' ∧ code = code' := by
  obtain ⟨account, money, children, owner, value⟩ := isLeg.children
  obtain ⟨account', money', children', owner', value'⟩ := isLeg'.children
  cases children.symm.trans children'
  obtain ⟨_, _, parts⟩ := owner.children
  obtain ⟨_, _, parts'⟩ := owner'.children
  obtain ⟨_, _, parts''⟩ := value.children
  obtain ⟨_, _, parts'''⟩ := value'.children
  have owners := parts.symm.trans parts'
  have values := parts''.symm.trans parts'''
  simp only [tokenNode, List.cons.injEq, Node.mk.injEq, String.ofList_inj, true_and, and_true] at owners values
  exact ⟨owners.1.2, owners.2.2, values.1.2, values.2.2⟩

/-- **A text spells a leg in one way only.** -/
theorem Grammar.SpellsLeg.unique (spells : SpellsLeg kind name number code text)
    (spells' : SpellsLeg kind' name' number' code' text) :
    kind = kind' ∧ name = name' ∧ number = number' ∧ code = code' := by
  obtain ⟨stop, led, ended⟩ := @Cursor.exists_leads (.start text) text [] (List.append_nil text).symm
  have ends : EndsAt isUpper stop.rest := by
    rw [ended]
    rintro _ ⟨⟩
  obtain ⟨n, read, isLeg⟩ := read_ownedLeg led spells ends
  obtain ⟨n', read', isLeg'⟩ := read_ownedLeg led spells' ends
  cases read.symm.trans read'
  exact isLeg.unique isLeg'

theorem isOwned_of_spellsLeg (spells : SpellsLeg kind name number code l.text.toList) :
    AccountRef.isOwned l.text = true := by
  obtain ⟨_, _, text, _⟩ := spells.parts
  obtain ⟨k, rfl⟩ := AccountKind.exists_of_mem_kindWords spells.kind
  rw [List.append_assoc] at text
  exact AccountRef.isOwned_of_toList text

/-! ### Reading a leg -/

/-- The amount that a number and a code are. -/
def Money.ofParts (number code : List Char) : Except Problem Money := do
  let amount ← (Decimal.ofNumber number).mapError (.invalidNumber (String.ofList number))
  let currency ← Currency.ofText (String.ofList code)
  .ok ⟨amount, currency⟩

theorem ofCode?_eq_some_iff {code : String} {c : Currency} : Currency.ofCode? code = some c ↔ code = c.code := by
  constructor
  · intro found
    rw [Currency.ofCode?] at found
    have same := List.find?_some found
    exact (beq_iff_eq.1 same).symm
  · rintro rfl
    exact c.ofCode?_code

theorem ofParts_eq_ok_iff {m : Money} :
    Money.ofParts number code = .ok m ↔
      Decimal.ofNumber number = .ok m.amount ∧ code = m.currency.code.toList := by
  have ofText (c : Currency) : Currency.ofText (String.ofList code) = .ok c ↔ code = c.code.toList := by
    rw [Currency.ofText]
    constructor
    · split
      · next found =>
        rintro ⟨⟩
        rw [← ofCode?_eq_some_iff.1 found, String.toList_ofList]
      · rintro ⟨⟩
    · rintro rfl
      rw [String.ofList_toList, c.ofCode?_code]
  simp only [Money.ofParts, bind_eq_ok_iff, mapError_eq_ok_iff, ofText, Except.ok.injEq]
  constructor
  · rintro ⟨d, fits, c, isCode, rfl⟩
    exact ⟨fits, isCode⟩
  · rintro ⟨fits, isCode⟩
    exact ⟨m.amount, fits, m.currency, isCode, rfl⟩

theorem ofNode_of_isAmount (isAmount : IsAmount number code n) : Money.ofNode n = Money.ofParts number code := by
  obtain ⟨_, _, children⟩ := isAmount.children
  rw [Money.ofNode, children, Money.ofParts]
  simp only [Decimal.ofNode, Currency.ofNode, tokenNode, Node.text, String.toList_ofList]
  rfl

theorem ofNode_of_isOwned {k : AccountKind} (isOwned : IsOwned k.text.toList name n) :
    AccountRef.ofNode n = .ok ⟨k, String.ofList name⟩ := by
  obtain ⟨_, _, children⟩ := isOwned.children
  rw [AccountRef.ofNode, children]
  simp only [AccountRef.ofNodes, tokenNode, Node.text, String.ofList_toList, k.ofText?_text]

/-- A leg that the grammar reads on an account is refused only for its amount. -/
theorem readLeg_of_isOwnedLeg {k : AccountKind} (isLeg : IsOwnedLeg k.text.toList name number code n) :
    Statement.readLeg lines n = (plainly (Money.ofParts number code)).map fun m =>
      .onAccount ⟨k, String.ofList name⟩ m (n.location lines) := by
  obtain ⟨account, money, children, owner, value⟩ := isLeg.children
  rw [Statement.readLeg, isLeg.rule, children]
  simp only [ofNode_of_isOwned owner, ofNode_of_isAmount value]
  cases Money.ofParts number code <;> rfl

/-- What is read of a leg, with its problem located at the leg. -/
def Statement.readLegAt (lines : Array Line) (n : Node) : Except Error Leg :=
  Statement.locating lines n (Statement.readLeg lines n)

/-! ### Lines -/

/-- What becomes of a line of legs. -/
structure Line.IsReadAs (l : Line) (result : Except Error Leg) : Prop where
  onAccount : ∀ a m, result = .ok (.onAccount a m l.location) ↔ SpellsPosting l.text a m
  refused : AccountRef.isOwned l.text = true → (∀ a m, ¬ SpellsPosting l.text a m) →
    ∃ why, result = .error (.writing l.location why)
  outside : result = .ok (.outside l.text l.location) ↔ AccountRef.isOwned l.text = false

instance (l : Line) : Decidable l.IsTrimmed :=
  decidable_of_iff
    (l.text.toList.head?.all (!Text.isBlank ·) = true ∧ l.text.toList.getLast?.all (!Text.isBlank ·) = true) <| by
    simp only [Option.all_eq_true, Bool.not_eq_true']
    exact ⟨fun ⟨starts, ends⟩ => ⟨starts, ends⟩, fun h => ⟨h.starts, h.ends⟩⟩

theorem Line.IsTrimmed.trimmed_text (trimmed : l.IsTrimmed) : Text.trimmed l.text = l.text := by
  have unchanged {cs : List Char} (starts : ∀ c ∈ cs.head?, Text.isBlank c = false) :
      cs.dropWhile Text.isBlank = cs := by
    cases cs with
    | nil => rfl
    | cons c cs => rw [List.dropWhile_cons_of_neg (Bool.eq_false_iff.1 (starts c rfl))]
  have ends : ∀ c ∈ l.text.toList.reverse.head?, Text.isBlank c = false := by
    rw [List.head?_reverse]
    exact trimmed.ends
  rw [Text.trimmed, Text.trim, Text.trimLeft, unchanged trimmed.starts, Text.trimRight, unchanged ends,
    List.reverse_reverse, String.ofList_toList]

theorem readLegAt_of_label (rule : n.rule = .externalLeg) (label : Text.trimmed n.text = l.text)
    (place : n.location lines = l.location) :
    Statement.readLegAt lines n =
      if AccountRef.isOwned l.text then .error (.writing l.location (.legWithoutAmount l.text))
      else .ok (.outside l.text l.location) := by
  obtain ⟨_, _, _, children⟩ := n
  obtain rfl : _ = Rule.externalLeg := rule
  simp only [Statement.readLegAt, Statement.locating, Statement.readLeg, Node.rule, Node.children, label, place]
  split <;> rfl

/-- What a line spells is what its leg is read as. -/
theorem spellsPosting_iff {k : AccountKind} (spells : SpellsLeg k.text.toList name number code l.text.toList)
    {a : AccountRef} {m : Money} : SpellsPosting l.text a m ↔
      a = ⟨k, String.ofList name⟩ ∧ Money.ofParts number code = .ok m := by
  rw [ofParts_eq_ok_iff]
  constructor
  · rintro ⟨_, spells', fits⟩
    obtain ⟨kinds, rfl, rfl, isCode⟩ := spells.unique spells'
    obtain ⟨_, _⟩ := a
    obtain rfl := AccountKind.text_injective (String.toList_inj.1 kinds)
    exact ⟨by rw [String.ofList_toList], fits, isCode⟩
  · rintro ⟨rfl, fits, rfl⟩
    refine ⟨number, ?_, fits⟩
    rwa [String.toList_ofList]

/-- **The grammar and `AccountRef.isOwned` agree on a line of legs.** -/
theorem isReadAs_of_isLegOf (trimmed : l.IsTrimmed) (isLeg : IsLegOf l.text.toList n)
    (place : n.location lines = l.location) : l.IsReadAs (Statement.readLegAt lines n) := by
  cases isLeg with
  | @owned kind name number code spells isLeg =>
    obtain ⟨k, rfl⟩ := AccountKind.exists_of_mem_kindWords spells.kind
    have isOwned := isOwned_of_spellsLeg spells
    rw [Statement.readLegAt, Statement.locating, readLeg_of_isOwnedLeg isLeg, place]
    cases value : Money.ofParts number code with
    | ok money =>
      refine ⟨fun a m => ?_, fun _ none => absurd ?_ (none ⟨k, String.ofList name⟩ money), ?_⟩
      · rw [spellsPosting_iff spells, value]
        constructor
        · rintro ⟨⟩
          exact ⟨rfl, rfl⟩
        · rintro ⟨rfl, ⟨⟩⟩
          rfl
      · exact (spellsPosting_iff spells).2 ⟨rfl, value⟩
      · rw [isOwned]
        constructor <;> rintro ⟨⟩
    | error why =>
      refine ⟨fun a m => ?_, fun _ _ => ⟨why, rfl⟩, ?_⟩
      · rw [spellsPosting_iff spells, value]
        constructor
        · rintro ⟨⟩
        · rintro ⟨_, ⟨⟩⟩
      · rw [isOwned]
        constructor <;> rintro ⟨⟩
  | label other rule text =>
    have label : Text.trimmed n.text = l.text := by rw [text, String.ofList_toList, trimmed.trimmed_text]
    have unspelled (a : AccountRef) (m : Money) : ¬ SpellsPosting l.text a m :=
      fun ⟨_, spells, _⟩ => other _ _ _ _ spells
    rw [readLegAt_of_label rule label place]
    cases isOwned : AccountRef.isOwned l.text with
    | true =>
      refine ⟨fun a m => ?_, fun _ _ => ⟨_, rfl⟩, ?_⟩
      · refine ⟨?_, fun spells => absurd spells (unspelled a m)⟩
        rintro ⟨⟩
      · rw [isOwned]
        constructor <;> rintro ⟨⟩
    | false =>
      refine ⟨fun a m => ?_, fun other => ?_, fun _ => isOwned, fun _ => rfl⟩
      · refine ⟨?_, fun spells => absurd spells (unspelled a m)⟩
        rintro ⟨⟩
      · rw [isOwned] at other
        cases other

end Daybook
