import Daybook.Journal
import Daybook.Proofs.Grammar.Shift

/-!
# What a part means elsewhere

The meaning of a part of a text depends on its rule, its characters, its parts, and the locations of the
lines that it and they start on; it does not depend on the line numbers themselves. So parts that are
alike, on lines of two texts that have the same locations, mean the same (`ofNode_eq_of_alike`).
-/

namespace Daybook

open Grammar (Node)

/-- A line of one text has the location that a line of another text has. -/
def SamePlace (lines lines' : Array Line) (number number' : Nat) : Prop :=
  locationOf lines number = locationOf lines' number'

/-- Parts that are alike, on lines with the same locations. -/
abbrev AlikeIn (lines lines' : Array Line) : Node → Node → Prop := Node.Alike (SamePlace lines lines')

variable {lines lines' : Array Line} {n n' m m' : Node} {ns ns' : List Node}

namespace Grammar.Node.Alike

variable {numbers : Nat → Nat → Prop}

theorem rule (h : Alike numbers n n') : n.rule = n'.rule := by
  cases h
  rfl

theorem text (h : Alike numbers n n') : n.text = n'.text := by
  cases h
  rfl

theorem children (h : Alike numbers n n') : List.Forall₂ (Alike numbers) n.children n'.children := by
  cases h
  assumption

theorem location (h : AlikeIn lines lines' n n') : n.location lines = n'.location lines' := by
  cases h
  assumption

end Grammar.Node.Alike

theorem map_eq_of_alike {α : Type} {f g : Node → α} (alike : List.Forall₂ (AlikeIn lines lines') ns ns')
    (same : ∀ n n', AlikeIn lines lines' n n' → f n = g n') : ns.map f = ns'.map g := by
  induction alike with
  | nil => rfl
  | cons h _ ih => rw [List.map_cons, List.map_cons, same _ _ h, ih]

theorem mapM_eq_of_alike {ε α : Type} {f g : Node → Except ε α}
    (alike : List.Forall₂ (AlikeIn lines lines') ns ns')
    (same : ∀ n n', AlikeIn lines lines' n n' → f n = g n') : ns.mapM f = ns'.mapM g := by
  induction alike with
  | nil => rfl
  | cons h _ ih => rw [List.mapM_cons, List.mapM_cons, same _ _ h, ih]

theorem filter_alike (keep : Grammar.Rule → Bool) (alike : List.Forall₂ (AlikeIn lines lines') ns ns') :
    List.Forall₂ (AlikeIn lines lines') (ns.filter fun n => keep n.rule)
      (ns'.filter fun n => keep n.rule) :=
  List.rel_filter (fun _ _ h => by simp only [h.rule]) alike

/-! ### Scalars -/

theorem Decimal.ofNode_eq_of_alike (h : AlikeIn lines lines' n n') : Decimal.ofNode n = Decimal.ofNode n' := by
  rw [Decimal.ofNode, Decimal.ofNode, h.text]

theorem Currency.ofNode_eq_of_alike (h : AlikeIn lines lines' n n') :
    Currency.ofNode n = Currency.ofNode n' := by
  rw [Currency.ofNode, Currency.ofNode, h.text]

theorem Timestamp.ofNode_eq_of_alike (h : AlikeIn lines lines' n n') :
    Timestamp.ofNode n = Timestamp.ofNode n' := by
  rw [Timestamp.ofNode, Timestamp.ofNode, h.text]

theorem AccountRef.ofNodes_eq_of_alike (kind : AlikeIn lines lines' n n') (name : AlikeIn lines lines' m m') :
    AccountRef.ofNodes n m = AccountRef.ofNodes n' m' := by
  rw [AccountRef.ofNodes, AccountRef.ofNodes, kind.text, name.text]

theorem AccountRef.ofNode_eq_of_alike (h : AlikeIn lines lines' n n') :
    AccountRef.ofNode n = AccountRef.ofNode n' := by
  have parts := h.children
  rw [AccountRef.ofNode, AccountRef.ofNode]
  generalize n.children = ns, n'.children = ns' at parts
  rcases parts with _ | ⟨kind, _ | ⟨name, _ | _⟩⟩
  · rfl
  · rfl
  · exact AccountRef.ofNodes_eq_of_alike kind name
  · rfl

theorem Money.ofNode_eq_of_alike (h : AlikeIn lines lines' n n') : Money.ofNode n = Money.ofNode n' := by
  have parts := h.children
  rw [Money.ofNode, Money.ofNode]
  generalize n.children = ns, n'.children = ns' at parts
  rcases parts with _ | ⟨number, _ | ⟨currency, _ | _⟩⟩
  · rfl
  · rfl
  · simp only [Decimal.ofNode_eq_of_alike number, Currency.ofNode_eq_of_alike currency]
  · rfl

theorem ExchangeRate.ofNodes_eq_of_alike (alike : List.Forall₂ (AlikeIn lines lines') ns ns') :
    ExchangeRate.ofNodes ns = ExchangeRate.ofNodes ns' := by
  rcases alike with _ | ⟨source, _ | ⟨target, _ | ⟨rate, rest⟩⟩⟩
  · rfl
  · rfl
  · rfl
  · simp only [ExchangeRate.ofNodes, Currency.ofNode_eq_of_alike source, Currency.ofNode_eq_of_alike target,
      Decimal.ofNode_eq_of_alike rate]
    rcases rest with _ | ⟨units, _⟩
    · rfl
    · simp only [Decimal.ofNode_eq_of_alike units]

/-! ### Tags -/

theorem Tag.ofNode_eq_of_alike (h : AlikeIn lines lines' n n') : Tag.ofNode n = Tag.ofNode n' := by
  rw [Tag.ofNode, Tag.ofNode, h.text]
  obtain @⟨rule, line, line', text, children, children', _, parts⟩ := h
  simp only [Node.rule, Node.children]
  cases rule with
  | feeTag | calculateAsTag =>
    rcases parts with _ | ⟨money, _ | _⟩
    case cons.nil => simp only [Money.ofNode_eq_of_alike money]
    all_goals rfl
  | sharesTag =>
    rcases parts with _ | ⟨company, _ | ⟨count, _ | _⟩⟩
    case cons.cons.nil => simp only [company.text, Decimal.ofNode_eq_of_alike count]
    all_goals rfl
  | intermediaryTag =>
    rcases parts with _ | ⟨name, _ | _⟩
    case cons.nil => simp only [name.text]
    all_goals rfl
  | rateTag => simp only [ExchangeRate.ofNodes_eq_of_alike parts]
  | effectiveDateTag =>
    rcases parts with _ | ⟨timestamp, _ | _⟩
    case cons.nil => simp only [Timestamp.ofNode_eq_of_alike timestamp]
    all_goals rfl
  | tagsTag =>
    simp only [map_eq_of_alike parts fun n n' h => congrArg Text.trimmed h.text]
  | flagTag =>
    rcases parts with _ | ⟨flag, _ | _⟩
    case cons.nil => simp only [flag.text]
    all_goals rfl
  | _ => rfl

theorem Tags.ofNodes_eq_of_alike (alike : List.Forall₂ (AlikeIn lines lines') ns ns') :
    Tags.ofNodes lines ns = Tags.ofNodes lines' ns' := by
  rcases alike with _ | ⟨block, _⟩
  · rfl
  · exact mapM_eq_of_alike block.children fun n n' h => by rw [Tag.ofNode_eq_of_alike h, h.location]

namespace Statement

theorem locating_eq_of_alike {α : Type} (h : AlikeIn lines lines' n n') (result : Except Error α) :
    locating lines n result = locating lines' n' result := by
  rw [locating, locating, h.location]

/-! ### Statements without legs -/

theorem readSetting_eq_of_alike (h : AlikeIn lines lines' n n') :
    readSetting lines n = readSetting lines' n' := by
  have parts := h.children
  rw [readSetting, readSetting, h.location]
  generalize n.children = ns, n'.children = ns' at parts
  rcases parts with _ | ⟨key, _ | ⟨value, _⟩⟩
  · rfl
  · rfl
  · simp only [key.text, value.text]

theorem readOpening_eq_of_alike (h : AlikeIn lines lines' n n') :
    readOpening lines n = readOpening lines' n' := by
  have parts := h.children
  rw [readOpening, readOpening, h.location]
  generalize n.children = ns, n'.children = ns' at parts
  rcases parts with _ | ⟨timestamp, _ | ⟨kind, _ | ⟨name, _ | ⟨money, rest⟩⟩⟩⟩
  case cons.cons.cons.cons =>
    simp only [Timestamp.ofNode_eq_of_alike timestamp, AccountRef.ofNodes_eq_of_alike kind name,
      Money.ofNode_eq_of_alike money, Tags.ofNodes_eq_of_alike rest]
  all_goals rfl

theorem readClosing_eq_of_alike (h : AlikeIn lines lines' n n') :
    readClosing lines n = readClosing lines' n' := by
  have parts := h.children
  rw [readClosing, readClosing, h.location]
  generalize n.children = ns, n'.children = ns' at parts
  rcases parts with _ | ⟨timestamp, _ | ⟨kind, _ | ⟨name, _⟩⟩⟩
  case cons.cons.cons =>
    simp only [Timestamp.ofNode_eq_of_alike timestamp, AccountRef.ofNodes_eq_of_alike kind name]
  all_goals rfl

theorem readGroup_eq_of_alike (h : AlikeIn lines lines' n n') :
    readGroup lines n = readGroup lines' n' := by
  have parts := h.children
  rw [readGroup, readGroup, h.location]
  generalize n.children = ns, n'.children = ns' at parts
  rcases parts with _ | ⟨name, members⟩
  · rfl
  · simp only [name.text, map_eq_of_alike members fun n n' h => congrArg Text.trimmed h.text]

theorem readRates_eq_of_alike (h : AlikeIn lines lines' n n') :
    readRates lines n = readRates lines' n' := by
  have parts := h.children
  rw [readRates, readRates, h.location]
  generalize n.children = ns, n'.children = ns' at parts
  rcases parts with _ | ⟨timestamp, rates⟩
  · rfl
  · simp only [Timestamp.ofNode_eq_of_alike timestamp]
    rw [mapM_eq_of_alike rates fun n n' h => by
      rw [ExchangeRate.ofNodes_eq_of_alike h.children, h.location, h.text]]

theorem readAssertion_eq_of_alike (account : AccountRef) (h : AlikeIn lines lines' n n') :
    readAssertion account n = readAssertion account n' := by
  rw [readAssertion, readAssertion, Money.ofNode_eq_of_alike h]
  obtain @⟨rule, line, line', text, children, children', _, parts⟩ := h
  simp only [Node.rule, Node.children]
  cases rule with
  | priceEntry =>
    rcases parts with _ | ⟨company, _ | ⟨price, _ | _⟩⟩
    case cons.cons.nil =>
      cases account.kind with
      | equity => simp only [company.text, Money.ofNode_eq_of_alike price]
      | _ => rfl
    all_goals cases account.kind <;> rfl
  | _ => cases account.kind <;> rfl

theorem readBalanceEntry_eq_of_alike (h : AlikeIn lines lines' n n') :
    readBalanceEntry lines n = readBalanceEntry lines' n' := by
  have parts := h.children
  rw [readBalanceEntry, readBalanceEntry, h.location]
  generalize n.children = ns, n'.children = ns' at parts
  rcases parts with _ | ⟨account, _ | ⟨value, _ | _⟩⟩
  case cons.cons.nil =>
    simp only [AccountRef.ofNode_eq_of_alike account, readAssertion_eq_of_alike _ value]
  all_goals rfl

theorem readBalance_eq_of_alike (h : AlikeIn lines lines' n n') :
    readBalance lines n = readBalance lines' n' := by
  have parts := h.children
  rw [readBalance, readBalance, h.location]
  generalize n.children = ns, n'.children = ns' at parts
  rcases parts with _ | ⟨timestamp, entries⟩
  · rfl
  · simp only [Timestamp.ofNode_eq_of_alike timestamp]
    rw [mapM_eq_of_alike entries fun n n' h => by
      rw [readBalanceEntry_eq_of_alike h, locating_eq_of_alike h]]

/-! ### Transactions -/

theorem readLeg_eq_of_alike (h : AlikeIn lines lines' n n') :
    readLeg lines n = readLeg lines' n' := by
  rw [readLeg, readLeg, h.location, h.text]
  obtain @⟨rule, line, line', text, children, children', _, parts⟩ := h
  simp only [Node.rule, Node.children]
  cases rule with
  | ownedLeg =>
    rcases parts with _ | ⟨account, _ | ⟨money, _ | _⟩⟩
    case cons.cons.nil =>
      simp only [AccountRef.ofNode_eq_of_alike account, Money.ofNode_eq_of_alike money]
    all_goals rfl
  | _ => rfl

theorem readDraft_eq_of_alike (patterns : List Pattern) (keyword : Keyword) (h : AlikeIn lines lines' n n') :
    readDraft lines patterns keyword n = readDraft lines' patterns keyword n' := by
  have parts := h.children
  rw [readDraft, readDraft, h.location]
  generalize n.children = ns, n'.children = ns' at parts
  rcases parts with _ | ⟨timestamp, _ | ⟨legs, rest⟩⟩
  · rfl
  · rfl
  · simp only [Timestamp.ofNode_eq_of_alike timestamp, Tags.ofNodes_eq_of_alike rest]
    rw [mapM_eq_of_alike legs.children fun n n' h => by rw [readLeg_eq_of_alike h, locating_eq_of_alike h]]

theorem readDividendDraft_eq_of_alike (h : AlikeIn lines lines' n n') :
    readDividendDraft lines n = readDividendDraft lines' n' := by
  have parts := h.children
  rw [readDividendDraft, readDividendDraft, h.location]
  generalize n.children = ns, n'.children = ns' at parts
  rcases parts with _ | ⟨timestamp, _ | ⟨source, _ | ⟨cash, rest⟩⟩⟩
  case cons.cons.cons =>
    simp only [Timestamp.ofNode_eq_of_alike timestamp, Tags.ofNodes_eq_of_alike rest, source.location,
      readLeg_eq_of_alike cash, locating_eq_of_alike cash]
    -- The account and the company are parts of the line below the first.
    obtain @⟨_, _, _, _, _, _, _, parts⟩ := source
    rcases parts with _ | ⟨account, _ | ⟨company, _ | _⟩⟩
    case cons.cons.nil => simp only [Node.children, AccountRef.ofNode_eq_of_alike account, company.text]
    all_goals rfl
  all_goals rfl

theorem readDividend_eq_of_alike (patterns : List Pattern) (h : AlikeIn lines lines' n n') :
    readDividend lines patterns n = readDividend lines' patterns n' := by
  rw [readDividend, readDividend, readDividendDraft_eq_of_alike h]

theorem readPattern_eq_of_alike (h : AlikeIn lines lines' n n') :
    readPattern lines n = readPattern lines' n' := by
  have parts := h.children
  rw [readPattern, readPattern]
  generalize n.children = ns, n'.children = ns' at parts
  rcases parts with _ | ⟨keyword, rest⟩
  · rfl
  · have accounts := map_eq_of_alike (filter_alike (fun r => decide (r = .matchAccount)) rest)
      fun n n' h => congrArg Text.trimmed h.text
    have tags := Tags.ofNodes_eq_of_alike (filter_alike (fun r => decide (r = .withBlock)) rest)
    simp only [keyword.text, accounts, tags]

/-! ### Statements -/

/-- **Statements that are alike mean the same.** -/
theorem ofNode_eq_of_alike (patterns : List Pattern) (h : AlikeIn lines lines' n n') :
    ofNode lines patterns n = ofNode lines' patterns n' := by
  rw [ofNode, ofNode, locating_eq_of_alike h, h.rule]
  congr 1
  simp only [readSetting_eq_of_alike h, readOpening_eq_of_alike h, readClosing_eq_of_alike h,
    readRates_eq_of_alike h, readBalance_eq_of_alike h, readGroup_eq_of_alike h, readPattern_eq_of_alike h,
    readDraft_eq_of_alike _ _ h, readDividend_eq_of_alike _ h]

end Statement

/-- Statements that are alike, one by one, make the same journal. -/
theorem Journal.ofStatements_eq_of_alike (alike : List.Forall₂ (AlikeIn lines lines') ns ns')
    (patterns : List Pattern) :
    Journal.ofStatements lines patterns ns = Journal.ofStatements lines' patterns ns' := by
  induction alike generalizing patterns with
  | nil => rfl
  | cons h _ ih =>
    rw [Journal.ofStatements, Journal.ofStatements, Statement.ofNode_eq_of_alike patterns h]
    simp only [ih]

end Daybook
