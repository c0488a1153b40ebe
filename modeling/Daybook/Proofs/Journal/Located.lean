import Daybook.Proofs.Journal.Relocated

/-!
# Where a ledger is refused

If lines are refused, the error tells which line is wrong, and whether its writing or its meaning is
(`Journal.error_of_parse`). That is two things. Every reader and every check of booking fails with causes of its
kind only, and what the readers leave without a location gets one from the statement around it: this goes through
all of them once (`FailsWith`). And the location is the one of a line: it cannot come from elsewhere, because lines
are read in the same way when all other locations are moved (`Journal.parse_relocated`).
-/

namespace Daybook

open Grammar (Node)

/-! ### Causes -/

/-- A cause in the writing of a line. -/
def Problem.isOfWriting : Problem → Bool
  | refused .. | missingPart _ | invalidCurrency _ | invalidNumber .. | invalidTimestamp .. | invalidAccount _
  | unknownKeyword _ | rateNotPositive | rateOutOfRange .. | malformedTag .. | unknownTag _ | legWithoutAmount _
  | entryWithoutPrice _ | entryWithPrice _ => true
  | inPart _ why => why.isOfWriting
  | _ => false

/-- A cause in what a line means, found when it is booked. That a rate is missing is none, and no cause of
writing either: it shows when amounts are valued. -/
def Problem.isOfBooking : Problem → Bool
  | missingPart _ | rateOutOfRange .. | amountOverflow | externalLegCount .. | noOwnedLeg _ | expenseNotNegative ..
  | transferNotOwned _ | transferTooShort | transferOneSided | negativeFee _ | feeWithoutIntermediary _
  | feeCurrency .. | unbalanced .. | conversionLegCount | conversionWithoutRate .. | rateDoesNotApply ..
  | discrepancy .. | equityLegCount _ | equityCurrencies _ | noShares _ | equityOneSided | noEquityAccount ..
  | shareDirection .. | dividendFromCash _ | dividendNotPositive _ => true
  | _ => false

namespace Error

/-- What reading can fail for; it may still have to be located. -/
def isOfReading : Error → Bool
  | writing _ why | plain why => why.isOfWriting
  | meaning _ why => why.isOfBooking
  | during .. | loading _ => false

def isLocated (e : Error) : Bool := e.isOfReading && e.location?.isSome

theorem isOfReading_of_isLocated {e : Error} (h : e.isLocated = true) : e.isOfReading = true :=
  (Bool.and_eq_true_iff.1 h).1

theorem isLocated_locatedAt (location : Location) {e : Error} (h : e.isOfReading = true) :
    (e.locatedAt location).isLocated = true := by
  cases e with
  | writing _ why | meaning _ why => exact Bool.and_eq_true_iff.2 ⟨h, rfl⟩
  | plain why => exact Bool.and_eq_true_iff.2 ⟨h, rfl⟩
  | during _ _ | loading _ => cases h

end Error

/-! ### Failing with some errors only -/

section

variable {ε ε' α β : Type} {P : ε → Prop} {Q : ε' → Prop} {r : Except ε α}

/-- If there is no result, the error is one of these. -/
def FailsWith (P : ε → Prop) (r : Except ε α) : Prop := ∀ e, r = .error e → P e

namespace FailsWith

theorem ok (a : α) : FailsWith P (.ok a) := by
  intro e h
  cases h

theorem error {e : ε} (h : P e) : FailsWith P (.error e : Except ε α) := by
  intro e' same
  cases same
  exact h

theorem mono {P' : ε → Prop} (h : FailsWith P r) (sub : ∀ e, P e → P' e) : FailsWith P' r :=
  fun e failed => sub e (h e failed)

theorem bind {f : α → Except ε β} (h : FailsWith P r) (next : ∀ a, FailsWith P (f a)) :
    FailsWith P (r >>= f) := by
  intro e failed
  rcases bind_eq_error_iff.1 failed with here | ⟨a, -, later⟩
  · exact h e here
  · exact next a e later

theorem map {f : α → β} (h : FailsWith P r) : FailsWith P (r.map f) := h.bind fun _ => ok _

theorem mapError {f : ε → ε'} (h : FailsWith P r) (told : ∀ e, P e → Q (f e)) : FailsWith Q (r.mapError f) := by
  intro e failed
  obtain ⟨why, here, rfl⟩ := mapError_eq_error_iff.1 failed
  exact told why (h why here)

/-- Whatever the error was, it becomes one of these. -/
theorem mapError_all {f : ε → ε'} (told : ∀ e, Q (f e)) : FailsWith Q (r.mapError f) :=
  mapError (P := fun _ => True) (fun _ _ => trivial) fun e _ => told e

theorem mapM {f : α → Except ε β} {xs : List α} (h : ∀ x, FailsWith P (f x)) : FailsWith P (xs.mapM f) := by
  induction xs with
  | nil => exact ok []
  | cons x xs ih =>
    rw [List.mapM_cons]
    exact (h x).bind fun _ => ih.bind fun _ => ok _

variable {e : Error}

theorem orError (h : e.isOfReading = true) (value : Option α) :
    FailsWith (Error.isOfReading ·) (orError value e) := by
  cases value with
  | none => exact error h
  | some a => exact ok a

theorem require (h : e.isOfReading = true) (condition : Bool) :
    FailsWith (Error.isOfReading ·) (require condition e) := by
  cases condition with
  | false => exact error h
  | true => exact ok ()

theorem plainly {r : Except Problem α} (h : FailsWith (Problem.isOfWriting ·) r) :
    FailsWith (Error.isOfReading ·) (plainly r) :=
  mapError h fun _ told => told

end FailsWith

end

/-! ### Parts -/

theorem Decimal.failsWith_ofNode (n : Node) : FailsWith (Problem.isOfWriting ·) (Decimal.ofNode n) := by
  rw [Decimal.ofNode]
  exact .mapError_all fun _ => rfl

theorem Currency.failsWith_ofNode (n : Node) : FailsWith (Problem.isOfWriting ·) (Currency.ofNode n) := by
  rw [Currency.ofNode, Currency.ofText]
  split
  · exact .ok _
  · exact .error rfl

theorem Timestamp.failsWith_ofNode (n : Node) : FailsWith (Problem.isOfWriting ·) (Timestamp.ofNode n) := by
  rw [Timestamp.ofNode, Timestamp.ofText]
  exact .mapError_all fun _ => rfl

theorem AccountRef.failsWith_ofNodes (kind name : Node) :
    FailsWith (Problem.isOfWriting ·) (AccountRef.ofNodes kind name) := by
  rw [AccountRef.ofNodes]
  split
  · exact .ok _
  · exact .error rfl

theorem AccountRef.failsWith_ofNode (n : Node) : FailsWith (Problem.isOfWriting ·) (AccountRef.ofNode n) := by
  unfold AccountRef.ofNode
  split
  · exact failsWith_ofNodes _ _
  · exact .error rfl

theorem Money.failsWith_ofNode (n : Node) : FailsWith (Problem.isOfWriting ·) (Money.ofNode n) := by
  unfold Money.ofNode
  split
  · next number currency _ =>
    exact (Decimal.failsWith_ofNode number).bind fun _ => (Currency.failsWith_ofNode currency).bind fun _ => .ok _
  · exact .error rfl

theorem ExchangeRate.failsWith_ofNodes (nodes : List Node) :
    FailsWith (Problem.isOfWriting ·) (ExchangeRate.ofNodes nodes) := by
  unfold ExchangeRate.ofNodes
  split
  · next source target rate units =>
    refine (Currency.failsWith_ofNode source).bind fun _ => (Currency.failsWith_ofNode target).bind fun _ => ?_
    refine (Decimal.failsWith_ofNode rate).bind fun _ => ?_
    dsimp only
    -- The number of units is read or left out, and checked in the same way.
    split <;> [refine (FailsWith.ok _).bind fun _ => ?_; refine (Decimal.failsWith_ofNode _).bind fun _ => ?_]
    all_goals
      split
      · exact .error rfl
      · split
        · exact .ok _
        · exact .error rfl
  · exact .error rfl

theorem Tag.failsWith_ofFlag (text : List Char) : FailsWith (Problem.isOfWriting ·) (Tag.ofFlag text) := by
  rw [Tag.ofFlag]
  split
  · exact .ok _
  · refine .error ?_
    split <;> rfl

theorem Tag.failsWith_ofNode (n : Node) : FailsWith (Problem.isOfWriting ·) (Tag.ofNode n) := by
  -- A cause within a part of the line is of the kind that it is without the part.
  have inLine {α : Type} {value : Except Problem α} (h : FailsWith (Problem.isOfWriting ·) value) :
      FailsWith (Problem.isOfWriting ·) (value.mapError (.inPart n.text)) := FailsWith.mapError h fun _ told => told
  unfold Tag.ofNode
  dsimp only
  split
  · exact (inLine (Money.failsWith_ofNode _)).map
  · exact (inLine (Money.failsWith_ofNode _)).map
  · exact (inLine (Decimal.failsWith_ofNode _)).map
  · exact .ok _
  · exact (inLine (ExchangeRate.failsWith_ofNodes _)).map
  · exact (inLine (Timestamp.failsWith_ofNode _)).map
  · exact .ok _
  · exact Tag.failsWith_ofFlag _
  · exact .error rfl

/-! ### Booking -/

namespace Draft

variable (d : Draft)

theorem failsWith_posting (leg : Leg) : FailsWith (Error.isOfReading ·) (d.posting leg) := .orError rfl _

theorem failsWith_party (what : String) : FailsWith (Error.isOfReading ·) (d.party what) := by
  unfold party
  dsimp only
  split
  · split
    · exact .error rfl
    · exact .ok _
  · exact .error rfl

theorem failsWith_expense : FailsWith (Error.isOfReading ·) d.expense := by
  refine (d.failsWith_party "expense").bind fun sides => ?_
  dsimp only
  split
  · exact .error rfl
  · exact .ok _

theorem failsWith_revenue : FailsWith (Error.isOfReading ·) d.revenue :=
  (d.failsWith_party "revenue").bind fun _ => .ok _

theorem failsWith_checkFee (source : Currency) : FailsWith (Error.isOfReading ·) (d.checkFee source) := by
  rw [checkFee]
  split
  · exact .ok _
  · split_ifs
    · exact .error rfl
    · exact .error rfl
    · exact .error rfl
    · exact .ok _

theorem failsWith_checkBalanced (currency : Currency) :
    FailsWith (Error.isOfReading ·) (d.checkBalanced currency) := by
  rw [checkBalanced]
  split
  · exact .error rfl
  · exact .require rfl _

theorem failsWith_convert (rate : ExchangeRate) (transfer : CurrencyPair) (amount : Decimal) :
    FailsWith (Error.isOfReading ·) (d.convert rate transfer amount) := by
  refine (FailsWith.orError rfl _).bind fun _ => ?_
  split_ifs
  · exact .orError rfl _
  · exact .orError rfl _
  · exact .error rfl

theorem failsWith_checkConversion : FailsWith (Error.isOfReading ·) d.checkConversion := by
  unfold checkConversion
  split
  · next source target _ _ =>
    refine (d.failsWith_posting source).bind fun _ => (d.failsWith_posting target).bind fun _ => ?_
    refine (FailsWith.orError rfl _).bind fun _ => (FailsWith.orError rfl _).bind fun _ => ?_
    exact (d.failsWith_convert _ _ _).bind fun _ => .require rfl _
  · exact .error rfl

theorem failsWith_splitFee (source : Leg) (sources : List Leg) :
    FailsWith (Error.isOfReading ·) (d.splitFee source sources) := by
  refine (d.failsWith_posting source).bind fun _ => ?_
  dsimp only
  split
  · exact .ok _
  · split_ifs
    · exact .ok _
    · exact (FailsWith.orError rfl _).bind fun _ => (FailsWith.orError rfl _).bind fun _ => .ok _

theorem failsWith_cashTransfer : FailsWith (Error.isOfReading ·) d.cashTransfer := by
  unfold cashTransfer
  split
  · next source sources _ _ _ _ =>
    refine (d.failsWith_posting source).bind fun _ => (d.failsWith_checkFee _).bind fun _ => ?_
    dsimp only
    split_ifs
    · exact (d.failsWith_checkBalanced _).bind fun _ => d.failsWith_splitFee source sources
    · exact d.failsWith_checkConversion.bind fun _ => d.failsWith_splitFee source sources
  · exact .error rfl

theorem failsWith_checkShares (shares : ShareCount) : FailsWith (Error.isOfReading ·) (d.checkShares shares) := by
  unfold checkShares
  split
  · split_ifs
    · exact .error rfl
    · exact .error rfl
    · exact .ok _
  · exact .error rfl

theorem failsWith_shareTransfer (shares : ShareCount) : FailsWith (Error.isOfReading ·) (d.shareTransfer shares) := by
  refine (FailsWith.require rfl _).bind fun _ => (FailsWith.require rfl _).bind fun _ => ?_
  refine (FailsWith.require rfl _).bind fun _ => (d.failsWith_checkShares shares).bind fun ends => ?_
  refine (d.failsWith_posting ends.1).bind fun _ => (d.failsWith_checkFee _).bind fun _ => ?_
  exact (d.failsWith_checkBalanced _).bind fun _ => .ok _

theorem failsWith_transfer : FailsWith (Error.isOfReading ·) d.transfer := by
  rw [transfer]
  split
  · exact .error rfl
  · split_ifs
    · exact .error rfl
    · split
      · exact d.failsWith_shareTransfer _
      · exact d.failsWith_cashTransfer

end Draft

theorem DividendDraft.failsWith_money (d : DividendDraft) : FailsWith (Error.isOfReading ·) d.money := by
  unfold DividendDraft.money
  split_ifs
  · exact .error rfl
  · split
    · exact .error rfl
    · split_ifs
      · exact .error rfl
      · exact .ok _

/-! ### Reading -/

namespace Statement

variable (lines : Array Line) (patterns : List Pattern) (keyword : Keyword) (n : Node)

theorem isLocated_of_locating {α : Type} {r : Except Error α} (h : FailsWith (Error.isOfReading ·) r) :
    FailsWith (Error.isLocated ·) (locating lines n r) :=
  FailsWith.mapError h fun _ told => Error.isLocated_locatedAt _ told

theorem failsWith_locating {α : Type} {r : Except Error α} (h : FailsWith (Error.isOfReading ·) r) :
    FailsWith (Error.isOfReading ·) (locating lines n r) :=
  (isLocated_of_locating lines n h).mono fun _ told => Error.isOfReading_of_isLocated told

theorem failsWith_tags (nodes : List Node) : FailsWith (Error.isOfReading ·) (Tags.ofNodes lines nodes) := by
  unfold Tags.ofNodes
  split
  · exact .ok _
  · exact .mapM fun n => (Tag.failsWith_ofNode n).mapError fun _ told => told

theorem failsWith_readSetting : FailsWith (Error.isOfReading ·) (readSetting lines n) := by
  unfold readSetting
  split
  · exact .ok _
  · exact .error rfl

theorem failsWith_readOpening : FailsWith (Error.isOfReading ·) (readOpening lines n) := by
  unfold readOpening
  split
  · next timestamp kind name money rest _ =>
    refine (Timestamp.failsWith_ofNode timestamp).plainly.bind fun _ => ?_
    refine (AccountRef.failsWith_ofNodes kind name).plainly.bind fun _ => ?_
    exact (Money.failsWith_ofNode money).plainly.bind fun _ => (failsWith_tags lines rest).bind fun _ => .ok _
  · exact .error rfl

theorem failsWith_readClosing : FailsWith (Error.isOfReading ·) (readClosing lines n) := by
  unfold readClosing
  split
  · next timestamp kind name _ _ =>
    refine (Timestamp.failsWith_ofNode timestamp).plainly.bind fun _ => ?_
    exact (AccountRef.failsWith_ofNodes kind name).plainly.bind fun _ => .ok _
  · exact .error rfl

theorem failsWith_readGroup : FailsWith (Error.isOfReading ·) (readGroup lines n) := by
  unfold readGroup
  split
  · exact .ok _
  · exact .error rfl

theorem failsWith_readRates : FailsWith (Error.isOfReading ·) (readRates lines n) := by
  unfold readRates
  split
  · next timestamp rates _ =>
    refine (Timestamp.failsWith_ofNode timestamp).plainly.bind fun _ => ?_
    refine FailsWith.bind (.mapM fun rate => ?_) fun _ => .ok _
    exact (ExchangeRate.failsWith_ofNodes rate.children).mapError fun _ told => told
  · exact .error rfl

theorem failsWith_readAssertion (account : AccountRef) (value : Node) :
    FailsWith (Problem.isOfWriting ·) (readAssertion account value) := by
  unfold readAssertion
  split
  · exact (Money.failsWith_ofNode _).map
  · exact .error rfl
  · exact (Money.failsWith_ofNode _).map
  · exact .error rfl

theorem failsWith_readBalanceEntry : FailsWith (Error.isOfReading ·) (readBalanceEntry lines n) := by
  unfold readBalanceEntry
  split
  · next account value _ =>
    refine (AccountRef.failsWith_ofNode account).plainly.bind fun account => ?_
    exact (failsWith_readAssertion account value).plainly.bind fun _ => .ok _
  · exact .error rfl

theorem failsWith_readBalance : FailsWith (Error.isOfReading ·) (readBalance lines n) := by
  unfold readBalance
  split
  · next timestamp entries _ =>
    refine (Timestamp.failsWith_ofNode timestamp).plainly.bind fun _ => ?_
    refine FailsWith.bind (.mapM fun entry => ?_) fun _ => .ok _
    exact failsWith_locating lines entry (failsWith_readBalanceEntry lines entry)
  · exact .error rfl

theorem failsWith_readLeg : FailsWith (Error.isOfReading ·) (readLeg lines n) := by
  unfold readLeg
  split
  · next account money _ _ =>
    refine (AccountRef.failsWith_ofNode account).plainly.bind fun _ => ?_
    exact (Money.failsWith_ofNode money).plainly.bind fun _ => .ok _
  · dsimp only
    split_ifs
    · exact .error rfl
    · exact .ok _
  · exact .error rfl

theorem failsWith_readDraft : FailsWith (Error.isOfReading ·) (readDraft lines patterns keyword n) := by
  unfold readDraft
  split
  · next timestamp legs rest _ =>
    refine (Timestamp.failsWith_ofNode timestamp).plainly.bind fun _ => FailsWith.bind (.mapM fun l => ?_) fun _ => ?_
    · exact failsWith_locating lines l (failsWith_readLeg lines l)
    · exact (failsWith_tags lines rest).bind fun _ => .ok _
  · exact .error rfl

theorem failsWith_readDividendDraft : FailsWith (Error.isOfReading ·) (readDividendDraft lines n) := by
  unfold readDividendDraft
  split
  · next timestamp source cash rest _ =>
    refine (Timestamp.failsWith_ofNode timestamp).plainly.bind fun _ => ?_
    split
    · refine (AccountRef.failsWith_ofNode _).plainly.bind fun _ => (FailsWith.ok _).bind fun _ => ?_
      refine (failsWith_locating lines cash (failsWith_readLeg lines cash)).bind fun _ => ?_
      exact (failsWith_tags lines rest).bind fun _ => .ok _
    · exact .error rfl
  · exact .error rfl

theorem failsWith_readDividend : FailsWith (Error.isOfReading ·) (readDividend lines patterns n) :=
  (failsWith_readDividendDraft lines n).bind fun d => d.failsWith_money.bind fun _ => .ok _

theorem failsWith_readPattern : FailsWith (Error.isOfReading ·) (readPattern lines n) := by
  unfold readPattern
  split
  · refine FailsWith.bind (FailsWith.plainly ?_) fun _ => (failsWith_tags lines _).bind fun _ => .ok _
    rw [Keyword.ofText]
    split
    · exact .ok _
    · exact .error rfl
  · exact .error rfl

/-- **A statement fails at a location**, for what is wrong with its writing or its meaning. -/
theorem failsWith_ofNode : FailsWith (Error.isLocated ·) (ofNode lines patterns n) := by
  refine isLocated_of_locating lines n ?_
  split
  · exact (failsWith_readSetting lines n).map
  · exact (failsWith_readOpening lines n).map
  · exact (failsWith_readClosing lines n).map
  · exact (failsWith_readRates lines n).map
  · exact (failsWith_readBalance lines n).map
  · exact (failsWith_readGroup lines n).map
  · exact (failsWith_readPattern lines n).map
  · exact (failsWith_readDraft lines patterns .expense n).bind fun d => d.failsWith_expense.map
  · exact (failsWith_readDraft lines patterns .revenue n).bind fun d => d.failsWith_revenue.map
  · exact (failsWith_readDraft lines patterns .transfer n).bind fun d => d.failsWith_transfer.map
  · exact (failsWith_readDividend lines patterns n).map
  · exact .error rfl

end Statement

/-! ### Journals -/

namespace Journal

variable {lines : List Line} {e : Error}

theorem failsWith_statements (lines : List Line) : FailsWith (Error.isLocated ·) (statements lines) := by
  unfold statements
  split
  · exact .ok _
  · exact .error rfl

theorem failsWith_ofStatements (lines : Array Line) (patterns : List Pattern) (nodes : List Node) :
    FailsWith (Error.isLocated ·) (ofStatements lines patterns nodes) := by
  induction nodes generalizing patterns with
  | nil => exact .ok _
  | cons n rest ih =>
    rw [ofStatements]
    refine (Statement.failsWith_ofNode lines patterns n).bind fun statement => ?_
    cases statement with
    | items is notices => exact (ih patterns).bind fun _ => .ok _
    | pattern p => exact (ih _).bind fun _ => .ok _

theorem failsWith_parse (lines : List Line) : FailsWith (Error.isLocated ·) (parse lines) :=
  (failsWith_statements lines).bind fun nodes => failsWith_ofStatements lines.toArray [] nodes

theorem location?_relocated (g : Location → Location) (e : Error) :
    (e.relocated g).location? = e.location?.map g := by
  cases e <;> rfl

theorem location_mem (failed : parse lines = .error e) {location : Location} (located : e.location? = some location) :
    ∃ l ∈ lines, l.location = location := by
  cases lines with
  | nil =>
    rw [parse_nil] at failed
    cases failed
  | cons first rest =>
    -- Every other location is moved to the first line, and the lines stay where they are.
    let g (other : Location) : Location :=
      if ∃ l ∈ first :: rest, l.location = other then other else first.location
    have stays : (first :: rest).map (Line.relocated g) = first :: rest := by
      refine (List.map_congr_left fun l mem => ?_).trans (List.map_id _)
      have isThere : g l.location = l.location := if_pos ⟨l, mem, rfl⟩
      rw [Line.relocated, isThere]
      rfl
    have moved := parse_relocated (g := g) (first :: rest)
    rw [Relocates, stays, failed] at moved
    have same : e = e.relocated g := Except.error.inj moved
    have fixed : location = g location := by
      have place := congrArg Error.location? same
      rw [location?_relocated, located] at place
      exact Option.some.inj place
    by_cases there : ∃ l ∈ first :: rest, l.location = location
    · exact there
    · exact ⟨first, List.mem_cons_self, (fixed.trans (if_neg there)).symm⟩

end Journal

/-- The error tells what is wrong with the writing or with the meaning of one of the lines. -/
def Error.IsIn (lines : List Line) (e : Error) : Prop :=
  ∃ l ∈ lines, ∃ why : Problem,
    (why.isOfWriting = true ∧ e = writing l.location why) ∨ (why.isOfBooking = true ∧ e = meaning l.location why)

/-- **Whatever is wrong with a ledger is wrong at one of its lines.** Nothing is wrong with no lines. -/
theorem Journal.error_of_parse :
    parse [] = .ok ⟨[], []⟩ ∧ ∀ (lines : List Line) (e : Error), parse lines = .error e → e.IsIn lines := by
  refine ⟨parse_nil, fun lines e failed => ?_⟩
  have located := failsWith_parse lines e failed
  have place {location : Location} : e.location? = some location → ∃ l ∈ lines, l.location = location :=
    location_mem failed
  cases e with
  | writing location why =>
    obtain ⟨l, mem, rfl⟩ := place rfl
    exact ⟨l, mem, why, .inl ⟨Error.isOfReading_of_isLocated located, rfl⟩⟩
  | meaning location why =>
    obtain ⟨l, mem, rfl⟩ := place rfl
    exact ⟨l, mem, why, .inr ⟨Error.isOfReading_of_isLocated located, rfl⟩⟩
  | plain why =>
    cases (Bool.and_eq_true_iff.1 located).2
  | during _ _ | loading _ => cases located

/-- Two lines of an expense that does not end. -/
def openExpense : List Line :=
  [⟨"ex 2021-01-02", ⟨⟨"house", 7⟩, []⟩⟩,
    ⟨"asset/purse -5 USD", ⟨⟨"purse", 1⟩, [⟨"house", 8⟩]⟩⟩]

/-- What misses is missed past the last line, and told at the last line. -/
theorem Journal.error_of_openExpense :
    parse openExpense = .error (refusal openExpense) ∧
      (refusal openExpense).location? = some ⟨⟨"purse", 1⟩, [⟨"house", 8⟩]⟩ ∧
      (refusal openExpense).IsIn openExpense := by
  have unread : (Grammar.ledger.read (Grammar.Cursor.start (joined openExpense))).isNone = true := by decide +kernel
  have refused : statements openExpense = .error (refusal openExpense) := by
    unfold statements
    split
    · next read =>
      rw [read] at unread
      cases unread
    · rfl
  have failed : parse openExpense = .error (refusal openExpense) := by
    rw [parse, refused]
    rfl
  exact ⟨failed, by decide +kernel, error_of_parse.2 openExpense _ failed⟩

end Daybook
