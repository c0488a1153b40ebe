import Daybook.Proofs.Journal.Composition
import Daybook.Proofs.Source.Relaid
import Mathlib.Tactic.SplitIfs

/-!
# Other locations

Reading copies locations into items, notices and errors, and decides nothing by them: lines at other locations
are read as the same with the other locations, or refused for the same problem at the other location
(`Journal.parse_relocated`). A result and the one at other locations are related by `Relocates`, which goes
through every step of reading and booking.
-/

namespace Daybook

open Grammar (Node)

variable (g : Location → Location)

/-! ### What has locations -/

def Leg.relocated (leg : Leg) : Leg := { leg with location := g leg.location }

def Transaction.relocated (t : Transaction) : Transaction :=
  { t with
    ins := t.ins.map (Leg.relocated g), outs := t.outs.map (Leg.relocated g), location := g t.location }

def BalanceEntry.relocated (e : BalanceEntry) : BalanceEntry := { e with location := g e.location }

def Item.relocated : Item → Item
  | opening o => opening { o with location := g o.location }
  | closing c => closing { c with location := g c.location }
  | balance b =>
    balance { b with entries := b.entries.map (BalanceEntry.relocated g), location := g b.location }
  | transaction t => transaction (t.relocated g)
  | rates r => rates { r with location := g r.location }
  | setting s => setting { s with location := g s.location }
  | group s => group { s with location := g s.location }

def Notice.relocated : Notice → Notice
  | alreadyIncluded name => alreadyIncluded name
  | patternRegistered keyword accounts => patternRegistered keyword accounts
  | feeBooked location fee intermediary => feeBooked (g location) fee intermediary
  | unknownSetting location key => unknownSetting (g location) key
  | ratesSkipped location => ratesSkipped (g location)
  | itemSkipped location effective => itemSkipped (g location) effective
  | sharesBooked location shares price holder => sharesBooked (g location) shares price holder
  | drift location account asserted time computed => drift (g location) account asserted time computed

def Draft.relocated (d : Draft) : Draft :=
  { d with legs := d.legs.map (Leg.relocated g), location := g d.location }

def DividendDraft.relocated (d : DividendDraft) : DividendDraft :=
  { d with
    cash := d.cash.relocated g, sourceLocation := g d.sourceLocation, location := g d.location }

def Booked.relocated (b : Booked) : Booked :=
  ⟨b.transactions.map (Transaction.relocated g), b.notices.map (Notice.relocated g)⟩

def Statement.relocated : Statement → Statement
  | items is notices => items (is.map (Item.relocated g)) (notices.map (Notice.relocated g))
  | pattern p => pattern p

def Journal.relocated (j : Journal) : Journal :=
  ⟨j.items.map (Item.relocated g), j.notices.map (Notice.relocated g)⟩

def Context.relocated : Context → Context
  | valueAccount account => valueAccount account
  | valueTransaction location => valueTransaction (g location)

/-- The same problem, somewhere else. -/
def Error.relocated : Error → Error
  | writing location why => writing (g location) why
  | meaning location why => meaning (g location) why
  | plain why => plain why
  | during context why => during (context.relocated g) why
  | loading why => loading (why.relocated g)

/-! ### Results at other locations -/

section

variable {α β γ δ : Type} {move : α → γ} {move' : β → δ}

/-- The second result is the first at other locations. -/
def Relocates (move : α → γ) (r : Except Error α) (r' : Except Error γ) : Prop :=
  r' = (r.map move).mapError (Error.relocated g)

variable {g}

namespace Relocates

theorem bind {r : Except Error α} {r' : Except Error γ} {f : α → Except Error β} {f' : γ → Except Error δ}
    (h : Relocates g move r r') (next : ∀ a, Relocates g move' (f a) (f' (move a))) :
    Relocates g move' (r >>= f) (r' >>= f') := by
  subst h
  cases r with
  | error e => rfl
  | ok a => exact next a

theorem map {r : Except Error α} {r' : Except Error γ} {f : α → β} {f' : γ → δ} (h : Relocates g move r r')
    (same : ∀ a, f' (move a) = move' (f a)) : Relocates g move' (r.map f) (r'.map f') :=
  h.bind fun a => congrArg Except.ok (same a)

/-- A step that has nothing to do with locations comes first. -/
theorem plainly {r : Except Problem α} {f : α → Except Error β} {f' : α → Except Error δ}
    (next : ∀ a, Relocates g move' (f a) (f' a)) :
    Relocates g move' (plainly r >>= f) (plainly r >>= f') := by
  cases r with
  | error e => rfl
  | ok a => exact next a

theorem orError (value : Option α) (e : Error) : Relocates g id (orError value e) (orError value (e.relocated g)) := by
  cases value <;> rfl

theorem require (condition : Bool) (e : Error) :
    Relocates g id (require condition e) (require condition (e.relocated g)) := by
  cases condition <;> rfl

theorem locatedAt {r : Except Error α} {r' : Except Error γ} (h : Relocates g move r r') (location : Location) :
    Relocates g move (r.mapError (.locatedAt location)) (r'.mapError (.locatedAt (g location))) := by
  subst h
  cases r with
  | error e => cases e <;> rfl
  | ok a => rfl

theorem writing (r : Except Problem α) (location : Location) :
    Relocates g id (r.mapError (.writing location)) (r.mapError (.writing (g location))) := by
  cases r <;> rfl

theorem mapM {ι : Type} {f : ι → Except Error α} {f' : ι → Except Error γ} {xs : List ι}
    (h : ∀ x, Relocates g move (f x) (f' x)) : Relocates g (List.map move) (xs.mapM f) (xs.mapM f') := by
  induction xs with
  | nil => rfl
  | cons x xs ih =>
    rw [List.mapM_cons, List.mapM_cons]
    refine (h x).bind fun a => ih.bind fun as => ?_
    rfl

end Relocates

end

/-! ### Booking -/

namespace Draft

variable {g} (d : Draft)

theorem filter_relocated {keep : Leg → Bool} (same : ∀ leg : Leg, keep (leg.relocated g) = keep leg)
    (legs : List Leg) : (legs.map (Leg.relocated g)).filter keep = (legs.filter keep).map (Leg.relocated g) := by
  rw [List.filter_map]
  exact congrArg _ (congrArg (List.filter · legs) (funext same))

theorem sources_relocated : (d.relocated g).sources = d.sources.map (Leg.relocated g) :=
  filter_relocated (fun _ => rfl) d.legs

theorem targets_relocated : (d.relocated g).targets = d.targets.map (Leg.relocated g) :=
  filter_relocated (fun _ => rfl) d.legs

theorem currencies_relocated : (d.relocated g).currencies = d.currencies := by
  simp only [currencies, relocated, List.any_map]
  rfl

theorem tags_relocated : (d.relocated g).tags = d.tags := rfl

theorem toTransaction_relocated (kind : TransactionKind) (ins outs : List Leg) :
    (d.relocated g).toTransaction kind (ins.map (Leg.relocated g)) (outs.map (Leg.relocated g))
      = (d.toTransaction kind ins outs).relocated g := rfl

theorem relocates_posting (leg : Leg) :
    Relocates g id (d.posting leg) ((d.relocated g).posting (leg.relocated g)) := .orError _ _

theorem relocates_party (what : String) :
    Relocates g (fun sides => (sides.1.relocated g, sides.2.map (Leg.relocated g))) (d.party what)
      ((d.relocated g).party what) := by
  have owned : (d.relocated g).legs.filter Leg.isOwned = (d.legs.filter Leg.isOwned).map (Leg.relocated g) :=
    filter_relocated (fun _ => rfl) d.legs
  have others : (d.relocated g).legs.filter (!·.isOwned)
      = (d.legs.filter (!·.isOwned)).map (Leg.relocated g) := filter_relocated (fun _ => rfl) d.legs
  simp only [party, owned, others, List.isEmpty_map]
  generalize d.legs.filter (!·.isOwned) = outside
  rcases outside with _ | ⟨payee, _ | ⟨other, rest⟩⟩
  · rfl
  · simp only [List.map_cons, List.map_nil]
    split <;> rfl
  · simp only [List.map_cons, List.length_cons, List.length_map]
    rfl

theorem relocates_expense : Relocates g (Booked.relocated g) d.expense (d.relocated g).expense := by
  refine (d.relocates_party "expense").bind fun sides => ?_
  obtain ⟨payee, owned⟩ := sides
  have same : (owned.map (Leg.relocated g)).find? (fun leg => decide (.zero ≤ leg.value))
      = (owned.find? fun leg => decide (.zero ≤ leg.value)).map (Leg.relocated g) := List.find?_map ..
  dsimp only
  rw [same]
  cases owned.find? fun leg => decide (.zero ≤ leg.value) <;> rfl

theorem relocates_revenue : Relocates g (Booked.relocated g) d.revenue (d.relocated g).revenue := by
  refine (d.relocates_party "revenue").bind fun sides => ?_
  obtain ⟨payer, owned⟩ := sides
  have ins := @filter_relocated g (fun leg => decide (leg.value < .zero)) (fun _ => rfl) owned
  have outs := @filter_relocated g (fun leg => !decide (leg.value < .zero)) (fun _ => rfl) owned
  dsimp only
  rw [ins, outs]
  show Except.ok (Booked.mk [_] []) = Except.ok (Booked.mk [_] [])
  rw [← toTransaction_relocated, List.map_append]
  rfl

theorem relocates_checkFee (source : Currency) :
    Relocates g id (d.checkFee source) ((d.relocated g).checkFee source) := by
  rw [checkFee, checkFee, tags_relocated]
  cases d.tags.fee? with
  | none => rfl
  | some fee =>
    dsimp only
    split_ifs <;> rfl

theorem relocates_checkBalanced (currency : Currency) :
    Relocates g id (d.checkBalanced currency) ((d.relocated g).checkBalanced currency) := by
  have values : (d.relocated g).legs.map Leg.value = d.legs.map Leg.value := List.map_map
  have fee : (d.relocated g).feeAmount = d.feeAmount := rfl
  simp only [checkBalanced, values, fee]
  cases Decimal.sum (d.legs.map Leg.value ++ [d.feeAmount]) with
  | none => rfl
  | some left => exact .require _ _

theorem relocates_convert (rate : ExchangeRate) (transfer : CurrencyPair) (amount : Decimal) :
    Relocates g id (d.convert rate transfer amount) ((d.relocated g).convert rate transfer amount) := by
  refine Relocates.bind (.orError _ _) fun perUnit => ?_
  dsimp only [id_eq]
  split_ifs
  · exact .orError _ _
  · exact .orError _ _
  · rfl

theorem relocates_checkConversion :
    Relocates g id d.checkConversion (d.relocated g).checkConversion := by
  simp only [checkConversion, sources_relocated, targets_relocated]
  rcases d.sources with _ | ⟨source, _ | ⟨other, sources⟩⟩
  · rfl
  · rcases d.targets with _ | ⟨target, _ | ⟨other, targets⟩⟩
    · rfl
    · refine (d.relocates_posting source).bind fun given => (d.relocates_posting target).bind fun taken => ?_
      refine Relocates.bind (.orError _ _) fun rate => Relocates.bind (.orError _ _) fun amount => ?_
      exact (d.relocates_convert rate _ amount).bind fun converted => .require _ _
    · rfl
  · rfl

theorem relocates_splitFee (source : Leg) (sources : List Leg) :
    Relocates g (Booked.relocated g) (d.splitFee source sources)
      ((d.relocated g).splitFee (source.relocated g) (sources.map (Leg.relocated g))) := by
  refine (d.relocates_posting source).bind fun given => ?_
  obtain ⟨account, money⟩ := given
  dsimp only [id_eq]
  rw [tags_relocated, targets_relocated]
  cases d.tags.fee? with
  | none => rfl
  | some fee =>
    dsimp only
    split
    · rfl
    · refine Relocates.bind (.orError _ _) fun rest => Relocates.bind (.orError _ _) fun intermediary => ?_
      rfl

theorem relocates_cashTransfer :
    Relocates g (Booked.relocated g) d.cashTransfer (d.relocated g).cashTransfer := by
  simp only [cashTransfer, sources_relocated, targets_relocated]
  rcases d.sources with _ | ⟨source, sources⟩
  · rfl
  rcases d.targets with _ | ⟨target, targets⟩
  · rfl
  refine (d.relocates_posting source).bind fun given => (d.relocates_checkFee _).bind fun _ => ?_
  rw [currencies_relocated]
  split
  · exact (d.relocates_checkBalanced _).bind fun _ => d.relocates_splitFee source sources
  · exact d.relocates_checkConversion.bind fun _ => d.relocates_splitFee source sources

theorem relocates_checkShares (shares : ShareCount) :
    Relocates g (fun ends => (ends.1.relocated g, ends.2.relocated g)) (d.checkShares shares)
      ((d.relocated g).checkShares shares) := by
  simp only [checkShares, sources_relocated, targets_relocated]
  rcases d.sources with _ | ⟨source, _ | ⟨other, sources⟩⟩
  · rfl
  · rcases d.targets with _ | ⟨target, _ | ⟨other, targets⟩⟩
    · rfl
    · have kind (leg : Leg) : isEquity (leg.relocated g) = isEquity leg := rfl
      simp only [List.map_cons, List.map_nil, kind]
      split_ifs <;> rfl
    · rfl
  · rfl

theorem relocates_shareTransfer (shares : ShareCount) :
    Relocates g (Booked.relocated g) (d.shareTransfer shares) ((d.relocated g).shareTransfer shares) := by
  have length : (d.relocated g).legs.length = d.legs.length := List.length_map ..
  rw [shareTransfer, shareTransfer, length, currencies_relocated]
  refine Relocates.bind (.require _ _) fun _ => Relocates.bind (.require _ _) fun _ => ?_
  refine Relocates.bind (.require _ _) fun _ => (d.relocates_checkShares shares).bind fun ends => ?_
  refine (d.relocates_posting ends.1).bind fun given => (d.relocates_checkFee _).bind fun _ => ?_
  exact (d.relocates_checkBalanced _).bind fun _ => rfl

theorem relocates_transfer : Relocates g (Booked.relocated g) d.transfer (d.relocated g).transfer := by
  have outside : (d.relocated g).legs.find? (!·.isOwned)
      = (d.legs.find? (!·.isOwned)).map (Leg.relocated g) := List.find?_map ..
  have length : (d.relocated g).legs.length = d.legs.length := List.length_map ..
  rw [transfer, transfer, outside, length, tags_relocated]
  cases d.legs.find? (!·.isOwned) with
  | some leg => rfl
  | none =>
    dsimp only [Option.map_none]
    split
    · rfl
    · cases d.tags.shares? with
      | none => exact d.relocates_cashTransfer
      | some shares => exact d.relocates_shareTransfer shares

end Draft

variable {g}

theorem DividendDraft.relocates_money (d : DividendDraft) :
    Relocates g id d.money (d.relocated g).money := by
  have account : (d.relocated g).account = d.account := rfl
  have money : (d.relocated g).cash.money = d.cash.money := rfl
  rw [DividendDraft.money, DividendDraft.money, account, money]
  split
  · rfl
  · cases d.cash.money with
    | none => rfl
    | some money =>
      dsimp only
      split <;> rfl

/-! ### Reading -/

/-- The lines with the same numbers are at other locations. -/
def IsRelocated (g : Location → Location) (lines lines' : Array Line) : Prop :=
  ∀ number, locationOf lines' number = g (locationOf lines number)

namespace Statement

variable {lines lines' : Array Line} (moved : IsRelocated g lines lines') (patterns : List Pattern)
  (keyword : Keyword) (n : Node)

include moved

theorem location_relocated : n.location lines' = g (n.location lines) := moved n.line

theorem relocates_locating {α γ : Type} {move : α → γ} {r : Except Error α} {r' : Except Error γ}
    (h : Relocates g move r r') : Relocates g move (locating lines n r) (locating lines' n r') := by
  rw [locating, locating, location_relocated moved]
  exact h.locatedAt _

theorem relocates_tags (nodes : List Node) :
    Relocates g id (Tags.ofNodes lines nodes) (Tags.ofNodes lines' nodes) := by
  cases nodes with
  | nil => rfl
  | cons block rest =>
    rw [← List.map_id_fun]
    refine Relocates.mapM fun n => ?_
    rw [location_relocated moved]
    exact .writing _ _

theorem relocates_readSetting :
    Relocates g (fun s => { s with location := g s.location }) (readSetting lines n) (readSetting lines' n) := by
  rw [readSetting, readSetting, location_relocated moved]
  split <;> rfl

theorem relocates_readOpening :
    Relocates g (fun o => { o with location := g o.location }) (readOpening lines n) (readOpening lines' n) := by
  rw [readOpening, readOpening, location_relocated moved]
  split
  · refine .plainly fun timestamp => .plainly fun account => .plainly fun balance => ?_
    exact (relocates_tags moved _).bind fun tags => rfl
  · rfl

theorem relocates_readClosing :
    Relocates g (fun c => { c with location := g c.location }) (readClosing lines n) (readClosing lines' n) := by
  rw [readClosing, readClosing, location_relocated moved]
  split
  · exact .plainly fun timestamp => .plainly fun account => rfl
  · rfl

theorem relocates_readGroup :
    Relocates g (fun s => { s with location := g s.location }) (readGroup lines n) (readGroup lines' n) := by
  rw [readGroup, readGroup, location_relocated moved]
  split <;> rfl

theorem relocates_readRates :
    Relocates g (fun r => { r with location := g r.location }) (readRates lines n) (readRates lines' n) := by
  rw [readRates, readRates, location_relocated moved]
  split
  · next timestamp rates _ =>
    refine .plainly fun timestamp => ?_
    have read : Relocates g (List.map id)
        (rates.mapM fun rate => (ExchangeRate.ofNodes rate.children).mapError fun why =>
          Error.writing (rate.location lines) (.inPart rate.text why))
        (rates.mapM fun rate => (ExchangeRate.ofNodes rate.children).mapError fun why =>
          Error.writing (rate.location lines') (.inPart rate.text why)) := by
      refine .mapM fun rate => ?_
      rw [location_relocated moved]
      cases ExchangeRate.ofNodes rate.children <;> rfl
    refine read.bind fun rates => ?_
    rw [List.map_id]
    rfl
  · rfl

theorem relocates_readBalanceEntry :
    Relocates g (BalanceEntry.relocated g) (readBalanceEntry lines n) (readBalanceEntry lines' n) := by
  rw [readBalanceEntry, readBalanceEntry, location_relocated moved]
  split
  · exact .plainly fun account => .plainly fun assertion => rfl
  · rfl

theorem relocates_readBalance :
    Relocates g (fun b => { b with entries := b.entries.map (BalanceEntry.relocated g), location := g b.location })
      (readBalance lines n) (readBalance lines' n) := by
  rw [readBalance, readBalance, location_relocated moved]
  split
  · refine .plainly fun timestamp => ?_
    refine Relocates.bind (.mapM fun entry => ?_) fun entries => rfl
    exact relocates_locating moved entry (relocates_readBalanceEntry moved entry)
  · rfl

theorem relocates_readLeg : Relocates g (Leg.relocated g) (readLeg lines n) (readLeg lines' n) := by
  rw [readLeg, readLeg, location_relocated moved]
  split
  · exact .plainly fun account => .plainly fun money => rfl
  · dsimp only
    split <;> rfl
  · rfl

theorem relocates_readDraft :
    Relocates g (Draft.relocated g) (readDraft lines patterns keyword n) (readDraft lines' patterns keyword n) := by
  rw [readDraft, readDraft, location_relocated moved]
  split
  · refine .plainly fun timestamp => ?_
    refine Relocates.bind (.mapM fun l => relocates_locating moved l (relocates_readLeg moved l)) fun legs => ?_
    refine (relocates_tags moved _).bind fun tags => ?_
    have owners : (legs.map (Leg.relocated g)).map Leg.owner = legs.map Leg.owner := List.map_map
    rw [owners]
    rfl
  · rfl

theorem relocates_readDividendDraft :
    Relocates g (DividendDraft.relocated g) (readDividendDraft lines n) (readDividendDraft lines' n) := by
  rw [readDividendDraft, readDividendDraft, location_relocated moved]
  split
  · next timestamp source cash rest _ =>
    refine .plainly fun timestamp => ?_
    rw [location_relocated moved]
    split
    · refine .plainly fun account => Relocates.bind (rfl : Relocates g id (.ok _) _) fun source => ?_
      refine Relocates.bind (relocates_locating moved cash (relocates_readLeg moved cash)) fun cash => ?_
      exact (relocates_tags moved rest).bind fun tags => rfl
    · rfl
  · rfl

theorem relocates_readDividend :
    Relocates g (Booked.relocated g) (readDividend lines patterns n) (readDividend lines' patterns n) := by
  refine (relocates_readDividendDraft moved n).bind fun d => d.relocates_money.bind fun money => ?_
  rfl

theorem relocates_readPattern : Relocates g id (readPattern lines n) (readPattern lines' n) := by
  rw [readPattern, readPattern]
  split
  · exact .plainly fun keyword => (relocates_tags moved _).bind fun tags => rfl
  · rfl

omit moved in
theorem relocated_ofBooked (b : Booked) : ofBooked (b.relocated g) = (ofBooked b).relocated g := by
  rw [ofBooked, ofBooked, relocated, Booked.relocated, List.map_map, List.map_map]
  rfl

/-- **Reading looks at locations only to write them down.** -/
theorem relocates_ofNode : Relocates g (Statement.relocated g) (ofNode lines patterns n) (ofNode lines' patterns n) := by
  have drafted (keyword : Keyword) {book : Draft → Except Error Booked}
      (relocates : ∀ d, Relocates g (Booked.relocated g) (book d) (book (d.relocated g))) :
      Relocates g (Statement.relocated g)
        ((readDraft lines patterns keyword n).bind fun d => (book d).map ofBooked)
        ((readDraft lines' patterns keyword n).bind fun d => (book d).map ofBooked) :=
    (relocates_readDraft moved patterns keyword n).bind fun d => (relocates d).map relocated_ofBooked
  refine relocates_locating moved n ?_
  split
  · exact (relocates_readSetting moved n).map fun _ => rfl
  · exact (relocates_readOpening moved n).map fun _ => rfl
  · exact (relocates_readClosing moved n).map fun _ => rfl
  · exact (relocates_readRates moved n).map fun _ => rfl
  · exact (relocates_readBalance moved n).map fun _ => rfl
  · exact (relocates_readGroup moved n).map fun _ => rfl
  · exact (relocates_readPattern moved n).map fun _ => rfl
  · exact drafted .expense Draft.relocates_expense
  · exact drafted .revenue Draft.relocates_revenue
  · exact drafted .transfer Draft.relocates_transfer
  · exact (relocates_readDividend moved patterns n).map relocated_ofBooked
  · rfl

end Statement

/-! ### Journals -/

namespace Journal

theorem relocates_ofStatements {lines lines' : Array Line} (moved : IsRelocated g lines lines')
    (patterns : List Pattern) (nodes : List Node) :
    Relocates g (Journal.relocated g) (ofStatements lines patterns nodes) (ofStatements lines' patterns nodes) := by
  induction nodes generalizing patterns with
  | nil => rfl
  | cons n rest ih =>
    rw [ofStatements, ofStatements]
    refine (Statement.relocates_ofNode moved patterns n).bind fun statement => ?_
    cases statement with
    | items is notices =>
      refine (ih patterns).bind fun later => ?_
      show Except.ok (Journal.mk _ _) = Except.ok (Journal.mk _ _)
      rw [List.map_append, List.map_append]
      rfl
    | pattern p => exact (ih _).bind fun later => rfl

theorem isRelocated_map {lines : List Line} (some : lines ≠ []) :
    IsRelocated g lines.toArray (lines.map (Line.relocated g)).toArray := by
  intro number
  have size := List.length_pos_iff.2 some
  have inside : min (number - 1) (lines.length - 1) < lines.length := by omega
  simp only [locationOf, List.getElem?_toArray, List.size_toArray, List.length_map, List.getElem?_map,
    List.getElem?_eq_getElem inside]
  rfl

theorem joined_relocated (lines : List Line) : joined (lines.map (Line.relocated g)) = joined lines := by
  rw [joined, List.flatMap_map]
  rfl

theorem refusal_relocated {lines : List Line} (some : lines ≠ []) :
    refusal (lines.map (Line.relocated g)) = (refusal lines).relocated g := by
  have text (number : Nat) : (lines.map (Line.relocated g))[number]?.map Line.text = lines[number]?.map Line.text := by
    rw [List.getElem?_map, Option.map_map]
    rfl
  rw [refusal, refusal, joined_relocated, text, isRelocated_map some]
  rfl

theorem relocates_statements {lines : List Line} (some : lines ≠ []) :
    Relocates g id (statements lines) (statements (lines.map (Line.relocated g))) := by
  unfold statements
  rw [joined_relocated, refusal_relocated some]
  split <;> rfl

/-- **Locations do not matter.** Lines at other locations are read as the same items and notices at the other
locations, or refused for the same problem there. -/
theorem parse_relocated (lines : List Line) :
    Relocates g (Journal.relocated g) (parse lines) (parse (lines.map (Line.relocated g))) := by
  -- Where there are no lines, locations are made up, but nothing is located.
  by_cases none : lines = []
  · subst none
    rw [List.map_nil, parse_nil]
    rfl
  refine (relocates_statements none).bind fun nodes => ?_
  exact relocates_ofStatements (isRelocated_map none) [] nodes

end Journal

end Daybook
