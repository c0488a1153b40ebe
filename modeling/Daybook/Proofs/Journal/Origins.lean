import Daybook.Proofs.Journal.Emitted
import Daybook.Proofs.Journal.Places

/-!
# Where the items of a statement come from

Each item is located where its statement starts, and each leg and each entry of a balance where it is written
itself (`comeFrom_of_ofNode`). What is booked beside what is written is located as well: the fee of a transfer at
the source that pays it and at the statement, and the revenue that a dividend is at the legs of the dividend.
-/

namespace Daybook

open Grammar (Node Part)

/-! ### What is written in a part -/

namespace Grammar.Part

/-- The legs that a part of a transaction has: those of its block, or the source of a dividend and the leg that
it is paid to. -/
def legsIn (q : Part) : List Part :=
  match q.rule with
  | .legs => q.parts
  | .dividendSource | .ownedLeg => [q]
  | _ => []

/-- The legs of a transaction as they are written. -/
def legs (p : Part) : List Part := p.parts.flatMap legsIn

/-- The entries of a balance as they are written. -/
def entries (p : Part) : List Part := p.parts.filter fun q => decide (q.rule = .balanceEntry)

/-- Who is named in a leg, in the source of a dividend or in an entry of a balance. -/
def owner? (p : Part) : Option Owner :=
  match p.rule, p.parts with
  | .externalLeg, _ => some (.external (Text.trimmed (String.ofList p.text)))
  | _, account :: _ => (AccountRef.ofNode account.node).toOption.map .owned
  | _, [] => none

/-- The amount that is written in a leg. -/
def money? (p : Part) : Option Money :=
  match p.rule, p.parts with
  | .ownedLeg, [_, money] => (Money.ofNode money.node).toOption
  | _, _ => none

end Grammar.Part

/-- The leg is written in the part. -/
structure Leg.IsWrittenAt (lines : List Line) (leg : Leg) (p : Part) : Prop where
  place : p.IsAt lines leg.location
  owner : p.owner? = some leg.owner
  /-- A dividend is written with its amount at the leg that it is paid to. -/
  money : p.rule ≠ .dividendSource → leg.money = p.money?

/-- The legs of the part are these, in the order in which they are written. -/
def Grammar.Part.Writes (lines : List Line) (p : Part) (legs : List Leg) : Prop :=
  List.Forall₂ (fun q leg => Leg.IsWrittenAt lines leg q) p.legs legs

/-- The entry is written in the part. -/
structure BalanceEntry.IsWrittenAt (lines : List Line) (e : BalanceEntry) (p : Part) : Prop where
  place : p.IsAt lines e.location
  owner : p.owner? = some (.owned e.account)

/-- The transaction has these legs in some order. If it is charged a fee, the amount of the first differs. -/
def Transaction.HasLegs (t : Transaction) (charged : Prop) (written : List Leg) : Prop :=
  t.legs.Perm written ∨
    charged ∧ ∃ source money rest, t.legs = { source with money := some money } :: rest ∧
      (source :: rest).Perm written

/-- The items are what a statement is booked as, each thing in them located where it comes from. -/
structure ComeFrom (lines : List Line) (p : Part) (items : List Item) : Prop where
  item : ∀ i ∈ items, p.IsAt lines i.location
  entry : ∀ b, .balance b ∈ items → List.Forall₂ (fun q e => BalanceEntry.IsWrittenAt lines e q) p.entries b.entries
  leg : ∀ t, .transaction t ∈ items → t.origin = .ledger →
    ∃ written, p.Writes lines written ∧ t.HasLegs (∃ f, .transaction f ∈ items ∧ f.origin = .transferFee) written
  /-- The legs of a fee are located at the first source of the transfer, which pays it, and at the statement. -/
  fee : ∀ f, .transaction f ∈ items → f.origin = .transferFee →
    ∃ paid source payer payee, .transaction paid ∈ items ∧ paid.origin = .ledger ∧
      paid.ins.head? = some source ∧ f.ins = [payer] ∧ f.outs = [payee] ∧
      payer.owner = source.owner ∧ payer.location = source.location ∧ payee.location = paid.location
  /-- The revenue that a dividend is has the legs of the dividend, with their locations. -/
  revenue : ∀ r, .transaction r ∈ items → r.origin = .dividendRevenue →
    ∃ paid, .transaction paid ∈ items ∧ paid.origin = .ledger ∧ r.ins = paid.ins ∧ r.outs = paid.outs

/-! ### The parts of a statement -/

namespace Grammar.Part

variable {p : Part}

theorem rules_of_isPart {inside : Frame} (h : p.node.IsPart) (holds : p.rule.Holds inside) :
    inside.Fits (p.parts.map Part.rule) := by
  have fits := h.fits (by rwa [rule_node])
  rw [children_node, List.map_map] at fits
  have same : Node.rule ∘ Part.node = Part.rule := funext rule_node
  rwa [same] at fits

theorem legsIn_of_withBlocks {ps : List Part} (tags : ∀ r ∈ ps.map Part.rule, r ∈ [Rule.withBlock]) :
    ps.flatMap legsIn = [] := by
  rw [List.flatMap_eq_nil_iff]
  intro q mem
  rw [legsIn, List.mem_singleton.1 (tags q.rule (List.mem_map_of_mem mem))]

theorem legs_of_hasLegs (h : p.node.IsPart) (keyword : p.rule.hasLegs = true) :
    ∃ time block tags, p.parts = time :: block :: tags ∧ p.legs = block.parts := by
  obtain ⟨rest, rules, isTags⟩ := rules_of_isPart h (holds_of_hasLegs keyword)
  obtain ⟨time, ps, parts, isTime, rules⟩ := List.map_eq_cons_iff.1 rules
  obtain ⟨block, tags, rfl, isBlock, rfl⟩ := List.map_eq_cons_iff.1 rules
  refine ⟨time, block, tags, parts, ?_⟩
  rw [legs, parts, List.flatMap_cons, List.flatMap_cons, legsIn_of_withBlocks isTags, legsIn, legsIn, isTime,
    isBlock]
  exact List.append_nil _

theorem legs_of_dividend (h : p.node.IsPart) (keyword : p.rule = .dividendStatement) :
    ∃ time source cash tags, p.parts = time :: source :: cash :: tags ∧ source.rule = .dividendSource ∧
      cash.rule = .ownedLeg ∧ p.legs = [source, cash] := by
  obtain ⟨rest, rules, isTags⟩ := rules_of_isPart h (keyword ▸ holds_dividendStatement)
  obtain ⟨time, ps, parts, isTime, rules⟩ := List.map_eq_cons_iff.1 rules
  obtain ⟨source, ps, rfl, isSource, rules⟩ := List.map_eq_cons_iff.1 rules
  obtain ⟨cash, tags, rfl, isCash, rfl⟩ := List.map_eq_cons_iff.1 rules
  refine ⟨time, source, cash, tags, parts, isSource, isCash, ?_⟩
  rw [legs, parts, List.flatMap_cons, List.flatMap_cons, List.flatMap_cons, legsIn_of_withBlocks isTags, legsIn,
    legsIn, legsIn, isTime, isSource, isCash]
  rfl

theorem entries_of_balance (h : p.node.IsPart) (keyword : p.rule = .balanceStatement) :
    ∃ time, p.parts = time :: p.entries ∧ ∀ q ∈ p.entries, q.rule = .balanceEntry := by
  obtain ⟨rest, rules, isEntries⟩ := rules_of_isPart h (keyword ▸ holds_balanceStatement)
  obtain ⟨time, es, parts, isTime, rfl⟩ := List.map_eq_cons_iff.1 rules
  have each (q : Part) (mem : q ∈ es) : q.rule = .balanceEntry :=
    List.mem_singleton.1 (isEntries q.rule (List.mem_map_of_mem mem))
  have all : p.entries = es := by
    rw [entries, parts, List.filter_cons_of_neg (by simp [isTime]), List.filter_eq_self]
    intro q mem
    exact decide_eq_true (each q mem)
  rw [all]
  exact ⟨time, parts, each⟩

end Grammar.Part

/-! ### Reading -/

theorem forall₂_of_mapM {α β ε : Type} {f : α → Except ε β} {R : α → β → Prop} {xs : List α} {ys : List β}
    (h : xs.mapM f = .ok ys) (each : ∀ x ∈ xs, ∀ y, f x = .ok y → R x y) : List.Forall₂ R xs ys := by
  induction xs generalizing ys with
  | nil =>
    cases h
    exact .nil
  | cons x rest ih =>
    simp only [List.mapM_cons, bind_eq_ok_iff] at h
    obtain ⟨y, read, later, h, same⟩ := h
    cases same
    exact .cons (each x List.mem_cons_self y read) (ih h fun x' mem => each x' (List.mem_cons_of_mem _ mem))

theorem exists_pair_of_map {α β : Type} {f : α → β} {xs : List α} {y z : β} (h : xs.map f = [y, z]) :
    ∃ a b, xs = [a, b] ∧ f a = y ∧ f b = z := by
  obtain ⟨a, rest, rfl, first, h⟩ := List.map_eq_cons_iff.1 h
  obtain ⟨b, rfl, second⟩ := List.map_eq_singleton_iff.1 h
  exact ⟨a, b, rfl, first, second⟩

theorem plainly_eq_ok_iff {α : Type} {result : Except Problem α} {a : α} :
    plainly result = .ok a ↔ result.toOption = some a :=
  mapError_eq_ok_iff.trans toOption_eq_some_iff.symm

section

variable {lines : List Line} {patterns : List Pattern} {p q : Part}

/-- A leg that is read from a part is written in it. -/
theorem isWrittenAt_of_readLeg {leg : Leg} (single : ∀ l ∈ lines, l.IsSingle) (found : q.Found lines)
    (h : Statement.readLeg lines.toArray q.node = .ok leg) : leg.IsWrittenAt lines q := by
  rw [Statement.readLeg, Part.rule_node, Part.children_node] at h
  split at h
  · next isLeg children =>
    obtain ⟨account, money, parts, rfl, rfl⟩ := exists_pair_of_map children
    simp only [bind_eq_ok_iff, plainly_eq_ok_iff, Except.ok.injEq] at h
    obtain ⟨a, isAccount, m, isMoney, rfl⟩ := h
    refine ⟨found.isAt single (by rw [isLeg]; rfl), ?_, fun _ => ?_⟩
    · simp only [Part.owner?, isLeg, parts, isAccount]
      rfl
    · simp only [Part.money?, isLeg, parts, isMoney]
      rfl
  · next isLabel =>
    simp only at h
    split at h
    · cases h
    · cases h
      refine ⟨found.isAt single (by rw [isLabel]; rfl), ?_, fun _ => ?_⟩
      · rw [Part.owner?, isLabel, Part.text_node]
        rfl
      · rw [Part.money?, isLabel]
        rfl
  · cases h

/-- The legs of a draft are written in the legs of its statement. -/
theorem written_of_readDraft {keyword : Keyword} {d : Draft} (single : ∀ l ∈ lines, l.IsSingle)
    (found : p.Found lines) (isKeyword : p.rule.hasLegs = true)
    (h : Statement.readDraft lines.toArray patterns keyword p.node = .ok d) :
    d.location = p.node.location lines.toArray ∧ p.Writes lines d.legs := by
  obtain ⟨time, block, tags, parts, legs⟩ := Part.legs_of_hasLegs found.isPart isKeyword
  have inBlock : block.Found lines := found.of_mem (by rw [parts]; simp)
  rw [Statement.readDraft, Part.children_node, parts] at h
  simp only [List.map_cons, bind_eq_ok_iff, Except.ok.injEq] at h
  obtain ⟨_, _, written, read, _, _, rfl⟩ := h
  refine ⟨rfl, ?_⟩
  rw [Part.children_node, List.mapM_map] at read
  rw [Part.Writes, legs]
  refine forall₂_of_mapM read fun q mem leg read => ?_
  exact isWrittenAt_of_readLeg single (inBlock.of_mem mem) (locating_eq_ok_iff.1 read)

/-- The source of a dividend and the leg that it is paid to are written in the legs of its statement. -/
theorem written_of_readDividendDraft {d : DividendDraft} (single : ∀ l ∈ lines, l.IsSingle)
    (found : p.Found lines) (keyword : p.rule = .dividendStatement)
    (h : Statement.readDividendDraft lines.toArray p.node = .ok d) (money : Money) :
    d.location = p.node.location lines.toArray ∧ p.Writes lines [d.source money, d.cash] := by
  obtain ⟨time, source, cash, tags, parts, isSource, isCash, legs⟩ := Part.legs_of_dividend found.isPart keyword
  have inSource : source.Found lines := found.of_mem (by rw [parts]; simp)
  have inCash : cash.Found lines := found.of_mem (by rw [parts]; simp)
  rw [Statement.readDividendDraft, Part.children_node, parts] at h
  simp only [List.map_cons] at h
  obtain ⟨_, _, h⟩ := bind_eq_ok_iff.1 h
  split at h
  · next children =>
    rw [Part.children_node] at children
    obtain ⟨account, company, ends, rfl, rfl⟩ := exists_pair_of_map children
    simp only [bind_eq_ok_iff, plainly_eq_ok_iff, locating_eq_ok_iff, Except.ok.injEq] at h
    obtain ⟨_, isAccount, _, rfl, leg, read, _, _, rfl⟩ := h
    refine ⟨rfl, ?_⟩
    rw [Part.Writes, legs]
    refine .cons ⟨inSource.isAt single (by rw [isSource]; rfl), ?_, fun other => absurd isSource other⟩
      (.cons (isWrittenAt_of_readLeg single inCash read) .nil)
    simp only [Part.owner?, isSource, ends, isAccount]
    rfl
  · simp at h

/-- The entries of a balance are written in the entries of its statement. -/
theorem written_of_readBalance {b : BalanceAssertion} (single : ∀ l ∈ lines, l.IsSingle) (found : p.Found lines)
    (keyword : p.rule = .balanceStatement) (h : Statement.readBalance lines.toArray p.node = .ok b) :
    b.location = p.node.location lines.toArray ∧
      List.Forall₂ (fun q e => BalanceEntry.IsWrittenAt lines e q) p.entries b.entries := by
  obtain ⟨time, parts, isEntry⟩ := Part.entries_of_balance found.isPart keyword
  rw [Statement.readBalance, Part.children_node, parts] at h
  simp only [List.map_cons, bind_eq_ok_iff, Except.ok.injEq] at h
  obtain ⟨_, _, entries, read, rfl⟩ := h
  refine ⟨rfl, ?_⟩
  rw [List.mapM_map] at read
  refine forall₂_of_mapM read fun q mem e read => ?_
  have inEntry : q.Found lines := found.of_mem (by rw [parts]; exact List.mem_cons_of_mem _ mem)
  have read := locating_eq_ok_iff.1 read
  rw [Statement.readBalanceEntry, Part.children_node] at read
  split at read
  · next children =>
    obtain ⟨account, value, ends, rfl, rfl⟩ := exists_pair_of_map children
    simp only [bind_eq_ok_iff, plainly_eq_ok_iff, Except.ok.injEq] at read
    obtain ⟨a, isAccount, _, _, rfl⟩ := read
    refine ⟨inEntry.isAt single (by rw [isEntry q mem]; rfl), ?_⟩
    simp only [Part.owner?, isEntry q mem, ends, isAccount]
    rfl
  · cases read

/-! ### Booking -/

theorem comeFrom_nil : ComeFrom lines p [] where
  item i mem := by cases mem
  entry b mem := by cases mem
  leg t mem := by cases mem
  fee f mem := by cases mem
  revenue r mem := by cases mem

theorem comeFrom_of_plain {i : Item} (place : p.IsAt lines i.location) (other : ∀ t, i ≠ .transaction t)
    (other' : ∀ b, i ≠ .balance b) : ComeFrom lines p [i] where
  item i' mem := by
    obtain rfl := List.mem_singleton.1 mem
    exact place
  entry b mem := absurd (List.mem_singleton.1 mem).symm (other' b)
  leg t mem := absurd (List.mem_singleton.1 mem).symm (other t)
  fee f mem := absurd (List.mem_singleton.1 mem).symm (other f)
  revenue r mem := absurd (List.mem_singleton.1 mem).symm (other r)

theorem comeFrom_of_balance {b : BalanceAssertion} (place : p.IsAt lines b.location)
    (written : List.Forall₂ (fun q e => BalanceEntry.IsWrittenAt lines e q) p.entries b.entries) :
    ComeFrom lines p [.balance b] where
  item i mem := by
    obtain rfl := List.mem_singleton.1 mem
    exact place
  entry b' mem := by
    obtain rfl := Item.balance.inj (List.mem_singleton.1 mem)
    exact written
  leg t mem := by cases List.mem_singleton.1 mem
  fee f mem := by cases List.mem_singleton.1 mem
  revenue r mem := by cases List.mem_singleton.1 mem

theorem comeFrom_of_transaction {t : Transaction} {legs : List Leg} (place : p.IsAt lines t.location)
    (origin : t.origin = .ledger) (written : p.Writes lines legs) (perm : t.legs.Perm legs) :
    ComeFrom lines p [.transaction t] where
  item i mem := by
    obtain rfl := List.mem_singleton.1 mem
    exact place
  entry b mem := by cases List.mem_singleton.1 mem
  leg t' mem _ := by
    obtain rfl := Item.transaction.inj (List.mem_singleton.1 mem)
    exact ⟨legs, written, .inl perm⟩
  fee f mem isFee := by
    obtain rfl := Item.transaction.inj (List.mem_singleton.1 mem)
    cases origin.symm.trans isFee
  revenue r mem isRevenue := by
    obtain rfl := Item.transaction.inj (List.mem_singleton.1 mem)
    cases origin.symm.trans isRevenue

/-- What holds of a transfer and of its fee holds of the transactions of both. -/
theorem forall_of_pair {t f : Transaction} {P : Transaction → Prop} (first : P t) (second : P f) :
    ∀ x, Item.transaction x ∈ [Item.transaction t, .transaction f] → P x := by
  intro x mem
  rcases List.mem_cons.1 mem with same | mem
  · obtain rfl := Item.transaction.inj same
    exact first
  · obtain rfl := Item.transaction.inj (List.mem_singleton.1 mem)
    exact second

theorem isAt_of_pair {t f : Transaction} (first : p.IsAt lines t.location) (second : p.IsAt lines f.location) :
    ∀ i ∈ [Item.transaction t, .transaction f], p.IsAt lines i.location := by
  intro i mem
  rcases List.mem_cons.1 mem with rfl | mem
  · exact first
  · obtain rfl := List.mem_singleton.1 mem
    exact second

theorem balance_notMem_pair {t f : Transaction} {b : BalanceAssertion} :
    Item.balance b ∉ [Item.transaction t, .transaction f] := by simp

theorem comeFrom_of_fee {d : Draft} {source : Leg} {sources : List Leg} {rest fee : Money}
    {intermediary : String} {account : AccountRef} (place : p.IsAt lines d.location) (written : p.Writes lines d.legs)
    (first : d.sources = source :: sources) (owner : source.owner = .owned account) :
    ComeFrom lines p
      [.transaction (d.toTransaction .transfer ({ source with money := some rest } :: sources) d.targets),
        .transaction (d.feeExpense fee intermediary account source.location)] where
  item := isAt_of_pair place place
  entry b mem := absurd mem balance_notMem_pair
  leg := by
    refine forall_of_pair (fun _ => ⟨d.legs, written, .inr ⟨?_, ?_⟩⟩) fun other => by cases other
    · exact ⟨_, List.mem_cons_of_mem _ List.mem_cons_self, rfl⟩
    · have perm := d.sides_perm
      rw [first] at perm
      exact ⟨source, rest, sources ++ d.targets, rfl, perm⟩
  fee := by
    refine forall_of_pair (fun other => by cases other) fun _ => ?_
    exact ⟨_, _, _, _, List.mem_cons_self, rfl, rfl, rfl, rfl, owner.symm, rfl, rfl⟩
  revenue := forall_of_pair (fun other => by cases other) fun other => by cases other

theorem comeFrom_of_dividend {d : DividendDraft} {money : Money} (place : p.IsAt lines d.location)
    (written : p.Writes lines [d.source money, d.cash]) :
    ComeFrom lines p ((d.book money).transactions.map .transaction) where
  item := isAt_of_pair place place
  entry b mem := absurd mem balance_notMem_pair
  leg := forall_of_pair (fun _ => ⟨_, written, .inl (.refl _)⟩) fun other => by cases other
  fee := forall_of_pair (fun other => by cases other) fun other => by cases other
  revenue := forall_of_pair (fun other => by cases other) fun _ => ⟨_, List.mem_cons_self, rfl, rfl, rfl⟩

section

variable {d : Draft} {b : Booked}

theorem comeFrom_of_expense (place : p.IsAt lines d.location) (written : p.Writes lines d.legs)
    (h : d.expense = .ok b) : ComeFrom lines p (b.transactions.map .transaction) := by
  obtain ⟨payee, -, -, transactions⟩ := Draft.expense_ok h
  obtain ⟨t, same, perm⟩ := Draft.perm_of_expense h
  obtain rfl := List.singleton_inj.1 (transactions.symm.trans same)
  rw [transactions]
  exact comeFrom_of_transaction place rfl written perm

theorem comeFrom_of_revenue (place : p.IsAt lines d.location) (written : p.Writes lines d.legs)
    (h : d.revenue = .ok b) : ComeFrom lines p (b.transactions.map .transaction) := by
  obtain ⟨payer, -, transactions⟩ := Draft.revenue_ok h
  obtain ⟨t, same, perm⟩ := Draft.perm_of_revenue h
  obtain rfl := List.singleton_inj.1 (transactions.symm.trans same)
  rw [transactions]
  exact comeFrom_of_transaction place rfl written perm

theorem comeFrom_of_transfer (place : p.IsAt lines d.location) (written : p.Writes lines d.legs)
    (h : d.transfer = .ok b) : ComeFrom lines p (b.transactions.map .transaction) := by
  obtain ⟨-, -, ⟨shares, -, booked⟩ | ⟨-, booked⟩⟩ := Draft.transfer_ok h
  · obtain ⟨source, target, _, _, sources, targets, _, _, _, _, _, _, _, transactions⟩ :=
      Draft.shareTransfer_ok booked
    rw [transactions]
    exact comeFrom_of_transaction place rfl written (Draft.perm_of_sides sources targets)
  · obtain ⟨source, sources, account, money, first, -, posted, -, -, split⟩ := Draft.cashTransfer_ok booked
    rcases split with ⟨-, transactions⟩ | ⟨fee, rest, intermediary, -, -, -, transactions⟩
    · rw [transactions]
      exact comeFrom_of_transaction place rfl written (Draft.perm_of_sides first rfl)
    · rw [transactions]
      exact comeFrom_of_fee place written first (Leg.of_posting? posted).1

end

/-! ### Statements -/

section

variable {all : Array Line} {n : Node}

theorem location_of_readSetting {s : Setting} (h : Statement.readSetting all n = .ok s) :
    s.location = n.location all := by
  rw [Statement.readSetting] at h
  split at h
  · cases h
    rfl
  · cases h

theorem location_of_readOpening {o : Opening} (h : Statement.readOpening all n = .ok o) :
    o.location = n.location all := by
  rw [Statement.readOpening] at h
  split at h
  · simp only [bind_eq_ok_iff, Except.ok.injEq] at h
    obtain ⟨_, _, _, _, _, _, _, _, rfl⟩ := h
    rfl
  · cases h

theorem location_of_readClosing {c : Closing} (h : Statement.readClosing all n = .ok c) :
    c.location = n.location all := by
  rw [Statement.readClosing] at h
  split at h
  · simp only [bind_eq_ok_iff, Except.ok.injEq] at h
    obtain ⟨_, _, _, _, rfl⟩ := h
    rfl
  · cases h

theorem location_of_readRates {r : RateSet} (h : Statement.readRates all n = .ok r) :
    r.location = n.location all := by
  rw [Statement.readRates] at h
  split at h
  · simp only [bind_eq_ok_iff, Except.ok.injEq] at h
    obtain ⟨_, _, _, _, rfl⟩ := h
    rfl
  · cases h

theorem location_of_readGroup {g : Group} (h : Statement.readGroup all n = .ok g) :
    g.location = n.location all := by
  rw [Statement.readGroup] at h
  split at h
  · cases h
    rfl
  · cases h

end

theorem comeFrom_of_ofItem {α : Type} {wrap : α → Item} {result : Except Error α} {is : List Item}
    {notices : List Notice} (h : Statement.ofItem wrap result = .ok (.items is notices))
    (each : ∀ value, result = .ok value → ComeFrom lines p [wrap value]) : ComeFrom lines p is := by
  obtain ⟨value, read, rfl⟩ := toOption_of_ofItem h
  exact each value (toOption_eq_some_iff.1 read)

theorem comeFrom_of_ofBooked {keyword : Keyword} {book : Draft → Except Error Booked} {is : List Item}
    {notices : List Notice} (single : ∀ l ∈ lines, l.IsSingle) (found : p.Found lines)
    (isKeyword : p.rule.hasLegs = true)
    (h : ((Statement.readDraft lines.toArray patterns keyword p.node).bind fun d =>
      (book d).map Statement.ofBooked) = .ok (.items is notices))
    (each : ∀ d b, p.IsAt lines d.location → p.Writes lines d.legs → book d = .ok b →
      ComeFrom lines p (b.transactions.map .transaction)) : ComeFrom lines p is := by
  obtain ⟨d, read, books⟩ := toOption_of_ofBooked h
  obtain ⟨b, booked, rfl⟩ := map_eq_ok_iff.1 books
  obtain ⟨located, written⟩ := written_of_readDraft single found isKeyword (toOption_eq_some_iff.1 read)
  refine each d b ?_ written booked
  rw [located]
  exact found.isAt single (Grammar.mayBeEmpty_of_hasLegs isKeyword)

/-- **The items of a statement come from where it is written.** -/
theorem comeFrom_of_ofNode {is : List Item} {notices : List Notice} (single : ∀ l ∈ lines, l.IsSingle)
    (found : p.Found lines) (h : Statement.ofNode lines.toArray patterns p.node = .ok (.items is notices)) :
    ComeFrom lines p is := by
  have place {location : Location} (same : location = p.node.location lines.toArray)
      (filled : p.rule.mayBeEmpty = false) : p.IsAt lines location := by
    rw [same]
    exact found.isAt single filled
  rw [Statement.ofNode, locating_eq_ok_iff, Part.rule_node] at h
  split at h
  case h_1 rule =>
    refine comeFrom_of_ofItem h fun s read => comeFrom_of_plain ?_ (by simp) (by simp)
    exact place (location_of_readSetting read) (by rw [rule]; rfl)
  case h_2 rule =>
    refine comeFrom_of_ofItem h fun o read => comeFrom_of_plain ?_ (by simp) (by simp)
    exact place (location_of_readOpening read) (by rw [rule]; rfl)
  case h_3 rule =>
    refine comeFrom_of_ofItem h fun c read => comeFrom_of_plain ?_ (by simp) (by simp)
    exact place (location_of_readClosing read) (by rw [rule]; rfl)
  case h_4 rule =>
    refine comeFrom_of_ofItem h fun r read => comeFrom_of_plain ?_ (by simp) (by simp)
    exact place (location_of_readRates read) (by rw [rule]; rfl)
  case h_5 rule =>
    refine comeFrom_of_ofItem h fun b read => ?_
    obtain ⟨located, written⟩ := written_of_readBalance single found rule read
    exact comeFrom_of_balance (place located (by rw [rule]; rfl)) written
  case h_6 rule =>
    refine comeFrom_of_ofItem h fun g read => comeFrom_of_plain ?_ (by simp) (by simp)
    exact place (location_of_readGroup read) (by rw [rule]; rfl)
  case h_7 => simp at h
  case h_8 rule =>
    exact comeFrom_of_ofBooked single found (by rw [rule]; rfl) h fun _ _ => comeFrom_of_expense
  case h_9 rule =>
    exact comeFrom_of_ofBooked single found (by rw [rule]; rfl) h fun _ _ => comeFrom_of_revenue
  case h_10 rule =>
    exact comeFrom_of_ofBooked single found (by rw [rule]; rfl) h fun _ _ => comeFrom_of_transfer
  case h_11 rule =>
    simp only [map_eq_ok_iff, Statement.ofBooked, Statement.items.injEq] at h
    obtain ⟨b, read, rfl, _⟩ := h
    obtain ⟨d, money, draft, _, rfl⟩ := written_of_readDividend read
    obtain ⟨located, written⟩ :=
      written_of_readDividendDraft single found rule (toOption_eq_some_iff.1 draft) money
    -- The tags that patterns give a dividend leave its legs as they are.
    have place' : p.IsAt lines (Written.tagged patterns d money).location :=
      place located (by rw [rule]; rfl)
    exact comeFrom_of_dividend place' written
  case h_12 => simp at h

/-! ### Statements one after another -/

/-- **The items of statements are in blocks**, one for each statement, that come from it. A pattern has an empty
block. -/
theorem exists_blocks {ps : List Part} {j : Journal} (single : ∀ l ∈ lines, l.IsSingle)
    (found : ∀ p ∈ ps, p.Found lines)
    (h : Journal.ofStatements lines.toArray patterns (ps.map Part.node) = .ok j) :
    ∃ blocks : List (List Item), blocks.flatten = j.items ∧ List.Forall₂ (ComeFrom lines) ps blocks := by
  induction ps generalizing patterns j with
  | nil =>
    cases h
    exact ⟨[], rfl, .nil⟩
  | cons p ps ih =>
    have later := fun q mem => found q (List.mem_cons_of_mem p mem)
    rw [List.map_cons, Journal.ofStatements, bind_eq_ok_iff] at h
    obtain ⟨statement, read, h⟩ := h
    cases statement with
    | items is notices =>
      simp only [bind_eq_ok_iff, Except.ok.injEq] at h
      obtain ⟨j', h, rfl⟩ := h
      obtain ⟨blocks, all, come⟩ := ih later h
      refine ⟨is :: blocks, ?_, .cons (comeFrom_of_ofNode single (found p List.mem_cons_self) read) come⟩
      rw [List.flatten_cons, all]
    | pattern pattern =>
      simp only [bind_eq_ok_iff, Except.ok.injEq] at h
      obtain ⟨j', h, rfl⟩ := h
      obtain ⟨blocks, all, come⟩ := ih later h
      exact ⟨[] :: blocks, all, .cons comeFrom_nil come⟩

end

end Daybook
