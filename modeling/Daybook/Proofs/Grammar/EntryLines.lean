import Daybook.Proofs.Grammar.LegLines

/-!
# Lines of balances

An entry of a balance is an account with an amount, or with a company and the price of its share. The first
choice that reads something is kept: a company that itself begins with an amount, such as `3M`
(`BeginsLikeAmount`), is taken for one, and the line is refused for what follows (`read_priceLine_eq_none`).
Before any other company the amount is refused, and the price is read (`read_priceLine`).
-/

namespace Daybook.Grammar

open Daybook.Grammar.Expr
open Cursor (Leads)

variable {c m k stop : Cursor} {text more rest blanks : List Char} {e : Expr} {nodes : List Node} {n : Node}

/-! ### A line on its own -/

/-- **What is read of a line does not depend on what stands before and after it**, if nothing in it could be read
differently in a longer text. -/
theorem sameLine_of_read (sure : e.traits.sure = true) (firm : e.traits.firm = true) (counted : 1 ≤ c.line)
    (isRest : c.rest = text ++ '\n' :: more) :
    (e.read (.start (text ++ ['\n'])) = none → e.read c = none) ∧
      ∀ nodes stop, e.read (.start (text ++ ['\n'])) = some (nodes, stop) →
        ∃ nodes', e.read c = some (nodes', (stop.extend more).shift c.offset (c.line - 1)) ∧
          List.Forall₂ (Node.Alike fun _ _ => True) nodes nodes' := by
  have isOpen : (Cursor.start (text ++ ['\n'])).IsOpen := List.getLast?_concat
  have same : e.SameBefore more (.start (text ++ ['\n'])) := sameBefore_of_traits sure firm isOpen
  have place : c = ((Cursor.start (text ++ ['\n'])).extend more).shift c.offset (c.line - 1) := by
    have whole : (Cursor.start (text ++ ['\n'])).extend more = Cursor.start c.rest := by
      rw [isRest, Cursor.extend, Cursor.start, List.append_assoc]
      rfl
    rw [whole]
    exact Cursor.eq_shift counted
  have shifts := @shifts_of_counted (fun _ _ => True) c.offset (c.line - 1) (fun _ _ => trivial) e
    ((Cursor.start (text ++ ['\n'])).extend more) (Nat.le_refl 1)
  constructor
  · intro refused
    have refused := shifts.refused (same.trans (by rw [refused]; rfl))
    rwa [← place] at refused
  · intro nodes stop taken
    obtain ⟨nodes', taken', alike⟩ := shifts.taken (same.trans (by rw [taken]; rfl))
    rw [← place] at taken'
    exact ⟨nodes', taken', alike⟩

/-! ### Entries -/

/-- What stands after the account of an entry. -/
def entryValue : Expr := .alt amount (rule .priceEntry [company, amount])

/-- An entry of a balance and the line break after it, with the gap before it. -/
def entryItem : Expr := lineItem balanceEntry

theorem consumes_entryItem : entryItem.consumes = true := rfl

theorem inLine_balanceEntry : balanceEntry.inLine = true := by decide

theorem sure_entryItem : entryItem.traits.sure = true := by decide +kernel

theorem firm_entryItem : entryItem.traits.firm = true := by decide +kernel

/-- A plain line that is an entry is one part, on that line. -/
theorem exists_of_read_entryItem (plain : IsPlainText text) (isRest : c.rest = text ++ '\n' :: more)
    (taken : entryItem.read c = some (nodes, stop)) :
    ∃ n, nodes = [n] ∧ n.line = c.line ∧ c.Leads (text ++ ['\n']) stop := by
  obtain ⟨m, isEntry, _, toStop⟩ := plain.exists_of_read_lineItem inLine_balanceEntry isRest taken
  obtain ⟨_, _, rfl⟩ := read_rule_eq_some_iff.1 isEntry
  exact ⟨_, rfl, rfl, toStop⟩

/-! ### Companies that begin with an amount -/

/-- The text begins with a number and a capital letter, which is enough of an amount. -/
def BeginsLikeAmount (text : List Char) : Prop :=
  ∃ number x more, text = number ++ x :: more ∧ IsNumber number ∧ isUpper x = true

variable {company number number' code code' w : List Char}

/-- An amount at the start of a company and more text is within the company: it is a number and letters right
after it. -/
theorem exists_of_amount_at_company (isCompany : IsRun isNameChar company) (isNumber : IsNumber number')
    (all : ∀ x ∈ blanks, isGap x = true) (isCode : IsRun isUpper code')
    (wEnds : EndsAt isGap w) (wEnds' : EndsAt isUpper w)
    (same : company ++ ' ' :: w = number' ++ (blanks ++ (code' ++ rest))) :
    ∃ x left, company = number' ++ x :: left ∧ isUpper x = true ∧ x :: left ++ ' ' :: w = code' ++ rest := by
  obtain ⟨y, code, rfl⟩ := List.exists_cons_of_ne_nil isCode.some
  have upper : isUpper y = true := isCode.all y List.mem_cons_self
  have noGap : isGap y = false := isGap_of_class rfl rfl upper
  obtain ⟨left, rfl, later⟩ : ∃ left, company = number' ++ left ∧
      left ++ ' ' :: w = blanks ++ (y :: code ++ rest) := by
    rcases List.append_eq_append_iff.1 same with ⟨left, isNumber', isRest⟩ | ⟨left, isCompany', isRest⟩
    · cases left with
      | nil => exact ⟨[], by rw [isNumber', List.append_nil, List.append_nil], isRest⟩
      | cons z left =>
        cases isRest
        cases isNumber.noGap ' ' (isNumber' ▸ List.mem_append_right _ List.mem_cons_self)
    · exact ⟨left, isCompany', isRest.symm⟩
  cases left with
  | nil =>
    -- After the company and a gap there is neither a letter nor another gap.
    cases blanks with
    | nil =>
      cases later
      cases upper
    | cons b blanks =>
      obtain ⟨_, isRest⟩ := List.cons.inj later
      cases blanks with
      | nil =>
        rw [wEnds' y (by rw [isRest]; rfl)] at upper
        cases upper
      | cons b' blanks =>
        have gap := all b' (List.mem_cons_of_mem _ List.mem_cons_self)
        rw [wEnds b' (by rw [isRest]; rfl)] at gap
        cases gap
  | cons x left =>
    have isName : isNameChar x = true := isCompany.all x (List.mem_append_right _ List.mem_cons_self)
    cases blanks with
    | nil =>
      obtain ⟨rfl, _⟩ := List.cons.inj later
      exact ⟨x, left, rfl, upper, later⟩
    | cons b blanks =>
      obtain ⟨rfl, _⟩ := List.cons.inj later
      have gap := all x List.mem_cons_self
      rw [isGap_of_class rfl rfl isName] at gap
      cases gap

/-- A company that begins like an amount is read as one. -/
theorem exists_read_of_beginsLikeAmount (begins : BeginsLikeAmount company) (isRest : c.rest = company ++ w) :
    ∃ reading, amount.read c = some reading := by
  obtain ⟨number, x, left, rfl, isNumber, upper⟩ := begins
  rw [List.append_assoc] at isRest
  obtain ⟨m, led, isRest'⟩ := Cursor.exists_leads isRest
  have noNumber : EndsAt isNumberChar m.rest := by
    rw [isRest']
    rintro _ ⟨⟩
    exact isNumberChar_of_isUpper upper
  have noGap : EndsAt isGap m.rest := by
    rw [isRest']
    rintro _ ⟨⟩
    exact isGap_of_class rfl rfl upper
  have letter := read_char_eq_some_iff.2 ⟨x, _, isRest', upper, rfl, rfl⟩
  have letters := read_seq_eq_some_iff.2 ⟨_, _, _, letter, read_star (char isUpper) _, rfl⟩
  have isCurrency : currency.read m = some _ := read_rule_eq_some_iff.2 ⟨_, letters, rfl⟩
  have afterNumber := (read_seq_gap currency m).trans ((afterGap_of_endsAt noGap).symm ▸ isCurrency)
  have parts : (loose [Grammar.number, currency]).read c = some _ :=
    read_seq_eq_some_iff.2 ⟨_, m, _, read_number led isNumber noNumber, afterNumber, rfl⟩
  exact ⟨_, read_rule_eq_some_iff.2 ⟨_, parts, rfl⟩⟩

/-- Before any other company no amount is read. -/
theorem read_amount_eq_none (isCompany : IsRun isNameChar company) (other : ¬ BeginsLikeAmount company)
    (isNumber : IsNumber number) (isRest : c.rest = company ++ ' ' :: (number ++ w)) : amount.read c = none := by
  cases taken : amount.read c with
  | none => rfl
  | some reading =>
    obtain ⟨number', blanks, code', _, led, isNumber', all, isCode, _⟩ := exists_of_read_amount taken
    have same := isRest.symm.trans led.rest
    rw [List.append_assoc, List.append_assoc] at same
    obtain ⟨x, left, same, upper, _⟩ := exists_of_amount_at_company isCompany isNumber' all isCode
      (isNumber.endsAt isNumber.noGap w) (isNumber.endsAt isNumber.noUpper w) same
    exact absurd ⟨number', x, left, same, isNumber', upper⟩ other

/-- A company begins like an amount if the grammar reads an amount there. -/
theorem beginsLikeAmount_iff (isCompany : IsRun isNameChar company) :
    BeginsLikeAmount company ↔ (amount.read (.start company)).isSome = true := by
  constructor
  · intro begins
    obtain ⟨reading, taken⟩ := @exists_read_of_beginsLikeAmount (.start company) company [] begins (List.append_nil _).symm
    rw [taken]
    rfl
  · intro some
    obtain ⟨⟨nodes, stop⟩, taken⟩ := Option.isSome_iff_exists.1 some
    obtain ⟨number, blanks, code, _, led, isNumber, all, isCode, _⟩ := exists_of_read_amount taken
    have same : company = number ++ (blanks ++ (code ++ stop.rest)) := by
      rw [← List.append_assoc blanks, ← List.append_assoc]
      exact led.rest
    obtain ⟨y, code, rfl⟩ := List.exists_cons_of_ne_nil isCode.some
    obtain rfl : blanks = [] := by
      refine List.eq_nil_iff_forall_not_mem.2 fun x mem => ?_
      have isName := isCompany.all x (same ▸ List.mem_append_right _ (List.mem_append_left _ mem))
      have gap := all x mem
      rw [isGap_of_class rfl rfl isName] at gap
      cases gap
    exact ⟨number, y, code ++ stop.rest, same, isNumber, isCode.all y List.mem_cons_self⟩

/-! ### Whole tokens -/

/-- The expression reads the text up to its end. -/
def Expr.Accepts (e : Expr) (text : List Char) : Prop :=
  ∃ nodes stop, e.read (.start text) = some (nodes, stop) ∧ stop.rest = []

instance (e : Expr) (text : List Char) : Decidable (e.Accepts text) :=
  decidable_of_iff ((e.read (.start text)).any (·.2.rest.isEmpty) = true) <| by
    simp only [Option.any_eq_true, List.isEmpty_iff, Expr.Accepts, Prod.exists]

theorem leads_start (text : List Char) :
    (Cursor.start text).Leads text ⟨0 + text.length, 1 + text.count '\n', []⟩ :=
  ⟨(List.append_nil text).symm, rfl, rfl⟩

theorem eq_of_leads_start {passed : List Char} (led : (Cursor.start text).Leads passed stop) (atEnd : stop.rest = []) :
    passed = text := by
  rw [← List.append_nil passed, ← atEnd]
  exact led.rest.symm

theorem accepts_runToken_iff {accepts : Char → Bool} {name : Rule} :
    (token name (oneOrMore accepts)).Accepts text ↔ IsRun accepts text := by
  constructor
  · rintro ⟨nodes, stop, taken, atEnd⟩
    obtain ⟨passed, led, run, _⟩ := exists_of_read_runToken taken
    exact eq_of_leads_start led atEnd ▸ run
  · intro run
    exact ⟨_, _, read_runToken (leads_start text) run (by rintro _ ⟨⟩) name, rfl⟩

theorem accepts_number_iff : Grammar.number.Accepts text ↔ IsNumber text := by
  constructor
  · rintro ⟨nodes, stop, taken, atEnd⟩
    obtain ⟨passed, led, isNumber, _⟩ := exists_of_read_number taken
    exact eq_of_leads_start led atEnd ▸ isNumber
  · intro isNumber
    exact ⟨_, _, read_number (leads_start text) isNumber (by rintro _ ⟨⟩), rfl⟩

/-! ### Lines with prices -/

/-- The line that prices a share of a company on an account. -/
def priceText (account company number code : List Char) : List Char :=
  ("equity".toList ++ '/' :: account) ++ ' ' :: (company ++ ' ' :: (number ++ ' ' :: code))

/-- The part of an entry with a price. -/
structure IsPriceEntry (account company number code : List Char) (n : Node) : Prop where
  rule : n.rule = .balanceEntry
  children : ∃ owner value, n.children = [owner, value] ∧ IsOwned "equity".toList account owner ∧
    value.rule = .priceEntry ∧ ∃ c price, value.children = [tokenNode .company c company, price] ∧
      IsAmount number code price

variable {account : List Char}

theorem isPlainText_priceText (isName : IsRun isNameChar account) (isCompany : IsRun isNameChar company)
    (isNumber : IsNumber number) (isCode : IsRun isUpper code) :
    IsPlainText (priceText account company number code) where
  inLine := by
    have ofName {text : List Char} (run : IsRun isNameChar text) : ∀ x ∈ text, isInLine x = true :=
      fun x mem => isInLine_of_class rfl rfl (run.all x mem)
    have ofNumber : ∀ x ∈ number, isInLine x = true :=
      isNumber.forall_mem (fun x digit => isInLine_of_class rfl rfl digit) rfl rfl rfl
    have ofCode : ∀ x ∈ code, isInLine x = true := fun x mem => isInLine_of_class rfl rfl (isCode.all x mem)
    unfold priceText
    simp only [List.forall_mem_append, List.forall_mem_cons]
    exact ⟨⟨List.all_eq_true.1 (by decide), rfl, ofName isName⟩, rfl, ofName isCompany, rfl, ofNumber, rfl, ofCode⟩
  starts := by
    rintro _ ⟨⟩
    rfl
  ends x last := by
    obtain ⟨front, same⟩ : ∃ front, priceText account company number code = front ++ code := by
      unfold priceText
      generalize "equity".toList = kind
      exact ⟨(kind ++ '/' :: account) ++ ' ' :: (company ++ ' ' :: (number ++ [' '])), by simp⟩
    rw [same, List.getLast?_append_of_ne_nil _ isCode.some] at last
    exact isGap_of_class rfl rfl (isCode.all x (List.mem_of_getLast? last))

/-- The account of the line is read, up to the company. -/
theorem exists_read_account (isName : IsRun isNameChar account) (isCompany : IsRun isNameChar company)
    (isRest : c.rest = priceText account company number code ++ '\n' :: more) :
    c.afterGap = c ∧ ∃ owner k, owned.read c = some ([owner], k) ∧ IsOwned "equity".toList account owner ∧
      c.Leads (("equity".toList ++ '/' :: account) ++ [' ']) k.afterGap ∧
      k.afterGap.rest = company ++ ' ' :: (number ++ ' ' :: (code ++ '\n' :: more)) := by
  have here : c.afterGap = c := by
    apply afterGap_of_endsAt
    rw [isRest]
    rintro _ ⟨⟩
    rfl
  have isRest' : c.rest = ("equity".toList ++ '/' :: account) ++
      (' ' :: (company ++ ' ' :: (number ++ ' ' :: (code ++ '\n' :: more)))) := by
    rw [isRest]
    unfold priceText
    simp only [List.append_assoc, List.cons_append]
  obtain ⟨k, led, atGap⟩ := Cursor.exists_leads isRest'
  have nameEnds : EndsAt isNameChar k.rest := by
    rw [atGap]
    rintro _ ⟨⟩
    rfl
  obtain ⟨owner, isOwner, owned⟩ := read_owned led (by decide) isName nameEnds
  obtain ⟨m, led', atCompany⟩ := @Cursor.exists_leads k [' '] _ atGap
  have companyHead : EndsAt isGap m.rest := by
    rw [atCompany]
    exact endsAt_append isCompany fun x isName => isGap_of_class rfl rfl isName
  obtain rfl : k.afterGap = m := afterGap_of_leads led' (List.forall_mem_singleton.2 rfl) companyHead
  exact ⟨here, owner, k, isOwner, owned, led.trans led', atCompany⟩

/-- **The price of a share is read**, if the company does not begin like an amount. -/
theorem read_priceLine (isName : IsRun isNameChar account) (isCompany : IsRun isNameChar company)
    (isNumber : IsNumber number) (isCode : IsRun isUpper code) (other : ¬ BeginsLikeAmount company)
    (isRest : c.rest = priceText account company number code ++ '\n' :: more) :
    ∃ n stop, entryItem.read c = some ([n], stop) ∧ IsPriceEntry account company number code n := by
  obtain ⟨here, owner, k, isOwner, owned, _, atCompany⟩ := exists_read_account isName isCompany isRest
  have refused : amount.read k.afterGap = none := read_amount_eq_none isCompany other isNumber atCompany
  obtain ⟨q, overCompany, atGap⟩ := Cursor.exists_leads atCompany
  have companyEnds : EndsAt isNameChar q.rest := by
    rw [atGap]
    rintro _ ⟨⟩
    rfl
  obtain ⟨p, overGap, atNumber⟩ := @Cursor.exists_leads q [' '] _ atGap
  have toNumber : q.afterGap = p := by
    refine afterGap_of_leads overGap (List.forall_mem_singleton.2 rfl) ?_
    rw [atNumber]
    exact isNumber.endsAt isNumber.noGap _
  have atPrice : p.rest = (number ++ ([' '] ++ code)) ++ '\n' :: more := by
    rw [atNumber]
    simp
  obtain ⟨stop, overPrice, atEnd⟩ := Cursor.exists_leads atPrice
  have codeEnds : EndsAt isUpper stop.rest := by
    rw [atEnd]
    rintro _ ⟨⟩
    rfl
  obtain ⟨price, isPrice, value⟩ := read_amount overPrice isNumber (List.forall_mem_singleton.2 rfl) isCode codeEnds
  have parts : (loose [Grammar.company, amount]).read k.afterGap
      = some ([tokenNode .company k.afterGap company, price], stop) := by
    refine read_seq_eq_some_iff.2 ⟨_, q, _, read_runToken overCompany isCompany companyEnds .company, ?_, rfl⟩
    rw [read_seq_gap, toNumber]
    exact isPrice
  have isValue : entryValue.read k.afterGap = some _ :=
    read_alt_eq_some_iff.2 (.inr ⟨refused, read_rule_eq_some_iff.2 ⟨_, parts, rfl⟩⟩)
  have afterOwner := (read_seq_gap entryValue k).trans isValue
  have inside : (loose [Grammar.owned, entryValue]).read c = some _ :=
    read_seq_eq_some_iff.2 ⟨_, k, _, isOwner, afterOwner, rfl⟩
  have isEntry : balanceEntry.read c = some _ := read_rule_eq_some_iff.2 ⟨_, inside, rfl⟩
  have noGap : stop.afterGap = stop := by
    apply afterGap_of_endsAt
    rw [atEnd]
    rintro _ ⟨⟩
    rfl
  have ended := (read_seq_gap newline stop).trans (noGap.symm ▸ read_newline atEnd)
  have line : (loose [balanceEntry, newline]).read c = some _ :=
    read_seq_eq_some_iff.2 ⟨_, stop, _, isEntry, ended, rfl⟩
  have isItem := (read_seq_gap _ c).trans (here.symm ▸ line)
  exact ⟨_, _, isItem, rfl, owner, _, rfl, owned, rfl, k.afterGap, price, rfl, value⟩

/-- **A line with a company that begins like an amount is no entry.** -/
theorem read_priceLine_eq_none (isName : IsRun isNameChar account) (isCompany : IsRun isNameChar company)
    (isNumber : IsNumber number) (isCode : IsRun isUpper code) (begins : BeginsLikeAmount company)
    (isRest : c.rest = priceText account company number code ++ '\n' :: more) : entryItem.read c = none := by
  cases taken : entryItem.read c with
  | none => rfl
  | some reading =>
    obtain ⟨nodes, stop⟩ := reading
    obtain ⟨_, owner, k, isOwner, _, led, atCompany⟩ := exists_read_account isName isCompany isRest
    have plain := isPlainText_priceText isName isCompany isNumber isCode
    obtain ⟨q, isEntry, whole, _⟩ := plain.exists_of_read_lineItem inLine_balanceEntry isRest taken
    obtain ⟨_, parts, _⟩ := read_rule_eq_some_iff.1 isEntry
    obtain ⟨_, _, value, isOwner', afterOwner, _⟩ := read_seq_eq_some_iff.1 parts
    cases isOwner.symm.trans isOwner'
    have isValue := (read_seq_gap entryValue k).symm.trans afterOwner
    -- The amount is kept, so the line would have to end with it.
    have isAmount : amount.read k.afterGap = some (value, q) := by
      rcases read_alt_eq_some_iff.1 isValue with taken | ⟨refused, _⟩
      · exact taken
      · obtain ⟨reading, begun⟩ := exists_read_of_beginsLikeAmount begins atCompany
        rw [begun] at refused
        cases refused
    obtain ⟨number', blanks, code', _, overAmount, isNumber', all, isCode', _⟩ := exists_of_read_amount isAmount
    have same := whole.upTo.symm.trans (led.trans overAmount).upTo
    unfold priceText at same
    rw [List.append_cons, List.append_cancel_left_eq, ← List.append_nil code'] at same
    obtain ⟨x, left, _, _, later⟩ := exists_of_amount_at_company isCompany isNumber' all isCode'
      (isNumber.endsAt isNumber.noGap _) (isNumber.endsAt isNumber.noUpper _) same
    rw [List.append_nil] at later
    have gap : ' ' ∈ code' := later ▸ List.mem_append_right _ List.mem_cons_self
    cases isCode'.all _ gap

end Daybook.Grammar
