import Daybook.Proofs.Decimal.Digits
import Daybook.Proofs.Decimal.Rounding
import Daybook.Proofs.Grammar.EntryLines
import Daybook.Proofs.Statement.Legs
import Mathlib.Data.List.TakeWhile

/-!
# Amounts as they are written

A number is written with a sign, digits, and maybe more digits after a point (`NumberText`), and an amount as a
number, a gap and a code (`AmountText`). If a decimal has room for the digits, it is read with all of them
(`NumberText.ofNumber_eq`), and printed without a plus and without the zeros in front that do not count
(`NumberText.toChars_eq`). So printed money is read as it was, and money that is read is printed as it was written
but for these (`Money.text_roundtrip`).
-/

namespace Daybook

open Grammar

/-! ### Numbers -/

/-- What stands in front of the digits of a number. -/
inductive SignText where
  | none
  | plus
  | minus
  deriving DecidableEq

def SignText.chars : SignText → List Char
  | none => []
  | plus => ['+']
  | minus => ['-']

/-- A plus says nothing. -/
def SignText.tidied : SignText → SignText
  | minus => minus
  | _ => none

/-- A number as it is written. -/
structure NumberText where
  sign : SignText
  whole : List Char
  /-- The digits after the point. Where there are none, there is no point. -/
  places : List Char
  isRun_whole : IsRun isDigit whole
  isDigit_places : ∀ x ∈ places, isDigit x = true

namespace NumberText

variable {text : List Char} {d : Decimal}

def fraction (t : NumberText) : List Char :=
  match t.places with
  | [] => []
  | places => '.' :: places

def chars (t : NumberText) : List Char := t.sign.chars ++ (t.whole ++ t.fraction)

/-- All digits, read as one whole number. -/
def digits (t : NumberText) : Nat := Decimal.numeral (t.whole ++ t.places)

/-- The number without a plus and without zeros in front that do not count. -/
def tidied (t : NumberText) : NumberText where
  sign := t.sign.tidied
  whole := Decimal.significant t.whole
  places := t.places
  isRun_whole := by
    rw [← Decimal.toDigits_numeral t.isRun_whole]
    exact Decimal.isRun_toDigits _
  isDigit_places := t.isDigit_places

theorem fraction_eq (t : NumberText) :
    t.fraction = [] ∧ t.places = [] ∨ t.fraction = '.' :: t.places ∧ IsRun isDigit t.places := by
  rw [fraction]
  split
  · next none => exact .inl ⟨rfl, none⟩
  · next some => exact .inr ⟨rfl, some, t.isDigit_places⟩

theorem isNumber_chars (t : NumberText) : IsNumber t.chars := by
  refine ⟨t.sign.chars, t.whole, t.fraction, rfl, ?_, t.isRun_whole, ?_⟩
  · cases t.sign
    · exact .inl rfl
    · exact .inr (.inr rfl)
    · exact .inr (.inl rfl)
  · rcases t.fraction_eq with ⟨none, _⟩ | ⟨some, run⟩
    · exact .inl none
    · exact .inr ⟨t.places, some, run⟩

theorem exists_of_isNumber (isNumber : IsNumber text) : ∃ t : NumberText, t.chars = text := by
  obtain ⟨sign, whole, fraction, rfl, isSign, run, isFraction⟩ := isNumber.parts
  obtain ⟨s, rfl⟩ : ∃ s : SignText, s.chars = sign := by
    rcases isSign with rfl | rfl | rfl
    · exact ⟨.none, rfl⟩
    · exact ⟨.minus, rfl⟩
    · exact ⟨.plus, rfl⟩
  rcases isFraction with rfl | ⟨places, rfl, run'⟩
  · exact ⟨⟨s, whole, [], run, List.forall_mem_nil _⟩, rfl⟩
  · obtain ⟨x, xs, rfl⟩ := List.exists_cons_of_ne_nil run'.some
    exact ⟨⟨s, whole, x :: xs, run, run'.all⟩, rfl⟩

/-! ### Reading a number -/

/-- The characters without the sign. -/
def body (t : NumberText) : List Char := t.whole ++ t.fraction

/-- No sign stands in front of the digits. -/
theorem exists_body_eq (t : NumberText) : ∃ x xs, t.body = x :: xs ∧ x ≠ '+' ∧ x ≠ '-' := by
  obtain ⟨x, xs, whole⟩ := List.exists_cons_of_ne_nil t.isRun_whole.some
  have digit : isDigit x = true := t.isRun_whole.all x (whole ▸ List.mem_cons_self)
  refine ⟨x, xs ++ t.fraction, by rw [body, whole, List.cons_append], ?_, ?_⟩
  · rintro rfl
    cases digit
  · rintro rfl
    cases digit

/-- A number has no exponent. -/
theorem readChars_eq_readPlain (isNumber : IsNumber text) : Decimal.readChars text = Decimal.readPlain text := by
  have noMark : ∀ x ∈ text, (!decide (x = 'e' ∨ x = 'E')) = true := by
    refine isNumber.forall_mem (fun x digit => ?_) rfl rfl rfl
    rw [Bool.not_eq_true', decide_eq_false_iff_not]
    rintro (rfl | rfl) <;> cases digit
  rw [Decimal.readChars]
  simp only [← Bool.decide_or]
  rw [List.dropWhile_eq_nil_iff.2 noMark]

theorem isNumber_body (t : NumberText) : IsNumber t.body :=
  (⟨.none, t.whole, t.places, t.isRun_whole, t.isDigit_places⟩ : NumberText).isNumber_chars

/-- A plus is not looked at. -/
theorem ofNumber_chars (t : NumberText) :
    Decimal.ofNumber t.chars = Decimal.readPlain (t.sign.tidied.chars ++ t.body) := by
  have text : t.chars = t.sign.chars ++ t.body := rfl
  have isNumber := t.isNumber_chars
  rw [text] at isNumber ⊢
  generalize t.sign = sign at isNumber ⊢
  cases sign with
  | none =>
    obtain ⟨x, xs, isBody, noPlus, _⟩ := t.exists_body_eq
    refine Eq.trans ?_ (readChars_eq_readPlain isNumber)
    show Decimal.ofNumber t.body = Decimal.readChars t.body
    rw [isBody, Decimal.ofNumber]
    intro digits same
    exact noPlus (List.cons.inj same).1
  | plus => exact readChars_eq_readPlain t.isNumber_body
  | minus => exact readChars_eq_readPlain isNumber

/-- All digits are read. -/
theorem read_body (t : NumberText) (few : t.places.length ≤ 28) (fits : t.digits < Decimal.limit) :
    Decimal.Digits.start.read t.body = .ok (t.digits, t.places.length) := by
  obtain ⟨x, xs, isWhole⟩ := List.exists_cons_of_ne_nil t.isRun_whole.some
  have all : Nat.ofDigitChars 10 t.places (Decimal.numeral t.whole) = t.digits := (Nat.ofDigitChars_append 0).symm
  have wholeFits : (Decimal.Digits.start.past t.whole).mantissa < Decimal.limit := by
    refine Nat.lt_of_le_of_lt ?_ fits
    rw [← all]
    exact Decimal.le_ofDigitChars _ _
  have pastWhole : Decimal.Digits.start.past t.whole = ⟨Decimal.numeral t.whole, 0, false, true⟩ := by
    rw [Decimal.Digits.past, isWhole]
    rfl
  have read := Decimal.Digits.read_append t.isRun_whole.all wholeFits (fun _ => rfl)
    (fun isFraction => absurd isFraction Bool.false_ne_true) t.fraction
  rw [body, read, pastWhole]
  rcases t.fraction_eq with ⟨none, noPlaces⟩ | ⟨some, run⟩
  · rw [none, ← all, noPlaces]
    rfl
  · -- After the point each digit is one more place.
    have read := @Decimal.Digits.read_append t.places ⟨Decimal.numeral t.whole, 0, true, true⟩ run.all
      (by rw [Decimal.Digits.past, all]; exact fits) (fun isWhole => absurd isWhole.symm Bool.false_ne_true)
      (fun _ => by rw [Nat.zero_add]; exact few) []
    have point : Decimal.Digits.read ⟨Decimal.numeral t.whole, 0, false, true⟩ ('.' :: t.places)
        = Decimal.Digits.read ⟨Decimal.numeral t.whole, 0, true, true⟩ (t.places ++ []) := by
      rw [List.append_nil]
      rfl
    rw [some, point, read, Decimal.Digits.past, all]
    simp only [if_true, Nat.zero_add, Bool.true_or]
    rfl

/-- What digits are read as is a decimal, if it fits. -/
theorem readPlain_of_read {x : Char} {xs : List Char} (noPlus : x ≠ '+') (noMinus : x ≠ '-')
    (read : Decimal.Digits.start.read (x :: xs) = .ok (d.mantissa, d.scale)) (positive : d.negative = false) :
    Decimal.readPlain (x :: xs) = .ok d := by
  have fit : Decimal.fit? (false && d.mantissa != 0) d.mantissa d.scale = some d :=
    Decimal.fit?_eq_some_iff.2 ⟨positive, rfl, rfl⟩
  rw [Decimal.readPlain]
  · show (Decimal.Digits.start.read (x :: xs) >>= _) = _
    rw [read]
    dsimp only [bind, Except.bind]
    rw [fit]
  · exact List.cons_ne_nil x xs
  · exact fun rest same => noMinus (List.cons.inj same).1
  · exact fun rest same => noPlus (List.cons.inj same).1

theorem readPlain_minus_of_read (read : Decimal.Digits.start.read text = .ok (d.mantissa, d.scale))
    (negative : d.negative = (d.mantissa != 0)) : Decimal.readPlain ('-' :: text) = .ok d := by
  have fit : Decimal.fit? (true && d.mantissa != 0) d.mantissa d.scale = some d :=
    Decimal.fit?_eq_some_iff.2 ⟨negative, rfl, rfl⟩
  show (Decimal.Digits.start.read text >>= _) = _
  rw [read]
  dsimp only [bind, Except.bind]
  rw [fit]

/-- **A number is read with all its digits**, if a decimal has room for them. A zero has no sign. -/
theorem ofNumber_eq (t : NumberText) (negative : d.negative = (decide (t.sign = .minus) && d.mantissa != 0))
    (digits : d.mantissa = t.digits) (places : d.scale = t.places.length) : Decimal.ofNumber t.chars = .ok d := by
  obtain ⟨x, xs, isBody, noPlus, noMinus⟩ := t.exists_body_eq
  have read := t.read_body (places ▸ d.scale_le) (digits ▸ d.mantissa_lt)
  rw [← digits, ← places] at read
  rw [ofNumber_chars]
  cases sign : t.sign with
  | minus =>
    rw [sign] at negative
    exact readPlain_minus_of_read read negative
  | none | plus =>
    rw [sign] at negative
    rw [isBody] at read ⊢
    exact readPlain_of_read noPlus noMinus read negative

/-! ### Printing a number -/

/-- **A decimal is printed as the number that it was read from**, tidied. -/
theorem toChars_eq (t : NumberText) (negative : d.negative = decide (t.sign = .minus)) (digits : d.mantissa = t.digits)
    (places : d.scale = t.places.length) : d.toChars = t.tidied.chars := by
  have whole : d.mantissa / powerOfTen d.scale = Decimal.numeral t.whole := by
    rw [digits, places, NumberText.digits, Decimal.numeral_append_div t.whole t.isDigit_places]
  have rest : d.mantissa % powerOfTen d.scale = Decimal.numeral t.places := by
    rw [digits, places, NumberText.digits, Decimal.numeral_append_mod t.whole t.isDigit_places]
  have sign : (if d.negative then ['-'] else []) = t.sign.tidied.chars := by
    rw [negative]
    cases t.sign <;> rfl
  have point : (if d.scale = 0 then [] else '.' :: Decimal.paddedDigits d.scale (d.mantissa % powerOfTen d.scale))
      = t.fraction := by
    rw [rest, places]
    rcases t.fraction_eq with ⟨none, noPlaces⟩ | ⟨some, run⟩
    · rw [none, noPlaces]
      rfl
    · rw [some, if_neg (Nat.ne_of_gt (List.length_pos_iff.2 run.some)), Decimal.paddedDigits_numeral run]
  rw [Decimal.toChars, whole, Decimal.toDigits_numeral t.isRun_whole, sign, point, List.append_assoc]
  rfl

/-- The digits that a decimal is printed with after its point. -/
def printedPlaces (d : Decimal) : List Char :=
  if d.scale = 0 then [] else Decimal.paddedDigits d.scale (d.mantissa % powerOfTen d.scale)

theorem isDigit_printedPlaces (d : Decimal) : ∀ x ∈ printedPlaces d, isDigit x = true := by
  rw [printedPlaces]
  split
  · exact List.forall_mem_nil _
  · exact (Decimal.isRun_paddedDigits _ _).all

theorem length_printedPlaces (d : Decimal) : (printedPlaces d).length = d.scale := by
  rw [printedPlaces]
  split
  · next none => exact none.symm
  · next some => exact Decimal.length_paddedDigits (Nat.pos_of_ne_zero some) (Nat.mod_lt _ (powerOfTen_pos _))

theorem numeral_printedPlaces (d : Decimal) :
    Decimal.numeral (printedPlaces d) = d.mantissa % powerOfTen d.scale := by
  rw [printedPlaces]
  split
  · next none =>
    rw [none, show powerOfTen 0 = 1 from rfl, Nat.mod_one]
    rfl
  · exact Decimal.numeral_paddedDigits _ _

/-- The number that a decimal is printed as. -/
def ofDecimal (d : Decimal) : NumberText where
  sign := if d.negative then .minus else .none
  whole := Nat.toDigits 10 (d.mantissa / powerOfTen d.scale)
  places := printedPlaces d
  isRun_whole := Decimal.isRun_toDigits _
  isDigit_places := isDigit_printedPlaces d

theorem digits_ofDecimal (d : Decimal) : (ofDecimal d).digits = d.mantissa := by
  show Decimal.numeral (Nat.toDigits 10 (d.mantissa / powerOfTen d.scale) ++ printedPlaces d) = _
  rw [Decimal.numeral_append, length_printedPlaces, numeral_printedPlaces, Decimal.numeral_toDigits]
  exact Nat.div_add_mod d.mantissa (powerOfTen d.scale)

theorem chars_ofDecimal (d : Decimal) : (ofDecimal d).chars = d.toChars := by
  have sign : (ofDecimal d).sign.chars = if d.negative then ['-'] else [] := by
    rw [ofDecimal]
    split <;> rfl
  have point : (ofDecimal d).fraction =
      if d.scale = 0 then [] else '.' :: Decimal.paddedDigits d.scale (d.mantissa % powerOfTen d.scale) := by
    have length := length_printedPlaces d
    rcases (ofDecimal d).fraction_eq with ⟨fraction, noPlaces⟩ | ⟨fraction, run⟩
    · have noPlaces : printedPlaces d = [] := noPlaces
      rw [noPlaces, List.length_nil] at length
      rw [fraction, if_pos length.symm]
    · have run : IsRun isDigit (printedPlaces d) := run
      have places : d.scale ≠ 0 := length ▸ Nat.ne_of_gt (List.length_pos_iff.2 run.some)
      rw [fraction, if_neg places]
      show '.' :: printedPlaces d = _
      rw [printedPlaces, if_neg places]
  rw [chars, sign, point, Decimal.toChars, List.append_assoc]
  rfl

/-- **A decimal is read again from the text that it is printed as**, if it is no zero with a sign. -/
theorem ofNumber_toChars (unsigned : d.negative = true → d.isZero = false) : Decimal.ofNumber d.toChars = .ok d := by
  rw [← chars_ofDecimal]
  refine ofNumber_eq _ ?_ (digits_ofDecimal d).symm (length_printedPlaces d).symm
  show d.negative = (decide ((if d.negative then SignText.minus else .none) = .minus) && d.mantissa != 0)
  cases negative : d.negative with
  | false => rfl
  | true =>
    have some : d.isZero = false := unsigned negative
    rw [Decimal.isZero] at some
    rw [bne, some]
    rfl

end NumberText

/-! ### Amounts -/

/-- An amount as it is written. -/
structure AmountText where
  number : NumberText
  gap : List Char
  code : List Char
  isGap_gap : ∀ x ∈ gap, isGap x = true
  isRun_code : IsRun isUpper code

/-- The rule for amounts reads the text up to its end, and the part that it leaves is this money. -/
def Money.IsReadFrom (m : Money) (text : List Char) : Prop :=
  ∃ n stop, Grammar.amount.read (.start text) = some ([n], stop) ∧ stop.rest = [] ∧ Money.ofNode n = .ok m

namespace AmountText

variable {c stop : Cursor} {nodes : List Node} {m : Money}

def chars (t : AmountText) : List Char := t.number.chars ++ (t.gap ++ t.code)

/-- The amount with a tidy number and one space after it. -/
def tidied (t : AmountText) : AmountText where
  number := t.number.tidied
  gap := [' ']
  code := t.code
  isGap_gap := List.forall_mem_singleton.2 rfl
  isRun_code := t.isRun_code

theorem isReadFrom_chars_iff (t : AmountText) :
    m.IsReadFrom t.chars ↔ Money.ofParts t.number.chars t.code = .ok m := by
  obtain ⟨n, read, isAmount⟩ := read_amount (leads_start t.chars) t.number.isNumber_chars t.isGap_gap t.isRun_code
    (by rintro _ ⟨⟩)
  rw [← ofNode_of_isAmount isAmount]
  constructor
  · rintro ⟨n', stop, read', _, isMoney⟩
    cases read.symm.trans read'
    exact isMoney
  · intro isMoney
    exact ⟨n, _, read, rfl, isMoney⟩

/-- **Whatever the rule for amounts reads is an amount as it is written**, and it is read as on its own. -/
theorem exists_of_read (taken : amount.read c = some (nodes, stop)) :
    ∃ (n : Node) (t : AmountText), nodes = [n] ∧ n.text.toList = t.chars ∧ c.Leads t.chars stop ∧
      ∀ m, Money.ofNode n = .ok m ↔ m.IsReadFrom t.chars := by
  obtain ⟨number, gap, code, n, led, isNumber, all, isCode, rfl, isAmount⟩ := exists_of_read_amount taken
  obtain ⟨t, rfl⟩ := NumberText.exists_of_isNumber isNumber
  refine ⟨n, ⟨t, gap, code, all, isCode⟩, rfl, ?_, led, fun m => ?_⟩
  · obtain ⟨_, _, same⟩ := Expr.read_rule_eq_some_iff.1 taken
    cases same
    rw [Node.text, led.upTo, String.toList_ofList]
    rfl
  · rw [isReadFrom_chars_iff, ofNode_of_isAmount isAmount]

/-- **Money is printed as it was written**, tidied, if its number fits and is no zero with a minus. -/
theorem exists_tidied (t : AmountText) {currency : Currency} (few : t.number.places.length ≤ 28)
    (fits : t.number.digits < Decimal.limit) (unsigned : t.number.sign = .minus → t.number.digits ≠ 0)
    (isCode : t.code = currency.code.toList) :
    ∃ m : Money, m.IsReadFrom t.chars ∧ m.text.toList = t.tidied.chars := by
  have signed : (decide (t.number.sign = .minus) && t.number.digits != 0) = decide (t.number.sign = .minus) := by
    cases isMinus : decide (t.number.sign = .minus) with
    | false => rfl
    | true => simpa using unsigned (of_decide_eq_true isMinus)
  let d : Decimal := ⟨decide (t.number.sign = .minus), t.number.digits, t.number.places.length, fits, few⟩
  refine ⟨⟨d, currency⟩, ?_, ?_⟩
  · rw [isReadFrom_chars_iff, ofParts_eq_ok_iff]
    exact ⟨t.number.ofNumber_eq signed.symm rfl rfl, isCode⟩
  · have number : d.toChars = t.number.tidied.chars := t.number.toChars_eq rfl rfl rfl
    show (d.text ++ " " ++ currency.code).toList = t.number.tidied.chars ++ (' ' :: t.code)
    rw [String.toList_append, String.toList_append, Decimal.text, String.toList_ofList, number, isCode,
      List.append_assoc]
    rfl

end AmountText

theorem Currency.isRun_code (c : Currency) : IsRun isUpper c.code.toList := by
  cases c <;> decide

namespace Money

/-- The amount that money is printed as. -/
def amountText (m : Money) : AmountText where
  number := .ofDecimal m.amount
  gap := [' ']
  code := m.currency.code.toList
  isGap_gap := List.forall_mem_singleton.2 rfl
  isRun_code := m.currency.isRun_code

theorem chars_amountText (m : Money) : m.amountText.chars = m.text.toList := by
  show (NumberText.ofDecimal m.amount).chars ++ (' ' :: m.currency.code.toList) = (m.amount.text ++ " " ++ _).toList
  rw [NumberText.chars_ofDecimal, String.toList_append, String.toList_append, Decimal.text, String.toList_ofList,
    List.append_assoc]
  rfl

/-- **Printed money is read as it was**, if it is no zero with a sign. -/
theorem isReadFrom_text (m : Money) (unsigned : m.amount.negative = true → m.amount.isZero = false) :
    m.IsReadFrom m.text.toList := by
  rw [← chars_amountText, AmountText.isReadFrom_chars_iff, ofParts_eq_ok_iff]
  refine ⟨?_, rfl⟩
  show Decimal.ofNumber (NumberText.ofDecimal m.amount).chars = .ok m.amount
  rw [NumberText.chars_ofDecimal]
  exact NumberText.ofNumber_toChars unsigned

/-- **Money and its text.** Printed money is read as it was. Whatever is read as an amount, anywhere, is the text of
one and is read as on its own. And what is read is printed as that text, with one space before the code, and
without a plus and zeros in front that do not count. -/
theorem text_roundtrip :
    (∀ m : Money, (m.amount.negative = true → m.amount.isZero = false) → m.IsReadFrom m.text.toList) ∧
    (∀ c nodes stop, Grammar.amount.read c = some (nodes, stop) → ∃ (n : Node) (t : AmountText), nodes = [n] ∧
      n.text.toList = t.chars ∧ c.Leads t.chars stop ∧ ∀ m, Money.ofNode n = .ok m ↔ m.IsReadFrom t.chars) ∧
    ∀ (t : AmountText) (currency : Currency), t.number.places.length ≤ 28 → t.number.digits < Decimal.limit →
      (t.number.sign = .minus → t.number.digits ≠ 0) → t.code = currency.code.toList →
      ∃ m : Money, m.IsReadFrom t.chars ∧ m.text.toList = t.tidied.chars :=
  ⟨isReadFrom_text, fun _ _ _ taken => AmountText.exists_of_read taken,
    fun t _ few fits unsigned isCode => t.exists_tidied few fits unsigned isCode⟩

/-- An amount with a plus, zeros in front and a tab before its code. -/
def untidyAmount : AmountText where
  number := ⟨.plus, "007".toList, "50".toList, by decide, List.all_eq_true.1 rfl⟩
  gap := ['\t']
  code := "EUR".toList
  isGap_gap := List.forall_mem_singleton.2 rfl
  isRun_code := by decide

theorem roundtrip_of_untidyAmount :
    (⟨(Decimal.fit? true 133750 2).getD .zero, .usd⟩ : Money).IsReadFrom "-1337.50 USD".toList ∧
      (∃ (n : Node) (t : AmountText), n.text.toList = t.chars ∧
        ∃ m : Money, Money.ofNode n = .ok m ∧ m.IsReadFrom t.chars) ∧
      ∃ m : Money, m.IsReadFrom "+007.50\tEUR".toList ∧ m.text.toList = "7.50 EUR".toList := by
  have printed := text_roundtrip.1 ⟨(Decimal.fit? true 133750 2).getD .zero, .usd⟩ (fun _ => rfl)
  have tidied := text_roundtrip.2.2 untidyAmount .eur (by decide) (by decide) (fun isMinus => by cases isMinus) rfl
  refine ⟨printed, ?_, tidied⟩
  obtain ⟨m, ⟨n, stop, read, -, isMoney⟩, -⟩ := tidied
  obtain ⟨n', t, same, text, -, reads⟩ := text_roundtrip.2.1 _ _ _ read
  cases same
  exact ⟨n, t, text, m, isMoney, (reads m).1 isMoney⟩

end Money

end Daybook
