import Daybook.Proofs.Grammar.Barrier

/-!
# The texts of tokens

What numbers, currencies, names and amounts look like, said of their characters alone. A token is read of such
a text, if the text does not go on with more of it (`read_number`), and only of such a text
(`exists_of_read_number`); a name goes on as long as there are characters of names. An amount or an account is
made of tokens, and its parts are known from the text as well (`IsAmount`, `IsOwned`).
-/

namespace Daybook.Grammar

open Daybook.Grammar.Expr
open Cursor (Leads)

variable {c m stop : Cursor} {text before after blanks rest : List Char} {accepts : Char → Bool} {name : Rule}
  {body : Expr} {nodes : List Node} {n : Node}

/-! ### Going over given characters -/

namespace Cursor

theorem Leads.unique (led : c.Leads text m) (led' : c.Leads text stop) : m = stop := by
  obtain ⟨offset, line, rest⟩ := m
  obtain ⟨offset', line', rest'⟩ := stop
  obtain rfl : offset = offset' := led.offset.trans led'.offset.symm
  obtain rfl : line = line' := led.line.trans led'.line.symm
  obtain rfl : rest = rest' := List.append_cancel_left (led.rest.symm.trans led'.rest)
  rfl

theorem exists_leads (isRest : c.rest = text ++ rest) : ∃ m, c.Leads text m ∧ m.rest = rest :=
  ⟨⟨c.offset + text.length, c.line + text.count '\n', rest⟩, ⟨isRest, rfl, rfl⟩, rfl⟩

theorem Leads.split (led : c.Leads (before ++ after) stop) : ∃ m, c.Leads before m ∧ m.Leads after stop := by
  have isRest := led.rest
  rw [List.append_assoc] at isRest
  obtain ⟨m, led', isRest'⟩ := exists_leads isRest
  refine ⟨m, led', isRest', ?_, ?_⟩
  · rw [led.offset, led'.offset, List.length_append, Nat.add_assoc]
  · rw [led.line, led'.line, List.count_append, Nat.add_assoc]

theorem Leads.split_cons {x : Char} (led : c.Leads (x :: text) stop) :
    ∃ m, c.Leads [x] m ∧ m.Leads text stop := Leads.split led

theorem after?_of_leads (led : c.Leads text stop) : c.after? text = some stop := by
  induction text generalizing c with
  | nil =>
    rw [Leads.unique led (.refl c)]
    rfl
  | cons x xs ih =>
    have isRest : c.rest = x :: (xs ++ stop.rest) := led.rest
    obtain ⟨m, first, later⟩ := led.split_cons
    obtain rfl := first.unique (leads_next isRest)
    simp only [after?, isRest, if_true]
    exact ih later

end Cursor

theorem read_word (led : c.Leads text stop) : (Expr.word text).read c = some ([], stop) :=
  read_word_eq_some_iff.2 ⟨Cursor.after?_of_leads led, rfl⟩

/-! ### Characters of a class -/

/-- No character of the class stands next. -/
def EndsAt (accepts : Char → Bool) (rest : List Char) : Prop := ∀ x ∈ rest.head?, accepts x = false

/-- Some characters of the class. -/
structure IsRun (accepts : Char → Bool) (text : List Char) : Prop where
  some : text ≠ []
  all : ∀ x ∈ text, accepts x = true

instance (accepts : Char → Bool) (text : List Char) : Decidable (IsRun accepts text) :=
  decidable_of_iff (text ≠ [] ∧ text.all accepts = true)
    ⟨fun h => ⟨h.1, List.all_eq_true.1 h.2⟩, fun run => ⟨run.some, List.all_eq_true.2 run.all⟩⟩

theorem read_char_of_endsAt (ends : EndsAt accepts c.rest) : (Expr.char accepts).read c = none := by
  apply read_char_eq_none_iff.2
  intro x rest isRest
  apply ends
  rw [isRest]
  rfl

/-- As many characters of a class as there are. -/
theorem readAll_char (led : c.Leads text stop) (all : ∀ x ∈ text, accepts x = true)
    (ends : EndsAt accepts stop.rest) : (Expr.char accepts).readAll c = ([], stop) := by
  induction text generalizing c with
  | nil =>
    obtain rfl := led.unique (.refl c)
    exact readAll_of_none (read_char_of_endsAt ends)
  | cons x xs ih =>
    obtain ⟨accepted, all⟩ := List.forall_mem_cons.1 all
    have isRest : c.rest = x :: (xs ++ stop.rest) := led.rest
    obtain ⟨m, first, later⟩ := led.split_cons
    obtain rfl := first.unique (Cursor.leads_next isRest)
    rw [readAll_of_some rfl (read_char_eq_some_iff.2 ⟨x, _, isRest, accepted, rfl, rfl⟩), ih later all]
    rfl

theorem exists_readAll_char (accepts : Char → Bool) (c : Cursor) :
    ∃ text stop, c.Leads text stop ∧ (∀ x ∈ text, accepts x = true) ∧ EndsAt accepts stop.rest ∧
      (Expr.char accepts).readAll c = ([], stop) := by
  have cut : c.rest = c.rest.takeWhile accepts ++ c.rest.dropWhile accepts := List.takeWhile_append_dropWhile.symm
  obtain ⟨stop, led, isRest⟩ := Cursor.exists_leads cut
  have all : ∀ x ∈ c.rest.takeWhile accepts, accepts x = true := List.all_eq_true.1 List.all_takeWhile
  have ends : EndsAt accepts stop.rest := by
    intro x head
    rw [isRest] at head
    have := List.head?_dropWhile_not accepts c.rest
    rw [head] at this
    simpa using this
  exact ⟨_, stop, led, all, ends, readAll_char led all ends⟩

theorem read_oneOrMore (led : c.Leads text stop) (run : IsRun accepts text) (ends : EndsAt accepts stop.rest) :
    (oneOrMore accepts).read c = some ([], stop) := by
  obtain ⟨x, xs, rfl⟩ := List.exists_cons_of_ne_nil run.some
  obtain ⟨accepted, all⟩ := List.forall_mem_cons.1 run.all
  have isRest : c.rest = x :: (xs ++ stop.rest) := led.rest
  obtain ⟨m, first, later⟩ := led.split_cons
  obtain rfl := first.unique (Cursor.leads_next isRest)
  refine read_seq_eq_some_iff.2 ⟨[], _, [], read_char_eq_some_iff.2 ⟨x, _, isRest, accepted, rfl, rfl⟩, ?_, rfl⟩
  rw [read_star, readAll_char later all ends]

theorem exists_of_read_oneOrMore (taken : (oneOrMore accepts).read c = some (nodes, stop)) :
    nodes = [] ∧ ∃ text, c.Leads text stop ∧ IsRun accepts text ∧ EndsAt accepts stop.rest := by
  obtain ⟨_, m, _, begun, later, rfl⟩ := read_seq_eq_some_iff.1 taken
  obtain ⟨x, rest, isRest, accepted, rfl, rfl⟩ := read_char_eq_some_iff.1 begun
  obtain ⟨text, stop', led, all, ends, read⟩ := exists_readAll_char accepts (c.next x rest)
  rw [read_star, read] at later
  cases later
  refine ⟨rfl, x :: text, (Cursor.leads_next isRest).trans led, ⟨List.cons_ne_nil _ _, ?_⟩, ends⟩
  exact List.forall_mem_cons.2 ⟨accepted, all⟩

/-! ### Gaps and tokens -/

theorem afterGap_of_leads (led : c.Leads blanks m) (all : ∀ x ∈ blanks, isGap x = true)
    (ends : EndsAt isGap m.rest) : c.afterGap = m := by
  rw [Cursor.afterGap, readAll_char led all ends]

theorem afterGap_of_endsAt (ends : EndsAt isGap c.rest) : c.afterGap = c :=
  afterGap_of_leads (.refl c) (List.forall_mem_nil _) ends

theorem exists_leads_afterGap (c : Cursor) :
    ∃ blanks, c.Leads blanks c.afterGap ∧ (∀ x ∈ blanks, isGap x = true) ∧ EndsAt isGap c.afterGap.rest := by
  obtain ⟨blanks, stop, led, all, ends, read⟩ := exists_readAll_char isGap c
  obtain rfl : c.afterGap = stop := afterGap_of_leads led all ends
  exact ⟨blanks, led, all, ends⟩

/-- The part that a token leaves. -/
def tokenNode (name : Rule) (c : Cursor) (text : List Char) : Node := .mk name c.line (String.ofList text) []

theorem read_token (led : c.Leads text stop) (taken : body.read c = some (nodes, stop)) (name : Rule) :
    (token name body).read c = some ([tokenNode name c text], stop) := by
  rw [token, read_rule, taken, Option.map_some, led.upTo]
  rfl

theorem exists_of_read_token (taken : (token name body).read c = some (nodes, stop)) :
    ∃ inside text, body.read c = some (inside, stop) ∧ c.Leads text stop ∧ nodes = [tokenNode name c text] := by
  obtain ⟨inside, read, rfl⟩ := read_rule_eq_some_iff.1 taken
  obtain ⟨text, led⟩ := leads_of_read read
  refine ⟨inside, text, read, led, ?_⟩
  rw [led.upTo]
  rfl

/-- A token of characters of one class. -/
theorem read_runToken (led : c.Leads text stop) (run : IsRun accepts text) (ends : EndsAt accepts stop.rest)
    (name : Rule) : (token name (oneOrMore accepts)).read c = some ([tokenNode name c text], stop) :=
  read_token led (read_oneOrMore led run ends) name

theorem exists_of_read_runToken (taken : (token name (oneOrMore accepts)).read c = some (nodes, stop)) :
    ∃ text, c.Leads text stop ∧ IsRun accepts text ∧ EndsAt accepts stop.rest ∧
      nodes = [tokenNode name c text] := by
  obtain ⟨inside, text, read, led, rfl⟩ := exists_of_read_token taken
  obtain ⟨_, text', led', run, ends⟩ := exists_of_read_oneOrMore read
  obtain rfl : text = text' := led.upTo.symm.trans led'.upTo
  exact ⟨text, led, run, ends, rfl⟩

/-! ### Numbers -/

/-- A text of digits, maybe with a sign before it, and maybe with a point and more digits after it. -/
structure IsNumber (text : List Char) : Prop where
  parts : ∃ sign whole fraction, text = sign ++ (whole ++ fraction) ∧
    (sign = [] ∨ sign = ['-'] ∨ sign = ['+']) ∧ IsRun isDigit whole ∧
    (fraction = [] ∨ ∃ places, fraction = '.' :: places ∧ IsRun isDigit places)

/-- The characters that a number may go on with. -/
def isNumberChar (x : Char) : Bool := isDigit x || x == '.'

theorem EndsAt.mono {accepts' : Char → Bool} (ends : EndsAt accepts rest)
    (sub : ∀ x, accepts x = false → accepts' x = false) : EndsAt accepts' rest :=
  fun x head => sub x (ends x head)

theorem IsRun.head? (run : IsRun accepts text) : ∃ x ∈ text.head?, accepts x = true := by
  obtain ⟨x, xs, rfl⟩ := List.exists_cons_of_ne_nil run.some
  exact ⟨x, rfl, run.all x List.mem_cons_self⟩

theorem read_word_eq_none {x : Char} {xs : List Char} (other : ∀ y ∈ c.rest.head?, y ≠ x) :
    (Expr.word (x :: xs)).read c = none := by
  rw [read_word_eq_none_iff, Cursor.after?]
  split
  · rfl
  · next y rest isRest =>
    have differs : x ≠ y := by
      rintro rfl
      exact other x (by rw [isRest]; rfl) rfl
    rw [if_neg differs]

/-- The part after the point. -/
def fractionPart : Expr := .opt (.seq (word ".") (oneOrMore isDigit))

def signPart : Expr := .opt (oneOf [word "-", word "+"])

theorem read_fractionPart {fraction : List Char} (led : c.Leads fraction stop)
    (isFraction : fraction = [] ∨ ∃ places, fraction = '.' :: places ∧ IsRun isDigit places)
    (ends : EndsAt isNumberChar stop.rest) : fractionPart.read c = some ([], stop) := by
  rcases isFraction with rfl | ⟨places, rfl, run⟩
  · obtain rfl := led.unique (.refl c)
    have noPoint : (word ".").read stop = none := by
      apply read_word_eq_none
      rintro y head rfl
      have := ends '.' head
      contradiction
    exact read_opt_eq_some_iff.2 (.inr ⟨read_seq_eq_none_iff.2 (.inl noPoint), rfl⟩)
  · obtain ⟨m, point, later⟩ := led.split_cons
    have digits : (oneOrMore isDigit).read m = some ([], stop) :=
      read_oneOrMore later run (ends.mono fun x other => (Bool.or_eq_false_iff.1 other).1)
    exact read_opt_eq_some_iff.2 (.inl (read_seq_eq_some_iff.2 ⟨[], m, [], read_word point, digits, rfl⟩))

theorem read_signPart {sign : List Char} (led : c.Leads sign m)
    (isSign : sign = [] ∨ sign = ['-'] ∨ sign = ['+']) (digit : ∃ x ∈ m.rest.head?, isDigit x = true) :
    signPart.read c = some ([], m) := by
  obtain ⟨d, head, isDigit⟩ := digit
  rcases isSign with rfl | rfl | rfl
  · obtain rfl := led.unique (.refl c)
    have other {x : Char} (noDigit : Grammar.isDigit x = false) : ∀ y ∈ m.rest.head?, y ≠ x := by
      rintro y head' rfl
      rw [Option.mem_unique head head', noDigit] at isDigit
      cases isDigit
    have noSign : (oneOf [word "-", word "+"]).read m = none :=
      read_alt_eq_none_iff.2 ⟨read_word_eq_none (other rfl), read_word_eq_none (other rfl)⟩
    exact read_opt_eq_some_iff.2 (.inr ⟨noSign, rfl⟩)
  · exact read_opt_eq_some_iff.2 (.inl (read_alt_eq_some_iff.2 (.inl (read_word led))))
  · have noMinus : (word "-").read c = none := by
      apply read_word_eq_none
      intro y head'
      rw [led.rest] at head'
      cases head'
      decide
    exact read_opt_eq_some_iff.2 (.inl (read_alt_eq_some_iff.2 (.inr ⟨noMinus, read_word led⟩)))

theorem exists_of_read_signPart (taken : signPart.read c = some (nodes, m)) :
    ∃ sign, c.Leads sign m ∧ (sign = [] ∨ sign = ['-'] ∨ sign = ['+']) ∧ nodes = [] := by
  rcases read_opt_eq_some_iff.1 taken with taken | ⟨_, same⟩
  · rcases read_alt_eq_some_iff.1 taken with taken | ⟨_, taken⟩
    · obtain ⟨after, rfl⟩ := read_word_eq_some_iff.1 taken
      exact ⟨_, Cursor.leads_of_after? after, .inr (.inl rfl), rfl⟩
    · obtain ⟨after, rfl⟩ := read_word_eq_some_iff.1 taken
      exact ⟨_, Cursor.leads_of_after? after, .inr (.inr rfl), rfl⟩
  · cases same
    exact ⟨[], .refl c, .inl rfl, rfl⟩

theorem exists_of_read_fractionPart (taken : fractionPart.read c = some (nodes, stop)) :
    ∃ fraction, c.Leads fraction stop ∧
      (fraction = [] ∨ ∃ places, fraction = '.' :: places ∧ IsRun isDigit places) ∧ nodes = [] := by
  rcases read_opt_eq_some_iff.1 taken with taken | ⟨_, same⟩
  · obtain ⟨_, m, _, point, digits, rfl⟩ := read_seq_eq_some_iff.1 taken
    obtain ⟨after, rfl⟩ := read_word_eq_some_iff.1 point
    obtain ⟨rfl, places, led, run, _⟩ := exists_of_read_oneOrMore digits
    exact ⟨_, (Cursor.leads_of_after? after).trans led, .inr ⟨places, rfl, run⟩, rfl⟩
  · cases same
    exact ⟨[], .refl c, .inl rfl, rfl⟩

/-- **A number is read**, if the text does not go on with it. -/
theorem read_number (led : c.Leads text stop) (isNumber : IsNumber text) (ends : EndsAt isNumberChar stop.rest) :
    number.read c = some ([tokenNode .number c text], stop) := by
  obtain ⟨sign, whole, fraction, rfl, isSign, run, isFraction⟩ := isNumber.parts
  apply read_token led
  obtain ⟨m, toWhole, later⟩ := led.split
  obtain ⟨k, toFraction, toStop⟩ := later.split
  have digit : ∃ x ∈ m.rest.head?, isDigit x = true := by
    obtain ⟨x, head, accepted⟩ := run.head?
    refine ⟨x, ?_, accepted⟩
    rw [toFraction.rest, List.head?_append, head]
    rfl
  have wholeEnds : EndsAt isDigit k.rest := by
    rw [toStop.rest]
    rcases isFraction with rfl | ⟨places, rfl, _⟩
    · exact ends.mono fun x other => (Bool.or_eq_false_iff.1 other).1
    · rintro _ ⟨⟩
      rfl
  refine read_seq_eq_some_iff.2 ⟨[], m, [], read_signPart toWhole isSign digit, ?_, rfl⟩
  refine read_seq_eq_some_iff.2 ⟨[], k, [], read_oneOrMore toFraction run wholeEnds, ?_, rfl⟩
  exact read_fractionPart toStop isFraction ends

/-- **Only a number is read as one.** -/
theorem exists_of_read_number (taken : number.read c = some (nodes, stop)) :
    ∃ text, c.Leads text stop ∧ IsNumber text ∧ nodes = [tokenNode .number c text] := by
  obtain ⟨_, text, read, led, rfl⟩ := exists_of_read_token taken
  refine ⟨text, led, ⟨?_⟩, rfl⟩
  obtain ⟨_, m, _, signed, read, _⟩ := read_seq_eq_some_iff.1 read
  obtain ⟨_, k, _, digits, read, _⟩ := read_seq_eq_some_iff.1 read
  obtain ⟨sign, toWhole, isSign, _⟩ := exists_of_read_signPart signed
  obtain ⟨_, whole, toFraction, run, _⟩ := exists_of_read_oneOrMore digits
  obtain ⟨fraction, toStop, isFraction, _⟩ := exists_of_read_fractionPart read
  have parts := led.upTo.symm.trans (toWhole.trans (toFraction.trans toStop)).upTo
  exact ⟨sign, whole, fraction, parts, isSign, run, isFraction⟩

/-! ### Characters of different classes -/

theorem isGap_iff {x : Char} : isGap x = true ↔ x = ' ' ∨ x = '\t' := by simp [isGap]

theorem eq_false_of_isGap (notBlank : accepts ' ' = false) (notTab : accepts '\t' = false) {x : Char}
    (gap : isGap x = true) : accepts x = false := by
  rcases isGap_iff.1 gap with rfl | rfl
  · exact notBlank
  · exact notTab

theorem isDigit_of_isUpper {x : Char} (upper : isUpper x = true) : isDigit x = false := by
  rw [isUpper, Bool.and_eq_true, decide_eq_true_eq] at upper
  apply Bool.eq_false_iff.2
  intro digit
  rw [isDigit, Bool.and_eq_true, decide_eq_true_eq, decide_eq_true_eq] at digit
  exact absurd (Char.le_trans upper.1 digit.2) (by decide)

theorem isNumberChar_of_isUpper {x : Char} (upper : isUpper x = true) : isNumberChar x = false := by
  rw [isNumberChar, isDigit_of_isUpper upper, Bool.false_or, beq_eq_false_iff_ne]
  rintro rfl
  cases upper

theorem isGap_of_class (notBlank : accepts ' ' = false) (notTab : accepts '\t' = false) {x : Char}
    (accepted : accepts x = true) : isGap x = false := by
  apply Bool.eq_false_iff.2
  intro gap
  rw [eq_false_of_isGap notBlank notTab gap] at accepted
  cases accepted

theorem isInLine_of_class (noFeed : accepts '\n' = false) (noReturn : accepts '\r' = false) {x : Char}
    (accepted : accepts x = true) : isInLine x = true := by
  rw [isInLine, Bool.and_eq_true, bne_iff_ne, bne_iff_ne]
  constructor
  · rintro rfl
    rw [accepted] at noFeed
    cases noFeed
  · rintro rfl
    rw [accepted] at noReturn
    cases noReturn

theorem EndsAt.append (ends : EndsAt accepts text) (some : text ≠ []) (more : List Char) :
    EndsAt accepts (text ++ more) := by
  intro x head
  obtain ⟨y, ys, rfl⟩ := List.exists_cons_of_ne_nil some
  exact ends x head

/-- What holds of digits, signs and points holds of all that is in a number. -/
theorem IsNumber.forall_mem {P : Char → Prop} (isNumber : IsNumber text) (digit : ∀ x, isDigit x = true → P x)
    (plus : P '+') (minus : P '-') (point : P '.') : ∀ x ∈ text, P x := by
  obtain ⟨sign, whole, fraction, rfl, isSign, run, isFraction⟩ := isNumber.parts
  intro x mem
  rcases List.mem_append.1 mem with mem | mem
  · rcases isSign with rfl | rfl | rfl
    · cases mem
    · rwa [List.mem_singleton.1 mem]
    · rwa [List.mem_singleton.1 mem]
  rcases List.mem_append.1 mem with mem | mem
  · exact digit x (run.all x mem)
  · rcases isFraction with rfl | ⟨places, rfl, run'⟩
    · cases mem
    · rcases List.mem_cons.1 mem with rfl | mem
      · exact point
      · exact digit x (run'.all x mem)

theorem IsNumber.noGap (isNumber : IsNumber text) : ∀ x ∈ text, isGap x = false :=
  isNumber.forall_mem (fun _ digit => isGap_of_class rfl rfl digit) rfl rfl rfl

theorem IsNumber.noUpper (isNumber : IsNumber text) : ∀ x ∈ text, isUpper x = false := by
  refine isNumber.forall_mem (fun x digit => Bool.eq_false_iff.2 fun upper => ?_) rfl rfl rfl
  rw [isDigit_of_isUpper upper] at digit
  cases digit

theorem IsNumber.ne_nil (isNumber : IsNumber text) : text ≠ [] := by
  obtain ⟨sign, whole, fraction, rfl, _, run, _⟩ := isNumber.parts
  exact List.append_ne_nil_of_right_ne_nil _ (List.append_ne_nil_of_left_ne_nil run.some _)

/-- A number does not start with what is in no number. -/
theorem IsNumber.endsAt (isNumber : IsNumber text) (others : ∀ x ∈ text, accepts x = false) (more : List Char) :
    EndsAt accepts (text ++ more) :=
  EndsAt.append (fun x head => others x (List.mem_of_mem_head? head)) isNumber.ne_nil more

theorem endsAt_append {accepts' : Char → Bool} (run : IsRun accepts' text)
    (others : ∀ x, accepts' x = true → accepts x = false) : EndsAt accepts (text ++ rest) := by
  intro x head
  obtain ⟨y, ys, rfl⟩ := List.exists_cons_of_ne_nil run.some
  cases head
  exact others x (run.all x List.mem_cons_self)

/-- A gap, or what follows it at once, is not of a class that blanks are not of. -/
theorem endsAt_gap_append (notBlank : accepts ' ' = false) (notTab : accepts '\t' = false)
    (all : ∀ x ∈ blanks, isGap x = true) (ends : EndsAt accepts rest) : EndsAt accepts (blanks ++ rest) := by
  cases blanks with
  | nil => exact ends
  | cons y ys =>
    rintro _ ⟨⟩
    exact eq_false_of_isGap notBlank notTab (all y List.mem_cons_self)

/-! ### Amounts -/

/-- The part of an amount with this number and this code. -/
structure IsAmount (number code : List Char) (n : Node) : Prop where
  rule : n.rule = .amount
  children : ∃ c c', n.children = [tokenNode .number c number, tokenNode .currency c' code]

theorem read_amount {number code : List Char} (led : c.Leads (number ++ (blanks ++ code)) stop)
    (isNumber : IsNumber number) (all : ∀ x ∈ blanks, isGap x = true) (isCode : IsRun isUpper code)
    (ends : EndsAt isUpper stop.rest) : ∃ n, amount.read c = some ([n], stop) ∧ IsAmount number code n := by
  obtain ⟨m, toNumber, later⟩ := led.split
  obtain ⟨k, toCode, toStop⟩ := later.split
  have numberEnds : EndsAt isNumberChar m.rest := by
    rw [toCode.rest, toStop.rest]
    exact endsAt_gap_append rfl rfl all (endsAt_append isCode fun x upper => isNumberChar_of_isUpper upper)
  have codeHead : EndsAt isGap k.rest := by
    rw [toStop.rest]
    exact endsAt_append isCode fun x upper => isGap_of_class rfl rfl upper
  have parts : (loose [Grammar.number, currency]).read c
      = some ([tokenNode .number c number, tokenNode .currency k code], stop) := by
    refine read_seq_eq_some_iff.2 ⟨_, m, _, read_number toNumber isNumber numberEnds, ?_, rfl⟩
    rw [read_seq_gap, afterGap_of_leads toCode all codeHead]
    exact read_runToken toStop isCode ends .currency
  exact ⟨_, read_rule_eq_some_iff.2 ⟨_, parts, rfl⟩, rfl, c, k, rfl⟩

theorem exists_of_read_amount (taken : amount.read c = some (nodes, stop)) :
    ∃ number blanks code n, c.Leads (number ++ (blanks ++ code)) stop ∧ IsNumber number ∧
      (∀ x ∈ blanks, isGap x = true) ∧ IsRun isUpper code ∧ nodes = [n] ∧ IsAmount number code n := by
  obtain ⟨_, parts, rfl⟩ := read_rule_eq_some_iff.1 taken
  obtain ⟨_, m, _, begun, later, rfl⟩ := read_seq_eq_some_iff.1 parts
  rw [read_seq_gap] at later
  obtain ⟨number, toNumber, isNumber, rfl⟩ := exists_of_read_number begun
  obtain ⟨blanks, toCode, all, _⟩ := exists_leads_afterGap m
  obtain ⟨code, toStop, isCode, _, rfl⟩ := exists_of_read_runToken later
  exact ⟨number, blanks, code, _, toNumber.trans (toCode.trans toStop), isNumber, all, isCode, rfl, rfl, _, _, rfl⟩

/-! ### Accounts -/

/-- The words for the kinds of accounts. -/
def kindWords : List (List Char) := ["asset", "liability", "equity"].map String.toList

/-- The part of an account of this kind and name. -/
structure IsOwned (kind name : List Char) (n : Node) : Prop where
  rule : n.rule = .owned
  children : ∃ c c', n.children = [tokenNode .accountKind c kind, tokenNode .accountName c' name]

theorem read_accountKind {kind : List Char} (led : c.Leads kind stop) (known : kind ∈ kindWords) :
    accountKind.read c = some ([tokenNode .accountKind c kind], stop) := by
  have mem : Expr.word kind ∈ kindWords.map Expr.word := List.mem_map_of_mem known
  have excluding : (kindWords.map Expr.word).Pairwise fun e e' => apart e e' = true := by decide
  have read : (oneOf (kindWords.map Expr.word)).read c = some ([], stop) :=
    read_oneOf excluding mem (read_word led)
  exact read_token led read .accountKind

theorem exists_of_read_accountKind (taken : accountKind.read c = some (nodes, stop)) :
    ∃ kind, c.Leads kind stop ∧ kind ∈ kindWords ∧ nodes = [tokenNode .accountKind c kind] := by
  obtain ⟨_, text, read, led, rfl⟩ := exists_of_read_token taken
  have read : (oneOf (kindWords.map Expr.word)).read c = some (_, stop) := read
  obtain ⟨e, mem, read⟩ := exists_of_read_oneOf read
  obtain ⟨kind, known, rfl⟩ := List.mem_map.1 mem
  have led' := Cursor.leads_of_after? (read_word_eq_some_iff.1 read).1
  obtain rfl : text = kind := led.upTo.symm.trans led'.upTo
  exact ⟨text, led, known, rfl⟩

theorem read_owned {kind name : List Char} (led : c.Leads (kind ++ '/' :: name) stop) (known : kind ∈ kindWords)
    (isName : IsRun isNameChar name) (ends : EndsAt isNameChar stop.rest) :
    ∃ n, owned.read c = some ([n], stop) ∧ IsOwned kind name n := by
  obtain ⟨m, toKind, later⟩ := led.split
  obtain ⟨k, toSlash, toName⟩ := later.split_cons
  have parts : (tight [accountKind, word "/", accountName]).read c
      = some ([tokenNode .accountKind c kind, tokenNode .accountName k name], stop) := by
    refine read_seq_eq_some_iff.2 ⟨_, m, _, read_accountKind toKind known, ?_, rfl⟩
    exact read_seq_eq_some_iff.2 ⟨[], k, _, read_word toSlash, read_runToken toName isName ends .accountName, rfl⟩
  exact ⟨_, read_rule_eq_some_iff.2 ⟨_, parts, rfl⟩, rfl, c, k, rfl⟩

theorem exists_of_read_owned (taken : owned.read c = some (nodes, stop)) :
    ∃ kind name n, c.Leads (kind ++ '/' :: name) stop ∧ kind ∈ kindWords ∧ IsRun isNameChar name ∧
      EndsAt isNameChar stop.rest ∧ nodes = [n] ∧ IsOwned kind name n := by
  obtain ⟨_, parts, rfl⟩ := read_rule_eq_some_iff.1 taken
  obtain ⟨_, m, _, begun, later, rfl⟩ := read_seq_eq_some_iff.1 parts
  obtain ⟨_, k, _, slash, isLast, rfl⟩ := read_seq_eq_some_iff.1 later
  obtain ⟨kind, toKind, known, rfl⟩ := exists_of_read_accountKind begun
  obtain ⟨after, rfl⟩ := read_word_eq_some_iff.1 slash
  obtain ⟨name, toName, isName, ends, rfl⟩ := exists_of_read_runToken isLast
  have led := toKind.trans ((Cursor.leads_of_after? after).trans toName)
  exact ⟨kind, name, _, led, known, isName, ends, rfl, rfl, _, _, rfl⟩

end Daybook.Grammar
