import Daybook.Decimal.Reader
import Daybook.Proofs.Grammar.Tokens

/-!
# Digits and numbers

Digits are a number (`numeral`), and a number is printed with as few of them as possible, or with zeros in front
up to a width. So digits are printed again without the zeros in front that do not count (`toDigits_numeral`), or
exactly as they are (`paddedDigits_numeral`). Reading goes over digits one by one, and where a decimal has room
for all of them it ends at their number (`Digits.read_append`).
-/

namespace Daybook

open Grammar (IsRun isDigit)

namespace Decimal

variable {digits more rest : List Char} {x : Char}

/-- The number that digits are. -/
def numeral (digits : List Char) : Nat := Nat.ofDigitChars 10 digits 0

/-- Digits without the zeros in front that do not count; one digit is left. -/
def significant : List Char → List Char
  | '0' :: x :: digits => significant (x :: digits)
  | digits => digits

/-! ### One digit -/

theorem isDigit_iff : isDigit x = true ↔ '0'.toNat ≤ x.toNat ∧ x.toNat ≤ '9'.toNat := by
  rw [isDigit, Bool.and_eq_true, decide_eq_true_eq, decide_eq_true_eq]
  exact Iff.rfl

theorem isDigit_of_char (digit : x.isDigit = true) : isDigit x = true := by
  rw [Char.isDigit_iff_toNat] at digit
  exact isDigit_iff.2 digit

theorem digitChar_of_isDigit (digit : isDigit x = true) : Nat.digitChar (x.toNat - '0'.toNat) = x := by
  have bounds := isDigit_iff.1 digit
  have small : x.toNat - '0'.toNat < 10 := by
    simp only [Char.reduceToNat] at bounds ⊢
    omega
  apply Char.toNat_inj.1
  rw [Nat.toNat_digitChar_of_lt_ten small]
  simp only [Char.reduceToNat] at bounds ⊢
  omega

theorem digit?_of_isDigit (digit : isDigit x = true) : digit? x = some (x.toNat - '0'.toNat) := by
  rw [isDigit, Bool.and_eq_true, decide_eq_true_eq, decide_eq_true_eq] at digit
  rw [digit?, if_pos digit]

/-! ### Numbers of digits -/

theorem numeral_cons_zero (digits : List Char) : numeral ('0' :: digits) = numeral digits := by
  rw [numeral, Nat.ofDigitChars_cons]
  rfl

theorem numeral_append (digits more : List Char) :
    numeral (digits ++ more) = powerOfTen more.length * numeral digits + numeral more := by
  rw [numeral, Nat.ofDigitChars_append, Nat.ofDigitChars_eq_ofDigitChars_zero]
  rfl

/-- Digits are less than the number with one more digit and zeros. -/
theorem numeral_lt (all : ∀ x ∈ digits, isDigit x = true) : numeral digits < powerOfTen digits.length := by
  induction digits with
  | nil => exact Nat.one_pos
  | cons x digits ih =>
    obtain ⟨digit, all⟩ := List.forall_mem_cons.1 all
    have bounds := isDigit_iff.1 digit
    have later := ih all
    have front : numeral [x] < 10 := by
      simp only [numeral, Nat.ofDigitChars_cons, Nat.ofDigitChars_nil, Char.reduceToNat] at bounds ⊢
      omega
    rw [← List.singleton_append, numeral_append, List.singleton_append, List.length_cons, powerOfTen_add]
    calc powerOfTen digits.length * numeral [x] + numeral digits
        < powerOfTen digits.length * numeral [x] + powerOfTen digits.length := Nat.add_lt_add_left later _
      _ = powerOfTen digits.length * (numeral [x] + 1) := (Nat.mul_succ _ _).symm
      _ ≤ powerOfTen digits.length * powerOfTen 1 := Nat.mul_le_mul_left _ front

/-- The number of digits is split where the digits are. -/
theorem numeral_append_div (digits : List Char) (all : ∀ x ∈ more, isDigit x = true) :
    numeral (digits ++ more) / powerOfTen more.length = numeral digits := by
  have later := numeral_lt all
  rw [numeral_append, Nat.mul_add_div (Nat.zero_lt_of_lt later), Nat.div_eq_of_lt later, Nat.add_zero]

theorem numeral_append_mod (digits : List Char) (all : ∀ x ∈ more, isDigit x = true) :
    numeral (digits ++ more) % powerOfTen more.length = numeral more := by
  rw [numeral_append, Nat.mul_add_mod, Nat.mod_eq_of_lt (numeral_lt all)]

/-! ### Printed numbers -/

/-- Digits after a number that is printed already are printed as they are. -/
theorem toDigits_ofDigitChars (all : ∀ x ∈ digits, isDigit x = true) {n : Nat} (positive : 0 < n) :
    Nat.toDigits 10 (Nat.ofDigitChars 10 digits n) = Nat.toDigits 10 n ++ digits := by
  induction digits generalizing n with
  | nil => rw [Nat.ofDigitChars_nil, List.append_nil]
  | cons x digits ih =>
    obtain ⟨digit, all⟩ := List.forall_mem_cons.1 all
    have bounds := isDigit_iff.1 digit
    have small : x.toNat - '0'.toNat < 10 := by
      simp only [Char.reduceToNat] at bounds ⊢
      omega
    rw [Nat.ofDigitChars_cons, ih all (by omega), ← Nat.toDigits_append_toDigits (by decide) positive small,
      Nat.toDigits_of_lt_base small, digitChar_of_isDigit digit, List.append_assoc, List.singleton_append]

/-- **Digits are printed again without the zeros in front that do not count.** -/
theorem toDigits_numeral (run : IsRun isDigit digits) : Nat.toDigits 10 (numeral digits) = significant digits := by
  fun_induction significant digits with
  | case1 x digits ih =>
    rw [numeral_cons_zero]
    exact ih ⟨List.cons_ne_nil _ _, fun y mem => run.all y (List.mem_cons_of_mem _ mem)⟩
  | case2 digits other =>
    obtain ⟨x, digits, rfl⟩ := List.exists_cons_of_ne_nil run.some
    obtain ⟨digit, all⟩ := List.forall_mem_cons.1 run.all
    by_cases isZero : x = '0'
    · subst isZero
      cases digits with
      | nil => rfl
      | cons y digits => exact (other y digits rfl).elim
    · -- The first digit counts, so nothing of the others is lost.
      have bounds := isDigit_iff.1 digit
      have positive : 0 < x.toNat - '0'.toNat := by
        have differs : x.toNat ≠ '0'.toNat := fun same => isZero (Char.toNat_inj.1 same)
        omega
      have small : x.toNat - '0'.toNat < 10 := by
        simp only [Char.reduceToNat] at bounds ⊢
        omega
      rw [numeral, Nat.ofDigitChars_cons, Nat.mul_zero, Nat.zero_add, toDigits_ofDigitChars all positive,
        Nat.toDigits_of_lt_base small, digitChar_of_isDigit digit, List.singleton_append]

theorem length_significant_le (digits : List Char) : (significant digits).length ≤ digits.length := by
  fun_induction significant digits with
  | case1 x digits ih => exact Nat.le_succ_of_le ih
  | case2 digits _ => exact Nat.le_refl _

/-- The zeros in front that do not count are as many as there are digits less. -/
theorem replicate_append_significant (digits : List Char) :
    List.replicate (digits.length - (significant digits).length) '0' ++ significant digits = digits := by
  fun_induction significant digits with
  | case1 x digits ih =>
    have := length_significant_le (x :: digits)
    rw [List.length_cons, Nat.succ_sub this, List.replicate_succ, List.cons_append, ih]
  | case2 digits _ => rw [Nat.sub_self, List.replicate_zero, List.nil_append]

/-- **Digits are printed again as they are**, with zeros in front up to their number. -/
theorem paddedDigits_numeral (run : IsRun isDigit digits) : paddedDigits digits.length (numeral digits) = digits := by
  rw [paddedDigits, toDigits_numeral run, replicate_append_significant]

theorem isRun_toDigits (n : Nat) : IsRun isDigit (Nat.toDigits 10 n) where
  some := Nat.toDigits_ne_nil
  all _ mem := isDigit_of_char (Nat.isDigit_of_mem_toDigits (by decide) (by decide) mem)

theorem numeral_toDigits (n : Nat) : numeral (Nat.toDigits 10 n) = n := Nat.ofDigitChars_ten_toDigits

theorem isRun_paddedDigits (width n : Nat) : IsRun isDigit (paddedDigits width n) where
  some := List.append_ne_nil_of_right_ne_nil _ Nat.toDigits_ne_nil
  all := by
    refine List.forall_mem_append.2 ⟨fun x mem => ?_, (isRun_toDigits n).all⟩
    rw [List.eq_of_mem_replicate mem]
    rfl

theorem numeral_paddedDigits (width n : Nat) : numeral (paddedDigits width n) = n := by
  rw [paddedDigits, numeral, Nat.ofDigitChars_append, Nat.ofDigitChars_replicate_zero, Nat.mul_zero]
  exact numeral_toDigits n

/-- A number that fits in a width has that width. -/
theorem length_paddedDigits {width n : Nat} (some : 0 < width) (fits : n < powerOfTen width) :
    (paddedDigits width n).length = width := by
  have short : (Nat.toDigits 10 n).length ≤ width := (Nat.length_toDigits_le_iff (by decide) some).2 fits
  rw [paddedDigits, List.length_append, List.length_replicate, Nat.sub_add_cancel short]

/-! ### Reading digits -/

/-- Reading digits makes a number no smaller. -/
theorem le_ofDigitChars (digits : List Char) (n : Nat) : n ≤ Nat.ofDigitChars 10 digits n := by
  have power : 0 < 10 ^ digits.length := Nat.pow_pos (by decide)
  rw [Nat.ofDigitChars_eq_ofDigitChars_zero]
  exact Nat.le_trans (Nat.le_mul_of_pos_left n power) (Nat.le_add_right _ _)

/-- The digits read so far, and some more. -/
def Digits.past (ds : Digits) (digits : List Char) : Digits where
  mantissa := Nat.ofDigitChars 10 digits ds.mantissa
  scale := if ds.fraction then ds.scale + digits.length else ds.scale
  fraction := ds.fraction
  begun := ds.begun || !digits.isEmpty

theorem Digits.past_cons (ds : Digits) (x : Char) (digits : List Char) :
    ds.past (x :: digits) = (ds.past [x]).past digits := by
  simp only [past, Nat.ofDigitChars_cons, Nat.ofDigitChars_nil, List.length_cons, List.length_nil, List.isEmpty_cons,
    Bool.not_false, Bool.or_true, Bool.true_or, Nat.zero_add, Digits.mk.injEq, true_and, and_true]
  split <;> omega

/-- **Digits are read one by one**, if a decimal has room for all of them. -/
theorem Digits.read_append {ds : Digits} (all : ∀ x ∈ digits, isDigit x = true)
    (fits : (ds.past digits).mantissa < limit) (wholes : ds.fraction = false → ds.scale = 0)
    (places : ds.fraction = true → ds.scale + digits.length ≤ 28) (rest : List Char) :
    ds.read (digits ++ rest) = (ds.past digits).read rest := by
  induction digits generalizing ds with
  | nil =>
    have same : ds.past [] = ds := by
      simp [past]
    rw [same, List.nil_append]
  | cons x digits ih =>
    obtain ⟨digit, all⟩ := List.forall_mem_cons.1 all
    rw [past_cons] at fits ⊢
    have room : (ds.fraction && decide (ds.scale ≥ 28)) = false := by
      cases isFraction : ds.fraction with
      | false => rfl
      | true =>
        have := places isFraction
        rw [List.length_cons] at this
        simp only [Bool.true_and, decide_eq_false_iff_not]
        omega
    have next : ds.past [x] = ⟨ds.mantissa * 10 + (x.toNat - '0'.toNat), if ds.fraction then ds.scale + 1 else 0,
        ds.fraction, true⟩ := by
      rw [past, Nat.ofDigitChars_cons, Nat.ofDigitChars_nil, Nat.mul_comm, List.length_singleton, List.isEmpty_cons,
        Bool.not_false, Bool.or_true]
      cases isFraction : ds.fraction with
      | false => rw [wholes isFraction]
      | true => rfl
    have fits' : ds.mantissa * 10 + (x.toNat - '0'.toNat) < limit := by
      refine Nat.lt_of_le_of_lt ?_ fits
      rw [next]
      exact le_ofDigitChars digits _
    have step : ds.read (x :: (digits ++ rest)) = (ds.past [x]).read (digits ++ rest) := by
      rw [read, room, if_neg Bool.false_ne_true, digit?_of_isDigit digit, next]
      exact if_pos fits'
    rw [List.cons_append, step]
    refine ih all fits (fun isWhole => ?_) fun isFraction => ?_
    · have isWhole : ds.fraction = false := isWhole
      rw [next, isWhole]
      rfl
    · have isFraction : ds.fraction = true := isFraction
      have := places isFraction
      rw [List.length_cons] at this
      simp only [next, isFraction, if_true]
      omega

end Decimal

end Daybook
