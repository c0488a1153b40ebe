import Daybook.Proofs.Decimal.Rounding

/-!
# Quotients

Long division goes by rounds, and after each of them the digits found and what is left over make up the
dividend (`Quotient.Holds`). A division comes to an end in one of two ways: with the quotient rounded half
to even at some number of places, which is the largest or the one with which the mantissa is full unless
nothing is left over (`Quotient.Rounds`); or without a result, if the quotient is too large for a decimal
(`Quotient.TooLarge`). For decimals this says when there is a quotient (`exists_div`), and when it is zero
(`isZero_div_iff`).
-/

namespace Daybook

namespace Decimal

/-! ### Rounding a quotient -/

theorem halfEven_of_eq {n d q r : Nat} (value : q * d + r = n) (left : r < d) :
    halfEven n d = if 2 * r > d ∨ (2 * r = d ∧ q % 2 = 1) then q + 1 else q := by
  have whole : n / d = q := by
    rw [← value, Nat.add_comm, Nat.add_mul_div_right _ _ (Nat.zero_lt_of_lt left), Nat.div_eq_of_lt left,
      Nat.zero_add]
  have rest : n % d = r := by rw [← value, Nat.mul_add_mod_self_right, Nat.mod_eq_of_lt left]
  simp only [halfEven, whole, rest]

/-- One place less: the last digit decides, and what is left over breaks a tie. -/
theorem halfEven_of_tenth {n d q r : Nat} (value : q * d + r = 10 * n) (left : r < d) :
    halfEven n d =
      if q % 10 > 5 ∨ (q % 10 = 5 ∧ (r > 0 ∨ q / 10 % 2 = 1)) then q / 10 + 1 else q / 10 := by
  have split : 10 * (q / 10 * d) + q % 10 * d = q * d := by
    rw [← Nat.mul_assoc, ← Nat.add_mul, Nat.div_add_mod]
  have last_le : q % 10 * d ≤ 9 * d := Nat.mul_le_mul_right d (by omega)
  obtain ⟨r', tenth⟩ : ∃ r', 10 * r' = q % 10 * d + r := ⟨n - q / 10 * d, by omega⟩
  rw [halfEven_of_eq (show q / 10 * d + r' = n by omega) (by omega)]
  rcases Nat.lt_trichotomy (q % 10) 5 with below | five | above
  · have : q % 10 * d ≤ 4 * d := Nat.mul_le_mul_right d (by omega)
    rw [if_neg (by omega), if_neg (by omega)]
  · rw [five] at tenth
    have tie : (2 * r' > d ∨ 2 * r' = d ∧ q / 10 % 2 = 1) ↔ (r > 0 ∨ q / 10 % 2 = 1) := by omega
    simp only [five, tie, true_and, gt_iff_lt, Nat.lt_irrefl, false_or]
  · have : 6 * d ≤ q % 10 * d := Nat.mul_le_mul_right d above
    rw [if_pos (by omega), if_pos (by omega)]

namespace Quotient

variable {dividend divisor places : Nat} {start : Int} {q : Quotient}

/-! ### Digits and what is left -/

/-- So many places after the start of a division, digits and rest make up the dividend. -/
structure Holds (dividend divisor : Nat) (start : Int) (places : Nat) (q : Quotient) : Prop where
  scale : q.scale = start + places
  value : q.digits * divisor + q.rest = dividend * powerOfTen places
  rest_lt : q.rest < divisor

/-- The digits are the quotient rounded half to even; there are no more of them because no more would fit,
or because they are the whole quotient. -/
structure Rounds (dividend divisor : Nat) (start : Int) (places : Nat) (q : Quotient) : Prop where
  scale : q.scale = start + places
  digits : q.digits = halfEven (dividend * powerOfTen places) divisor
  digits_lt : q.digits < limit
  scale_nonneg : 0 ≤ q.scale
  scale_le : q.scale ≤ 28
  full : q.scale = 28 ∨ limit ≤ 10 * (q.digits + 1) ∨ q.digits * divisor = dividend * powerOfTen places

/-- Without any places, the quotient is rounded to a whole number that is no mantissa. -/
def TooLarge (dividend divisor : Nat) (start : Int) : Prop :=
  start ≤ 0 ∧ (2 * limit - 1) * divisor ≤ 2 * (dividend * powerOfTen (-start).toNat)

/-- How a division may end. -/
def Ends (dividend divisor : Nat) (start : Int) (result : Option Quotient) : Prop :=
  (∃ places r, result = some r ∧ Rounds dividend divisor start places r) ∨
    (result = none ∧ TooLarge dividend divisor start)

/-- Digits for which there is no more room before the point make the quotient too large. -/
theorem Holds.tooLarge (holds : q.Holds dividend divisor start places) (whole : q.scale ≤ 0)
    (large : (2 * limit - 1) * divisor ≤ 2 * (q.digits * divisor + q.rest)) :
    TooLarge dividend divisor start := by
  have scale := holds.scale
  refine ⟨by omega, Nat.le_trans large ?_⟩
  rw [holds.value]
  exact Nat.mul_le_mul_left 2 (Nat.mul_le_mul_left _ (Nat.pow_le_pow_right (by decide) (by omega)))

theorem Holds.tooLarge_of_digits (holds : q.Holds dividend divisor start places) (whole : q.scale ≤ 0)
    (long : limit ≤ q.digits) : TooLarge dividend divisor start := by
  refine holds.tooLarge whole ?_
  have := Nat.mul_le_mul_right divisor long
  have : (2 * limit - 1) * divisor ≤ 2 * (limit * divisor) := by
    rw [← Nat.mul_assoc]
    exact Nat.mul_le_mul_right divisor (Nat.sub_le _ _)
  omega

/-- More places: the digits move to the left and the rest is divided on. -/
theorem Holds.next (holds : q.Holds dividend divisor start places) (p : Nat) (inexact : Bool) :
    Holds dividend divisor start (places + p)
      { digits := q.digits * powerOfTen p + q.rest * powerOfTen p / divisor
        rest := q.rest * powerOfTen p % divisor
        scale := q.scale + p
        inexact := inexact } := by
  refine ⟨?_, ?_, Nat.mod_lt _ (Nat.zero_lt_of_lt holds.rest_lt)⟩
  · show q.scale + p = start + (places + p : Nat)
    rw [holds.scale]
    omega
  · show (q.digits * powerOfTen p + q.rest * powerOfTen p / divisor) * divisor
      + q.rest * powerOfTen p % divisor = _
    rw [Nat.add_mul, Nat.add_assoc, Nat.div_add_mod', powerOfTen_add, ← Nat.mul_assoc, ← holds.value,
      Nat.add_mul, Nat.mul_right_comm]

/-! ### Room for more digits -/

theorem exists_find?_range {p : Nat → Bool} (first : p 0 = true) (n : Nat) :
    ∃ i ≤ n, (List.range (n + 1)).reverse.find? p = some i ∧ p i = true ∧ (i < n → p (i + 1) = false) := by
  induction n with
  | zero =>
    refine ⟨0, Nat.le_refl 0, by simp [List.range_succ, first], first, ?_⟩
    intro lt
    exact absurd lt (Nat.lt_irrefl 0)
  | succ n ih =>
    rw [List.range_succ, List.reverse_append, List.reverse_singleton, List.singleton_append, List.find?_cons]
    cases last : p (n + 1) with
    | true =>
      refine ⟨n + 1, Nat.le_refl _, rfl, last, ?_⟩
      intro lt
      exact absurd lt (Nat.lt_irrefl _)
    | false =>
      obtain ⟨i, le, found, holds, next⟩ := ih
      refine ⟨i, Nat.le_succ_of_le le, found, holds, ?_⟩
      intro lt
      rcases Nat.eq_or_lt_of_le le with rfl | lt
      · exact last
      · exact next lt

/-- The room is used up: one place more would be more than nine, too many, or too long. -/
theorem room_spec (digits_lt : q.digits < limit) (scale_le : q.scale ≤ 28) :
    q.room ≤ 9 ∧ q.scale + q.room ≤ 28 ∧ q.digits * powerOfTen q.room < limit ∧
      (q.room < 9 → q.scale + q.room = 28 ∨ limit ≤ q.digits * powerOfTen (q.room + 1)) := by
  obtain ⟨i, le, found, holds, next⟩ := exists_find?_range
    (p := fun p => decide (q.scale + p ≤ 28) && decide (q.digits * powerOfTen p < limit))
    (by simpa [powerOfTen] using ⟨scale_le, digits_lt⟩) 9
  have room : q.room = i := by
    rw [Quotient.room]
    exact congrArg (Option.getD · 0) found
  simp only [Bool.and_eq_true, decide_eq_true_eq, Bool.and_eq_false_iff, decide_eq_false_iff_not] at holds next
  rw [room]
  refine ⟨le, holds.1, holds.2, ?_⟩
  intro lt
  rcases next lt with many | long
  · left
    omega
  · exact .inr (Nat.not_lt.1 long)

/-! ### The end of a division -/

/-- A whole quotient with no whole digits missing. -/
theorem Holds.rounds_of_exact (holds : q.Holds dividend divisor start places) (exact : q.rest = 0)
    (digits_lt : q.digits < limit) (placed : 0 ≤ q.scale) (scale_le : q.scale ≤ 28) :
    q.Rounds dividend divisor start places where
  scale := holds.scale
  digits := by
    have left := holds.rest_lt
    rw [halfEven_of_eq holds.value left, exact]
    exact (if_neg (by omega)).symm
  digits_lt := digits_lt
  scale_nonneg := placed
  scale_le := scale_le
  full := by
    right
    right
    rw [← holds.value, exact, Nat.add_zero]

/-- One place less for digits that cannot stay as they are: too long, or about to become so. -/
theorem Holds.rounds_tenth {r : Quotient} (holds : q.Holds dividend divisor start (places + 1))
    (digits : r.digits = if q.digits % 10 > 5 ∨ (q.digits % 10 = 5 ∧ (q.rest > 0 ∨ q.digits / 10 % 2 = 1))
      then q.digits / 10 + 1 else q.digits / 10)
    (scale : r.scale = q.scale - 1) (place : ¬ q.scale < 1) (scale_le : q.scale ≤ 28)
    (long : limit ≤ q.digits + 1) (few : q.digits < 9 * limit) : r.Rounds dividend divisor start places := by
  have value := holds.value
  rw [powerOfTen_add, show powerOfTen 1 = 10 from rfl, ← Nat.mul_assoc, Nat.mul_comm _ 10] at value
  have start_scale := holds.scale
  have bounds : q.digits / 10 ≤ r.digits ∧ r.digits ≤ q.digits / 10 + 1 := by
    rw [digits]
    split <;> omega
  simp only [limit] at long few
  refine ⟨by omega, ?_, ?_, by omega, by omega, .inr (.inl ?_)⟩
  · rw [digits, halfEven_of_tenth value holds.rest_lt]
  · show r.digits < 79228162514264337593543950336
    omega
  · show 79228162514264337593543950336 ≤ 10 * (r.digits + 1)
    omega

theorem shortened_of_last (place : ¬ q.scale < 1) (last : q.digits % 10 > 5) :
    q.shortened = some { q with digits := q.digits / 10 + 1, scale := q.scale - 1 } := by
  simp only [shortened, if_neg place, last, true_or, if_true]

/-- Digits that are too long by one lose it, if it stands after the point. -/
theorem Holds.ends_shortened (holds : q.Holds dividend divisor start (places + 1)) (long : limit ≤ q.digits)
    (few : q.digits < 9 * limit) (scale_le : q.scale ≤ 28) :
    Ends dividend divisor start q.shortened := by
  rw [shortened]
  split
  · next whole => exact .inr ⟨rfl, holds.tooLarge_of_digits (Int.lt_add_one_iff.1 whole) long⟩
  · next place =>
    exact .inl ⟨places, _, rfl, holds.rounds_tenth rfl rfl place scale_le (Nat.le_succ_of_le long) few⟩

/-- The largest mantissa with something left over has places after the point, or before it: a dividend
below the limit leaves no rest when it is divided without any. -/
theorem Holds.places_ne_zero (holds : q.Holds dividend divisor start places) (small : dividend < limit)
    (inexact : q.rest ≠ 0) (largest : q.digits = limit - 1) : places ≠ 0 := by
  intro none
  have value := holds.value
  have left := holds.rest_lt
  rw [none, show powerOfTen 0 = 1 from rfl, Nat.mul_one, largest] at value
  simp only [limit] at small value
  omega

/-- Digits with no room for more are rounded by what is left over. -/
theorem Holds.ends_settled (holds : q.Holds dividend divisor start places) (small : dividend < limit)
    (inexact : q.rest ≠ 0) (digits_lt : q.digits < limit) (placed : 0 ≤ q.scale) (scale_le : q.scale ≤ 28)
    (full : q.scale = 28 ∨ limit ≤ q.digits * 10) :
    Ends dividend divisor start (q.settled divisor) := by
  have rounded := halfEven_of_eq holds.value holds.rest_lt
  simp only [settled, bounded, ← rounded]
  split
  · next fits =>
    refine .inl ⟨places, _, rfl, holds.scale, rfl, fits, placed, scale_le, ?_⟩
    rcases full with last | full
    · exact .inl last
    · right
      left
      show limit ≤ 10 * (halfEven _ _ + 1)
      split at rounded <;> omega
  -- The digits were the largest mantissa, and are rounded up to one that is too long.
  · next long =>
    have largest : q.digits = limit - 1 ∧ divisor ≤ 2 * q.rest := by
      simp only [limit] at digits_lt long ⊢
      split at rounded <;> omega
    have carried : halfEven (dividend * powerOfTen places) divisor = limit := by
      have up : 2 * q.rest > divisor ∨ (2 * q.rest = divisor ∧ (limit - 1) % 2 = 1) := by
        have odd : (limit - 1) % 2 = 1 := by decide
        omega
      rw [rounded, largest.1, if_pos up]
      decide
    rw [carried]
    by_cases whole : q.scale < 1
    · refine .inr ⟨if_pos whole, holds.tooLarge (Int.lt_add_one_iff.1 whole) ?_⟩
      rw [largest.1]
      simp only [limit]
      omega
    · obtain ⟨fewer, rfl⟩ : ∃ fewer, places = fewer + 1 :=
        Nat.exists_eq_succ_of_ne_zero (holds.places_ne_zero small inexact largest.1)
      have last : limit % 10 > 5 := by decide
      have cut := shortened_of_last (q := ⟨limit, 0, q.scale, q.inexact⟩) whole last
      refine .inl ⟨fewer, _, cut, holds.rounds_tenth ?_ rfl whole scale_le ?_ ?_⟩
      · have up : (limit - 1) % 10 > 5 ∨
            ((limit - 1) % 10 = 5 ∧ (q.rest > 0 ∨ (limit - 1) / 10 % 2 = 1)) :=
          .inr ⟨by decide, .inl (Nat.pos_of_ne_zero inexact)⟩
        rw [largest.1, if_pos up]
        show limit / 10 + 1 = (limit - 1) / 10 + 1
        decide
      · rw [largest.1]
        decide
      · rw [largest.1]
        decide

/-- A round adds at most nine places, so it cannot take digits that fit far beyond the limit. -/
theorem Holds.digits_lt_of_next (holds : q.Holds dividend divisor start places) {p : Nat} (few : p ≤ 9)
    (fits : q.digits * powerOfTen p < limit) :
    q.digits * powerOfTen p + q.rest * powerOfTen p / divisor < 9 * limit := by
  have more : q.rest * powerOfTen p / divisor < powerOfTen p :=
    Nat.div_lt_of_lt_mul (Nat.mul_lt_mul_of_pos_right holds.rest_lt (powerOfTen_pos p))
  have most : powerOfTen p ≤ powerOfTen 9 := Nat.pow_le_pow_right (by decide) few
  have bound : limit + powerOfTen 9 ≤ 9 * limit := by decide
  omega

/-- **Long division ends** well, or because the quotient is too large: the rounds are enough for as many
places as there may be. -/
theorem Holds.ends_divide {rounds : Nat} (small : dividend < limit)
    (holds : q.Holds dividend divisor start places) (digits_lt : q.digits < limit) (scale_le : q.scale ≤ 28)
    (enough : 28 - q.scale < rounds) : Ends dividend divisor start (q.divide divisor rounds) := by
  -- Every round that does not end the division adds a place, and there is one round less.
  induction rounds generalizing q places with
  | zero => omega
  | succ rounds ih =>
    have later (p : Nat) (some_place : 0 < p) : 28 - (q.scale + p) < rounds := by omega
    rw [divide]
    split
    -- Nothing is left over: only zeros may be missing before the point.
    · next exact =>
      split
      · next placed => exact .inl ⟨places, q, rfl, holds.rounds_of_exact exact digits_lt placed scale_le⟩
      · next whole =>
        obtain ⟨p, zeros⟩ : ∃ p, p = min 9 (-q.scale).toNat := ⟨_, rfl⟩
        have fewer : q.scale + p ≤ 0 := by omega
        have next := holds.next p q.inexact
        rw [exact, Nat.zero_mul, Nat.zero_div, Nat.zero_mod, Nat.add_zero] at next
        simp only [← zeros, exact]
        split
        · next fits => exact ih next fits (Int.le_trans fewer (by decide)) (later p (by omega))
        · next long => exact .inr ⟨rfl, next.tooLarge_of_digits fewer (Nat.not_lt.1 long)⟩
    · next inexact =>
      obtain ⟨room_le, room_scale, room_digits, used⟩ := room_spec digits_lt scale_le
      simp only
      generalize q.room = p at *
      split
      · next whole =>
        refine .inr ⟨rfl, (holds.next (p + 1) true).tooLarge_of_digits ?_ ?_⟩
        · show q.scale + (p + 1 : Nat) ≤ 0
          omega
        · rcases used whole.1 with full | long
          · omega
          · exact Nat.le_trans long (Nat.le_add_right _ _)
      · next placed =>
        split
        · next none =>
          subst none
          have placed : 0 ≤ q.scale := by
            rw [Int.natCast_zero, Int.add_zero] at placed
            omega
          refine Holds.ends_settled ⟨holds.scale, holds.value, holds.rest_lt⟩ small inexact digits_lt placed
            scale_le ?_
          simpa [powerOfTen] using used (by decide)
        · next some_room =>
          split
          · next fits =>
            exact ih (holds.next p true) fits room_scale (later p (Nat.pos_of_ne_zero some_room))
          · next long =>
            obtain ⟨p, rfl⟩ : ∃ fewer, p = fewer + 1 := Nat.exists_eq_succ_of_ne_zero some_room
            exact (holds.next (p + 1) true).ends_shortened (Nat.not_lt.1 long)
              (holds.digits_lt_of_next room_le room_digits) room_scale

/-! ### Zeros at the end -/

/-- Some zeros at the end are gone; all of them stood after the point. -/
def Trims (q q' : Quotient) : Prop :=
  ∃ zeros, q'.digits * powerOfTen zeros = q.digits ∧ q'.scale + zeros = q.scale ∧
    (0 ≤ q.scale → 0 ≤ q'.scale)

theorem Trims.refl (q : Quotient) : Trims q q := ⟨0, Nat.mul_one _, Int.add_zero _, id⟩

theorem Trims.trans {q q' q'' : Quotient} (h : Trims q q') (h' : Trims q' q'') : Trims q q'' := by
  obtain ⟨zeros, digits, scale, nonneg⟩ := h
  obtain ⟨zeros', digits', scale', nonneg'⟩ := h'
  refine ⟨zeros' + zeros, ?_, by omega, nonneg' ∘ nonneg⟩
  rw [powerOfTen_add, ← Nat.mul_assoc, digits', digits]

theorem trims_strip (count : Nat) (q : Quotient) : Trims q (q.strip count) := by
  rw [strip]
  split
  · next zeros =>
    refine ⟨count, Nat.div_mul_cancel (Nat.dvd_of_mod_eq_zero zeros.2), ?_, fun _ => ?_⟩
    · show q.scale - count + count = q.scale
      omega
    · exact Int.sub_nonneg_of_le zeros.1
  · exact .refl q

theorem trims_stripEights (rounds : Nat) (q : Quotient) : Trims q (q.stripEights rounds) := by
  induction rounds generalizing q with
  | zero => exact .refl q
  | succ rounds ih =>
    rw [stripEights]
    split
    · exact (trims_strip 8 q).trans (ih _)
    · exact .refl q

theorem trims_trimmed (q : Quotient) : Trims q q.trimmed := by
  rw [trimmed]
  split
  · exact (((trims_stripEights 4 q).trans (trims_strip 4 _)).trans (trims_strip 2 _)).trans (trims_strip 1 _)
  · exact .refl q

theorem Trims.digits_le {q q' : Quotient} (h : Trims q q') : q'.digits ≤ q.digits := by
  obtain ⟨zeros, digits, -⟩ := h
  rw [← digits]
  exact Nat.le_mul_of_pos_right _ (powerOfTen_pos zeros)

theorem Trims.scale_le {q q' : Quotient} (h : Trims q q') : q'.scale ≤ q.scale := by
  obtain ⟨zeros, -, scale, -⟩ := h
  omega

theorem Trims.digits_eq_zero_iff {q q' : Quotient} (h : Trims q q') : q'.digits = 0 ↔ q.digits = 0 := by
  obtain ⟨zeros, digits, -⟩ := h
  rw [← digits, Nat.mul_eq_zero, or_iff_left (Nat.ne_of_gt (powerOfTen_pos zeros))]

/-- A quotient is rounded to zero only with the largest number of places. -/
theorem Rounds.digits_eq_zero_iff (rounds : q.Rounds dividend divisor start places)
    (some_dividend : 0 < dividend) (some_divisor : 0 < divisor) :
    q.digits = 0 ↔ 2 * (dividend * powerOfTen (28 - start).toNat) ≤ divisor := by
  have scale := rounds.scale
  have scale_le := rounds.scale_le
  rw [rounds.digits, halfEven_eq_zero_iff some_divisor]
  constructor
  · intro small
    have none : q.digits = 0 := by
      rw [rounds.digits, halfEven_eq_zero_iff some_divisor]
      exact small
    rcases rounds.full with last | full | exact
    · rwa [show (28 - start).toNat = places by omega]
    · rw [none] at full
      exact absurd full (by decide)
    · rw [none, Nat.zero_mul] at exact
      exact absurd exact (Nat.ne_of_lt (Nat.mul_pos some_dividend (powerOfTen_pos places)))
  · refine Nat.le_trans (Nat.mul_le_mul_left 2 (Nat.mul_le_mul_left _ ?_))
    exact Nat.pow_le_pow_right (by decide) (by omega)

end Quotient

/-! ### Dividing decimals -/

theorem mantissa_pos {d : Decimal} (h : ¬ d.isZero = true) : 0 < d.mantissa := by
  rw [isZero, beq_iff_eq] at h
  exact Nat.pos_of_ne_zero h

/-- The quotient of two decimals that are not zero: what long division ends with, less some zeros. -/
theorem exists_of_div {a b : Decimal} (dividend : ¬ a.isZero = true) (divisor : ¬ b.isZero = true) :
    (∃ places r q, Quotient.Rounds a.mantissa b.mantissa (a.scale - b.scale) places r ∧
      a.div b = some q ∧ (q.mantissa = 0 ↔ r.digits = 0) ∧
      q.negative = ((a.negative != b.negative) && q.mantissa != 0)) ∨
    (a.div b = none ∧ Quotient.TooLarge a.mantissa b.mantissa (a.scale - b.scale)) := by
  have holds : Quotient.Holds a.mantissa b.mantissa (a.scale - b.scale) 0
      ⟨a.mantissa / b.mantissa, a.mantissa % b.mantissa, (a.scale : Int) - b.scale, false⟩ := by
    refine ⟨(Int.add_zero _).symm, ?_, Nat.mod_lt _ (mantissa_pos divisor)⟩
    exact (Nat.div_add_mod' _ _).trans (Nat.mul_one _).symm
  have scale_le : (a.scale : Int) - b.scale ≤ 28 := by
    have := a.scale_le
    omega
  have enough : 28 - ((a.scale : Int) - b.scale) < (64 : Nat) := by
    have := b.scale_le
    omega
  have ends := holds.ends_divide a.mantissa_lt (Nat.lt_of_le_of_lt (Nat.div_le_self _ _) a.mantissa_lt)
    scale_le enough
  rw [div, if_neg divisor, if_neg dividend]
  rcases ends with ⟨places, r, divided, rounds⟩ | ⟨divided, large⟩
  · have trims := r.trims_trimmed
    have scale_le := rounds.scale_le
    have := trims.scale_le
    refine .inl ⟨places, r, ⟨(a.negative != b.negative) && r.trimmed.digits != 0, r.trimmed.digits,
      r.trimmed.scale.toNat, Nat.lt_of_le_of_lt trims.digits_le rounds.digits_lt, by omega⟩, rounds, ?_,
      trims.digits_eq_zero_iff, rfl⟩
    simp only [divided, Option.bind_eq_bind, Option.bind_some, fit?_eq_some_iff, and_self]
  · refine .inr ⟨?_, large⟩
    simp only [divided, Option.bind_eq_bind, Option.bind_none]

/-- **There is a quotient** wherever rounding it to a whole number gives a mantissa. -/
theorem exists_div {a b : Decimal} (fits : 2 * a.units.natAbs < (2 * limit - 1) * b.units.natAbs) :
    ∃ q, a.div b = some q := by
  have divisor : ¬ b.isZero = true := by
    rw [isZero_iff]
    intro none
    rw [none, Int.natAbs_zero, Nat.mul_zero] at fits
    exact Nat.not_lt_zero _ fits
  by_cases dividend : a.isZero = true
  · exact ⟨zero, by rw [div, if_neg divisor, if_pos dividend]⟩
  rcases exists_of_div dividend divisor with ⟨-, -, q, -, divided, -⟩ | ⟨-, before, large⟩
  · exact ⟨q, divided⟩
  -- The bound in units of the smallest decimal is the one of the two mantissas, at the larger scale.
  · exfalso
    have power : powerOfTen (28 - a.scale)
        = powerOfTen (-((a.scale : Int) - b.scale)).toNat * powerOfTen (28 - b.scale) := by
      have := b.scale_le
      rw [← powerOfTen_add]
      congr 1
      omega
    rw [natAbs_units, natAbs_units, power, ← Nat.mul_assoc, ← Nat.mul_assoc, ← Nat.mul_assoc] at fits
    have := Nat.lt_of_mul_lt_mul_right fits
    rw [Nat.mul_assoc] at this
    omega

/-- **A quotient is zero** where the exact one is no more than half of the smallest decimal. -/
theorem isZero_div_iff {a b q : Decimal} (h : a.div b = some q) :
    q.isZero = true ↔ 2 * (a.units.natAbs * powerOfTen 28) ≤ b.units.natAbs := by
  have divisor : ¬ b.isZero = true := by
    intro none
    rw [div, if_pos none] at h
    cases h
  by_cases dividend : a.isZero = true
  · rw [div, if_neg divisor, if_pos dividend] at h
    rw [← Option.some.inj h, isZero_iff.1 dividend]
    exact iff_of_true rfl (by simp)
  rcases exists_of_div dividend divisor with ⟨places, r, q', rounds, divided, none_iff, -⟩ | ⟨divided, -⟩
  · obtain rfl : q = q' := Option.some.inj (h.symm.trans divided)
    have power : powerOfTen (28 - a.scale) * powerOfTen 28
        = powerOfTen (28 - ((a.scale : Int) - b.scale)).toNat * powerOfTen (28 - b.scale) := by
      have := a.scale_le
      have := b.scale_le
      rw [← powerOfTen_add, ← powerOfTen_add]
      congr 1
      omega
    rw [isZero, beq_iff_eq, none_iff, rounds.digits_eq_zero_iff (mantissa_pos dividend) (mantissa_pos divisor),
      natAbs_units, natAbs_units, Nat.mul_assoc a.mantissa, power, ← Nat.mul_assoc a.mantissa,
      ← Nat.mul_assoc 2 (a.mantissa * _), Nat.mul_le_mul_right_iff (powerOfTen_pos _)]
  · rw [h] at divided
    cases divided

theorem units_nonneg {d : Decimal} (h : d.negative = false) : 0 ≤ d.units := by
  simp only [units, h, Bool.false_eq_true, if_false]
  exact Int.natCast_nonneg _

theorem negative_of_units_pos {d : Decimal} (h : 0 < d.units) : d.negative = false := by
  cases sign : d.negative with
  | false => rfl
  | true =>
    simp only [units, sign, if_true] at h
    omega

/-- The quotient of two positive decimals is not negative, not even if it is a zero. -/
theorem negative_div {a b q : Decimal} (h : a.div b = some q) (dividend : 0 < a.units) (divisor : 0 < b.units) :
    q.negative = false := by
  rcases exists_of_div (a := a) (b := b) (by rw [isZero_iff]; omega) (by rw [isZero_iff]; omega)
    with ⟨-, -, q', -, divided, -, sign⟩ | ⟨divided, -⟩
  · obtain rfl : q = q' := Option.some.inj (h.symm.trans divided)
    rw [sign, negative_of_units_pos dividend, negative_of_units_pos divisor]
    rfl
  · rw [h] at divided
    cases divided

end Decimal

end Daybook
