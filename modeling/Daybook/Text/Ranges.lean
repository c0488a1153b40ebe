/-!
# Ranges of characters

Properties of characters are tables of ranges of code points, and `Ranges.contain` looks a character up.
A range of the table shows that a character is in it (`Ranges.contain_of_mem`), and a look at all ranges
that it is not (`Ranges.not_contain_of_all`).
-/

namespace Daybook.Text

/-- Code points as ranges with both ends included. -/
abbrev Ranges := List (Nat × Nat)

/-- Whether a character is in one of the ranges. -/
def Ranges.contain (ranges : Ranges) (c : Char) : Bool :=
  ranges.any fun (low, high) => decide (low ≤ c.toNat) && decide (c.toNat ≤ high)

theorem Ranges.contain_of_mem {ranges : Ranges} {low high : Nat} {c : Char} (mem : (low, high) ∈ ranges)
    (low_le : low ≤ c.toNat) (le_high : c.toNat ≤ high) : ranges.contain c = true := by
  rw [contain, List.any_eq_true]
  exact ⟨(low, high), mem, by simp only [low_le, le_high, decide_true, Bool.and_self]⟩

/-- A character is in none of the ranges if every range ends before `first` or begins after `last`, and
the character does not. -/
theorem Ranges.not_contain_of_all {ranges : Ranges} {c : Char} (first last : Nat)
    (apart : ranges.all (fun (low, high) => decide (high < first) || decide (last < low)) = true)
    (first_le : first ≤ c.toNat) (le_last : c.toNat ≤ last) : ranges.contain c = false := by
  rw [contain, List.any_eq_false]
  intro range mem
  have := List.all_eq_true.mp apart range mem
  simp only [Bool.or_eq_true, decide_eq_true_eq] at this
  simp only [Bool.and_eq_true, decide_eq_true_eq]
  omega

end Daybook.Text
