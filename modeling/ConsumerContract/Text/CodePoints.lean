/-!
# Sets of code points

A property of characters is held as the closed ranges of the code points that have it, in ascending
order. `CodePoints.has` answers membership; `has_iff` says what the answer means.
-/

namespace ConsumerContract.Text

/-- A set of code points, as closed ranges. -/
structure CodePoints where
  ranges : List (Nat × Nat)

/-- Some range holds the code point of `c`. -/
def CodePoints.has (set : CodePoints) (c : Char) : Bool :=
  set.ranges.any fun r => decide (r.1 ≤ c.toNat) && decide (c.toNat ≤ r.2)

/-- A set has the characters whose code points lie in one of its ranges. -/
theorem CodePoints.has_iff {set : CodePoints} {c : Char} :
    set.has c = true ↔ ∃ r ∈ set.ranges, r.1 ≤ c.toNat ∧ c.toNat ≤ r.2 := by
  simp [CodePoints.has]

/-- A number that is a code point is that of its character. -/
theorem toNat_ofNat {n : Nat} (valid : n.isValidChar) : (Char.ofNat n).toNat = n := by
  rw [Char.ofNat, dif_pos valid]
  rfl

end ConsumerContract.Text
