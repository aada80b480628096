/-!
# Why a text cannot be read

A text is read from left to right, and the first thing that is wrong with it decides the answer.
-/

namespace ConsumerContract.Json

/-- What is wrong at the first place where reading stops: the text breaks the grammar, it is
well-formed but of another shape than the wanted type, or it ends too early. -/
inductive Failure where
  | malformed
  | mismatched
  | truncated
  deriving DecidableEq, Repr

/-- The failure's word in reports. -/
def Failure.category : Failure → String
  | .malformed => "syntax"
  | .mismatched => "data"
  | .truncated => "eof"

variable {ε α β : Type}

theorem map_eq_ok_iff {f : α → β} {x : Except ε α} {b : β} :
    x.map f = .ok b ↔ ∃ a, x = .ok a ∧ f a = b := by
  cases x <;> simp [Except.map]

/-- A sequence of readers reads a value exactly if the first one reads something from which the second
reads it. -/
theorem bind_eq_ok_iff {f : α → Except ε β} {x : Except ε α} {b : β} :
    (x >>= f) = .ok b ↔ ∃ a, x = .ok a ∧ f a = .ok b := by
  cases x <;> simp [bind, Except.bind]

end ConsumerContract.Json
