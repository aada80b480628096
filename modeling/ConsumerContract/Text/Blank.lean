import ConsumerContract.Text.CodePoints

/-!
# White space

The characters that Unicode counts as white space, and the removal of such characters from the two
ends of a text. `isBlank_of_isWhitespace` says that the class holds every ASCII blank.
-/

namespace ConsumerContract.Text

/-- The code points with the property `White_Space`. -/
def whiteSpace : CodePoints where
  ranges := [
    (0x9, 0xd), (0x20, 0x20), (0x85, 0x85), (0xa0, 0xa0), (0x1680, 0x1680), (0x2000, 0x200a),
    (0x2028, 0x2029), (0x202f, 0x202f), (0x205f, 0x205f), (0x3000, 0x3000)]

/-- White space, as Unicode defines it. -/
def isBlank (c : Char) : Bool :=
  whiteSpace.has c

/-- The white space of ASCII is among that of Unicode. -/
theorem isBlank_of_isWhitespace {c : Char} (h : c.isWhitespace = true) : isBlank c = true := by
  simp only [Char.isWhitespace, Bool.or_eq_true, decide_eq_true_eq] at h
  rcases h with ((rfl | rfl) | rfl) | rfl <;> decide

/-- `cs` without its leading white space. -/
def trimStart (cs : List Char) : List Char :=
  cs.dropWhile isBlank

/-- `cs` without its trailing white space. -/
def trimEnd (cs : List Char) : List Char :=
  (cs.reverse.dropWhile isBlank).reverse

/-- `cs` without the white space at its ends. -/
def trim (cs : List Char) : List Char :=
  trimEnd (trimStart cs)

/-- Holds no character but white space. -/
def isBlankText (cs : List Char) : Bool :=
  cs.all isBlank

end ConsumerContract.Text
