import TransferLedger.Text.Span
/-!
# Blank characters

The characters with the property `White_Space`, and the removal of them from both ends of a text.

* `isBlank`: the 25 characters of the property;
* `trimBy`, `trim`: a text without its outer blanks, of any kind or of this one.
-/

namespace TransferLedger.Text

/-- Whether a character has the property `White_Space`. -/
def isBlank (c : Char) : Bool :=
  let n := c.toNat
  (0x09 ≤ n && n ≤ 0x0d) || n == 0x20 || n == 0x85 || n == 0xa0 || n == 0x1680 ||
    (0x2000 ≤ n && n ≤ 0x200a) || n == 0x2028 || n == 0x2029 || n == 0x202f || n == 0x205f ||
    n == 0x3000

/-- A text without the characters of some kind that open it and those that close it. -/
def trimBy (p : Char → Bool) (s : List Char) : List Char :=
  ((s.dropWhile p).reverse.dropWhile p).reverse

/-- A text without the blanks that open it and those that close it. -/
def trim (s : List Char) : List Char := trimBy isBlank s

@[simp] theorem trim_nil : trim [] = [] := rfl

/-- A text whose ends are marks is left as it is. -/
theorem trim_eq_self {s : List Char} (first : ∀ c ∈ s.head?, isBlank c = false)
    (last : ∀ c ∈ s.getLast?, isBlank c = false) : trim s = s := by
  rw [trim, trimBy, dropWhile_of_head first, dropWhile_of_head (by simpa using last),
    List.reverse_reverse]

end TransferLedger.Text
