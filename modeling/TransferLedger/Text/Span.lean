/-!
# Texts that open with a failing character

Where a character stands that fails a test, the front that passes the test has come to its end.
-/

namespace TransferLedger.Text

variable {α : Type} {p : α → Bool} {r : List α}

/-- Nothing in front passes. -/
theorem takeWhile_of_head (h : ∀ c ∈ r.head?, p c = false) : r.takeWhile p = [] := by
  cases r with
  | nil => rfl
  | cons c r => simp [h c rfl]

/-- So everything is left. -/
theorem dropWhile_of_head (h : ∀ c ∈ r.head?, p c = false) : r.dropWhile p = r := by
  cases r with
  | nil => rfl
  | cons c r => simp [h c rfl]

end TransferLedger.Text
