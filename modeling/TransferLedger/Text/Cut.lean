/-!
# Lists cut at an element

* `cut`: the parts of a list between the occurrences of an element.
-/

namespace TransferLedger.Text

variable {α : Type} [DecidableEq α]

/-- The parts of a list between the occurrences of an element, the beginning of the first part
given in reverse. -/
def cutFrom (sep : α) (start : List α) : List α → List (List α)
  | [] => [start.reverse]
  | c :: r => if c = sep then start.reverse :: cutFrom sep [] r else cutFrom sep (c :: start) r

/-- The parts of a list between the occurrences of an element; there is always one. -/
def cut (sep : α) (s : List α) : List (List α) := cutFrom sep [] s

end TransferLedger.Text
