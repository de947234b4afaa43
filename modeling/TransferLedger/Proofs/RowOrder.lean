import Mathlib.Tactic
import TransferLedger.Proofs.StableOrder
import TransferLedger.Store.Table

/-!
# The order of a listing of rows

Rows with any content are listed by block number and then by log index, the larger ones first, and
rows with the same two in the order in which they were added. A text in a column of integers counts
as larger than every integer.

* `Cell.Below`: the order of cells;
* `Cells.ListedBefore`: a row is listed before another because of its block number or log index;
* `Table.IsInOrder`: all rows of a table in the order of a listing;
* `Table.isRanking_newerOrSame`: rows of any content can be sorted;
* `Table.isInOrder_iff`: the listing is the only list in this order.
-/

namespace TransferLedger

/-! ### Cells -/

namespace Cell

/-- One cell is smaller than another: nothing is below every integer, and an integer below every
text. Texts are ordered character by character. -/
inductive Below : Cell → Cell → Prop
  | null_integer (v : ℤ) : Below .null (.integer v)
  | null_text (s : List Char) : Below .null (.text s)
  | integers {v w : ℤ} (less : v < w) : Below (.integer v) (.integer w)
  | integer_text (v : ℤ) (s : List Char) : Below (.integer v) (.text s)
  | texts {s t : List Char} (less : s < t) : Below (.text s) (.text t)

theorem lt_iff_toNat_lt {c d : Char} : c < d ↔ c.toNat < d.toNat := by
  rw [Char.lt_def, UInt32.lt_iff_toNat_lt]
  rfl

theorem compare_toNat (c d : Char) : compare c.toNat d.toNat = compare c d := by
  rw [Nat.compare_eq_ite_lt]
  simp only [compare, compareOfLessAndEq, lt_iff_toNat_lt, ← Char.toNat_inj]
  grind

/-- Texts are compared in the order of lists of characters. -/
theorem compareTexts_eq (s t : List Char) : compareTexts s t = compare s t := by
  rw [List.compare_eq_compareLex]
  induction s generalizing t with
  | nil => cases t <;> rfl
  | cons c s ih =>
    cases t with
    | nil => rfl
    | cons d t => rw [compareTexts, List.compareLex_cons_cons, ih, compare_toNat]

theorem compareTexts_eq_lt_iff {s t : List Char} : compareTexts s t = .lt ↔ s < t := by
  induction s generalizing t with
  | nil => cases t <;> simp [compareTexts]
  | cons c s ih =>
    cases t with
    | nil => simp [compareTexts]
    | cons d t =>
      rw [compareTexts, Ordering.then_eq_lt, List.cons_lt_cons_iff, ih, compare_lt_iff_lt,
        compare_eq_iff_eq, Char.toNat_inj, lt_iff_toNat_lt]

theorem compare_eq_lt_iff {a b : Cell} : Cell.compare a b = .lt ↔ Below a b := by
  constructor
  · intro h
    cases a <;> cases b <;> simp only [Cell.compare, reduceCtorEq] at h
    case null.integer w => exact .null_integer w
    case null.text t => exact .null_text t
    case integer.integer v w => exact .integers (compare_lt_iff_lt.1 h)
    case integer.text v t => exact .integer_text v t
    case text.text s t => exact .texts (compareTexts_eq_lt_iff.1 h)
  · intro h
    cases h with
    | integers less => exact compare_lt_iff_lt.2 less
    | texts less => exact compareTexts_eq_lt_iff.2 less
    | _ => rfl

instance : Std.LawfulEqCmp Cell.compare where
  compare_self {a} := by
    cases a with
    | null => rfl
    | integer v => exact compare_eq_iff_eq.2 rfl
    | text s =>
      rw [Cell.compare, compareTexts_eq]
      exact Std.compare_eq_iff_eq.2 rfl
  eq_of_compare {a b} h := by
    cases a <;> cases b <;> simp only [Cell.compare, reduceCtorEq] at h
    case null.null => rfl
    case integer.integer v w => rw [compare_eq_iff_eq.1 h]
    case text.text s t =>
      rw [compareTexts_eq] at h
      rw [Std.compare_eq_iff_eq.1 h]

instance : Std.TransCmp Cell.compare where
  eq_swap {a b} := by
    cases a <;> cases b <;> simp only [Cell.compare, compareTexts_eq, Ordering.swap]
    case integer.integer v w => exact Std.OrientedCmp.eq_swap
    case text.text s t => exact Std.OrientedCmp.eq_swap
  isLE_trans {a b c} hab hbc := by
    cases a <;> cases b <;> cases c <;>
      simp only [Cell.compare, compareTexts_eq, Ordering.isLE] at hab hbc ⊢ <;> try contradiction
    case integer.integer.integer => exact Std.TransCmp.isLE_trans hab hbc
    case text.text.text => exact Std.TransCmp.isLE_trans hab hbc

end Cell

/-! ### Rows -/

/-- A row is listed before another: it has the larger block number or, with the same one, the
larger log index. -/
def Cells.ListedBefore (a b : Cells) : Prop :=
  Cell.Below b.blockNumber a.blockNumber ∨
    b.blockNumber = a.blockNumber ∧ Cell.Below b.logIndex a.logIndex

namespace Table

variable {table : Table} {listed : List Cells} {a b : Cells}

/-- All rows of a table as they are listed: none stands before one that is listed before it, and
those of one block number and log index stand as they were added. -/
structure IsInOrder (table : Table) (listed : List Cells) : Prop where
  perm : listed.Perm table.rows
  order : listed.Pairwise fun a b => ¬b.ListedBefore a
  ties : ∀ block index : Cell,
    listed.filter (fun r => r.blockNumber = block ∧ r.logIndex = index) =
      table.rows.filter fun r => r.blockNumber = block ∧ r.logIndex = index

theorem newerOrSame_eq_false_iff : newerOrSame a b = false ↔ b.ListedBefore a := by
  rw [newerOrSame, ← Bool.not_eq_true, Ordering.isLE_iff_ne_gt, not_not, Ordering.then_eq_gt,
    Std.OrientedCmp.gt_iff_lt, Std.OrientedCmp.gt_iff_lt, Cell.compare_eq_lt_iff,
    Cell.compare_eq_lt_iff, Std.LawfulEqCmp.compare_eq_iff_eq, Cells.ListedBefore,
    eq_comm (a := b.blockNumber)]

theorem newerOrSame_iff : newerOrSame a b = true ↔ ¬b.ListedBefore a := by
  rw [← newerOrSame_eq_false_iff, Bool.not_eq_false]

/-- Rows of any content can be sorted. -/
theorem isRanking_newerOrSame : IsRanking newerOrSame where
  trans a b c hab hbc := by
    rw [newerOrSame, Ordering.isLE_then_iff_or] at hab hbc ⊢
    rcases hab with hab | ⟨hab, hab'⟩
    · rcases hbc with hbc | ⟨hbc, -⟩
      · exact .inl (Std.TransCmp.lt_trans hbc hab)
      · exact .inl (Std.TransCmp.lt_of_eq_of_lt hbc hab)
    · rcases hbc with hbc | ⟨hbc, hbc'⟩
      · exact .inl (Std.TransCmp.lt_of_lt_of_eq hbc hab)
      · exact .inr ⟨Std.TransCmp.eq_trans hbc hab, Std.TransCmp.isLE_trans hbc' hab'⟩
  total a b := by
    by_cases h : newerOrSame a b = true
    · rw [h, Bool.true_or]
    · -- What is not in order one way round is in order the other way round.
      rw [newerOrSame_iff, not_not, Cells.ListedBefore, ← Cell.compare_eq_lt_iff,
        ← Cell.compare_eq_lt_iff] at h
      rw [Bool.or_eq_true, newerOrSame, newerOrSame, Ordering.isLE_then_iff_or,
        Ordering.isLE_then_iff_or]
      rcases h with h | ⟨h, h'⟩
      · exact .inr (.inl h)
      · refine .inr (.inr ⟨?_, by rw [h']; rfl⟩)
        rw [h]
        exact Std.LawfulEqCmp.compare_eq_iff_eq.2 rfl

/-- Rows are tied when they have the same block number and log index. -/
theorem tied_iff : tied newerOrSame a b = true ↔
    b.blockNumber = a.blockNumber ∧ b.logIndex = a.logIndex := by
  have heq : ∀ o : Ordering, o.isLE = true ∧ o.swap.isLE = true ↔ o = .eq := by decide
  have hswap : ∀ c d : Cell, Cell.compare c d = (Cell.compare d c).swap :=
    fun _ _ => Std.OrientedCmp.eq_swap
  rw [tied, Bool.and_eq_true, newerOrSame, newerOrSame,
    hswap a.blockNumber, hswap a.logIndex, ← Ordering.swap_then, heq, Ordering.then_eq_eq,
    Std.LawfulEqCmp.compare_eq_iff_eq, Std.LawfulEqCmp.compare_eq_iff_eq]

/-- The listing is the only list in this order. -/
theorem isInOrder_iff : table.IsInOrder listed ↔ listed = table.listing := by
  have hsorting := isSorting_mergeSort isRanking_newerOrSame table.rows
  have horder : (fun a b : Cells => newerOrSame a b = true) = fun a b => ¬b.ListedBefore a := by
    funext a b
    rw [newerOrSame_iff]
  have hties : ∀ r : Cells, tied newerOrSame r =
      fun q => decide (q.blockNumber = r.blockNumber ∧ q.logIndex = r.logIndex) := by
    intro r
    funext q
    rw [Bool.eq_iff_iff, tied_iff, decide_eq_true_iff]
  constructor
  · intro h
    refine IsSorting.unique isRanking_newerOrSame ⟨h.perm, horder ▸ h.order, fun r => ?_⟩ hsorting
    rw [hties]
    exact h.ties r.blockNumber r.logIndex
  · rintro rfl
    refine ⟨hsorting.perm, horder ▸ hsorting.order, fun block index => ?_⟩
    have := hsorting.ties ⟨.null, index, block, .null, .null, .null, .null⟩
    rwa [hties] at this

end Table

end TransferLedger
