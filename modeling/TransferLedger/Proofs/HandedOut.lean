import Mathlib.Tactic
import TransferLedger.Source

/-!
# What a source hands out

A source is asked again and again, until it has no more, fails, or does not answer.

* `Source.behind`, `Source.answer`: the source behind a number of requests, and its answer to the
  next one;
* `Source.handedOut`: the batches that some requests hand out in turn;
* `Source.handedOut_prefix`: more requests hand out more behind them.
-/

namespace TransferLedger.Source

variable {σ : Type} [Source σ] (size : ℕ)

/-- The source behind a number of requests. -/
def behind : ℕ → σ → σ
  | 0, s => s
  | n + 1, s => behind n (pull size s).source

/-- The answer to the request behind a number of others. -/
def answer (n : ℕ) (s : σ) : Supply := (pull size (behind size n s)).supply

/-- The batches that up to a number of requests hand out in turn. Where an answer brings no
transfers, they are at an end. -/
def handedOut : ℕ → σ → List (List Transfer)
  | 0, _ => []
  | n + 1, s =>
    match (pull size s).supply with
    | .batch (t :: ts) => (t :: ts) :: handedOut n (pull size s).source
    | _ => []

variable {size} {s : σ} {n : ℕ}

theorem behind_add (m n : ℕ) (s : σ) : behind size (m + n) s = behind size n (behind size m s) := by
  induction m generalizing s with
  | zero => rw [Nat.zero_add, behind]
  | succ m ih => rw [Nat.add_right_comm, behind, ih, behind]

/-- Only an answer that brings transfers counts. -/
theorem handedOut_succ_of_batch {batch : List Transfer} (h : (pull size s).supply = .batch batch)
    (hne : batch ≠ []) :
    handedOut size (n + 1) s = batch :: handedOut size n (pull size s).source := by
  obtain ⟨t, ts, rfl⟩ := List.exists_cons_of_ne_nil hne
  rw [handedOut, h]

/-- What is handed out first is the first answer. -/
theorem handedOut_succ_eq_cons {batch : List Transfer} {batches : List (List Transfer)}
    (h : handedOut size (n + 1) s = batch :: batches) :
    (pull size s).supply = .batch batch ∧ batch ≠ [] ∧
      handedOut size n (pull size s).source = batches := by
  rw [handedOut] at h
  split at h
  · rename_i t ts hsupply
    obtain ⟨rfl, rfl⟩ := List.cons.inj h
    exact ⟨hsupply, List.cons_ne_nil t ts, rfl⟩
  · cases h

/-- More requests hand out more, behind what fewer hand out. -/
theorem handedOut_prefix {m : ℕ} (h : m ≤ n) (s : σ) :
    handedOut size m s <+: handedOut size n s := by
  induction m generalizing n s with
  | zero => exact List.nil_prefix
  | succ m ih =>
    obtain _ | n := n
    · omega
    · rw [handedOut, handedOut]
      split
      · exact (List.prefix_cons_inj _).2 (ih (Nat.le_of_succ_le_succ h) _)
      · exact List.nil_prefix

/-- Behind requests that have all brought a batch, one more brings one more. -/
theorem handedOut_concat {batches : List (List Transfer)}
    (hs : handedOut size batches.length s = batches) {batch : List Transfer}
    (hanswer : answer size batches.length s = .batch batch) (hne : batch ≠ []) :
    handedOut size (batches ++ [batch]).length s = batches ++ [batch] := by
  induction batches generalizing s with
  | nil => exact handedOut_succ_of_batch hanswer hne
  | cons b batches ih =>
    obtain ⟨hsupply, hb, hrest⟩ := handedOut_succ_eq_cons hs
    rw [List.cons_append, List.length_cons, handedOut_succ_of_batch hsupply hb, ih hrest hanswer]

end TransferLedger.Source
