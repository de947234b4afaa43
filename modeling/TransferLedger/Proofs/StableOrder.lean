import Mathlib.Tactic

/-!
# Stable sorting

A comparison may leave elements tied, and sorting keeps those in the order in which they came. That
determines the sorted list.

* `IsRanking`, `tied`: a comparison to sort by, and the elements that it does not tell apart;
* `IsSorting`: a list in order, with tied elements as they came;
* `isSorting_mergeSort`, `IsSorting.unique`: sorting by merging makes this list, and it is the only
  one;
* `filter_mergeSort`: what is left out makes no difference to the rest;
* `take_mergeSort_filter`: nor what is left out behind the first ones to them.
-/

namespace TransferLedger

variable {α : Type} {le : α → α → Bool} {a b : α} {l sorted other : List α}

/-- Of any two elements one may stand before the other, and so it goes on along a chain. -/
structure IsRanking (le : α → α → Bool) : Prop where
  trans : ∀ a b c, le a b = true → le b c = true → le a c = true
  total : ∀ a b, (le a b || le b a) = true

theorem IsRanking.refl (h : IsRanking le) (a : α) : le a a = true := by
  simpa using h.total a a

/-- Either of two elements may stand before the other. -/
def tied (le : α → α → Bool) (a b : α) : Bool := le a b && le b a

theorem IsRanking.tied_self (h : IsRanking le) (a : α) : tied le a a = true := by
  simp [tied, h.refl]

/-- What is tied to the same element is tied. -/
theorem IsRanking.le_of_tied (h : IsRanking le) {c : α} (ha : tied le c a = true)
    (hb : tied le c b = true) : le a b = true := by
  simp only [tied, Bool.and_eq_true] at ha hb
  exact h.trans a c b ha.2 hb.1

/-- The elements of a list in order, tied ones as they came. -/
structure IsSorting (le : α → α → Bool) (l sorted : List α) : Prop where
  perm : sorted.Perm l
  order : sorted.Pairwise fun a b => le a b = true
  ties : ∀ a, sorted.filter (tied le a) = l.filter (tied le a)

theorem isSorting_mergeSort (h : IsRanking le) (l : List α) : IsSorting le l (l.mergeSort le) where
  perm := List.mergeSort_perm l le
  order := List.pairwise_mergeSort h.trans h.total l
  ties a := by
    -- The tied elements are in order as they came, so they stay so; and there are no others.
    have hties : (l.filter (tied le a)).Pairwise fun b c => le b c = true := by
      refine List.pairwise_iff_forall_sublist.2 fun {b c} hbc => ?_
      have hb : b ∈ l.filter (tied le a) := hbc.subset (by simp)
      have hc : c ∈ l.filter (tied le a) := hbc.subset (by simp)
      exact h.le_of_tied (List.mem_filter.1 hb).2 (List.mem_filter.1 hc).2
    have hsub :=
      (List.sublist_mergeSort h.trans h.total hties List.filter_sublist).filter (tied le a)
    rw [List.filter_filter] at hsub
    simp only [Bool.and_self] at hsub
    exact (hsub.eq_of_length ((List.mergeSort_perm l le).filter _).length_eq.symm).symm

/-- The first elements of two sorted lists are tied. -/
theorem IsSorting.tied_head (h : IsRanking le) (ha : IsSorting le l (a :: sorted))
    (hb : IsSorting le l (b :: other)) : tied le a b = true := by
  have hle : ∀ {c d : α} {s t : List α}, IsSorting le l (c :: s) → IsSorting le l (d :: t) →
      le c d = true := by
    intro c d s t hc hd
    have hmem : d ∈ c :: s := hc.perm.mem_iff.2 (hd.perm.mem_iff.1 List.mem_cons_self)
    rcases List.mem_cons.1 hmem with rfl | hmem
    · exact h.refl d
    · exact (List.pairwise_cons.1 hc.order).1 d hmem
  simp [tied, hle ha hb, hle hb ha]

/-- There is only one sorted list. -/
theorem IsSorting.unique (h : IsRanking le) (hs : IsSorting le l sorted)
    (ho : IsSorting le l other) : sorted = other := by
  induction sorted generalizing l other with
  | nil => exact (hs.perm.trans ho.perm.symm).nil_eq
  | cons a sorted ih =>
    cases other with
    | nil => exact absurd (hs.perm.trans ho.perm.symm).symm.nil_eq (by simp)
    | cons b other =>
      have htied := hs.tied_head h ho
      -- Tied elements come in one order, so the first one is the same.
      have hfilter := (hs.ties a).trans (ho.ties a).symm
      rw [List.filter_cons_of_pos (h.tied_self a), List.filter_cons_of_pos htied] at hfilter
      obtain ⟨rfl, -⟩ := List.cons.inj hfilter
      have hrest : IsSorting le other sorted := by
        refine ⟨(List.perm_cons a).1 (hs.perm.trans ho.perm.symm),
          (List.pairwise_cons.1 hs.order).2, fun c => ?_⟩
        have hc := (hs.ties c).trans (ho.ties c).symm
        by_cases hca : tied le c a = true
        · rw [List.filter_cons_of_pos hca, List.filter_cons_of_pos hca] at hc
          exact (List.cons.inj hc).2
        · rwa [List.filter_cons_of_neg hca, List.filter_cons_of_neg hca] at hc
      rw [ih hrest ⟨.refl _, (List.pairwise_cons.1 ho.order).2, fun _ => rfl⟩]

/-- What is left out makes no difference to the order of the rest. -/
theorem filter_mergeSort (h : IsRanking le) (p : α → Bool) (l : List α) :
    (l.mergeSort le).filter p = (l.filter p).mergeSort le := by
  have hl := isSorting_mergeSort h l
  refine IsSorting.unique h ?_ (isSorting_mergeSort h (l.filter p))
  refine ⟨hl.perm.filter p, hl.order.filter p, fun a => ?_⟩
  rw [List.filter_comm, hl.ties a, List.filter_comm]

/-- What is left out behind the first elements makes no difference to them. -/
theorem take_mergeSort_filter (h : IsRanking le) {p : α → Bool} {k : ℕ}
    (hp : ∀ a ∈ (l.mergeSort le).take k, p a = true) :
    ((l.filter p).mergeSort le).take k = (l.mergeSort le).take k := by
  rw [← filter_mergeSort h]
  generalize l.mergeSort le = sorted at hp
  induction sorted generalizing k with
  | nil => rfl
  | cons a sorted ih =>
    cases k with
    | zero => rfl
    | succ k =>
      rw [List.take_succ_cons] at hp ⊢
      obtain ⟨ha, hp⟩ := List.forall_mem_cons.1 hp
      rw [List.filter_cons_of_pos ha, List.take_succ_cons, ih hp]

end TransferLedger
