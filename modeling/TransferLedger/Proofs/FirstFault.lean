import Mathlib.Tactic

/-!
# The first fault decides

What is looked at piece by piece, and refused for the first piece that is at fault.

* `IsFirstFault`: what is wrong with the first piece with which anything is wrong;
* `isFirstFault_filter_iff`: the pieces that are not at fault may be left out;
* `Examines`: some pieces have been looked at in their order, with the right result;
* `Examines.bind`: one more piece is looked at before the others.
-/

namespace TransferLedger

variable {ι ε α β : Type} {Bad : ι → ε → Prop} {i : ι} {l : List ι} {why other : ε}

/-- What is wrong with the first piece of a list with which anything is wrong. -/
def IsFirstFault (Bad : ι → ε → Prop) (l : List ι) (why : ε) : Prop :=
  ∃ front a behind, l = front ++ a :: behind ∧ (∀ b ∈ front, ∀ why, ¬Bad b why) ∧ Bad a why

theorem not_isFirstFault_nil : ¬IsFirstFault Bad [] why := by
  rintro ⟨front, a, behind, h, -, -⟩
  simp at h

/-- Either the first piece is at fault, or nothing is wrong with it and another one is first. -/
theorem isFirstFault_cons_iff : IsFirstFault Bad (i :: l) why ↔
    Bad i why ∨ (∀ why, ¬Bad i why) ∧ IsFirstFault Bad l why := by
  constructor
  · rintro ⟨front, a, behind, h, hfront, ha⟩
    cases front with
    | nil =>
      obtain ⟨rfl, -⟩ := List.cons.inj h
      exact .inl ha
    | cons b front =>
      obtain ⟨rfl, rfl⟩ := List.cons.inj h
      obtain ⟨hb, hfront⟩ := List.forall_mem_cons.1 hfront
      exact .inr ⟨hb, front, a, behind, rfl, hfront, ha⟩
  · rintro (hi | ⟨hi, front, a, behind, rfl, hfront, ha⟩)
    · exact ⟨[], i, l, rfl, by simp, hi⟩
    · exact ⟨i :: front, a, behind, rfl, List.forall_mem_cons.2 ⟨hi, hfront⟩, ha⟩

theorem isFirstFault_singleton_iff : IsFirstFault Bad [i] why ↔ Bad i why := by
  simp [isFirstFault_cons_iff, not_isFirstFault_nil]

/-- Among pieces of which some are at fault there is a first one. -/
theorem exists_isFirstFault_iff :
    (∃ why, IsFirstFault Bad l why) ↔ ∃ i ∈ l, ∃ why, Bad i why := by
  induction l with
  | nil => simp [not_isFirstFault_nil]
  | cons i l ih =>
    simp only [isFirstFault_cons_iff, List.exists_mem_cons_iff, ← ih]
    by_cases hi : ∃ why, Bad i why
    · obtain ⟨why, hw⟩ := hi
      exact ⟨fun _ => .inl ⟨why, hw⟩, fun _ => ⟨why, .inl hw⟩⟩
    · simp [not_exists.1 hi]

/-- There is one fault to report when one thing is wrong with each piece. -/
theorem IsFirstFault.unique (hBad : ∀ i why other, Bad i why → Bad i other → why = other)
    (h : IsFirstFault Bad l why) (ho : IsFirstFault Bad l other) : why = other := by
  induction l with
  | nil => exact absurd h not_isFirstFault_nil
  | cons i l ih =>
    rcases isFirstFault_cons_iff.1 h with h | ⟨hnone, h⟩
    · rcases isFirstFault_cons_iff.1 ho with ho | ⟨hnone, -⟩
      · exact hBad i why other h ho
      · exact absurd h (hnone why)
    · rcases isFirstFault_cons_iff.1 ho with ho | ⟨-, ho⟩
      · exact absurd ho (hnone other)
      · exact ih h ho

/-- What is left out that is not at fault makes no difference. -/
theorem isFirstFault_filter_iff {p : ι → Bool} (hp : ∀ i ∈ l, ∀ why, Bad i why → p i = true) :
    IsFirstFault Bad (l.filter p) why ↔ IsFirstFault Bad l why := by
  induction l with
  | nil => exact Iff.rfl
  | cons i l ih =>
    obtain ⟨hi, hp⟩ := List.forall_mem_cons.1 hp
    rw [isFirstFault_cons_iff, ← ih hp]
    by_cases hpi : p i = true
    · rw [List.filter_cons_of_pos hpi, isFirstFault_cons_iff]
    · have hnone : ∀ why, ¬Bad i why := fun why hwhy => hpi (hi why hwhy)
      rw [List.filter_cons_of_neg hpi]
      exact ⟨fun h => .inr ⟨hnone, h⟩, fun h => (h.resolve_left (hnone why)).2⟩

/-- Pieces have been looked at in their order: either none of them is at fault and the result is
good, or the result is the first fault. -/
def Examines (Bad : ι → ε → Prop) (l : List ι) (Good : α → Prop) : Except ε α → Prop
  | .ok a => Good a ∧ ∀ i ∈ l, ∀ why, ¬Bad i why
  | .error why => IsFirstFault Bad l why

variable {Good : α → Prop} {Fine : β → Prop} {x : Except ε β} {k : β → Except ε α}

theorem Examines.ofFault (h : Bad i why) : Examines Bad [i] Good (.error why : Except ε α) :=
  isFirstFault_singleton_iff.2 h

theorem Examines.ofGood {a : α} (ha : Good a) (h : ∀ why, ¬Bad i why) :
    Examines Bad [i] Good (.ok a) :=
  ⟨ha, by simpa using h⟩

/-- One piece is looked at before the others. -/
theorem Examines.bind (hx : Examines Bad [i] Fine x)
    (hk : ∀ b, Fine b → Examines Bad l Good (k b)) : Examines Bad (i :: l) Good (x >>= k) := by
  cases x with
  | error why => exact isFirstFault_cons_iff.2 (.inl (isFirstFault_singleton_iff.1 hx))
  | ok b =>
    obtain ⟨hb, hi⟩ := hx
    replace hi := hi i List.mem_cons_self
    have hrest := hk b hb
    show Examines Bad (i :: l) Good (k b)
    cases hkb : k b with
    | error why =>
      rw [hkb] at hrest
      exact isFirstFault_cons_iff.2 (.inr ⟨hi, hrest⟩)
    | ok a =>
      rw [hkb] at hrest
      exact ⟨hrest.1, List.forall_mem_cons.2 ⟨hi, hrest.2⟩⟩

/-- The result is an error exactly when there is a fault, and then it is the first one. -/
theorem Examines.eq_error_iff (hBad : ∀ i why other, Bad i why → Bad i other → why = other)
    {x : Except ε α} (hx : Examines Bad l Good x) : x = .error why ↔ IsFirstFault Bad l why := by
  cases x with
  | error other =>
    refine ⟨?_, fun h => by rw [IsFirstFault.unique hBad hx h]⟩
    rintro ⟨⟩
    exact hx
  | ok a =>
    refine ⟨nofun, fun h => ?_⟩
    obtain ⟨i, hi, why, hwhy⟩ := exists_isFirstFault_iff.1 ⟨why, h⟩
    exact absurd hwhy (hx.2 i hi why)

end TransferLedger
